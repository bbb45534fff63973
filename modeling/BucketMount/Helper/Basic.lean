import BucketMount.Helper.Mount
import BucketMount.Helper.Unmount

/-!
# The back end of a site

Mounts with the configured helper and detaches with the configured commands.
-/

namespace BucketMount

def Kernel.helperBackend {ω : Type} (k : Kernel ω) (c : Config) : Backend ω where
  name := c.helperBinary
  mount := k.mount c
  unmount path := k.unmount c path

end BucketMount
