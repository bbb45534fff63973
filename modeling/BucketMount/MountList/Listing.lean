import BucketMount.Json.Printer
import BucketMount.MountList.Wire

/-!
# The listing of a mount list

A list as it is shown: an array of directives, each with its bucket, its path and its flags.
-/

namespace BucketMount

/-- A bucket as it is listed: its scope, with the name of a bucket that has one. -/
def Bucket.toJson : Bucket → Json
  | .implicit => .record [("scope".toList, .text "implicit".toList)]
  | .all => .record [("scope".toList, .text "all".toList)]
  | .named name => .record [("scope".toList, .text "named".toList), ("name".toList, .text name)]

def Directive.toJson (d : Directive) : Json :=
  .record [("bucket".toList, d.bucket.toJson), ("mount_path".toList, .text d.path),
    ("flags".toList, d.flags.elim .null .text)]

def MountList.toJson (l : MountList) : Json := .array (l.map Directive.toJson)

end BucketMount
