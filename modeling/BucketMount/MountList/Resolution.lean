import BucketMount.MountList.Wire

/-!
# Relative mount paths

A relative path is resolved when the directive is declared, against the directory of the submitting command. The base
has to be text and absolute; a leading `./` of the path and the slashes at the end of the base are left out. A
directive with an absolute path stays as it is, so resolving again changes nothing.
-/

namespace BucketMount

def Text.withoutDotSlash : Text → Text
  | '.' :: '/' :: t => t
  | t => t

def Text.under (base path : Text) : Text := trimEnd '/' base ++ '/' :: withoutDotSlash path

/-- A base directory as text: it must be UTF-8 and absolute. -/
def baseDirectory (base : Bytes) : Except MountError Text :=
  match Text.ofUtf8? base with
  | none => .error (.config (.baseNotText base))
  | some t => if t.head? = some '/' then .ok t else .error (.config (.baseNotAbsolute t))

def Directive.resolve (base : Bytes) (d : Directive) : Except MountError Directive :=
  if d.isAbsolute then .ok d
  else do
    let base ← baseDirectory base
    d.withPath (Text.under base d.path)

/-- The list with absolute paths, in the same order; the first entry that cannot be resolved fails. -/
def MountList.resolveAll (base : Bytes) (l : MountList) : Except MountError MountList :=
  l.mapM (Directive.resolve base)

end BucketMount
