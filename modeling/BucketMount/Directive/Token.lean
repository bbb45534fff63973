import BucketMount.Directive.Basic

/-!
# The written form of a directive

A token is `[BUCKET:]PATH[:FLAGS]`. A slash before the first colon means that the token starts with a path;
otherwise what stands before the first colon is the bucket field, empty for all buckets.
-/

namespace BucketMount.Directive

def token (d : Directive) : Text :=
  let bucket := match d.bucket with
    | .implicit => []
    | .all => [':']
    | .named name => name ++ [':']
  let flags := match d.flags with
    | none => []
    | some flags => ':' :: flags
  bucket ++ d.path ++ flags

def parse (t : Text) : Except MountError Directive :=
  match Text.splitOnce ':' t with
  | none => if t = [] then .error (.parse t .emptySpecification) else make .implicit t none
  | some (head, rest) =>
    if '/' ∈ head then make .implicit head (some rest)
    else
      let bucket := if head = [] then Bucket.all else .named head
      let (path, flags) := match Text.splitOnce ':' rest with
        | some (path, flags) => (path, some flags)
        | none => (rest, none)
      if path = [] then .error (.parse t .noPathAfterBucket) else make bucket path flags

end BucketMount.Directive
