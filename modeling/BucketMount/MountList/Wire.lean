import BucketMount.Directive.Token

/-!
# The written form of a mount list

A list travels as one text: its tokens with a semicolon between two of them. Empty tokens are skipped when the text
is read. A reader with a buffer of `capacity` bytes, the closing zero included, bounds the size of the text.

One kind of directive has a token that reads back as another one: a bare path without a slash, with flags, looks
like a bucket name followed by a path. `MountList.encodeBounded` refuses it, and with it every list that would not
read back.
-/

namespace BucketMount

/-- The directives of a job, in the order in which they were declared. -/
abbrev MountList := List Directive

/-- Whether the token of a directive is read back as the same directive. -/
def Directive.Encodable (d : Directive) : Prop :=
  ¬(d.bucket = .implicit ∧ d.flags ≠ none ∧ '/' ∉ d.path)

instance (d : Directive) : Decidable d.Encodable := by
  unfold Directive.Encodable
  infer_instance

namespace MountList

def tokens (t : Text) : List Text := (t.splitOn ';').filter (· ≠ [])

def encode (l : MountList) : Text := [';'].intercalate (l.map Directive.token)

/-- The text of a list for a reader with a buffer of `capacity` bytes. -/
def encodeBounded (l : MountList) (capacity : Nat) : Except MountError Text :=
  match l.find? (¬·.Encodable) with
  | some d => .error (.config (.readBackAsBucket d.token))
  | none =>
    if Text.utf8Size (encode l) + 1 ≤ capacity then .ok (encode l)
    else .error (.config (.listTooLarge (Text.utf8Size (encode l)) capacity))

/-- The list that a text stands for; the first token that is none of a directive fails. -/
def decode (t : Text) : Except MountError MountList := (tokens t).mapM Directive.parse

/-- The directives of a text and the errors of its other tokens, each in the order of the text. -/
def decodeLenient (t : Text) : MountList × List MountError :=
  (tokens t).foldr
    (fun t (directives, errors) =>
      match Directive.parse t with
      | .ok d => (d :: directives, errors)
      | .error e => (directives, e :: errors))
    ([], [])

end MountList
end BucketMount
