import BucketMount.Text.Basic

/-!
# JSON values

The form of the configuration file and of the listing of a mount list. Numbers are kept as they are written, so that
an integer is never taken for a rounded number. A string that holds half of a surrogate pair by itself is a string of
the format that stands for no text; its text is `none`.
-/

namespace BucketMount

inductive Json where
  | null
  | bool (b : Bool)
  | number (lexeme : Text)
  | string (text : Option Text)
  | array (items : List Json)
  | object (members : List (Option Text × Json))
deriving Inhabited

namespace Json

def text (t : Text) : Json := .string (some t)

def nat (n : Nat) : Json := .number (Text.decimal n)

def texts (l : List Text) : Json := .array (l.map text)

/-- An object whose keys are these texts. -/
def record (members : List (Text × Json)) : Json := .object (members.map fun (k, v) => (some k, v))

/-- The text of a string, if the value is one and stands for a text. -/
def text? : Json → Option Text
  | .string t => t
  | _ => none

/-- The number written by decimal digits alone, without sign, fraction or exponent. -/
def nat? : Json → Option Nat
  | .number lexeme => Text.readDecimal lexeme
  | _ => none

def texts? : Json → Option (List Text)
  | .array items => items.mapM text?
  | _ => none

end Json
end BucketMount
