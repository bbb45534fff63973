import BucketMount.Json.Token

/-!
# Reading JSON

A value is put together from tokens with a stack of the arrays and objects that are still open, so nesting has no
bound. `Json.read?` accepts a text of exactly one value.
-/

namespace BucketMount.Json

/-- An array or object that is still open, its parts in reverse order. -/
inductive Frame where
  | array (items : List Json)
  | object (members : List (Option Text × Json)) (key : Option Text)

inductive Expect where
  /-- A value. -/
  | value
  /-- A value, or the end of the array that has just been opened. -/
  | item
  /-- A key, or the end of the object if it has just been opened. -/
  | key (members : List (Option Text × Json)) (closable : Bool)
  /-- The colon after a key. -/
  | colon (members : List (Option Text × Json)) (key : Option Text)
  /-- What follows a value. -/
  | after (v : Json)

/-- The open frames, innermost first, and what may come next. -/
abbrev Progress := List Frame × Expect

def begin? (stack : List Frame) : Token → Option Progress
  | .openBrace => some (stack, .key [] true)
  | .openBracket => some (.array [] :: stack, .item)
  | .null => some (stack, .after .null)
  | .bool b => some (stack, .after (.bool b))
  | .number lexeme => some (stack, .after (.number lexeme))
  | .string t => some (stack, .after (.string t))
  | _ => none

def step? : Progress → Token → Option Progress
  | (stack, .value), token => begin? stack token
  | (.array items :: stack, .item), .closeBracket => some (stack, .after (.array items.reverse))
  | (stack, .item), token => begin? stack token
  | (stack, .key members _), .string k => some (stack, .colon members k)
  | (stack, .key members true), .closeBrace => some (stack, .after (.object members.reverse))
  | (stack, .colon members k), .colon => some (.object members k :: stack, .value)
  | (.array items :: stack, .after v), .comma => some (.array (v :: items) :: stack, .value)
  | (.object members k :: stack, .after v), .comma => some (stack, .key ((k, v) :: members) false)
  | (.array items :: stack, .after v), .closeBracket => some (stack, .after (.array (v :: items).reverse))
  | (.object members k :: stack, .after v), .closeBrace =>
    some (stack, .after (.object ((k, v) :: members).reverse))
  | _, _ => none

def ofTokens? (tokens : List Token) : Option Json :=
  match tokens.foldlM step? ([], .value) with
  | some ([], .after v) => some v
  | _ => none

def read? (t : Text) : Option Json := (Token.ofText? t).bind ofTokens?

end BucketMount.Json
