import BucketMount.Json.Basic

/-!
# Writing JSON

`Json.compact` writes a value on one line, `Json.pretty` one item or member on each line, two blanks deeper at each
level. In strings the quote, the backslash and the control characters are escaped and nothing else.
-/

namespace BucketMount.Json

/-- The digits of the low byte of a number, in base sixteen. -/
def hexByte (n : Nat) : Text := [Nat.digitChar (n / 16 % 16), Nat.digitChar (n % 16)]

def escape (c : Char) : Text :=
  if c = '"' then ['\\', '"']
  else if c = '\\' then ['\\', '\\']
  else if c = '\x08' then ['\\', 'b']
  else if c = '\x0c' then ['\\', 'f']
  else if c = '\n' then ['\\', 'n']
  else if c = '\r' then ['\\', 'r']
  else if c = '\t' then ['\\', 't']
  else if c.toNat < 0x20 then ['\\', 'u', '0', '0'] ++ hexByte c.toNat
  else [c]

/-- A string; what stands for no text is written as an empty one. -/
def quote (t : Option Text) : Text := '"' :: (t.getD []).flatMap escape ++ ['"']

mutual

def compact : Json → Text
  | .null => "null".toList
  | .bool b => if b then "true".toList else "false".toList
  | .number lexeme => lexeme
  | .string t => quote t
  | .array items => '[' :: compactItems items ++ [']']
  | .object members => '\x7b' :: compactMembers members ++ ['\x7d']

def compactItems : List Json → Text
  | [] => []
  | [v] => compact v
  | v :: w :: rest => compact v ++ ',' :: compactItems (w :: rest)

def compactMembers : List (Option Text × Json) → Text
  | [] => []
  | [(k, v)] => quote k ++ ':' :: compact v
  | (k, v) :: w :: rest => quote k ++ ':' :: compact v ++ ',' :: compactMembers (w :: rest)

end

def newline (depth : Nat) : Text := '\n' :: List.replicate (2 * depth) ' '

mutual

/-- A value with its parts on lines of their own. -/
def prettyAt (depth : Nat) : Json → Text
  | .null => "null".toList
  | .bool b => if b then "true".toList else "false".toList
  | .number lexeme => lexeme
  | .string t => quote t
  | .array [] => "[]".toList
  | .array (v :: rest) => '[' :: prettyItems (depth + 1) (v :: rest) ++ newline depth ++ [']']
  | .object [] => ['\x7b', '\x7d']
  | .object (m :: rest) => '\x7b' :: prettyMembers (depth + 1) (m :: rest) ++ newline depth ++ ['\x7d']

def prettyItems (depth : Nat) : List Json → Text
  | [] => []
  | [v] => newline depth ++ prettyAt depth v
  | v :: w :: rest => newline depth ++ prettyAt depth v ++ ',' :: prettyItems depth (w :: rest)

def prettyMembers (depth : Nat) : List (Option Text × Json) → Text
  | [] => []
  | [(k, v)] => newline depth ++ quote k ++ ": ".toList ++ prettyAt depth v
  | (k, v) :: w :: rest =>
    newline depth ++ quote k ++ ": ".toList ++ prettyAt depth v ++ ',' :: prettyMembers depth (w :: rest)

end

def pretty (v : Json) : Text := prettyAt 0 v

end BucketMount.Json
