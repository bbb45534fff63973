import BucketMount.Text.Basic

/-!
# White space and words

A job owner's flags are cut into words at white space. White space is the Unicode property of that name, and a
word is a longest run of other characters.
-/

namespace BucketMount.Text

/-- The Unicode property White_Space. -/
def isBlank (c : Char) : Bool :=
  let n := c.toNat
  (9 ≤ n && n ≤ 13) || n = 0x20 || n = 0x85 || n = 0xA0 || n = 0x1680 || (0x2000 ≤ n && n ≤ 0x200A) ||
    n = 0x2028 || n = 0x2029 || n = 0x202F || n = 0x205F || n = 0x3000

/-- The words of a text: cut it at every blank and leave out what is empty. -/
def words (t : Text) : List Text := (t.splitOnP isBlank).filter (· ≠ [])

end BucketMount.Text
