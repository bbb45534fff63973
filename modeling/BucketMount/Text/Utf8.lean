import BucketMount.Text.Basic

/-!
# UTF-8

File names and environment values are bytes that need not be text. `Text.toUtf8` writes text as bytes,
`Text.ofUtf8?` reads bytes that are the UTF-8 form of some text, and `Text.ofUtf8Lossy` shows any bytes: each longest
start of a character that breaks off becomes one replacement character.
-/

namespace BucketMount.Text

def charBytes (c : Char) : Bytes :=
  let n := c.toNat
  if n < 0x80 then [UInt8.ofNat n]
  else if n < 0x800 then [UInt8.ofNat (0xC0 + n / 64), UInt8.ofNat (0x80 + n % 64)]
  else if n < 0x10000 then
    [UInt8.ofNat (0xE0 + n / 4096), UInt8.ofNat (0x80 + n / 64 % 64), UInt8.ofNat (0x80 + n % 64)]
  else
    [UInt8.ofNat (0xF0 + n / 262144), UInt8.ofNat (0x80 + n / 4096 % 64),
      UInt8.ofNat (0x80 + n / 64 % 64), UInt8.ofNat (0x80 + n % 64)]

def toUtf8 (t : Text) : Bytes := t.flatMap charBytes

@[simp] theorem toUtf8_nil : toUtf8 [] = [] := rfl

@[simp] theorem toUtf8_append (s t : Text) : toUtf8 (s ++ t) = toUtf8 s ++ toUtf8 t := by
  simp [toUtf8]

theorem length_charBytes (c : Char) : (charBytes c).length = c.utf8Size := by
  have h : c.val.toNat = c.toNat := rfl
  simp only [charBytes, Char.utf8Size, UInt32.le_iff_toNat_le]
  simp only [h]
  simp only [show (UInt32.ofNatLT 127 (by decide)).toNat = 127 from rfl,
    show (UInt32.ofNatLT 2047 (by decide)).toNat = 2047 from rfl,
    show (UInt32.ofNatLT 65535 (by decide)).toNat = 65535 from rfl]
  split <;> split <;> (try split) <;> (try split) <;> (try split) <;> simp_all <;> omega

theorem length_toUtf8 (t : Text) : (toUtf8 t).length = utf8Size t := by
  induction t with
  | nil => rfl
  | cons c t ih => simp_all [toUtf8, utf8Size, length_charBytes]

/-- How many bytes a character with this first byte has, and the bounds of its second byte. -/
def leadByte (b : UInt8) : Option (Nat × UInt8 × UInt8) :=
  if b < 0x80 then some (1, 0, 0)
  else if b < 0xC2 then none
  else if b < 0xE0 then some (2, 0x80, 0xBF)
  else if b = 0xE0 then some (3, 0xA0, 0xBF)
  else if b = 0xED then some (3, 0x80, 0x9F)
  else if b < 0xF0 then some (3, 0x80, 0xBF)
  else if b = 0xF0 then some (4, 0x90, 0xBF)
  else if b < 0xF4 then some (4, 0x80, 0xBF)
  else if b = 0xF4 then some (4, 0x80, 0x8F)
  else none

/-- Whether a byte can stand after the second place of a character. -/
def isContinuation (b : UInt8) : Bool := 0x80 ≤ b && b ≤ 0xBF

/-- The low six bits, which a continuation byte carries. -/
def payload (b : UInt8) : Nat := b.toNat % 64

/-- The first character of the bytes with the number of bytes it takes, or how many bytes make a start of a
character that breaks off. -/
def readChar : Bytes → Except Nat (Char × Nat)
  | [] => .error 0
  | b₀ :: rest =>
    match leadByte b₀ with
    | none => .error 1
    | some (1, _, _) => .ok (Char.ofNat b₀.toNat, 1)
    | some (n, lo, hi) =>
      match rest with
      | [] => .error 1
      | b₁ :: rest =>
        if ¬(lo ≤ b₁ ∧ b₁ ≤ hi) then .error 1
        else if n = 2 then .ok (Char.ofNat (b₀.toNat % 32 * 64 + payload b₁), 2)
        else match rest with
        | [] => .error 2
        | b₂ :: rest =>
          if ¬isContinuation b₂ then .error 2
          else if n = 3 then .ok (Char.ofNat (b₀.toNat % 16 * 4096 + payload b₁ * 64 + payload b₂), 3)
          else match rest with
          | [] => .error 3
          | b₃ :: _ =>
            if ¬isContinuation b₃ then .error 3
            else
              let n := b₀.toNat % 8 * 262144 + payload b₁ * 4096 + payload b₂ * 64 + payload b₃
              .ok (Char.ofNat n, 4)

def ofUtf8? (bytes : Bytes) : Option Text :=
  match bytes with
  | [] => some []
  | b :: rest =>
    match readChar (b :: rest) with
    | .error _ => none
    | .ok (c, n) => (ofUtf8? (rest.drop (n - 1))).map (c :: ·)
termination_by bytes.length
decreasing_by
  simp only [List.length_drop, List.length_cons]
  omega

def replacement : Char := '\uFFFD'

/-- Bytes as they are shown: what is no character becomes a replacement character. -/
def ofUtf8Lossy (bytes : Bytes) : Text :=
  match bytes with
  | [] => []
  | b :: rest =>
    match readChar (b :: rest) with
    | .error n => replacement :: ofUtf8Lossy (rest.drop (n - 1))
    | .ok (c, n) => c :: ofUtf8Lossy (rest.drop (n - 1))
termination_by bytes.length
decreasing_by all_goals (simp only [List.length_drop, List.length_cons]; omega)

end BucketMount.Text
