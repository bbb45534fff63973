/-!
# Text

Everything a job owner writes, and everything shown back, is text: a list of characters. Lengths that
matter outside (the size of the carrier buffer) are counted in UTF-8 bytes by `Text.utf8Size`. Fields are cut
with `List.splitOn` and `Text.splitOnce`, and put together again with `List.intercalate`.
-/

namespace BucketMount

abbrev Text := List Char

/-- What the operating system hands over: file names, environment values and pipe contents. -/
abbrev Bytes := List UInt8

namespace Text

def utf8Size : Text → Nat
  | [] => 0
  | c :: t => c.utf8Size + utf8Size t

@[simp] theorem utf8Size_nil : utf8Size [] = 0 := rfl

@[simp] theorem utf8Size_cons (c : Char) (t : Text) : utf8Size (c :: t) = c.utf8Size + utf8Size t := rfl

@[simp] theorem utf8Size_append (s t : Text) : utf8Size (s ++ t) = utf8Size s + utf8Size t := by
  induction s with
  | nil => simp
  | cons c s ih => simp [ih, Nat.add_assoc]

/-- The text before and after the first `sep`, if there is one. -/
def splitOnce (sep : Char) : Text → Option (Text × Text)
  | [] => none
  | c :: t => if c = sep then some ([], t) else (splitOnce sep t).map fun (l, r) => (c :: l, r)

theorem splitOnce_eq_none_iff {sep : Char} {t : Text} : splitOnce sep t = none ↔ sep ∉ t := by
  induction t with
  | nil => simp [splitOnce]
  | cons c t ih =>
    by_cases h : c = sep
    · simp [splitOnce, h]
    · simp [splitOnce, h, ih, Ne.symm h]

/-- The cut is made at the first separator, and only the separator is lost. -/
theorem splitOnce_eq_some_iff {sep : Char} {t l r : Text} :
    splitOnce sep t = some (l, r) ↔ t = l ++ sep :: r ∧ sep ∉ l := by
  induction t generalizing l with
  | nil => simp [splitOnce]
  | cons c t ih =>
    by_cases h : c = sep
    · subst h
      simp only [splitOnce, ↓reduceIte, Option.some.injEq, Prod.mk.injEq]
      constructor
      · rintro ⟨rfl, rfl⟩
        simp
      · rintro ⟨ht, hl⟩
        cases l with
        | nil => simpa using ht
        | cons d l => simp_all
    · simp only [splitOnce, h, ↓reduceIte, Option.map_eq_some_iff, Prod.exists, Prod.mk.injEq]
      constructor
      · rintro ⟨a, b, hab, rfl, rfl⟩
        obtain ⟨rfl, ha⟩ := ih.1 hab
        simp [ha, Ne.symm h]
      · rintro ⟨ht, hl⟩
        cases l with
        | nil => simp_all
        | cons d l =>
          simp only [List.cons_append, List.cons.injEq] at ht
          obtain ⟨rfl, rfl⟩ := ht
          refine ⟨l, r, ih.2 ⟨rfl, ?_⟩, rfl, rfl⟩
          simp_all

def trimEnd (c : Char) (t : Text) : Text := (t.reverse.dropWhile (· = c)).reverse

def decimal (n : Nat) : Text := Nat.toDigits 10 n

/-- Octal digits of a number, as permission modes are written. -/
def octal (n : Nat) : Text := Nat.toDigits 8 n

/-- The number written by these octal digits, or nothing when something else is there. -/
def readOctal (t : Text) : Option Nat :=
  if t.isEmpty then none else
    t.foldlM (fun n c => if '0' ≤ c ∧ c ≤ '7' then some (8 * n + (c.toNat - 48)) else none) 0

/-- The number written by these decimal digits, or nothing when something else is there. -/
def readDecimal (t : Text) : Option Nat :=
  if t.isEmpty then none else
    t.foldlM (fun n c => if c.isDigit then some (10 * n + (c.toNat - 48)) else none) 0

end Text
end BucketMount
