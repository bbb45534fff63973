import BucketMount.Errno
import BucketMount.Mountpoint.Violation

/-!
# What a worker reports

A worker that fails before it does its job says at which stage and why. The report travels as eight bytes: the
number of the stage and the number of the error, each in four bytes with the low byte first. Reading what was
written gives the report back (`Report.decode_encode`).
-/

namespace BucketMount

inductive Stage where
  | privilegeDrop
  | inspectPath
  | createDir
  | violation (reason : PathViolation)
  | redirect
  | exec
deriving DecidableEq, Repr

namespace Stage

def code : Stage → Nat
  | privilegeDrop => 1
  | inspectPath => 2
  | createDir => 3
  | violation .notDirectory => 4
  | violation .wrongOwner => 5
  | violation .notEmpty => 6
  | violation .notWritable => 7
  | redirect => 8
  | exec => 9

def ofCode? : Nat → Option Stage
  | 1 => some privilegeDrop
  | 2 => some inspectPath
  | 3 => some createDir
  | 4 => some (violation .notDirectory)
  | 5 => some (violation .wrongOwner)
  | 6 => some (violation .notEmpty)
  | 7 => some (violation .notWritable)
  | 8 => some redirect
  | 9 => some exec
  | _ => none

theorem ofCode?_code (s : Stage) : ofCode? s.code = some s := by
  cases s with
  | violation r => cases r <;> rfl
  | _ => rfl

theorem ofCode?_eq_some_iff {n : Nat} {s : Stage} : ofCode? n = some s ↔ s.code = n := by
  constructor
  · intro h
    unfold ofCode? at h
    split at h <;> cases h <;> rfl
  · rintro rfl
    exact ofCode?_code s

def name : Stage → Text
  | privilegeDrop => "PrivilegeDrop".toList
  | inspectPath => "InspectPath".toList
  | createDir => "CreateDir".toList
  | violation r => "Violation(".toList ++ r.name ++ ")".toList
  | redirect => "Redirect".toList
  | exec => "Exec".toList

end Stage

/-- A number below 2³² as four bytes, the low byte first. -/
def wordBytes (n : Nat) : Bytes :=
  [UInt8.ofNat n, UInt8.ofNat (n / 256), UInt8.ofNat (n / 65536), UInt8.ofNat (n / 16777216)]

def ofWordBytes (a b c d : UInt8) : Nat :=
  a.toNat + 256 * b.toNat + 65536 * c.toNat + 16777216 * d.toNat

theorem wordBytes_ofWordBytes (a b c d : UInt8) :
    wordBytes (ofWordBytes a b c d) = [a, b, c, d] := by
  have ha := a.toNat_lt
  have hb := b.toNat_lt
  have hc := c.toNat_lt
  have hd := d.toNat_lt
  simp only [wordBytes, ofWordBytes, List.cons.injEq, and_true, ← UInt8.toNat_inj,
    UInt8.toNat_ofNat']
  omega

structure Report where
  stage : Stage
  errno : Errno
deriving DecidableEq, Repr

namespace Report

def size : Nat := 8

def encode (r : Report) : Bytes := wordBytes r.stage.code ++ wordBytes r.errno.number

/-- The report that eight bytes stand for: the stage must be known, an unknown error number is read as such. -/
def decode : Bytes → Option Report
  | [a, b, c, d, e, f, g, h] =>
    (Stage.ofCode? (ofWordBytes a b c d)).map fun stage => ⟨stage, Errno.ofNumber (ofWordBytes e f g h)⟩
  | _ => none

theorem decode_encode (r : Report) : decode r.encode = some r := by
  obtain ⟨stage, errno⟩ := r
  have hs : ofWordBytes (UInt8.ofNat stage.code) (UInt8.ofNat (stage.code / 256))
      (UInt8.ofNat (stage.code / 65536)) (UInt8.ofNat (stage.code / 16777216)) = stage.code := by
    cases stage with
    | violation v => cases v <;> rfl
    | _ => rfl
  have he : ofWordBytes (UInt8.ofNat errno.number) (UInt8.ofNat (errno.number / 256))
      (UInt8.ofNat (errno.number / 65536)) (UInt8.ofNat (errno.number / 16777216)) = errno.number := by
    cases errno <;> rfl
  simp [encode, wordBytes, decode, hs, he, Stage.ofCode?_code, Errno.ofNumber_number]

/-- Eight bytes whose two numbers are known are the bytes of one report. -/
theorem encode_of_known {a b c d e f g h : UInt8} {stage : Stage} {errno : Errno}
    (hstage : stage.code = ofWordBytes a b c d) (herrno : errno.number = ofWordBytes e f g h) :
    encode ⟨stage, errno⟩ = [a, b, c, d, e, f, g, h] := by
  rw [encode, hstage, herrno, wordBytes_ofWordBytes, wordBytes_ofWordBytes]
  rfl

end Report
end BucketMount
