import BucketMount.Proofs.Dictation
import BucketMount.Proofs.Stateful
import BucketMount.Proofs.Worker.Traffic

/-!
# What the status pipe brings

The parent reads from the status pipe until it has a whole report or the pipe
ends. `StatusRead` lays down what each stream of bytes comes to; that the parent
answers so in every state of the pipe (`statusRead_readReport`) is all that is
needed of the two loops, since `StatusRead` looks at the first eight bytes only
(`StatusRead.unique`).
-/

namespace BucketMount

/-- What the parent is told by the bytes that a worker wrote before it closed
its status pipe. -/
inductive StatusRead (pid : Pid) : Bytes → Except MountError (Option Report) → Prop
  /-- The worker has done its job or given its place to another program. -/
  | silent : StatusRead pid [] (.ok none)
  | truncated {bytes : Bytes} (hsome : bytes ≠ []) (hshort : bytes.length < 8) :
      StatusRead pid bytes (.error (.spawn (.truncatedStatus pid bytes.length)))
  /-- A number that no error has is read as the error without a number. -/
  | report {a b c d e f g h : UInt8} (rest : Bytes) {stage : Stage} {errno : Errno}
      (hstage : stage.code = ofWordBytes a b c d)
      (herrno : errno.number = ofWordBytes e f g h ∨
        errno = .unknown ∧ ∀ other : Errno, other.number ≠ ofWordBytes e f g h) :
      StatusRead pid (a :: b :: c :: d :: e :: f :: g :: h :: rest) (.ok (some ⟨stage, errno⟩))
  | unknown {a b c d e f g h : UInt8} (rest : Bytes)
      (hstage : ∀ stage : Stage, stage.code ≠ ofWordBytes a b c d) :
      StatusRead pid (a :: b :: c :: d :: e :: f :: g :: h :: rest)
        (.error (.spawn (.unknownStatus pid)))

/-- The number of an error is known, or no error has it. -/
theorem Errno.ofNumber_cases (n : Nat) :
    (ofNumber n).number = n ∨ ofNumber n = .unknown ∧ ∀ other : Errno, other.number ≠ n := by
  by_cases h : ofNumber n = .unknown
  · by_cases hzero : n = 0
    · exact Or.inl (by rw [hzero]; rfl)
    · refine Or.inr ⟨h, fun other hother => hzero ?_⟩
      rw [← hother, ofNumber_number] at h
      rw [← hother, h]
      rfl
  · exact Or.inl (number_ofNumber h)

theorem Errno.eq_of_numbered {n : Nat} {errno errno' : Errno}
    (h : errno.number = n ∨ errno = .unknown ∧ ∀ other : Errno, other.number ≠ n)
    (h' : errno'.number = n ∨ errno' = .unknown ∧ ∀ other : Errno, other.number ≠ n) :
    errno = errno' := by
  rcases h with h | ⟨h, hnone⟩ <;> rcases h' with h' | ⟨h', hnone'⟩
  · rw [← ofNumber_number errno, ← ofNumber_number errno', h, h']
  · exact absurd h (hnone' errno)
  · exact absurd h' (hnone errno')
  · rw [h, h']

namespace StatusRead

variable {pid : Pid} {bytes bytes' : Bytes} {answer answer' : Except MountError (Option Report)}

/-- Eight bytes are not cut short. -/
theorem not_short {a b c d e f g h : UInt8} {rest : Bytes} :
    ¬(a :: b :: c :: d :: e :: f :: g :: h :: rest).length < 8 := by
  simp only [List.length_cons]
  omega

/-- No bytes come to two different answers. -/
theorem eq (hread : StatusRead pid bytes answer) (hread' : StatusRead pid bytes answer') :
    answer = answer' := by
  cases hread with
  | silent =>
    cases hread' with
    | silent => rfl
    | truncated hsome _ => exact absurd rfl hsome
  | truncated hsome hshort =>
    cases hread' with
    | silent => exact absurd rfl hsome
    | truncated => rfl
    | report | unknown => exact absurd hshort not_short
  | report rest hstage herrno =>
    cases hread' with
    | truncated _ hshort => exact absurd hshort not_short
    | report _ hstage' herrno' =>
      have hsame : some _ = some _ := (Stage.ofCode?_eq_some_iff.mpr hstage).symm.trans
        (Stage.ofCode?_eq_some_iff.mpr hstage')
      rw [Option.some.inj hsame, Errno.eq_of_numbered herrno herrno']
    | unknown _ hnone => exact absurd hstage (hnone _)
  | unknown rest hnone =>
    cases hread' with
    | truncated _ hshort => exact absurd hshort not_short
    | report _ hstage _ => exact absurd hstage (hnone _)
    | unknown => rfl

theorem take (hread : StatusRead pid bytes answer) : StatusRead pid (bytes.take 8) answer := by
  cases hread with
  | silent => exact .silent
  | truncated hsome hshort =>
    rw [List.take_of_length_le (Nat.le_of_lt hshort)]
    exact .truncated hsome hshort
  | report rest hstage herrno => exact .report [] hstage herrno
  | unknown rest hnone => exact .unknown [] hnone

/-- What comes after the first eight bytes does not matter. -/
theorem unique (hread : StatusRead pid bytes answer) (hread' : StatusRead pid bytes' answer')
    (hfirst : bytes.take 8 = bytes'.take 8) : answer = answer' := by
  have htaken : StatusRead pid (bytes.take 8) answer' := by
    rw [hfirst]
    exact hread'.take
  exact hread.take.eq htaken

/-- Eight bytes come to a report or to an unknown status. -/
theorem of_decode (pid : Pid) (a b c d e f g h : UInt8) (rest : Bytes) :
    StatusRead pid (a :: b :: c :: d :: e :: f :: g :: h :: rest)
      (match Report.decode [a, b, c, d, e, f, g, h] with
        | some r => .ok (some r)
        | none => .error (.spawn (.unknownStatus pid))) := by
  rw [Report.decode]
  cases hcode : Stage.ofCode? (ofWordBytes a b c d) with
  | none =>
    refine .unknown rest fun stage hstage => ?_
    rw [Stage.ofCode?_eq_some_iff.mpr hstage] at hcode
    cases hcode
  | some stage =>
    exact .report rest (Stage.ofCode?_eq_some_iff.mp hcode) (Errno.ofNumber_cases _)

theorem of_encode (pid : Pid) (r : Report) : StatusRead pid r.encode (.ok (some r)) := by
  have hread := of_decode pid (UInt8.ofNat r.stage.code) (UInt8.ofNat (r.stage.code / 256))
    (UInt8.ofNat (r.stage.code / 65536)) (UInt8.ofNat (r.stage.code / 16777216))
    (UInt8.ofNat r.errno.number) (UInt8.ofNat (r.errno.number / 256))
    (UInt8.ofNat (r.errno.number / 65536)) (UInt8.ofNat (r.errno.number / 16777216)) []
  change StatusRead pid r.encode (match Report.decode r.encode with
    | some r => .ok (some r)
    | none => .error (.spawn (.unknownStatus pid))) at hread
  rwa [Report.decode_encode] at hread

end StatusRead

theorem exists_eq_of_eight_le : ∀ {bytes : Bytes}, 8 ≤ bytes.length →
    ∃ a b c d e f g h rest, bytes = a :: b :: c :: d :: e :: f :: g :: h :: rest
  | a :: b :: c :: d :: e :: f :: g :: h :: rest, _ => ⟨a, b, c, d, e, f, g, h, rest, rfl⟩

namespace Kernel

variable {ω : Type} (k : Kernel ω) (worker : Worker)

/-- However the bytes in the status pipe are cut into pieces, the parent makes
of them what it should. -/
theorem statusRead_readReport (s : Traffic × ω) :
    StatusRead worker.pid (s.1.inside worker.status) (k.piped.readReport worker s).1 := by
  generalize hbytes : s.1.inside worker.status = bytes
  have hfill : Ensures (· = s) (k.piped.fill worker.status [])
      fun answer _ => answer = .ok (bytes.take 8) := by
    rintro s rfl
    rw [fill_piped, hbytes]
    rfl
  refine Ensures.bind (R := fun answer _ => StatusRead worker.pid bytes answer) hfill
    (fun answer => ?_) s rfl
  rintro s' rfl
  by_cases hempty : bytes = []
  · rw [hempty]
    exact .silent
  rcases Nat.lt_or_ge bytes.length 8 with hshort | hlong
  · have hpos : bytes.length ≠ 0 := by simpa using hempty
    have hne : bytes.length ≠ Report.size := Nat.ne_of_lt hshort
    rw [List.take_of_length_le (Nat.le_of_lt hshort)]
    simp only [hpos, hne, if_false]
    exact .truncated hempty hshort
  · obtain ⟨a, b, c, d, e, f, g, h, rest, rfl⟩ := exists_eq_of_eight_le hlong
    have hdecode := StatusRead.of_decode worker.pid a b c d e f g h rest
    have htaken : (a :: b :: c :: d :: e :: f :: g :: h :: rest).take 8 =
        [a, b, c, d, e, f, g, h] := rfl
    have hsize : [a, b, c, d, e, f, g, h].length = Report.size := rfl
    simp only [htaken, hsize, if_true]
    cases hreport : Report.decode [a, b, c, d, e, f, g, h] with
    | none =>
      rw [hreport] at hdecode
      exact hdecode
    | some r =>
      rw [hreport] at hdecode
      exact hdecode

/-- Writes one part after the other, the reports and whatever else a worker
leaves in its status pipe. -/
def sendAll (k : Kernel ω) (pipe : Pipe) (parts : List Bytes) : StateM ω Unit :=
  parts.forM fun part => k.send pipe part

/-- Parts that are sent one after the other are in the pipe one behind the
other. -/
theorem sendAll_piped (pipe : Pipe) (parts : List Bytes) (s : Traffic × ω) :
    (k.piped.sendAll pipe parts s).2.1.inside pipe = s.1.inside pipe ++ parts.flatten := by
  induction parts generalizing s with
  | nil =>
    rw [List.flatten_nil, List.append_nil]
    rfl
  | cons part parts ih =>
    obtain ⟨pace, hsend⟩ := k.send_piped pipe s part
    have hrest : k.piped.sendAll pipe (part :: parts) s =
        k.piped.sendAll pipe parts (k.piped.send pipe part s).2 := rfl
    rw [hrest, ih, hsend, List.flatten_cons, ← List.append_assoc]
    congr 1
    exact Traffic.inside_holding ..

/-- Whatever a worker writes and however writing and reading are cut into
pieces, the parent reads what the first eight bytes mean: the report that was
sent, if one was, and nothing but that. -/
theorem status_pipe_protocol (t : Traffic) (w : ω) :
    (∀ r : Report,
      (k.piped.readReport worker
        (k.piped.report worker.status r (t.holding worker.status [], w)).2).1 = .ok (some r)) ∧
    (∀ parts : List Bytes, StatusRead worker.pid parts.flatten
      (k.piped.readReport worker
        (k.piped.sendAll worker.status parts (t.holding worker.status [], w)).2).1) ∧
    (∀ s s' : Traffic × ω,
      (s.1.inside worker.status).take 8 = (s'.1.inside worker.status).take 8 →
        (k.piped.readReport worker s).1 = (k.piped.readReport worker s').1) ∧
    ∀ (a b c d e f g h : UInt8) (stage : Stage) (errno : Errno),
      stage.code = ofWordBytes a b c d → errno.number = ofWordBytes e f g h →
        ∃ r, Report.decode [a, b, c, d, e, f, g, h] = some r ∧
          r.encode = [a, b, c, d, e, f, g, h] := by
  refine ⟨fun r => ?_, fun parts => ?_, fun s s' hfirst => ?_, ?_⟩
  · obtain ⟨pace, hsend⟩ := k.send_piped worker.status (t.holding worker.status [], w) r.encode
    have hinside : (k.piped.report worker.status r
        (t.holding worker.status [], w)).2.1.inside worker.status = r.encode := by
      rw [report, hsend]
      simp [Traffic.holding]
    have hread := k.statusRead_readReport worker
      (k.piped.report worker.status r (t.holding worker.status [], w)).2
    rw [hinside] at hread
    exact hread.eq (.of_encode worker.pid r)
  · have hread := k.statusRead_readReport worker
      (k.piped.sendAll worker.status parts (t.holding worker.status [], w)).2
    rwa [sendAll_piped, Traffic.inside_holding, List.nil_append] at hread
  · exact (k.statusRead_readReport worker s).unique (k.statusRead_readReport worker s') hfirst
  · intro a b c d e f g h stage errno hstage herrno
    have hencode := Report.encode_of_known hstage herrno
    exact ⟨⟨stage, errno⟩, by rw [← hencode, Report.decode_encode], hencode⟩

end Kernel

/-- Traffic in pieces of a few bytes, with interruptions. -/
def Traffic.inPieces : Traffic where
  inside _ := []
  writes := [none, some 2, none]
  reads := [some 0, none, some 3]
  left := []

theorem Kernel.status_pipe_protocol_in_pieces :
    let worker : Worker := ⟨7, 0⟩
    let w : Dictation := ⟨[], [], [], [], [], 0⟩
    let s := (Traffic.inPieces.holding 0 [8, 0, 0, 0, 5, 0, 0, 0, 255], w)
    let s' := (Traffic.inPieces.holding 0 [8, 0, 0, 0, 5, 0, 0, 0], w)
    (s.1.inside 0).take 8 = (s'.1.inside 0).take 8 ∧
      (Dictation.kernel.piped.readReport worker s).1 =
        (Dictation.kernel.piped.readReport worker s').1 ∧
      Stage.redirect.code = ofWordBytes 8 0 0 0 ∧ Errno.eio.number = ofWordBytes 5 0 0 0 ∧
      ∃ r, Report.decode [8, 0, 0, 0, 5, 0, 0, 0] = some r ∧
        r.encode = [8, 0, 0, 0, 5, 0, 0, 0] := by
  intro worker w s s'
  have hfirst : (s.1.inside 0).take 8 = (s'.1.inside 0).take 8 := by decide
  obtain ⟨-, -, hsame, hback⟩ := status_pipe_protocol Dictation.kernel worker .inPieces w
  exact ⟨hfirst, hsame s s' hfirst, rfl, rfl, hback 8 0 0 0 5 0 0 0 .redirect .eio rfl rfl⟩

end BucketMount
