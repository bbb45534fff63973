import BucketMount.Proofs.Process.Vigil
import BucketMount.Proofs.Stateful

/-!
# From a request to SIGKILL

A process that is to be stopped is asked to end, watched for the grace period,
killed if it is still there, and watched again. `Escalation` has one constructor
for each of the three ways this can go, with all that is entered in a logbook,
and `Processes.records_terminate` says that there are no others. What the report
may be relied on for is read off the three ways (`Escalates`), and carries over
to a process that is first given time to end by itself (`Reaps`).
-/

namespace BucketMount

variable {ω : Type} {pid : Pid} {grace : Duration} {t t' : Nat} {course : Logbook}

namespace Entry

abbrev sent (pid : Pid) (signal : Signal) (answer : Except Errno Unit) (t t' : Nat) : Entry :=
  ⟨.signalled pid (some signal) answer, t, t'⟩

/-- The entry tells that the process is gone: it could not be asked to end since
there is none, or a check has found it gone. -/
def FindsGone (e : Entry) (pid : Pid) : Prop :=
  e.act = .signalled pid (some .term) (.error .esrch) ∨ e.found? = some true

variable {answer : Except Errno Unit} {signal signal' : Signal} {p : Pid}

theorem sends_sent_iff : (sent pid signal answer t t').Sends p signal' ↔ pid = p ∧ signal = signal' := by
  constructor
  · rintro ⟨answer', hact⟩
    cases hact
    exact ⟨rfl, rfl⟩
  · rintro ⟨rfl, rfl⟩
    exact ⟨answer, rfl⟩

/-- A signal does not find the process gone, unless it is the request to end and
there is no process to send it to. -/
theorem not_findsGone_sent (there : signal = .term → answer ≠ .error .esrch) :
    ¬(sent pid signal answer t t').FindsGone pid := by
  rintro (hact | hfound)
  · cases hact
    exact there rfl rfl
  · cases hfound

/-- Among entries that do not send the signal otherwise, one entry tells whether
it was sent. -/
theorem exists_sent_iff (answer : Except Errno Unit) {before after : Logbook}
    (hbefore : ∀ e ∈ before, ¬e.Sends pid signal)
    (hafter : ∀ e ∈ after, ¬e.Sends pid signal) :
    (∃ e ∈ before ++ sent pid signal answer t t' :: after,
      e.act = .signalled pid (some signal) (.ok ())) ↔ answer.isOk := by
  constructor
  · rintro ⟨e, he, hact⟩
    rcases List.mem_append.mp he with he | he
    · exact absurd ⟨_, hact⟩ (hbefore e he)
    rcases List.mem_cons.mp he with rfl | he
    · cases hact
      rfl
    · exact absurd ⟨_, hact⟩ (hafter e he)
  · intro hok
    refine ⟨sent pid signal answer t t', by simp, ?_⟩
    rcases answer with e | _
    · cases hok
    · rfl

end Entry

namespace Vigil

variable {deadline : Nat} {watch : Logbook} {gone : Bool} {e : Entry}

theorem findsGone_iff (h : Vigil pid deadline t watch t' gone) (he : e ∈ watch) :
    e.FindsGone pid ↔ e.found? = some true :=
  ⟨fun hgone => hgone.resolve_left fun hact => h.not_sends he ⟨_, hact⟩, Or.inr⟩

theorem exists_findsGone_iff (h : Vigil pid deadline t watch t' gone) :
    (∃ e ∈ watch, e.FindsGone pid) ↔ gone := by
  constructor
  · rintro ⟨e, he, hgone⟩
    cases gone with
    | true => rfl
    | false => exact absurd ((h.findsGone_iff he).mp hgone) (h.alive he)
  · rintro rfl
    obtain ⟨before, e, rfl, hlast, -, -⟩ := h.last
    exact ⟨e, by simp, Or.inr hlast⟩

/-- Only the last entry can find the process gone. -/
theorem not_findsGone_of_mem_dropLast (h : Vigil pid deadline t watch t' gone)
    (he : e ∈ watch.dropLast) : ¬e.FindsGone pid := by
  rw [h.findsGone_iff (List.mem_of_mem_dropLast he)]
  obtain ⟨before, last, rfl, -, -, hbefore⟩ := h.last
  rw [List.dropLast_concat] at he
  exact hbefore e he

theorem ne_nil (h : Vigil pid deadline t watch t' gone) : watch ≠ [] := by
  obtain ⟨before, last, rfl, -⟩ := h.last
  exact List.concat_ne_nil _ _

variable {t₀ : Nat} {answer : Except Errno Unit} {signal signal' : Signal}

/-- A signal and the wait after it send that signal only. -/
theorem not_sends_cons (h : Vigil pid deadline t watch t' gone) (other : signal ≠ signal') :
    ∀ e ∈ .sent pid signal answer t₀ t :: watch, ¬e.Sends pid signal' := by
  intro e he
  rcases List.mem_cons.mp he with rfl | he
  · intro hsends
    exact other (Entry.sends_sent_iff.mp hsends).2
  · exact h.not_sends he

/-- A wait that has not seen the end of the process has nowhere seen it. -/
theorem not_findsGone_cons (h : Vigil pid deadline t watch t' false)
    (there : signal = .term → answer ≠ .error .esrch) :
    ∀ e ∈ .sent pid signal answer t₀ t :: watch, ¬e.FindsGone pid := by
  intro e he
  rcases List.mem_cons.mp he with rfl | he
  · exact Entry.not_findsGone_sent there
  · rw [h.findsGone_iff he]
    exact h.alive he

/-- The last entry is all there can be to tell that the process is gone. -/
theorem not_findsGone_of_mem_dropLast_cons (h : Vigil pid deadline t watch t' gone)
    (there : signal = .term → answer ≠ .error .esrch) :
    ∀ e ∈ (.sent pid signal answer t₀ t :: watch).dropLast, ¬e.FindsGone pid := by
  intro e he
  rw [List.dropLast_cons_of_ne_nil h.ne_nil] at he
  rcases List.mem_cons.mp he with rfl | he
  · exact Entry.not_findsGone_sent there
  · exact h.not_findsGone_of_mem_dropLast he

end Vigil

/-! ## The three ways -/

/-- What is entered, from one time to another, while a process is stopped, and
whether SIGTERM was sent, SIGKILL was sent, and the process was found gone. -/
inductive Escalation (pid : Pid) (grace : Duration) :
    Nat → Logbook → Nat → Bool → Bool → Bool → Prop
  /-- There is no such process. -/
  | absent {t t' : Nat} (later : t ≤ t') :
      Escalation pid grace t [.sent pid .term (.error .esrch) t t'] t' false false true
  /-- It ends within the grace period. -/
  | ended {t t₁ : Nat} {watch : Logbook} {t' : Nat} {answer : Except Errno Unit} (later : t ≤ t₁)
      (there : answer ≠ .error .esrch) (watched : Vigil pid (t₁ + grace) t₁ watch t' true) :
      Escalation pid grace t (.sent pid .term answer t t₁ :: watch) t' answer.isOk false true
  /-- It has to be killed. -/
  | killed {t t₁ : Nat} {watch : Logbook} {t₂ t₃ : Nat} {watch' : Logbook} {t' : Nat}
      {answer answer' : Except Errno Unit} {gone : Bool} (later : t ≤ t₁)
      (there : answer ≠ .error .esrch) (watched : Vigil pid (t₁ + grace) t₁ watch t₂ false)
      (later' : t₂ ≤ t₃) (watched' : Vigil pid (t₃ + max grace killGrace) t₃ watch' t' gone) :
      Escalation pid grace t
        ((.sent pid .term answer t t₁ :: watch) ++ .sent pid .kill answer' t₂ t₃ :: watch') t'
        answer.isOk answer'.isOk gone

namespace Escalation

variable {termSent killSent gone : Bool}

theorem about (h : Escalation pid grace t course t' termSent killSent gone) :
    ∀ e ∈ course, ∀ p ∈ e.pid?, p = pid := by
  have hsent {signal : Signal} {answer : Except Errno Unit} {t t' : Nat} (p : Pid)
      (hp : p ∈ (Entry.sent pid signal answer t t').pid?) : p = pid :=
    (Option.some.inj hp).symm
  intro e he p hp
  cases h with
  | absent =>
    rcases List.mem_singleton.mp he with rfl
    exact hsent p hp
  | ended later there watched =>
    rcases List.mem_cons.mp he with rfl | he
    · exact hsent p hp
    · exact watched.about e he p hp
  | killed later there watched later' watched' =>
    rcases List.mem_append.mp he with he | he
    · rcases List.mem_cons.mp he with rfl | he
      · exact hsent p hp
      · exact watched.about e he p hp
    · rcases List.mem_cons.mp he with rfl | he
      · exact hsent p hp
      · exact watched'.about e he p hp

/-- SIGTERM comes first, and of other signals there is only SIGKILL. -/
theorem term_first (h : Escalation pid grace t course t' termSent killSent gone) :
    ∃ asked rest, course = asked :: rest ∧ asked.Sends pid .term ∧
      ∀ e ∈ rest, ∀ p signal, e.Sends p signal → signal = .kill := by
  cases h with
  | absent => exact ⟨_, [], rfl, ⟨_, rfl⟩, by simp⟩
  | ended later there watched =>
    refine ⟨_, _, rfl, ⟨_, rfl⟩, fun e he p signal hsends => ?_⟩
    exact absurd hsends (watched.not_sends he)
  | killed later there watched later' watched' =>
    refine ⟨_, _, rfl, ⟨_, rfl⟩, fun e he p signal hsends => ?_⟩
    rcases List.mem_append.mp he with he | he
    · exact absurd hsends (watched.not_sends he)
    rcases List.mem_cons.mp he with rfl | he
    · exact (Entry.sends_sent_iff.mp hsends).2.symm
    · exact absurd hsends (watched'.not_sends he)

/-- SIGKILL is sent in one place only, which lies behind the grace period. -/
theorem kill_late (h : Escalation pid grace t course t' termSent killSent gone)
    {before after : Logbook} {e : Entry} (hsplit : course = before ++ e :: after)
    (he : e.Sends pid .kill) :
    (∀ x ∈ before ++ after, ¬x.Sends pid .kill) ∧ (∀ x ∈ before, ¬x.FindsGone pid) ∧
      ∃ asked watch check, before = asked :: (watch ++ [check]) ∧ asked.Sends pid .term ∧
        check.found? = some false ∧ asked.ended + grace ≤ check.ended ∧ check.ended ≤ e.began := by
  have hmem : e ∈ course := by
    rw [hsplit]
    exact List.mem_append_right _ List.mem_cons_self
  cases h with
  | absent =>
    rcases List.mem_singleton.mp hmem with rfl
    cases (Entry.sends_sent_iff.mp he).2
  | ended later there watched => exact absurd he (watched.not_sends_cons (by decide) e hmem)
  | killed later there watched later' watched' =>
    -- no entry of either wait sends the signal, so it is the one between them
    obtain ⟨rfl, rfl, rfl⟩ := (List.append_cons_inj_of_notMem
      (fun hm => watched.not_sends_cons (by decide) e hm he)
      (fun hm => watched'.not_sends hm he)).mp hsplit
    refine ⟨fun x hx => ?_, watched.not_findsGone_cons fun _ => there, ?_⟩
    · rcases List.mem_append.mp hx with hx | hx
      · exact watched.not_sends_cons (by decide) x hx
      · exact watched'.not_sends hx
    · obtain ⟨watch, check, rfl, hfound, hended, -⟩ := watched.last
      refine ⟨_, watch, check, rfl, ⟨_, rfl⟩, hfound, ?_, hended.le⟩
      rw [hended]
      exact watched.late

/-- Nothing is done any more once the process is known to be gone. -/
theorem silent (h : Escalation pid grace t course t' termSent killSent gone) :
    ∀ e ∈ course.dropLast, ¬e.FindsGone pid := by
  cases h with
  | absent => exact List.forall_mem_nil _
  | ended later there watched => exact watched.not_findsGone_of_mem_dropLast_cons fun _ => there
  | killed later there watched later' watched' =>
    intro e he
    rw [List.dropLast_append_of_ne_nil (List.cons_ne_nil _ _)] at he
    rcases List.mem_append.mp he with he | he
    · exact watched.not_findsGone_cons (fun _ => there) e he
    · exact watched'.not_findsGone_of_mem_dropLast_cons (by nofun) e he

theorem termSent_iff (h : Escalation pid grace t course t' termSent killSent gone) :
    termSent ↔ ∃ e ∈ course, e.act = .signalled pid (some .term) (.ok ()) := by
  obtain ⟨asked, rest, hcourse, -, hrest⟩ := h.term_first
  have hother : ∀ e ∈ rest, ¬e.Sends pid .term := fun e he hsends => nomatch hrest e he _ _ hsends
  cases h with
  | absent =>
    cases hcourse
    exact (Entry.exists_sent_iff (.error .esrch) (List.forall_mem_nil _) hother).symm
  | ended | killed =>
    cases hcourse
    exact (Entry.exists_sent_iff _ (List.forall_mem_nil _) hother).symm

theorem killSent_iff (h : Escalation pid grace t course t' termSent killSent gone) :
    killSent ↔ ∃ e ∈ course, e.act = .signalled pid (some .kill) (.ok ()) := by
  cases h with
  | absent => simp [Entry.sent]
  | ended later there watched =>
    refine ⟨nofun, ?_⟩
    rintro ⟨e, he, hact⟩
    exact absurd ⟨_, hact⟩ (watched.not_sends_cons (by decide) e he)
  | killed later there watched later' watched' =>
    exact (Entry.exists_sent_iff _ (watched.not_sends_cons (by decide)) fun e he =>
      watched'.not_sends he).symm

theorem gone_iff (h : Escalation pid grace t course t' termSent killSent gone) :
    gone ↔ ∃ e ∈ course, e.FindsGone pid := by
  cases h with
  | absent => exact ⟨fun _ => ⟨_, List.mem_cons_self, Or.inl rfl⟩, fun _ => rfl⟩
  | ended later there watched =>
    obtain ⟨e, he, hgone⟩ := watched.exists_findsGone_iff.mpr rfl
    exact ⟨fun _ => ⟨e, List.mem_cons_of_mem _ he, hgone⟩, fun _ => rfl⟩
  | killed later there watched later' watched' =>
    rw [← watched'.exists_findsGone_iff]
    constructor
    · rintro ⟨e, he, hgone⟩
      exact ⟨e, List.mem_append_right _ (List.mem_cons_of_mem _ he), hgone⟩
    · rintro ⟨e, he, hgone⟩
      rcases List.mem_append.mp he with he | he
      · exact absurd hgone (watched.not_findsGone_cons (fun _ => there) e he)
      rcases List.mem_cons.mp he with rfl | he
      · exact absurd hgone (Entry.not_findsGone_sent nofun)
      · exact ⟨e, he, hgone⟩

/-- A process that was not found gone was killed and given its time after that. -/
theorem alive (h : Escalation pid grace t course t' termSent killSent false) :
    ∃ before e after check, course = before ++ e :: (after ++ [check]) ∧ e.Sends pid .kill ∧
      check.found? = some false ∧ e.ended + max grace killGrace ≤ check.ended := by
  cases h with
  | killed later there watched later' watched' =>
    obtain ⟨after, check, rfl, hfound, hended, -⟩ := watched'.last
    refine ⟨_, _, after, check, rfl, ⟨_, rfl⟩, hfound, ?_⟩
    rw [hended]
    exact watched'.late

/-- There are not more checks than there is time for in the two waits. -/
theorem length_found_le (h : Escalation pid grace t course t' termSent killSent gone) :
    (course.filterMap Entry.found?).length ≤
      (grace ⌈/⌉ pollStep + 1) + (max grace killGrace ⌈/⌉ pollStep + 1) := by
  cases h with
  | absent => exact Nat.zero_le _
  | ended later there watched =>
    have hchecks := watched.length_found_le
    rw [Nat.add_sub_cancel_left] at hchecks
    exact Nat.le_add_right_of_le hchecks
  | killed later there watched later' watched' =>
    have hchecks := watched.length_found_le
    have hchecks' := watched'.length_found_le
    rw [Nat.add_sub_cancel_left] at hchecks hchecks'
    rw [List.filterMap_append, List.length_append]
    exact Nat.add_le_add hchecks hchecks'

end Escalation

/-! ## What is done is one of the three -/

/-- What comes of an answer to a signal. -/
def Processes.Delivery.ofAnswer : Except Errno Unit → Delivery
  | .ok () => .sent
  | .error e => if e = .esrch then .absent else .failed e

namespace Processes.Delivery

theorem ofAnswer_eq_absent_iff {answer : Except Errno Unit} :
    ofAnswer answer = .absent ↔ answer = .error .esrch := by
  rcases answer with e | _
  · by_cases h : e = .esrch <;> simp [ofAnswer, h]
  · simp [ofAnswer]

theorem ofAnswer_eq_sent (answer : Except Errno Unit) :
    decide (ofAnswer answer = .sent) = answer.isOk := by
  rcases answer with e | _
  · by_cases h : e = .esrch <;> simp [ofAnswer, h, Except.isOk, Except.toBool]
  · rfl

theorem notes_ofAnswer (answer : Except Errno Unit) (signal : Signal) (t t' : Nat) :
    (ofAnswer answer).notes pid signal = [.sent pid signal answer t t'].filterMap Entry.note? := by
  rcases answer with e | _
  · cases e <;> rfl
  · rfl

end Processes.Delivery

namespace Processes

variable (os : Processes ω) (pid : Pid) (grace : Duration)

theorem records_deliver (signal : Signal) :
    Records os.now (os.logged.deliver pid signal) (os.deliver pid signal)
      fun t entries t' delivery => ∃ answer, t ≤ t' ∧
        entries = [.sent pid signal answer t t'] ∧ delivery = .ofAnswer answer := by
  refine .bind (os.records_kill pid (some signal)) fun answer => ?_
  rcases answer with e | _
  · cases e
    all_goals
      refine .pure fun t' t before hsent => ?_
      rw [List.append_nil]
      exact ⟨_, hsent.1, hsent.2, rfl⟩
  · refine .pure fun t' t before hsent => ?_
    rw [List.append_nil]
    exact ⟨_, hsent.1, hsent.2, rfl⟩

theorem records_killAndReap :
    Records os.now (os.logged.killAndReap pid grace) (os.killAndReap pid grace)
      fun t entries t' killed => ∃ answer t₁ watch, t ≤ t₁ ∧
        entries = .sent pid .kill answer t t₁ :: watch ∧
        Vigil pid (t₁ + max grace killGrace) t₁ watch t' killed.2.1 ∧
        killed.1 = .ofAnswer answer ∧ killed.2.2 = entries.filterMap Entry.note? := by
  refine .bind (os.records_deliver pid .kill) fun delivery => ?_
  refine .get fun log w => .bind (os.records_waitUntilGone pid _) fun found => ?_
  refine .pure fun t' t₁ watch hwatched hnow t before hsent => ?_
  obtain ⟨hvigil, hnotes⟩ := hwatched
  obtain ⟨answer, hlater, rfl, rfl⟩ := hsent
  subst hnow
  rw [List.append_nil, List.singleton_append]
  refine ⟨answer, _, watch, hlater, rfl, hvigil, rfl, ?_⟩
  rw [← List.singleton_append, List.filterMap_append, ← hnotes, Delivery.notes_ofAnswer]

/-- The report tells of the entries: which signals were sent, whether the
process was found gone, and what was unexpected. -/
theorem records_terminate :
    Records os.now (os.logged.terminate pid grace) (os.terminate pid grace)
      fun t entries t' report =>
        Escalation pid grace t entries t' report.termSent report.killSent report.gone ∧
          report.notes = entries.filterMap Entry.note? := by
  refine .get fun log w => .bind (os.records_deliver pid .term) fun asked => ?_
  -- there is nobody to wait for, or the first wait decides between the other two ways
  by_cases habsent : asked = .absent
  · simp only [if_pos habsent]
    refine .get fun log' w' => .pure fun t' hnow t before hsent _ => ?_
    obtain ⟨answer, hlater, rfl, rfl⟩ := hsent
    rw [Delivery.ofAnswer_eq_absent_iff.mp habsent]
    exact ⟨.absent hlater, rfl⟩
  simp only [if_neg habsent]
  refine .get fun log₁ w₁ => .bind (os.records_waitUntilGone pid _) fun found => ?_
  obtain ⟨gone, notes⟩ := found
  cases gone with
  | true =>
    refine .get fun log₂ w₂ => .pure fun t₂ hnow₂ t₁ watch hwatched hnow₁ t before hsent _ => ?_
    obtain ⟨hvigil, hnotes⟩ := hwatched
    obtain ⟨answer, hlater, rfl, rfl⟩ := hsent
    have hthere : answer ≠ .error .esrch := fun h => habsent (Delivery.ofAnswer_eq_absent_iff.mpr h)
    subst hnow₁
    rw [List.append_nil]
    dsimp only at hnotes ⊢
    rw [Delivery.ofAnswer_eq_sent]
    refine ⟨.ended hlater hthere hvigil, ?_⟩
    rw [List.filterMap_append, ← hnotes, Delivery.notes_ofAnswer]
  | false =>
    refine .bind (os.records_killAndReap pid grace) fun killed => ?_
    obtain ⟨delivery, gone, later⟩ := killed
    refine .get fun log₂ w₂ => .pure ?_
    intro t' hnow₂ t₂ rest hkilled t₁ watch hwatched hnow₁ t before hsent _
    obtain ⟨hvigil, hnotes⟩ := hwatched
    obtain ⟨answer, hlater, rfl, rfl⟩ := hsent
    obtain ⟨answer', t₃, watch', hlater', rfl, hvigil', rfl, hnotes'⟩ := hkilled
    have hthere : answer ≠ .error .esrch := fun h => habsent (Delivery.ofAnswer_eq_absent_iff.mpr h)
    subst hnow₁
    rw [List.append_nil]
    dsimp only at hnotes hnotes' ⊢
    rw [Delivery.ofAnswer_eq_sent, Delivery.ofAnswer_eq_sent]
    refine ⟨.killed hlater hthere hvigil hlater' hvigil', ?_⟩
    rw [List.filterMap_append, List.filterMap_append, ← hnotes, ← hnotes', Delivery.notes_ofAnswer,
      List.append_assoc]

end Processes

/-! ## What the report may be relied on for -/

/-- All that is done while a process is stopped, and the report on it. -/
structure Escalates (pid : Pid) (grace : Duration) (course : Logbook) (report : KillReport) :
    Prop where
  /-- Nothing is done about another process. -/
  about : ∀ e ∈ course, ∀ p ∈ e.pid?, p = pid
  /-- SIGTERM is sent once, before anything else, and of other signals there is
  only SIGKILL. -/
  term_first : ∃ asked rest, course = asked :: rest ∧ asked.Sends pid .term ∧
    ∀ e ∈ rest, ∀ p signal, e.Sends p signal → signal = .kill
  /-- SIGKILL is sent once if at all, and the process was there until then, for
  the whole of the grace period. -/
  kill_late : ∀ before e after, course = before ++ e :: after → e.Sends pid .kill →
    (∀ x ∈ before ++ after, ¬x.Sends pid .kill) ∧ (∀ x ∈ before, ¬x.FindsGone pid) ∧
      ∃ asked watch check, before = asked :: (watch ++ [check]) ∧ asked.Sends pid .term ∧
        check.found? = some false ∧ asked.ended + grace ≤ check.ended ∧ check.ended ≤ e.began
  /-- Nothing is done any more once the process is known to be gone. -/
  silent : ∀ e ∈ course.dropLast, ¬e.FindsGone pid
  termSent_iff : report.termSent ↔ ∃ e ∈ course, e.act = .signalled pid (some .term) (.ok ())
  killSent_iff : report.killSent ↔ ∃ e ∈ course, e.act = .signalled pid (some .kill) (.ok ())
  gone_iff : report.gone ↔ ∃ e ∈ course, e.FindsGone pid
  /-- A process that was not found gone was killed and was still there after it
  had been given time. -/
  alive : report.gone = false → ∃ before e after check,
    course = before ++ e :: (after ++ [check]) ∧ e.Sends pid .kill ∧
      check.found? = some false ∧ e.ended + max grace killGrace ≤ check.ended
  notes_eq : report.notes = course.filterMap Entry.note?
  length_found_le : (course.filterMap Entry.found?).length ≤
    (grace ⌈/⌉ pollStep + 1) + (max grace killGrace ⌈/⌉ pollStep + 1)

theorem Escalation.escalates {report : KillReport}
    (h : Escalation pid grace t course t' report.termSent report.killSent report.gone)
    (notes : report.notes = course.filterMap Entry.note?) : Escalates pid grace course report where
  about := h.about
  term_first := h.term_first
  kill_late _ _ _ := h.kill_late
  silent := h.silent
  termSent_iff := h.termSent_iff
  killSent_iff := h.killSent_iff
  gone_iff := h.gone_iff
  alive hgone := by
    rw [hgone] at h
    exact h.alive
  notes_eq := notes
  length_found_le := h.length_found_le

/-- All that is done while a process is first given time to end by itself, from
a time `t` on. `stopped` is the report that there would be on stopping it after
that time. -/
inductive Reaps (pid : Pid) (grace : Duration) (t : Nat) (stopped : KillReport) :
    Logbook → KillReport → Prop
  /-- It is found gone, and no signal is sent. -/
  | byItself {watch : Logbook} {check : Entry} {report : KillReport}
      (about : ∀ e ∈ watch ++ [check], ∀ p ∈ e.pid?, p = pid)
      (silent : ∀ e ∈ watch ++ [check], ∀ p signal, ¬e.Sends p signal)
      (alive : ∀ e ∈ watch, ¬e.FindsGone pid) (found : check.found? = some true)
      (termSent_eq : report.termSent = false) (killSent_eq : report.killSent = false)
      (gone_eq : report.gone = true)
      (notes_eq : report.notes = (watch ++ [check]).filterMap Entry.note?) :
      Reaps pid grace t stopped (watch ++ [check]) report
  /-- It is there for the whole of the time, and is then stopped. -/
  | stopped {watch : Logbook} {check : Entry} {course : Logbook}
      (about : ∀ e ∈ watch ++ [check], ∀ p ∈ e.pid?, p = pid)
      (silent : ∀ e ∈ watch ++ [check], ∀ p signal, ¬e.Sends p signal)
      (alive : ∀ e ∈ watch ++ [check], ¬e.FindsGone pid) (found : check.found? = some false)
      (late : t + grace ≤ check.ended) (escalates : Escalates pid grace course stopped) :
      Reaps pid grace t stopped ((watch ++ [check]) ++ course)
        { stopped with notes := (watch ++ [check]).filterMap Entry.note? ++ stopped.notes }

namespace Processes

variable (os : Processes ω) (pid : Pid) (grace : Duration)

theorem escalates_terminate (log : Logbook) (w : ω) :
    ∃ course, os.logged.terminate pid grace (log, w) =
        ((os.terminate pid grace w).1, log ++ course, (os.terminate pid grace w).2) ∧
      Escalates pid grace course (os.terminate pid grace w).1 := by
  obtain ⟨course, hlogged, hescalation, hnotes⟩ := os.records_terminate pid grace log w
  exact ⟨course, hlogged, hescalation.escalates hnotes⟩

theorem reapOrKill_of_gone (w : ω) {w' : ω} {notes : List KillNote}
    (h : os.waitUntilGone pid (os.now w + grace) w = ((true, notes), w')) :
    os.reapOrKill pid grace w = (⟨false, false, true, os.elapsedMs (os.now w) w', notes⟩, w') := by
  rw [reapOrKill, bind_get, bind_of_eq h]
  rfl

theorem reapOrKill_of_alive (w : ω) {w' : ω} {notes : List KillNote}
    (h : os.waitUntilGone pid (os.now w + grace) w = ((false, notes), w')) :
    os.reapOrKill pid grace w =
      ({ (os.terminate pid grace w').1 with notes := notes ++ (os.terminate pid grace w').1.notes },
        (os.terminate pid grace w').2) := by
  rw [reapOrKill, bind_get, bind_of_eq h]
  rfl

theorem reaps_reapOrKill (log : Logbook) (w : ω) :
    ∃ course, os.logged.reapOrKill pid grace (log, w) =
        ((os.reapOrKill pid grace w).1, log ++ course, (os.reapOrKill pid grace w).2) ∧
      Reaps pid grace (os.now w)
        (os.terminate pid grace (os.waitUntilGone pid (os.now w + grace) w).2).1
        course (os.reapOrKill pid grace w).1 := by
  obtain ⟨entries, hlogged, hvigil, hnotes⟩ :=
    os.records_waitUntilGone pid (os.now w + grace) log w
  obtain ⟨watch, check, rfl, hfound, hended, hwatch⟩ := hvigil.last
  have hsilent : ∀ e ∈ watch ++ [check], ∀ p signal, ¬e.Sends p signal :=
    fun e he p signal => hvigil.not_sends he
  rcases hwait : os.waitUntilGone pid (os.now w + grace) w with ⟨⟨gone, notes⟩, w'⟩
  rw [hwait] at hlogged hvigil hnotes hfound hended
  dsimp only at hnotes hfound hended
  subst hnotes
  cases gone with
  | true =>
    rw [os.reapOrKill_of_gone pid grace w hwait]
    refine ⟨watch ++ [check], os.logged.reapOrKill_of_gone pid grace (log, w) hlogged, ?_⟩
    refine .byItself hvigil.about hsilent (fun e he hgone => ?_) hfound rfl rfl rfl rfl
    rw [hvigil.findsGone_iff (List.mem_append_left _ he)] at hgone
    exact hwatch e he hgone
  | false =>
    obtain ⟨course, hstopped, hescalates⟩ :=
      os.escalates_terminate pid grace (log ++ (watch ++ [check])) w'
    rw [os.reapOrKill_of_alive pid grace w hwait]
    refine ⟨(watch ++ [check]) ++ course, ?_, ?_⟩
    · rw [os.logged.reapOrKill_of_alive pid grace (log, w) hlogged, hstopped, List.append_assoc]
    · refine .stopped hvigil.about hsilent (fun e he hgone => ?_) hfound ?_ hescalates
      · rw [hvigil.findsGone_iff he] at hgone
        exact hvigil.alive he hgone
      · rw [hended]
        exact hvigil.late

/-- Whatever is answered, a process that is stopped is asked to end first and
killed only if it stays, and the report says what was done and seen. A process
that may end by itself is sent no signal if it does, and is otherwise stopped
like any other. A logbook changes none of this. -/
theorem escalation_truthful (log : Logbook) (w : ω) :
    (∃ course, os.logged.terminate pid grace (log, w) =
        ((os.terminate pid grace w).1, log ++ course, (os.terminate pid grace w).2) ∧
      Escalates pid grace course (os.terminate pid grace w).1) ∧
    ∃ course, os.logged.reapOrKill pid grace (log, w) =
        ((os.reapOrKill pid grace w).1, log ++ course, (os.reapOrKill pid grace w).2) ∧
      Reaps pid grace (os.now w)
        (os.terminate pid grace (os.waitUntilGone pid (os.now w + grace) w).2).1
        course (os.reapOrKill pid grace w).1 :=
  ⟨os.escalates_terminate pid grace log w, os.reaps_reapOrKill pid grace log w⟩

end Processes
end BucketMount
