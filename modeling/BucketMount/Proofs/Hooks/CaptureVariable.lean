import BucketMount.Proofs.Hooks.Capture
import BucketMount.Proofs.MountList.Characters

/-!
# Captures into a variable

Storing a list in the environment has one way to fail that is no refusal: the
system cannot keep a zero byte, and the program is broken off. No stage before
looks for one. A zero character of the request, of the stored text or of the
base reaches the value (`Grant.mem_encode_iff`), and one in the name of the
variable passes the validation, which looks for an empty name and for an
equals sign only (`Config.settable_iff`). `capture_variable_exact` says when a
capture is broken off, and that this leaves the environment as it was, too.
-/

namespace BucketMount

/-- The character that ends a string of the system. -/
def Text.zero : Char := '\x00'

theorem Text.kept_zero : Kept zero where
  ne_colon := by decide
  ne_semicolon := by decide
  ne_slash := by decide
  ne_dot := by decide

theorem Text.zero_mem_iff {t : Text} : Environment.nul ∈ toUtf8 t ↔ zero ∈ t :=
  mem_toUtf8_iff (a := zero) (by decide)

theorem Text.equalsSign_mem_iff {t : Text} : Environment.equalsSign ∈ toUtf8 t ↔ '=' ∈ t :=
  mem_toUtf8_iff (a := '=') (by decide)

/-! ## What validation leaves for the system to refuse -/

theorem Config.transportVar_of_validate {c : Config} (h : c.validate = .ok c) :
    c.transportVar ≠ [] ∧ '=' ∉ c.transportVar := by
  unfold validate at h
  split at h
  · rename_i hfaults
    simp only [faults, List.append_eq_nil_iff, ite_eq_right_iff, List.cons_ne_nil, imp_false,
      not_or] at hfaults
    exact hfaults.1.1.1.1.1.1.1.1
  · cases h

/-- The variable of a valid configuration can be set, but for a zero byte. -/
theorem Config.settable_iff {c : Config} (h : c.validate = .ok c) (t : Text) :
    Environment.Settable (Text.toUtf8 c.transportVar) (Text.toUtf8 t) ↔
      Text.zero ∉ c.transportVar ∧ Text.zero ∉ t := by
  obtain ⟨hne, hsign⟩ := Config.transportVar_of_validate h
  unfold Environment.Settable
  rw [Ne, Text.toUtf8_eq_nil_iff, Text.equalsSign_mem_iff, Text.zero_mem_iff, Text.zero_mem_iff]
  exact ⟨fun h => h.2.2, fun h => ⟨hne, hsign, h⟩⟩

namespace Hooks

open MountList (encode)

variable {stored : Option Text} {raw : Text} {base : Bytes} {env : Environment}
variable {requested resolved existing merged : MountList}

/-- Where the value that a request leads to has a zero character from. -/
def BringsZero (stored : Option Text) (raw : Text) (base : Bytes) (requested : MountList) :
    Prop :=
  (∃ t, stored = some t ∧ Text.zero ∈ t) ∨ Text.zero ∈ raw ∨
    (∃ d ∈ requested, ¬d.isAbsolute) ∧ Environment.nul ∈ base

theorem mem_iff_of_ofStored (h : MountList.ofStored stored = .ok existing) :
    (∃ d ∈ existing, Text.zero ∈ d.token) ↔ ∃ t, stored = some t ∧ Text.zero ∈ t := by
  cases stored with
  | none =>
    cases h
    simp
  | some t => simpa using MountList.mem_iff_of_decode Text.kept_zero h

theorem Grant.mem_encode_iff (g : Grant stored raw base requested resolved existing) :
    Text.zero ∈ encode (existing.extended resolved) ↔ BringsZero stored raw base requested := by
  have hexisting := mem_iff_of_ofStored g.existing_eq
  have hresolved := MountList.mem_iff_of_resolveAll Text.kept_zero (by decide) g.resolved_eq
  rw [MountList.mem_iff_of_decode Text.kept_zero g.requested_eq] at hresolved
  rw [MountList.mem_encode_iff Text.kept_zero.ne_semicolon, BringsZero, ← hexisting]
  simp only [MountList.mem_extended, or_and_right, exists_or, hresolved]
  rfl

/-! ## The stages -/

theorem admit_error (e : MountError) (raw : Text) (base : Bytes) :
    MountList.admit raw base (.error e) =
      MountList.decode raw >>= fun requested =>
        if requested = [] then .error (.parse raw .nothingRequested)
        else MountList.resolveAll base requested >>= fun _ => .error e :=
  rfl

/-- Only a slot that can be read has a request granted. -/
theorem admit_eq_ok_iff_load {loaded : Except MountError (Option Text)} :
    MountList.admit raw base loaded = .ok merged ↔
      ∃ stored, loaded = .ok stored ∧ MountList.admit raw base (.ok stored) = .ok merged := by
  cases loaded with
  | error e =>
    constructor
    · intro h
      rw [admit_error, bind_eq_ok_iff] at h
      obtain ⟨requested, _, h⟩ := h
      split at h
      · cases h
      · obtain ⟨_, _, h⟩ := bind_eq_ok_iff.mp h
        cases h
    · rintro ⟨stored, h, _⟩
      cases h
  | ok stored => simp

/-! ## The variable -/

theorem store_environment (name : Text) (capacity : Nat) (t : Text) (env : Environment) :
    (Transport.environment name capacity).store t env =
      if Environment.Settable (Text.toUtf8 name) (Text.toUtf8 t) then
        (.ok (), env.set (Text.toUtf8 name) (Text.toUtf8 t))
      else (.error .aborted, env) := by
  change (if _ then _ else _ : StateM Environment (Except Failure Unit)) env = _
  split <;> rfl

theorem load_environment_eq_some {name t : Text} {capacity : Nat}
    (h : (Transport.environment name capacity).load env = .ok (some t)) :
    env.get? (Text.toUtf8 name) = some (Text.toUtf8 t) := by
  simp only [Transport.environment] at h
  split at h
  · cases h
  · rename_i value hvalue
    split at h
    · rename_i t' htext
      cases h
      rw [hvalue, Text.ofUtf8?_eq_some_iff.mp htext]
    · cases h

/-- A request that all stages before the storing let through, with the list
that is to be stored. -/
def Arrives (c : Config) (env : Environment) (raw : Text) (base : Bytes)
    (stored : Option Text) (requested merged : MountList) : Prop :=
  (Transport.ofConfig c).load env = .ok stored ∧
    (∃ resolved existing, Grant stored raw base requested resolved existing ∧
      merged = existing.extended resolved) ∧
    Text.utf8Size (encode merged) + 1 ≤ c.transportCapacity

variable {c : Config}

theorem Arrives.zero_mem_iff (h : Arrives c env raw base stored requested merged) :
    Text.zero ∈ encode merged ↔ BringsZero stored raw base requested := by
  obtain ⟨_, ⟨resolved, existing, g, rfl⟩, _⟩ := h
  exact g.mem_encode_iff

theorem exists_arrives_iff :
    (∃ stored requested, Arrives c env raw base stored requested merged) ↔
      MountList.admit raw base ((Transport.ofConfig c).load env) = .ok merged ∧
        merged.encodeBounded c.transportCapacity = .ok (encode merged) := by
  rw [admit_eq_ok_iff_load, MountList.encodeBounded_eq_ok_iff]
  simp only [admit_eq_ok_iff, Arrives, and_true]
  constructor
  · rintro ⟨stored, requested, hload, ⟨resolved, existing, g, rfl⟩, hfits⟩
    exact ⟨⟨stored, hload, requested, resolved, existing, g, rfl⟩, g.encodable, hfits⟩
  · rintro ⟨⟨stored, hload, requested, resolved, existing, g, hmerged⟩, _, hfits⟩
    exact ⟨stored, requested, hload, ⟨resolved, existing, g, hmerged⟩, hfits⟩

/-- What arrives is determined by the request and the environment. -/
theorem Arrives.unique {stored' : Option Text} {requested' merged' : MountList}
    (h : Arrives c env raw base stored requested merged)
    (h' : Arrives c env raw base stored' requested' merged') :
    stored' = stored ∧ requested' = requested ∧ merged' = merged := by
  have hgranted := (exists_arrives_iff.mp ⟨_, _, h⟩).1
  have hgranted' := (exists_arrives_iff.mp ⟨_, _, h'⟩).1
  obtain ⟨hload, ⟨_, _, g, _⟩, _⟩ := h
  obtain ⟨hload', ⟨_, _, g', _⟩, _⟩ := h'
  refine ⟨?_, ?_, ?_⟩
  · exact Except.ok.inj (hload'.symm.trans hload)
  · exact Except.ok.inj (g'.requested_eq.symm.trans g.requested_eq)
  · exact Except.ok.inj (hgranted'.symm.trans hgranted)

/-- What can come of a capture into the variable. -/
inductive VariableOutcome (c : Config) (env : Environment) (raw : Text) (base : Bytes) :
    Except Failure MountList × Environment → Prop where
  /-- A stage before the storing refused the request. -/
  | refused {e : MountError} (stays : ¬∃ stored requested merged,
      Arrives c env raw base stored requested merged) :
      VariableOutcome c env raw base (.error (.refused e), env)
  | stored {stored : Option Text} {requested merged : MountList}
      (arrives : Arrives c env raw base stored requested merged)
      (name : Text.zero ∉ c.transportVar) (value : ¬BringsZero stored raw base requested) :
      VariableOutcome c env raw base
        (.ok merged, env.set (Text.toUtf8 c.transportVar) (Text.toUtf8 (encode merged)))
  | aborted {stored : Option Text} {requested merged : MountList}
      (arrives : Arrives c env raw base stored requested merged)
      (zero : Text.zero ∈ c.transportVar ∨ BringsZero stored raw base requested) :
      VariableOutcome c env raw base (.error .aborted, env)

theorem variableOutcome_capture (hvalid : c.validate = .ok c) (env : Environment) (raw : Text)
    (base : Bytes) :
    VariableOutcome c env raw base (capture (Transport.ofConfig c) raw base env) := by
  have hcapacity : (Transport.ofConfig c).capacity env = c.transportCapacity := rfl
  rw [capture_eq, hcapacity]
  cases hgranted : MountList.admit raw base ((Transport.ofConfig c).load env) with
  | error e =>
    apply VariableOutcome.refused
    rintro ⟨stored, requested, merged, h⟩
    cases hgranted.symm.trans (exists_arrives_iff.mp ⟨_, _, h⟩).1
  | ok merged =>
    simp only
    cases hencode : merged.encodeBounded c.transportCapacity with
    | error e =>
      apply VariableOutcome.refused
      rintro ⟨stored, requested, merged', h⟩
      obtain ⟨hgranted', hencode'⟩ := exists_arrives_iff.mp ⟨_, _, h⟩
      cases hgranted.symm.trans hgranted'
      cases hencode.symm.trans hencode'
    | ok encoded =>
      obtain ⟨_, _, rfl⟩ := MountList.encodeBounded_eq_ok_iff.mp hencode
      obtain ⟨stored, requested, h⟩ := exists_arrives_iff.mpr ⟨hgranted, hencode⟩
      -- all that is left is whether the system takes the name and the value
      have hsettable := Config.settable_iff hvalid (encode merged)
      rw [h.zero_mem_iff] at hsettable
      simp only [store_environment, Transport.ofConfig]
      split
      · rename_i hset
        obtain ⟨hname, hvalue⟩ := hsettable.mp hset
        exact .stored h hname hvalue
      · rename_i hset
        apply VariableOutcome.aborted h
        by_contra hnone
        rw [not_or] at hnone
        exact hset (hsettable.mpr hnone)

theorem capture_eq_aborted_iff (hvalid : c.validate = .ok c) :
    (capture (Transport.ofConfig c) raw base env).1 = .error .aborted ↔
      ∃ stored requested merged, Arrives c env raw base stored requested merged ∧
        (Text.zero ∈ c.transportVar ∨ BringsZero stored raw base requested) := by
  have houtcome := variableOutcome_capture hvalid env raw base
  generalize capture (Transport.ofConfig c) raw base env = outcome at houtcome ⊢
  constructor
  · intro h
    cases houtcome with
    | refused stays => cases h
    | stored arrives name value => cases h
    | aborted arrives zero => exact ⟨_, _, _, arrives, zero⟩
  · rintro ⟨stored, requested, merged, h, hzero⟩
    cases houtcome with
    | refused stays => exact absurd ⟨_, _, _, h⟩ stays
    | stored arrives name value =>
      obtain ⟨rfl, rfl, _⟩ := h.unique arrives
      exact absurd hzero (not_or.mpr ⟨name, value⟩)
    | aborted arrives zero => rfl

theorem capture_eq_stored_iff (hvalid : c.validate = .ok c) {env' : Environment} :
    capture (Transport.ofConfig c) raw base env = (.ok merged, env') ↔
      (∃ stored requested, Arrives c env raw base stored requested merged ∧
        Text.zero ∉ c.transportVar ∧ ¬BringsZero stored raw base requested) ∧
      env' = env.set (Text.toUtf8 c.transportVar) (Text.toUtf8 (encode merged)) := by
  have houtcome := variableOutcome_capture hvalid env raw base
  generalize capture (Transport.ofConfig c) raw base env = outcome at houtcome ⊢
  constructor
  · rintro rfl
    cases houtcome with
    | stored arrives name value => exact ⟨⟨_, _, arrives, name, value⟩, rfl⟩
  · rintro ⟨⟨stored, requested, h, hname, hvalue⟩, rfl⟩
    cases houtcome with
    | refused stays => exact absurd ⟨_, _, _, h⟩ stays
    | stored arrives name value =>
      obtain ⟨_, _, rfl⟩ := h.unique arrives
      rfl
    | aborted arrives zero =>
      obtain ⟨rfl, rfl, _⟩ := h.unique arrives
      exact absurd zero (not_or.mpr ⟨hname, hvalue⟩)

/-- No zero in what a capture reads, no zero in what it stores. -/
theorem Arrives.not_bringsZero (h : Arrives c env raw base stored requested merged)
    (hraw : Text.zero ∉ raw) (hbase : Environment.nul ∉ base)
    (henv : ∀ value, env.get? (Text.toUtf8 c.transportVar) = some value →
      Environment.nul ∉ value) : ¬BringsZero stored raw base requested := by
  rintro (⟨t, rfl, ht⟩ | hzero | ⟨_, hzero⟩)
  · exact henv _ (load_environment_eq_some h.1) (Text.zero_mem_iff.mpr ht)
  · exact hraw hzero
  · exact hbase hzero

/-- **Exact outcome.** A capture into the variable of a valid configuration is
broken off exactly if all stages before the storing let the request through and
the name of the variable, the request, the text in the variable or, where a
directive is relative, the base has a zero in it; a real environment and a real
directory have none. A capture succeeds exactly if the request is let through
and there is no such zero, and then the text of the list it answers is stored. A
capture that fails, whether the request was refused or the program broken off,
leaves the environment as it was. -/
theorem capture_variable_exact (hvalid : c.validate = .ok c) (env : Environment) (raw : Text)
    (base : Bytes) :
    ((capture (Transport.ofConfig c) raw base env).1 = .error .aborted ↔
      ∃ stored requested merged, Arrives c env raw base stored requested merged ∧
        (Text.zero ∈ c.transportVar ∨ BringsZero stored raw base requested)) ∧
    (∀ merged env', capture (Transport.ofConfig c) raw base env = (.ok merged, env') ↔
      (∃ stored requested, Arrives c env raw base stored requested merged ∧
        Text.zero ∉ c.transportVar ∧ ¬BringsZero stored raw base requested) ∧
      env' = env.set (Text.toUtf8 c.transportVar) (Text.toUtf8 (encode merged))) ∧
    (∀ failure env', capture (Transport.ofConfig c) raw base env = (.error failure, env') →
      env' = env) ∧
    (Text.zero ∉ c.transportVar → Text.zero ∉ raw → Environment.nul ∉ base →
      (∀ value, env.get? (Text.toUtf8 c.transportVar) = some value → Environment.nul ∉ value) →
      (capture (Transport.ofConfig c) raw base env).1 ≠ .error .aborted) := by
  refine ⟨capture_eq_aborted_iff hvalid, fun _ _ => capture_eq_stored_iff hvalid, ?_, ?_⟩
  · intro failure env' h
    have houtcome := variableOutcome_capture hvalid env raw base
    rw [h] at houtcome
    cases houtcome <;> rfl
  · intro hname hraw hbase henv haborted
    obtain ⟨stored, requested, merged, h, hzero⟩ := (capture_eq_aborted_iff hvalid).mp haborted
    exact hzero.elim hname (h.not_bringsZero hraw hbase henv)

theorem capture_standard_not_aborted :
    Config.standard.validate = .ok Config.standard ∧
      (capture (Transport.ofConfig Config.standard) "b:/a".toList (Text.toUtf8 "/".toList) []).1 ≠
        .error .aborted := by
  have hvalid : Config.standard.validate = .ok Config.standard := rfl
  obtain ⟨_, _, _, hkept⟩ :=
    capture_variable_exact hvalid [] "b:/a".toList (Text.toUtf8 "/".toList)
  refine ⟨hvalid, hkept (by decide) (by decide) (by decide) ?_⟩
  intro value hvalue
  cases hvalue

/-- A zero in the path of a request breaks the program off. -/
theorem capture_standard_aborted :
    Config.standard.validate = .ok Config.standard ∧
      capture (Transport.ofConfig Config.standard) "b:/a\x00b".toList (Text.toUtf8 "/".toList) [] =
        (.error .aborted, []) :=
  ⟨rfl, rfl⟩

end Hooks
end BucketMount
