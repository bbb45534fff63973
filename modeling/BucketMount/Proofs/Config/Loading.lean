import BucketMount.Config.File
import BucketMount.Proofs.Config.Setting
import BucketMount.Proofs.Text.Utf8

/-!
# Loading overrides the standard configuration

What a configuration file means: an object names some settings, at most once each
(`Admissible`), and the configuration is the standard one but for these (`Overrides`).
Neither depends on the order of the members or on keys that are no settings
(`Rearranged`). The reader goes through the members one by one and keeps account of
the settings that it has seen; what is true of the members that are left carries over
from member to member (`readMembers_iff`). From this follows what loading a text comes
to, for all texts that stand for a value and for those that stand for none
(`load_laws`).
-/

namespace BucketMount.Config

open Json.Token (Spelled)

/-- The members of an object. -/
abbrev Members := List (Option Text × Json)

/-- The members name settings, each at most once and with a value that it takes. There may
be other keys, with any values; but a key has to stand for a text, which half of a
surrogate pair does not. -/
structure Admissible (members : Members) : Prop where
  keys : ∀ m ∈ members, m.1 ≠ none
  once : ∀ s : Setting, members.countP (fun m => m.1 = some s.name) ≤ 1
  typed : ∀ (s : Setting) v, (some s.name, v) ∈ members → ∃ x, s.form.Admits x ∧ v = x.json

/-- One configuration is the other one but for the settings that the members name. -/
structure Overrides (members : Members) (c c' : Config) : Prop where
  named : ∀ (s : Setting) x, (some s.name, Setting.Value.json x) ∈ members → s.get c' = x
  kept : ∀ s : Setting, (∀ v, (some s.name, v) ∉ members) → s.get c' = s.get c

/-- The same members in another order, but for keys that are no settings. -/
inductive Rearranged : Members → Members → Prop where
  | permuted {a b : Members} (perm : a.Perm b) : Rearranged a b
  | added {a : Members} {key : Text} {v : Json} (unknown : ∀ s : Setting, s.name ≠ key) :
      Rearranged a ((some key, v) :: a)
  | symm {a b : Members} (h : Rearranged a b) : Rearranged b a
  | trans {a b d : Members} (hab : Rearranged a b) (hbd : Rearranged b d) : Rearranged a d

/-- The members by which an object gives the first settings in their order. -/
def inOrder (values : List Json) : Members :=
  (Setting.all.zip values).map fun (s, v) => (some s.name, v)

/-- What loading a file with this text comes to. -/
def loaded (path : Bytes) (t : Text) : Except MountError Config := ofFile path (.ok (Text.toUtf8 t))

/-! ## Members one by one -/

section Members

variable {members a b : Members} {c c' : Config} {seen : List Setting} {key : Text} {v : Json}

theorem mem_cons_named {s u : Setting} {w : Json} :
    (some u.name, w) ∈ (some s.name, v) :: members ↔
      u = s ∧ w = v ∨ (some u.name, w) ∈ members := by
  simp only [List.mem_cons, Prod.mk.injEq, Option.some.injEq]
  exact or_congr_left (and_congr_left' ⟨Setting.name_injective, fun h => h ▸ rfl⟩)

theorem mem_cons_unknown {u : Setting} {w : Json} (hunknown : ∀ s : Setting, s.name ≠ key) :
    (some u.name, w) ∈ (some key, v) :: members ↔ (some u.name, w) ∈ members := by
  simp [hunknown u]

theorem countP_cons_unknown (hunknown : ∀ s : Setting, s.name ≠ key) (u : Setting) :
    ((some key, v) :: members).countP (fun m => m.1 = some u.name) =
      members.countP (fun m => m.1 = some u.name) := by
  simp [(hunknown u).symm]

theorem countP_eq_zero_iff (s : Setting) :
    members.countP (fun m => m.1 = some s.name) = 0 ↔ ∀ v, (some s.name, v) ∉ members := by
  simp only [List.countP_eq_zero, decide_eq_true_eq]
  constructor
  · exact fun h v hmem => h _ hmem rfl
  · rintro h ⟨k, v⟩ hmem rfl
    exact h v hmem

theorem admissible_cons_unknown (hunknown : ∀ s : Setting, s.name ≠ key) :
    Admissible ((some key, v) :: members) ↔ Admissible members := by
  constructor
  · rintro ⟨keys, once, typed⟩
    simp only [countP_cons_unknown hunknown, mem_cons_unknown hunknown] at once typed
    exact ⟨(List.forall_mem_cons.mp keys).2, once, typed⟩
  · rintro ⟨keys, once, typed⟩
    refine ⟨List.forall_mem_cons.mpr ⟨by simp, keys⟩, ?_, ?_⟩
    · simpa only [countP_cons_unknown hunknown] using once
    · simpa only [mem_cons_unknown hunknown] using typed

theorem overrides_cons_unknown (hunknown : ∀ s : Setting, s.name ≠ key) :
    Overrides ((some key, v) :: members) c c' ↔ Overrides members c c' := by
  constructor
  · rintro ⟨named, kept⟩
    simp only [mem_cons_unknown hunknown] at named kept
    exact ⟨named, kept⟩
  · rintro ⟨named, kept⟩
    refine ⟨?_, ?_⟩
    · simpa only [mem_cons_unknown hunknown] using named
    · simpa only [mem_cons_unknown hunknown] using kept

theorem countP_cons_named (s u : Setting) :
    ((some s.name, v) :: members).countP (fun m => m.1 = some u.name) =
      members.countP (fun m => m.1 = some u.name) + if u = s then 1 else 0 := by
  have hname : s.name = u.name ↔ u = s := ⟨fun h => Setting.name_injective h.symm, fun h => h ▸ rfl⟩
  simp only [List.countP_cons, Option.some.injEq, decide_eq_true_eq, hname]

/-- A setting at the front is admissible if it takes its value and does not come again. -/
theorem admissible_cons_named {s : Setting} {x : Setting.Value} (hx : s.form.Admits x) :
    Admissible ((some s.name, x.json) :: members) ↔
      Admissible members ∧ ∀ v, (some s.name, v) ∉ members := by
  constructor
  · rintro ⟨keys, once, typed⟩
    simp only [countP_cons_named, mem_cons_named] at once typed
    refine ⟨⟨(List.forall_mem_cons.mp keys).2, fun u => ?_, fun u w hw => typed u w (.inr hw)⟩, ?_⟩
    · have := once u
      omega
    · have := once s
      rw [if_pos rfl] at this
      exact (countP_eq_zero_iff s).mp (by omega)
  · rintro ⟨⟨keys, once, typed⟩, habsent⟩
    refine ⟨List.forall_mem_cons.mpr ⟨by simp, keys⟩, fun u => ?_, fun u w hw => ?_⟩
    · rw [countP_cons_named]
      split
      next hu =>
        rw [hu, (countP_eq_zero_iff s).mpr habsent]
      · exact once u
    · rcases mem_cons_named.mp hw with ⟨rfl, rfl⟩ | hw
      · exact ⟨x, hx, rfl⟩
      · exact typed u w hw

/-- What a setting at the front is set to, it stays set to. -/
theorem overrides_cons_named {s : Setting} {x : Setting.Value} (hx : s.form.Admits x)
    (habsent : ∀ v, (some s.name, v) ∉ members) :
    Overrides ((some s.name, x.json) :: members) c c' ↔ Overrides members (s.put x c) c' := by
  constructor
  · rintro ⟨named, kept⟩
    simp only [mem_cons_named] at named kept
    refine ⟨fun u y hy => named u y (.inr hy), fun u hu => ?_⟩
    rw [Setting.get_put hx]
    split
    next hus => exact named u x (.inl ⟨hus, rfl⟩)
    next hus => exact kept u fun w hw => hw.elim (fun h => hus h.1) (hu w)
  · rintro ⟨named, kept⟩
    refine ⟨fun u y hy => ?_, fun u hu => ?_⟩
    · rcases mem_cons_named.mp hy with ⟨rfl, hxy⟩ | hy
      · rw [kept u habsent, Setting.get_put hx, if_pos rfl, Setting.Value.json_injective hxy]
      · exact named u y hy
    · simp only [mem_cons_named, not_or] at hu
      have hus : u ≠ s := fun hus => (hu x.json).1 ⟨hus, rfl⟩
      rw [kept u fun w => (hu w).2, Setting.get_put hx, if_neg hus]

/-- There is a configuration that admissible members lead to. -/
theorem exists_overrides (h : Admissible members) (c : Config) : ∃ c', Overrides members c c' := by
  induction members generalizing c with
  | nil => exact ⟨c, by simp, fun _ _ => rfl⟩
  | cons m members ih =>
    obtain ⟨_ | key, v⟩ := m
    · exact absurd rfl (h.keys _ List.mem_cons_self)
    by_cases hkey : ∃ s : Setting, s.name = key
    · obtain ⟨s, rfl⟩ := hkey
      obtain ⟨x, hx, rfl⟩ := h.typed s v List.mem_cons_self
      obtain ⟨hrest, habsent⟩ := (admissible_cons_named hx).mp h
      obtain ⟨c', hc'⟩ := ih hrest (s.put x c)
      exact ⟨c', (overrides_cons_named hx habsent).mpr hc'⟩
    · have hunknown := not_exists.mp hkey
      obtain ⟨c', hc'⟩ := ih ((admissible_cons_unknown hunknown).mp h) c
      exact ⟨c', (overrides_cons_unknown hunknown).mpr hc'⟩

theorem readMember?_named (s : Setting) (v : Json) (c : Config) (seen : List Setting) :
    readMember? (c, seen) (some s.name, v) =
      if s ∈ seen then none else (s.form.read? v).map fun x => (s.put x c, s :: seen) := by
  simp only [readMember?, Setting.ofName?_name, Setting.read?_eq, Option.map_map]
  rfl

/-- The members that are left are read to the end exactly if they are admissible and
name no setting that has been seen, and they override what has been read so far. -/
theorem readMembers_iff (hnumber : ∀ m ∈ members, ∀ t, m.2 = .number t → Json.IsNumber t) :
    (∃ seen', members.foldlM readMember? (c, seen) = some (c', seen')) ↔
      Admissible members ∧ (∀ s ∈ seen, ∀ v, (some s.name, v) ∉ members) ∧
        Overrides members c c' := by
  induction members generalizing c seen with
  | nil =>
    constructor
    · rintro ⟨seen', h⟩
      cases h
      exact ⟨⟨by simp, by simp, by simp⟩, by simp, by simp, fun _ _ => rfl⟩
    · rintro ⟨-, -, -, kept⟩
      exact ⟨seen, by rw [ext_get fun s => kept s (by simp)]; rfl⟩
  | cons m members ih =>
    obtain ⟨hv, hrest⟩ := List.forall_mem_cons.mp hnumber
    obtain ⟨_ | key, v⟩ := m
    · -- a key that is no text
      constructor
      · rintro ⟨_, h⟩
        cases h
      · rintro ⟨⟨keys, -, -⟩, -⟩
        exact absurd rfl (keys _ List.mem_cons_self)
    rw [List.foldlM_cons]
    cases hkey : Setting.ofName? key with
    | none =>
      have hunknown (s : Setting) : s.name ≠ key := by
        rintro rfl
        rw [Setting.ofName?_name] at hkey
        cases hkey
      have hread : readMember? (c, seen) (some key, v) = some (c, seen) := by simp [readMember?, hkey]
      rw [hread, Option.bind_eq_bind, Option.bind_some, ih hrest,
        admissible_cons_unknown hunknown, overrides_cons_unknown hunknown]
      simp only [mem_cons_unknown hunknown]
    | some s =>
      obtain rfl := Setting.ofName?_eq_some_iff.mp hkey
      rw [readMember?_named]
      by_cases hs : s ∈ seen
      · rw [if_pos hs]
        constructor
        · rintro ⟨_, h⟩
          cases h
        · rintro ⟨-, habsent, -⟩
          exact absurd List.mem_cons_self (habsent s hs v)
      rw [if_neg hs]
      cases hx : s.form.read? v with
      | none =>
        constructor
        · rintro ⟨_, h⟩
          cases h
        · rintro ⟨⟨-, -, typed⟩, -⟩
          obtain ⟨x, hadmits, rfl⟩ := typed s v List.mem_cons_self
          rw [Setting.Form.read?_json hadmits] at hx
          cases hx
      | some x =>
        obtain ⟨hadmits, rfl⟩ := Setting.Form.admits_of_read? hv hx
        rw [Option.map_some, Option.bind_eq_bind, Option.bind_some, ih hrest,
          admissible_cons_named hadmits, List.forall_mem_cons]
        constructor
        · rintro ⟨admissible, ⟨habsent, hseen⟩, overrides⟩
          refine ⟨⟨admissible, habsent⟩, fun u hu w => ?_, ?_⟩
          · rw [mem_cons_named, not_or]
            exact ⟨fun hus => hs (hus.1 ▸ hu), hseen u hu w⟩
          · exact (overrides_cons_named hadmits habsent).mpr overrides
        · rintro ⟨⟨admissible, habsent⟩, hseen, overrides⟩
          refine ⟨admissible, ⟨habsent, fun u hu w hw => hseen u hu w ?_⟩, ?_⟩
          · exact List.mem_cons_of_mem _ hw
          · exact (overrides_cons_named hadmits habsent).mp overrides

/-- An object is read exactly if its members are admissible. -/
theorem ofJson?_object_iff (hnumber : ∀ m ∈ members, ∀ t, m.2 = .number t → Json.IsNumber t) :
    ofJson? (.object members) = some c ↔ Admissible members ∧ Overrides members standard c := by
  have hrun : (∃ seen', members.foldlM readMember? (standard, []) = some (c, seen')) ↔ _ :=
    readMembers_iff hnumber
  simp only [List.not_mem_nil, false_implies, implies_true, true_and] at hrun
  rw [← hrun, ofJson?, Option.map_eq_some_iff]
  constructor
  · rintro ⟨⟨c', seen'⟩, h, rfl⟩
    exact ⟨seen', h⟩
  · rintro ⟨seen', h⟩
    exact ⟨(c, seen'), h, rfl⟩

end Members

/-! ## Other members and other forms -/

section Forms

variable {a b : Members} {c c' : Config}

theorem Admissible.perm (h : Admissible a) (perm : a.Perm b) : Admissible b where
  keys m hm := h.keys m (perm.mem_iff.mpr hm)
  once s := by
    rw [← perm.countP_eq]
    exact h.once s
  typed s v hv := h.typed s v (perm.mem_iff.mpr hv)

theorem Overrides.perm (h : Overrides a c c') (perm : a.Perm b) : Overrides b c c' where
  named s x hx := h.named s x (perm.mem_iff.mpr hx)
  kept s hs := h.kept s fun v hv => hs v (perm.mem_iff.mp hv)

/-- What members come to does not depend on their order or on unknown keys. -/
theorem Rearranged.invariant (h : Rearranged a b) :
    (Admissible a ↔ Admissible b) ∧ ∀ c c', Overrides a c c' ↔ Overrides b c c' := by
  induction h with
  | permuted perm =>
    exact ⟨⟨(·.perm perm), (·.perm perm.symm)⟩, fun c c' => ⟨(·.perm perm), (·.perm perm.symm)⟩⟩
  | added unknown =>
    exact ⟨(admissible_cons_unknown unknown).symm, fun _ _ => (overrides_cons_unknown unknown).symm⟩
  | symm _ ih => exact ⟨ih.1.symm, fun c c' => (ih.2 c c').symm⟩
  | trans _ _ ihab ihbd => exact ⟨ihab.1.trans ihbd.1, fun c c' => (ihab.2 c c').trans (ihbd.2 c c')⟩

/-- Settings that have not been seen and come once are read as from a list. -/
theorem readMembers_map {l : List (Setting × Json)} {seen : List Setting}
    (hnodup : (l.map Prod.fst).Nodup) (hseen : ∀ s ∈ seen, s ∉ l.map Prod.fst) :
    ((l.map fun (s, v) => (some s.name, v)).foldlM readMember? (c, seen)).map Prod.fst =
      l.foldlM (fun c (s, v) => s.read? v c) c := by
  induction l generalizing c seen with
  | nil => rfl
  | cons m l ih =>
    obtain ⟨s, v⟩ := m
    obtain ⟨habsent, hnodup⟩ := List.nodup_cons.mp hnodup
    have hs : s ∉ seen := fun hs => hseen s hs List.mem_cons_self
    have hrest : ∀ u ∈ s :: seen, u ∉ l.map Prod.fst := by
      rintro u hu hmem
      rcases List.mem_cons.mp hu with rfl | hu
      · exact habsent hmem
      · exact hseen u hu (List.mem_cons_of_mem _ hmem)
    rw [List.map_cons, List.foldlM_cons, List.foldlM_cons, readMember?_named, if_neg hs]
    dsimp only
    rw [Setting.read?_eq]
    cases hx : s.form.read? v with
    | none => rfl
    | some x => exact ih hnodup hrest

theorem nodup_map_fst_zip {α β : Type} {l : List α} (h : l.Nodup) (l' : List β) :
    ((l.zip l').map Prod.fst).Nodup := by
  induction l generalizing l' with
  | nil => exact .nil
  | cons a l ih =>
    cases l' with
    | nil => exact .nil
    | cons b l' =>
      obtain ⟨ha, hl⟩ := List.nodup_cons.mp h
      refine List.nodup_cons.mpr ⟨fun hmem => ha ?_, ih hl l'⟩
      obtain ⟨⟨a', b'⟩, hzip, rfl⟩ := List.mem_map.mp hmem
      exact (List.of_mem_zip hzip).1

/-- An array is read as the object of the first settings. -/
theorem ofJson?_array {values : List Json} (h : values.length ≤ Setting.all.length) :
    ofJson? (.array values) = ofJson? (.object (inOrder values)) := by
  have hnodup : ((Setting.all.zip values).map Prod.fst).Nodup := nodup_map_fst_zip (by decide) values
  have harray : ofJson? (.array values) =
      (Setting.all.zip values).foldlM (fun c (s, v) => s.read? v c) standard :=
    if_neg (Nat.not_lt.mpr h)
  have hseen : ∀ s ∈ ([] : List Setting), s ∉ (Setting.all.zip values).map Prod.fst := by simp
  rw [harray, ← readMembers_map hnodup hseen]
  rfl

end Forms

/-! ## Written configurations -/

section Written

variable {c : Config}

/-- The members that are written for a configuration. -/
def written (c : Config) : Members := Setting.all.map fun s => (some s.name, (s.get c).json)

theorem mem_written {s : Setting} {v : Json} : (some s.name, v) ∈ written c ↔ v = (s.get c).json := by
  simp only [written, List.mem_map, Prod.mk.injEq, Option.some.injEq]
  constructor
  · rintro ⟨u, -, hname, rfl⟩
    rw [Setting.name_injective hname]
  · rintro rfl
    exact ⟨s, s.mem_all, rfl, rfl⟩

theorem admissible_written (h : ∀ s : Setting, s.form.Admits (s.get c)) : Admissible (written c) where
  keys := by simp [written]
  once s := by
    have hcount : (written c).countP (fun m => m.1 = some s.name) = Setting.all.count s := by
      rw [written, List.countP_map, List.count]
      refine List.countP_congr fun u _ => ?_
      simp only [Function.comp_apply, Option.some.injEq, decide_eq_true_eq, beq_iff_eq]
      exact ⟨Setting.name_injective, fun h => h ▸ rfl⟩
    rw [hcount]
    exact List.nodup_iff_count.mp (by decide) s
  typed s v hv := ⟨s.get c, h s, mem_written.mp hv⟩

theorem toJson_eq (c : Config) : c.toJson = .object (written c) := by
  simp [toJson, Json.record, Setting.write_eq, written]

theorem printable_toJson (c : Config) : c.toJson.Printable := by
  rw [toJson_eq]
  refine .object (fun m hm => ?_) fun m hm => ?_
  all_goals obtain ⟨s, -, rfl⟩ := List.mem_map.mp hm
  · exact ⟨s.name, rfl⟩
  · exact (s.get c).printable_json

/-- A configuration is read from what is written for it, if its numbers are in range. -/
theorem ofJson?_toJson (h : ∀ s : Setting, s.form.Admits (s.get c)) : ofJson? c.toJson = some c := by
  rw [toJson_eq, ofJson?_object_iff]
  · refine ⟨admissible_written h, fun s x hx => ?_, fun s hs => ?_⟩
    · exact Setting.Value.json_injective (mem_written.mp hx).symm
    · exact absurd (mem_written.mpr rfl) (hs _)
  · intro m hm t ht
    obtain ⟨s, -, rfl⟩ := List.mem_map.mp hm
    have hprintable := (s.get c).printable_json
    rw [show (s.get c).json = .number t from ht] at hprintable
    cases hprintable with
    | number form => exact form

end Written

/-! ## Texts -/

/-- The error for a text that describes no configuration. -/
def unparsable (path : Bytes) : Except MountError Config :=
  .error (.config (.unparsable (Text.ofUtf8Lossy path)))

/-- What loading comes to, given what has been read. -/
def outcome (path : Bytes) : Option Config → Except MountError Config
  | none => unparsable path
  | some c => c.validate

/-- What is true of loading texts. -/
structure Loading (path : Bytes) : Prop where
  /-- The settings that an object names are replaced, and no others. -/
  overriding : ∀ t members, Spelled (Json.object members).tokens t → Admissible members →
    ∃ c, Overrides members standard c ∧ loaded path t = c.validate
  /-- A configuration is as it is, or refused for what is wrong with it. -/
  validated : ∀ c : Config, c.validate = .ok c ∨
    ∃ faults, faults ≠ [] ∧ c.validate = .error (.config (.invalid faults))
  /-- Order and unknown keys do not matter. -/
  rearranged : ∀ s t a b, Spelled (Json.object a).tokens s → Spelled (Json.object b).tokens t →
    Rearranged a b → loaded path s = loaded path t
  /-- A setting that comes twice, or with null or another value that it does not take, is
  an error, and so is a key that is no text. -/
  refused : ∀ t members, Spelled (Json.object members).tokens t →
    ((∃ s : Setting, 2 ≤ members.countP fun m => m.1 = some s.name) ∨
      (∃ s : Setting, (some s.name, Json.null) ∈ members) ∨
      (∃ (s : Setting) (v : Json), (some s.name, v) ∈ members ∧ ∀ x, s.form.Admits x → v ≠ x.json) ∨
      ∃ v, (none, v) ∈ members) →
    loaded path t = unparsable path
  /-- An array stands for the object of the first settings. -/
  listed : ∀ s t values, values.length ≤ 14 → Spelled (Json.array values).tokens s →
    Spelled (Json.object (inOrder values)).tokens t → loaded path s = loaded path t
  /-- What is written for a configuration gives it back. -/
  written : ∀ c : Config, (∀ s : Setting, s.form.Admits (s.get c)) → c.validate = .ok c →
    (∀ t, Spelled c.toJson.tokens t → loaded path t = .ok c) ∧
      loaded path c.toJson.compact = .ok c ∧ loaded path c.toJson.pretty = .ok c
  /-- All other texts are errors. -/
  malformed : ∀ t, (∀ members, ¬Spelled (Json.object members).tokens t) →
    (∀ values : List Json, values.length ≤ 14 → ¬Spelled (Json.array values).tokens t) →
      loaded path t = unparsable path

section Texts

variable {path : Bytes} {t : Text} {v : Json} {c : Config} {members : Members}

theorem loaded_eq (path : Bytes) (t : Text) :
    loaded path t = outcome path ((Json.read? t).bind ofJson?) := by
  have hutf8 : Text.ofUtf8? (Text.toUtf8 t) = some t := Text.ofUtf8?_eq_some_iff.mpr rfl
  simp only [loaded, ofFile, hutf8, ofText]
  cases (Json.read? t).bind ofJson? <;> rfl

theorem loaded_of_spelled (h : Spelled v.tokens t) : loaded path t = outcome path (ofJson? v) := by
  rw [loaded_eq, Json.read?_eq_some_iff.mpr h, Option.bind_some]

theorem loaded_of_inadmissible (h : Spelled (Json.object members).tokens t)
    (hbad : ¬Admissible members) : loaded path t = unparsable path := by
  rw [loaded_of_spelled h]
  cases hread : ofJson? (.object members) with
  | none => rfl
  | some c =>
    exact absurd ((ofJson?_object_iff fun _ hm _ => Json.isNumber_of_spelled h hm).mp hread).1 hbad

theorem not_admissible
    (h : (∃ s : Setting, 2 ≤ members.countP fun m => m.1 = some s.name) ∨
      (∃ s : Setting, (some s.name, Json.null) ∈ members) ∨
      (∃ (s : Setting) (v : Json), (some s.name, v) ∈ members ∧ ∀ x, s.form.Admits x → v ≠ x.json) ∨
      ∃ v, (none, v) ∈ members) :
    ¬Admissible members := by
  rintro ⟨keys, once, typed⟩
  rcases h with ⟨s, htwice⟩ | ⟨s, hnull⟩ | ⟨s, v, hv, hform⟩ | ⟨v, hv⟩
  · have := once s
    omega
  · obtain ⟨x, -, hx⟩ := typed s _ hnull
    cases x <;> cases hx
  · obtain ⟨x, hadmits, hx⟩ := typed s v hv
    exact hform x hadmits hx
  · exact keys _ hv rfl

theorem ofJson?_eq_none (hobject : ∀ members, v ≠ .object members)
    (harray : ∀ values, values.length ≤ 14 → v ≠ .array values) : ofJson? v = none := by
  cases v with
  | object members => exact absurd rfl (hobject members)
  | array values =>
    have hlong : Setting.all.length < values.length := Nat.lt_of_not_le fun h => harray values h rfl
    exact if_pos hlong
  | _ => rfl

theorem validate_cases (c : Config) : c.validate = .ok c ∨
    ∃ faults, faults ≠ [] ∧ c.validate = .error (.config (.invalid faults)) := by
  rw [validate]
  split
  · exact .inl rfl
  next hne => exact .inr ⟨_, hne, rfl⟩

theorem load_laws (path : Bytes) : Loading path where
  overriding t members h hadmissible := by
    obtain ⟨c, hc⟩ := exists_overrides hadmissible standard
    have hread : ofJson? (.object members) = some c :=
      (ofJson?_object_iff fun _ hm _ => Json.isNumber_of_spelled h hm).mpr ⟨hadmissible, hc⟩
    exact ⟨c, hc, by rw [loaded_of_spelled h, hread]; rfl⟩
  validated := validate_cases
  rearranged s t a b hs ht hab := by
    rw [loaded_of_spelled hs, loaded_of_spelled ht]
    congr 1
    refine Option.ext fun c => ?_
    rw [ofJson?_object_iff fun _ hm _ => Json.isNumber_of_spelled hs hm,
      ofJson?_object_iff fun _ hm _ => Json.isNumber_of_spelled ht hm, hab.invariant.1, hab.invariant.2]
  refused t members h hbad := loaded_of_inadmissible h (not_admissible hbad)
  listed s t values hlength hs ht := by
    rw [loaded_of_spelled hs, loaded_of_spelled ht, ofJson?_array hlength]
  written c hrange hvalid := by
    have hspelled (t : Text) (ht : Spelled c.toJson.tokens t) : loaded path t = .ok c := by
      rw [loaded_of_spelled ht, ofJson?_toJson hrange]
      exact hvalid
    have hprintable := printable_toJson c
    refine ⟨hspelled, ?_, ?_⟩
    · exact hspelled _ hprintable.spelled_compact
    · exact hspelled _ (hprintable.spelled_prettyAt 0)
  malformed t hobject harray := by
    rw [loaded_eq]
    cases hread : Json.read? t with
    | none => rfl
    | some v =>
      have hspelled := Json.read?_eq_some_iff.mp hread
      rw [Option.bind_some, ofJson?_eq_none]
      · rfl
      · rintro members rfl
        exact hobject members hspelled
      · rintro values hlength rfl
        exact harray values hlength hspelled

/-- A file that sets the helper and the time between two looks. -/
def partialFile : Members :=
  [(some Setting.helperBinary.name, .text "/opt/fuse/bin/gcsfuse".toList),
    (some Setting.pollIntervalMs.name, .nat 250)]

theorem mem_partialFile {s : Setting} : (some s.name, v) ∈ partialFile ↔
    s = .helperBinary ∧ v = .text "/opt/fuse/bin/gcsfuse".toList ∨
      s = .pollIntervalMs ∧ v = .nat 250 := by
  simp only [partialFile, mem_cons_named, List.not_mem_nil, or_false]

theorem admissible_partialFile : Admissible partialFile where
  keys := by simp [partialFile]
  once s := by
    simp only [partialFile, countP_cons_named, List.countP_nil]
    cases s <;> decide
  typed s v hv := by
    rcases mem_partialFile.mp hv with ⟨rfl, rfl⟩ | ⟨rfl, rfl⟩
    · exact ⟨.text _, trivial, rfl⟩
    · exact ⟨.number 250, by decide, rfl⟩

theorem printable_partialFile : (Json.object partialFile).Printable :=
  .object (by simp [partialFile])
    (by simpa [partialFile] using ⟨.string _, .number (Json.isNumber_decimal 250)⟩)

/-- The standard configuration with what the file sets. -/
def partialConfig : Config :=
  { standard with helperBinary := "/opt/fuse/bin/gcsfuse".toList, pollIntervalMs := 250 }

theorem load_laws_partial_file :
    loaded [] (Json.object partialFile).compact = .ok partialConfig := by
  obtain ⟨c, ⟨named, kept⟩, hloaded⟩ := (load_laws []).overriding _ partialFile
    printable_partialFile.spelled_compact admissible_partialFile
  have hhelper := named .helperBinary (.text _) (mem_partialFile.mpr (.inl ⟨rfl, rfl⟩))
  have hinterval := named .pollIntervalMs (.number 250) (mem_partialFile.mpr (.inr ⟨rfl, rfl⟩))
  have hc : c = partialConfig := by
    refine ext_get fun s => ?_
    cases s
    case helperBinary => exact hhelper
    case pollIntervalMs => exact hinterval
    all_goals exact kept _ fun v hv => by simp [mem_partialFile] at hv
  rw [hloaded, hc]
  rfl

end Texts

end BucketMount.Config
