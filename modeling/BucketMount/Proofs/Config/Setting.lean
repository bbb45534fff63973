import BucketMount.Config.Setting
import BucketMount.Proofs.Json.Writing

/-!
# What a setting can be set to

A setting takes a text, a number below a bound or a list of texts (`Setting.form`), and
there is one way to write what it is set to (`Setting.Value.json`). A configuration is
the settings of it (`Config.ext_get`), and to read one from a value is to change that one
alone (`Setting.read?_eq`, `Setting.get_put`).
-/

namespace BucketMount

namespace Setting

/-- What a setting can be set to. -/
inductive Value where
  | text (t : Text)
  | number (n : Nat)
  | words (l : List Text)
deriving DecidableEq, Repr

/-- What a setting takes. -/
inductive Form where
  | text
  | number (bound : Nat)
  | words
deriving DecidableEq, Repr

/-- What the settings take: modes are numbers of 32 bits, sizes and times of 64. -/
def form : Setting → Form
  | transportVar | helperBinary | logFormat => .text
  | fileMode | dirMode | mountDirMode => .number 0x100000000
  | transportCapacity | pollIntervalMs | readinessTimeoutMs | helperGraceMs => .number 0x10000000000000000
  | helperOptions | unmountCommand | lazyUnmountCommand | logRelayCommand => .words

def Form.Admits : Form → Value → Prop
  | .text, .text _ => True
  | .number bound, .number n => n < bound
  | .words, .words _ => True
  | _, _ => False

instance (f : Form) (x : Value) : Decidable (f.Admits x) := by
  unfold Form.Admits
  split <;> infer_instance

/-- The value that stands for what a setting is set to. -/
def Value.json : Value → Json
  | .text t => .text t
  | .number n => .nat n
  | .words l => .texts l

/-- What a setting is set to. -/
def get (s : Setting) (c : Config) : Value :=
  match s with
  | transportVar => .text c.transportVar
  | transportCapacity => .number c.transportCapacity
  | helperBinary => .text c.helperBinary
  | helperOptions => .words c.helperOptions
  | fileMode => .number c.fileMode
  | dirMode => .number c.dirMode
  | logFormat => .text c.logFormat
  | mountDirMode => .number c.mountDirMode
  | unmountCommand => .words c.unmountCommand
  | lazyUnmountCommand => .words c.lazyUnmountCommand
  | logRelayCommand => .words c.logRelayCommand
  | pollIntervalMs => .number c.pollIntervalMs
  | readinessTimeoutMs => .number c.readinessTimeoutMs
  | helperGraceMs => .number c.helperGraceMs

/-- The configuration with one setting set to what it takes. -/
def put (s : Setting) (x : Value) (c : Config) : Config :=
  match s, x with
  | transportVar, .text t => { c with transportVar := t }
  | transportCapacity, .number n => { c with transportCapacity := n }
  | helperBinary, .text t => { c with helperBinary := t }
  | helperOptions, .words l => { c with helperOptions := l }
  | fileMode, .number n => { c with fileMode := n }
  | dirMode, .number n => { c with dirMode := n }
  | logFormat, .text t => { c with logFormat := t }
  | mountDirMode, .number n => { c with mountDirMode := n }
  | unmountCommand, .words l => { c with unmountCommand := l }
  | lazyUnmountCommand, .words l => { c with lazyUnmountCommand := l }
  | logRelayCommand, .words l => { c with logRelayCommand := l }
  | pollIntervalMs, .number n => { c with pollIntervalMs := n }
  | readinessTimeoutMs, .number n => { c with readinessTimeoutMs := n }
  | helperGraceMs, .number n => { c with helperGraceMs := n }
  | _, _ => c

end Setting

/-- A configuration is what its settings are set to. -/
theorem Config.ext_get {c c' : Config} (h : ∀ s : Setting, s.get c = s.get c') : c = c' := by
  have h₁ := h .transportVar
  have h₂ := h .transportCapacity
  have h₃ := h .helperBinary
  have h₄ := h .helperOptions
  have h₅ := h .fileMode
  have h₆ := h .dirMode
  have h₇ := h .logFormat
  have h₈ := h .mountDirMode
  have h₉ := h .unmountCommand
  have h₁₀ := h .lazyUnmountCommand
  have h₁₁ := h .logRelayCommand
  have h₁₂ := h .pollIntervalMs
  have h₁₃ := h .readinessTimeoutMs
  have h₁₄ := h .helperGraceMs
  cases c
  cases c'
  simp_all [Setting.get]

namespace Setting

section Reading

variable {s : Setting} {f : Form} {x y : Value} {v : Json} {c c' : Config}

theorem get_put (h : s.form.Admits x) (u : Setting) :
    u.get (s.put x c) = if u = s then x else u.get c := by
  cases s <;> cases x <;> first | exact h.elim | (cases u <;> rfl)

theorem write_eq (s : Setting) (c : Config) : s.write c = (s.get c).json := by
  cases s <;> rfl

/-- What is read from a value by the form alone. -/
def Form.read? : Form → Json → Option Value
  | .text, v => v.text?.map .text
  | .number bound, v => (natBelow? bound v).map .number
  | .words, v => v.texts?.map .words

theorem read?_eq (s : Setting) (v : Json) (c : Config) :
    s.read? v c = (s.form.read? v).map (s.put · c) := by
  cases s <;> simp only [read?, form, Form.read?, Option.map_map] <;> rfl

theorem texts?_eq_some_iff {l : List Text} : v.texts? = some l ↔ v = Json.texts l := by
  have hitems (items : List Json) : items.mapM Json.text? = some l ↔ items = l.map Json.text := by
    induction items generalizing l with
    | nil => cases l <;> simp
    | cons w items ih =>
      have htext (t : Text) : w.text? = some t ↔ w = Json.text t := by
        cases w <;> simp [Json.text?, Json.text]
      cases l with
      | nil => simp [Option.bind_eq_some_iff]
      | cons t l => simp [Option.bind_eq_some_iff, htext, ih]
  cases v <;> simp [Json.texts?, Json.texts, hitems]

theorem natBelow?_eq_some_iff {bound n : Nat} :
    natBelow? bound v = some n ↔ v.nat? = some n ∧ n < bound := by
  simp [natBelow?, Option.filter_eq_some_iff]

theorem Form.read?_json (h : f.Admits x) : f.read? x.json = some x := by
  cases f <;> cases x <;> first | exact h.elim | skip
  · rfl
  · exact Option.map_eq_some_iff.mpr ⟨_, natBelow?_eq_some_iff.mpr ⟨Json.nat?_nat _, h⟩, rfl⟩
  · exact Option.map_eq_some_iff.mpr ⟨_, texts?_eq_some_iff.mpr rfl, rfl⟩

/-- Nothing is read but what the setting takes, from the value that stands for it. -/
theorem Form.admits_of_read? (hnumber : ∀ t, v = .number t → Json.IsNumber t) (h : f.read? v = some x) :
    f.Admits x ∧ v = x.json := by
  cases f with
  | text =>
    obtain ⟨t, ht, rfl⟩ := Option.map_eq_some_iff.mp h
    refine ⟨trivial, ?_⟩
    cases v <;> simp_all [Json.text?, Value.json, Json.text]
  | number bound =>
    obtain ⟨n, hn, rfl⟩ := Option.map_eq_some_iff.mp h
    obtain ⟨hnat, hbound⟩ := natBelow?_eq_some_iff.mp hn
    refine ⟨hbound, ?_⟩
    cases v with
    | number t => rw [(Json.nat?_number_iff (hnumber t rfl)).mp hnat, Value.json, Json.nat]
    | _ => cases hnat
  | words =>
    obtain ⟨l, hl, rfl⟩ := Option.map_eq_some_iff.mp h
    exact ⟨trivial, texts?_eq_some_iff.mp hl⟩

theorem Value.json_injective (h : x.json = y.json) : x = y := by
  cases x <;> cases y <;> simp only [Value.json, Json.text, Json.nat, Json.texts, reduceCtorEq] at h
  · cases h
    rfl
  case number n m =>
    have hnat : (Json.nat n).nat? = (Json.nat m).nat? := congrArg Json.nat? h
    simpa [Json.nat?_nat] using hnat
  case words k l =>
    have htexts : (Json.texts k).texts? = (Json.texts l).texts? := congrArg Json.texts? h
    rw [texts?_eq_some_iff.mpr rfl, texts?_eq_some_iff.mpr rfl] at htexts
    rw [Option.some.inj htexts]

/-- There is always something to write. -/
theorem Value.printable_json (x : Value) : x.json.Printable := by
  cases x with
  | text t => exact .string t
  | number n => exact .number (Json.isNumber_decimal n)
  | words l =>
    refine .array fun v hv => ?_
    obtain ⟨t, -, rfl⟩ := List.mem_map.mp hv
    exact .string t

theorem ofName?_eq_some_iff {t : Text} : ofName? t = some s ↔ t = s.name := by
  constructor
  · intro h
    rw [ofName?] at h
    have hname := List.find?_some h
    rw [decide_eq_true_eq] at hname
    exact hname.symm
  · rintro rfl
    exact ofName?_name s

theorem name_injective {u : Setting} (h : s.name = u.name) : s = u := by
  have hofName := ofName?_name s
  rw [h, ofName?_name] at hofName
  exact (Option.some.inj hofName).symm

end Reading

end Setting
end BucketMount
