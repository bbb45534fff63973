import BucketMount.Json.Reader
import BucketMount.Proofs.Json.Grammar

/-!
# What is read as a value

A value is a row of tokens (`tokens`), and a text stands for it if the row is spelled
by the text (`read?_eq_some_iff`): no other text is accepted, and no such text is
refused, whatever its blanks and however deep it goes. The reader holds the open arrays
and objects on a stack. Going forwards, the tokens of a value take it from where a
value may start to what follows one (`run_tokens`); going backwards, every state says
which tokens have led to it (`spent`), and each step adds the token it has read.
-/

namespace BucketMount.Json

open Token (Spelled Separated IsNumeric)

mutual

/-- The tokens of a value. -/
def tokens : Json → List Token
  | .null => [.null]
  | .bool b => [.bool b]
  | .number lexeme => [.number lexeme]
  | .string t => [.string t]
  | .array items => .openBracket :: itemTokens items ++ [.closeBracket]
  | .object members => .openBrace :: memberTokens members ++ [.closeBrace]

def itemTokens : List Json → List Token
  | [] => []
  | [v] => tokens v
  | v :: w :: rest => tokens v ++ .comma :: itemTokens (w :: rest)

def memberTokens : List (Option Text × Json) → List Token
  | [] => []
  | [(k, v)] => .string k :: .colon :: tokens v
  | (k, v) :: w :: rest => .string k :: .colon :: tokens v ++ .comma :: memberTokens (w :: rest)

end

/-- Parts one after the other with something in between. -/
def row {α β : Type} (between : β) (part : α → List β) : List α → List β
  | [] => []
  | [a] => part a
  | a :: b :: rest => part a ++ between :: row between part (b :: rest)

/-- The tokens of a member. -/
def pairTokens (m : Option Text × Json) : List Token := .string m.1 :: .colon :: m.2.tokens

theorem itemTokens_eq (items : List Json) : itemTokens items = row .comma tokens items := by
  fun_induction row .comma tokens items with
  | case3 v w rest ih => rw [itemTokens, ih]
  | _ => simp [itemTokens]

theorem memberTokens_eq (members : List (Option Text × Json)) :
    memberTokens members = row .comma pairTokens members := by
  fun_induction row .comma pairTokens members with
  | case3 m m' rest ih => rw [memberTokens, ih, pairTokens]
  | _ => simp [memberTokens, pairTokens]

theorem row_concat {α β : Type} (between : β) (part : α → List β) (l : List α) (a : α) :
    row between part (l ++ [a]) = l.flatMap (fun b => part b ++ [between]) ++ part a := by
  induction l with
  | nil => rfl
  | cons b l ih =>
    rw [List.flatMap_cons, List.append_assoc, ← ih]
    cases l <;> simp [row]

theorem mem_row {α β : Type} {between b : β} {part : α → List β} {l : List α} {a : α} (ha : a ∈ l)
    (hb : b ∈ part a) : b ∈ row between part l := by
  fun_induction row between part l with
  | case1 => cases ha
  | case2 => rwa [← List.mem_singleton.mp ha]
  | case3 a' b' rest ih =>
    rcases List.mem_cons.mp ha with rfl | ha
    · exact List.mem_append_left _ hb
    · exact List.mem_append_right _ (List.mem_cons_of_mem _ (ih ha))

/-- Values are put together from values. -/
@[elab_as_elim]
theorem induct {P : Json → Prop} (null : P .null) (bool : ∀ b, P (.bool b))
    (number : ∀ lexeme, P (.number lexeme)) (string : ∀ t, P (.string t))
    (array : ∀ items, (∀ v ∈ items, P v) → P (.array items))
    (object : ∀ members, (∀ m ∈ members, P m.2) → P (.object members)) (v : Json) : P v :=
  match v with
  | .null => null
  | .bool b => bool b
  | .number lexeme => number lexeme
  | .string t => string t
  | .array items => array items fun w _ => induct null bool number string array object w
  | .object members => object members fun m _ => induct null bool number string array object m.2
termination_by v
decreasing_by
  · next hw =>
    have := List.sizeOf_lt_of_mem hw
    simp only [Json.array.sizeOf_spec]
    omega
  · next hm =>
    have := List.sizeOf_lt_of_mem hm
    obtain ⟨k, w⟩ := m
    simp only [Json.object.sizeOf_spec, Prod.mk.sizeOf_spec] at *
    omega

/-! ## From the tokens of a value to the value -/

section Run

/-- A state in which a value may start inside these frames. -/
def Starts (p : Progress) (stack : List Frame) : Prop :=
  ∀ token, token ≠ .closeBracket → step? p token = begin? stack token

theorem starts_value (stack : List Frame) : Starts (stack, .value) stack := fun _ _ => rfl

theorem starts_item (items : List Json) (stack : List Frame) :
    Starts (.array items :: stack, .item) (.array items :: stack) := by
  intro token htoken
  cases token with
  | closeBracket => exact absurd rfl htoken
  | _ => rfl

theorem run_cons {p p' : Progress} {token : Token} (h : step? p token = some p') (toks : List Token) :
    (token :: toks).foldlM step? p = toks.foldlM step? p' := by
  rw [List.foldlM_cons, h]
  rfl

/-- The tokens of a value lead to the value. -/
def Runs (v : Json) : Prop :=
  ∀ {p : Progress} {stack : List Frame}, Starts p stack → ∀ toks,
    (v.tokens ++ toks).foldlM step? p = toks.foldlM step? (stack, .after v)

theorem run_items (v : Json) (rest acc : List Json) (stack : List Frame) {p : Progress}
    (hitems : ∀ w ∈ v :: rest, w.Runs) (h : Starts p (.array acc :: stack)) (toks : List Token) :
    (itemTokens (v :: rest) ++ .closeBracket :: toks).foldlM step? p =
      toks.foldlM step? (stack, .after (.array (acc.reverse ++ v :: rest))) := by
  obtain ⟨hv, hrest⟩ := List.forall_mem_cons.mp hitems
  induction rest generalizing v acc p with
  | nil =>
    rw [itemTokens, hv h]
    exact (run_cons rfl toks).trans (by simp)
  | cons w rest ih =>
    have hcomma : step? (.array acc :: stack, .after v) .comma = some (.array (v :: acc) :: stack, .value) :=
      rfl
    rw [itemTokens, List.append_assoc, hv h, List.cons_append, run_cons hcomma,
      ih w (v :: acc) hrest (starts_value _) (hrest w List.mem_cons_self)
        fun u hu => hrest u (List.mem_cons_of_mem w hu)]
    simp

theorem run_member {k : Option Text} {v : Json} {acc : List (Option Text × Json)}
    {stack : List Frame} {closable : Bool} (hv : v.Runs) (toks : List Token) :
    (.string k :: .colon :: v.tokens ++ toks).foldlM step? (stack, .key acc closable) =
      toks.foldlM step? (.object acc k :: stack, .after v) := by
  have hkey : step? (stack, .key acc closable) (.string k) = some (stack, .colon acc k) := by
    cases closable <;> rfl
  have hcolon : step? (stack, .colon acc k) .colon = some (.object acc k :: stack, .value) := rfl
  rw [List.cons_append, List.cons_append, run_cons hkey, run_cons hcolon, hv (starts_value _)]

theorem run_members (m : Option Text × Json) (rest acc : List (Option Text × Json))
    (stack : List Frame) (closable : Bool) (hmembers : ∀ m' ∈ m :: rest, m'.2.Runs)
    (toks : List Token) :
    (memberTokens (m :: rest) ++ .closeBrace :: toks).foldlM step? (stack, .key acc closable) =
      toks.foldlM step? (stack, .after (.object (acc.reverse ++ m :: rest))) := by
  obtain ⟨hm, hrest⟩ := List.forall_mem_cons.mp hmembers
  induction rest generalizing m acc closable with
  | nil =>
    rw [memberTokens, run_member hm]
    exact (run_cons rfl toks).trans (by simp)
  | cons m' rest ih =>
    have hcomma : step? (.object acc m.1 :: stack, .after m.2) .comma =
        some (stack, .key (m :: acc) false) := rfl
    rw [memberTokens, List.append_assoc, run_member hm, List.cons_append, run_cons hcomma,
      ih m' (m :: acc) false hrest (hrest m' List.mem_cons_self)
        fun u hu => hrest u (List.mem_cons_of_mem m' hu)]
    simp

theorem run_tokens (v : Json) : v.Runs := by
  intro p stack h toks
  induction v using induct generalizing p stack toks with
  | null | bool | number | string => exact run_cons (h _ (by simp)) toks
  | array items ih =>
    rw [tokens, List.cons_append, List.cons_append, List.append_assoc, List.singleton_append,
      run_cons (h .openBracket (by simp))]
    cases items with
    | nil => exact run_cons rfl toks
    | cons v rest => exact run_items v rest [] stack (fun w hw => ih w hw) (starts_item [] stack) toks
  | object members ih =>
    rw [tokens, List.cons_append, List.cons_append, List.append_assoc, List.singleton_append,
      run_cons (h .openBrace (by simp))]
    cases members with
    | nil => exact run_cons rfl toks
    | cons m rest => exact run_members m rest [] stack true (fun m hm => ih m hm) toks

theorem ofTokens?_tokens (v : Json) : ofTokens? v.tokens = some v := by
  have hrun := run_tokens v (starts_value []) []
  rw [List.append_nil] at hrun
  rw [ofTokens?, hrun]
  rfl

end Run

/-! ## From the value that has been read to its tokens -/

section Spent

/-- The tokens of an open array or object up to the value that it waits for. -/
def Frame.spent : Frame → List Token
  | .array items => .openBracket :: items.reverse.flatMap fun v => v.tokens ++ [.comma]
  | .object members k =>
    .openBrace :: (members.reverse.flatMap fun m => pairTokens m ++ [.comma]) ++ [.string k, .colon]

/-- The tokens after those of the frames. -/
def Expect.spent : Expect → List Token
  | .value | .item => []
  | .key members _ => .openBrace :: members.reverse.flatMap fun m => pairTokens m ++ [.comma]
  | .colon members k =>
    .openBrace :: (members.reverse.flatMap fun m => pairTokens m ++ [.comma]) ++ [.string k]
  | .after v => v.tokens

/-- The tokens that have led to a state. -/
def Progress.spent (p : Progress) : List Token := p.1.reverse.flatMap Frame.spent ++ p.2.spent

/-- The end of an array or object is allowed at the start only while it is empty. -/
def Progress.Proper : Progress → Prop
  | (stack, .item) => ∃ stack', stack = .array [] :: stack'
  | (_, .key members closable) => closable → members = []
  | _ => True

theorem spent_of_begin? {stack : List Frame} {token : Token} {p : Progress}
    (h : begin? stack token = some p) :
    p.Proper ∧ p.spent = stack.reverse.flatMap Frame.spent ++ [token] := by
  cases token <;> cases h
  case openBracket => exact ⟨⟨stack, rfl⟩, by simp [Progress.spent, Expect.spent, Frame.spent]⟩
  all_goals simp [Progress.Proper, Progress.spent, Expect.spent, tokens]

/-- A step has read the token that it was given. -/
theorem spent_of_step? {p p' : Progress} {token : Token} (h : step? p token = some p')
    (hp : p.Proper) : p'.Proper ∧ p'.spent = p.spent ++ [token] := by
  rw [step?.eq_def] at h
  split at h
  next => simpa [Progress.spent, Expect.spent] using spent_of_begin? h
  next =>
    obtain ⟨stack, hstack⟩ := hp
    cases hstack
    cases h
    exact ⟨trivial, by simp [Progress.spent, Expect.spent, Frame.spent, tokens, itemTokens]⟩
  next => simpa [Progress.spent, Expect.spent] using spent_of_begin? h
  next =>
    cases h
    exact ⟨trivial, by simp [Progress.spent, Expect.spent]⟩
  next =>
    obtain rfl := hp rfl
    cases h
    exact ⟨trivial, by simp [Progress.spent, Expect.spent, tokens, memberTokens]⟩
  next =>
    cases h
    exact ⟨trivial, by simp [Progress.spent, Frame.spent, Expect.spent]⟩
  next =>
    cases h
    exact ⟨trivial, by simp [Progress.spent, Frame.spent, Expect.spent]⟩
  next =>
    cases h
    exact ⟨nofun, by simp [Progress.spent, Frame.spent, Expect.spent, pairTokens]⟩
  next =>
    cases h
    refine ⟨trivial, ?_⟩
    simp [Progress.spent, Frame.spent, Expect.spent, tokens, itemTokens_eq, row_concat]
  next =>
    cases h
    refine ⟨trivial, ?_⟩
    simp [Progress.spent, Frame.spent, Expect.spent, tokens, memberTokens_eq, row_concat, pairTokens]
  next => cases h

theorem spent_of_run {p p' : Progress} {toks : List Token} (h : toks.foldlM step? p = some p')
    (hp : p.Proper) : p'.spent = p.spent ++ toks := by
  induction toks generalizing p with
  | nil =>
    cases h
    exact (List.append_nil _).symm
  | cons token toks ih =>
    rw [List.foldlM_cons] at h
    obtain ⟨p₁, hstep, hrun⟩ := Option.bind_eq_some_iff.mp h
    obtain ⟨hp₁, hspent⟩ := spent_of_step? hstep hp
    rw [ih hrun hp₁, hspent, List.append_assoc, List.singleton_append]

theorem eq_tokens_of_ofTokens? {toks : List Token} {v : Json} (h : ofTokens? toks = some v) :
    toks = v.tokens := by
  rw [ofTokens?] at h
  split at h
  next hrun =>
    cases h
    exact (spent_of_run hrun trivial).symm
  · cases h

end Spent

theorem ofTokens?_eq_some_iff {toks : List Token} {v : Json} : ofTokens? toks = some v ↔ toks = v.tokens :=
  ⟨eq_tokens_of_ofTokens?, fun h => by rw [h, ofTokens?_tokens]⟩

/-! ## Texts -/

section Separated

variable {s t : List Token} {token : Token}

theorem separated_cons (hnumeric : ¬token.IsNumeric) (h : Separated t) : Separated (token :: t) :=
  List.isChain_cons.mpr ⟨fun _ _ both => hnumeric both.1, h⟩

/-- What is separated stays so with anything but a number in between. -/
theorem separated_join (hs : Separated s) (hnumeric : ¬token.IsNumeric) (ht : Separated t) :
    Separated (s ++ token :: t) := by
  refine List.isChain_append.mpr ⟨hs, separated_cons hnumeric ht, ?_⟩
  intro a _ b hb both
  cases hb
  exact hnumeric both.2

theorem separated_row {α : Type} {part : α → List Token} {l : List α}
    (h : ∀ a ∈ l, Separated (part a)) : Separated (row .comma part l) := by
  induction l with
  | nil => exact .nil
  | cons a l ih =>
    obtain ⟨ha, hl⟩ := List.forall_mem_cons.mp h
    cases l with
    | nil => exact ha
    | cons b l => exact separated_join ha (by simp [IsNumeric]) (ih hl)

/-- In a value no number stands next to another one. -/
theorem separated_tokens (v : Json) : Separated v.tokens := by
  induction v using induct with
  | null | bool | number | string => exact .singleton _
  | array items ih =>
    rw [tokens, itemTokens_eq]
    have hopen : Separated (.openBracket :: row .comma tokens items) :=
      separated_cons (by simp [IsNumeric]) (separated_row ih)
    exact separated_join hopen (by simp [IsNumeric]) .nil
  | object members ih =>
    rw [tokens, memberTokens_eq]
    have hpair (m : Option Text × Json) (hm : m ∈ members) : Separated (pairTokens m) :=
      separated_cons (by simp [IsNumeric]) (separated_cons (by simp [IsNumeric]) (ih m hm))
    have hopen : Separated (.openBrace :: row .comma pairTokens members) :=
      separated_cons (by simp [IsNumeric]) (separated_row hpair)
    exact separated_join hopen (by simp [IsNumeric]) .nil

end Separated

/-- A text stands for a value exactly if it spells the tokens of the value. -/
theorem read?_eq_some_iff {t : Text} {v : Json} : read? t = some v ↔ Spelled v.tokens t := by
  simp only [read?, Option.bind_eq_some_iff, ofTokens?_eq_some_iff, exists_eq_right]
  exact Token.ofText?_eq_some_iff (separated_tokens v)

/-- The numbers among the values of an object are written as numbers. -/
theorem isNumber_of_spelled {t lexeme : Text} {members : List (Option Text × Json)}
    {m : Option Text × Json} (h : Spelled (object members).tokens t) (hm : m ∈ members)
    (hnumber : m.2 = .number lexeme) : IsNumber lexeme := by
  have hpair : Token.number lexeme ∈ pairTokens m := by simp [pairTokens, hnumber, tokens]
  have hmem : Token.number lexeme ∈ (object members).tokens := by
    rw [tokens, memberTokens_eq]
    exact List.mem_cons_of_mem _ (List.mem_append_left _ (mem_row hm hpair))
  obtain ⟨s, hs⟩ := h.lexeme hmem
  cases hs with
  | number form => exact form

end BucketMount.Json
