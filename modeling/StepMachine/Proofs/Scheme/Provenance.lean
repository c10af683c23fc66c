import StepMachine.Proofs.Scheme.Partial

/-! # Where the records of a draft come from

Every name, number, text and pattern in a draft was spelled by a token that has been passed, and
by one that is not damaged if it is a literal. Nothing is missing from the records of decoded
tokens.
-/
namespace StepMachine

namespace Token

def SpellsName (t : Token) (name : String) : Prop := t.kind = .name ∧ t.text = name

def SpellsNumber (t : Token) (n : Int) : Prop :=
  t.isValid .number = true ∧ t.value = some (.number n)

def SpellsText (t : Token) (s : String) : Prop :=
  t.isValid .string = true ∧ t.value = some (.text s)

def SpellsPattern (t : Token) (p : Pattern) : Prop :=
  t.isValid .pattern = true ∧ t.value = some (.pattern p)

end Token

/-! ### Records spelled by tokens -/

/-- In a row among the tokens stand a name, a mark and a literal that spell the variable. -/
def Variable.IsReadFrom (ts : List Token) (v : Variable) : Prop :=
  ∃ name mark literal, [name, mark, literal] <:+: ts ∧
    name.SpellsName v.name ∧ name.position = v.position ∧
    ((∃ s, v.value = some (.text s) ∧ literal.SpellsText s) ∨
      ∃ p, v.value = some (.pattern p) ∧ literal.SpellsPattern p)

/-- In a row among the tokens stand a number between parentheses, or a name or string between
brackets, that spell the target. -/
def Target.IsReadFrom (ts : List Token) : Target → Prop
  | step id place => ∃ opening number closing, [opening, number, closing] <:+: ts ∧
      opening.kind = .openParen ∧ opening.position = place ∧
      ∃ n, id = .number n ∧ number.SpellsNumber n
  | token name _ _ => ∃ opening word closing, [opening, word, closing] <:+: ts ∧
      opening.kind = .openBracket ∧
      ∃ s, name = some (.text s) ∧ (word.SpellsText s ∨ word.SpellsName s)

/-- One of the tokens spells the condition. -/
def Condition.IsReadFrom (ts : List Token) : Condition → Prop
  | named name binding place => (∃ t ∈ ts, t.SpellsName name ∧ t.position = place) ∧
      ∀ v ∈ binding, v.IsReadFrom ts
  | text value place =>
    ∃ t ∈ ts, t.position = place ∧ ∃ s, value = some (.text s) ∧ t.SpellsText s
  | pattern value place =>
    ∃ t ∈ ts, t.position = place ∧ ∃ p, value = some (.pattern p) ∧ t.SpellsPattern p
  | wildcard place => ∃ t ∈ ts, t.position = place ∧ t.kind = .star

/-- The tokens spell the number, all conditions and all targets of the step. -/
structure Step.IsReadFrom (ts : List Token) (s : Step) : Prop where
  id : (Target.step s.id s.position).IsReadFrom ts
  actions : ∀ a ∈ s.actions, a.condition.IsReadFrom ts ∧ a.target.IsReadFrom ts
  fallback : s.fallback.IsReadFrom ts

/-! ### Records of phrases -/

variable {ts : List Token} (hdecoded : ∀ t ∈ ts, t.IsDecoded)

namespace Terminal

theorem spellsName (t : Terminal .name) : t.token.SpellsName t.token.text := ⟨t.kind_eq, rfl⟩

include hdecoded

theorem exists_number (t : Terminal .number) (h : t.token ∈ ts) : ∃ n, t.token.SpellsNumber n := by
  obtain ⟨n, hn, -⟩ := (hdecoded _ h).1 (t.isValid rfl)
  exact ⟨n, t.isValid rfl, hn⟩

theorem exists_text (t : Terminal .string) (h : t.token ∈ ts) : ∃ s, t.token.SpellsText s := by
  obtain ⟨s, hs⟩ := (hdecoded _ h).2.1 (t.isValid rfl)
  exact ⟨s, t.isValid rfl, hs⟩

theorem exists_pattern (t : Terminal .pattern) (h : t.token ∈ ts) :
    ∃ p, t.token.SpellsPattern p := by
  obtain ⟨p, hp⟩ := (hdecoded _ h).2.2 (t.isValid rfl)
  exact ⟨p, t.isValid rfl, hp⟩

end Terminal

include hdecoded

theorem StepIdPhrase.isReadFrom (g : StepIdPhrase) (h : g.tokens <:+: ts) :
    (Target.step g.value g.position).IsReadFrom ts := by
  obtain ⟨n, hn⟩ := g.number.exists_number hdecoded (h.subset (by simp [tokens]))
  have hvalue : g.value = .number n := by simp [value, hn.2]
  exact ⟨_, _, _, h, g.opening.kind_eq, rfl, n, hvalue, hn⟩

theorem TokenNamePhrase.isReadFrom (g : TokenNamePhrase) (h : g.token ∈ ts) :
    ∃ s, g.value = some (.text s) ∧ (g.token.SpellsText s ∨ g.token.SpellsName s) := by
  cases g with
  | text literal =>
    obtain ⟨s, hs⟩ := literal.exists_text hdecoded h
    exact ⟨s, hs.2, .inl hs⟩
  | name word => exact ⟨_, rfl, .inr word.spellsName⟩

theorem TargetPhrase.isReadFrom (g : TargetPhrase) (h : g.tokens <:+: ts) :
    g.target.IsReadFrom ts := by
  cases g with
  | step id => exact id.isReadFrom hdecoded h
  | token bang opening name closing =>
    have hrow : [opening.token, name.token, closing.token] <:+: ts := by
      cases bang with
      | none => exact h
      | some bang => exact (List.suffix_cons bang.token _).isInfix.trans h
    have hname := name.isReadFrom hdecoded (hrow.subset (by simp))
    cases bang with
    | none => exact ⟨_, _, _, hrow, opening.kind_eq, hname⟩
    | some bang => exact ⟨_, _, _, hrow, opening.kind_eq, hname⟩

theorem ConditionPhrase.isReadFrom {vars : List Variable} (hvars : ∀ v ∈ vars, v.IsReadFrom ts)
    (g : ConditionPhrase) (h : g.token ∈ ts) : (g.condition vars).IsReadFrom ts := by
  cases g with
  | name word =>
    refine ⟨⟨_, h, word.spellsName, rfl⟩, ?_⟩
    intro v hv
    exact hvars v (List.mem_of_find?_eq_some hv)
  | text literal =>
    obtain ⟨s, hs⟩ := literal.exists_text hdecoded h
    exact ⟨_, h, rfl, s, hs.2, hs⟩
  | pattern literal =>
    obtain ⟨p, hp⟩ := literal.exists_pattern hdecoded h
    exact ⟨_, h, rfl, p, hp.2, hp⟩
  | wildcard star => exact ⟨_, h, rfl, star.kind_eq⟩

theorem StepPhrase.isReadFrom {vars : List Variable} (hvars : ∀ v ∈ vars, v.IsReadFrom ts)
    (g : StepPhrase) (h : g.tokens <:+: ts) : (g.step vars).IsReadFrom ts := by
  have hid : g.id.tokens <:+: ts := (List.prefix_append _ _).isInfix.trans h
  have hrest : g.allActions.flatMap ActionPhrase.tokens ++ g.ending.tokens <:+: ts :=
    (((List.suffix_cons g.colon.token _).trans (List.suffix_append _ _)).isInfix).trans h
  have haction : ∀ a ∈ g.allActions, a.tokens <:+: ts := by
    intro a ha
    have hmem : a.tokens <:+: g.allActions.flatMap ActionPhrase.tokens :=
      List.infix_of_mem_flatten (List.mem_map_of_mem ha)
    exact (hmem.trans (List.prefix_append _ _).isInfix).trans hrest
  have htarget : ∀ a ∈ g.allActions, a.target.target.IsReadFrom ts := by
    intro a ha
    have hsuffix : a.target.tokens <:+ a.tokens :=
      (List.suffix_cons a.question.token _).trans (List.suffix_cons a.condition.token _)
    exact a.target.isReadFrom hdecoded (hsuffix.isInfix.trans (haction a ha))
  refine ⟨g.id.isReadFrom hdecoded hid, ?_, ?_⟩
  · intro a ha
    obtain ⟨f, hf, rfl⟩ := List.mem_map.mp ha
    have hcondition : f.condition.token ∈ ts := (haction f hf).subset (List.mem_cons_self ..)
    exact ⟨f.condition.isReadFrom hdecoded hvars hcondition, htarget f hf⟩
  · cases he : g.ending with
    | fallback target =>
      rw [he] at hrest
      have hfallback := target.isReadFrom hdecoded ((List.suffix_append _ _).isInfix.trans hrest)
      simpa [step, he, StepEnd.target] using hfallback
    | wildcard star question target =>
      have hlast : ⟨.wildcard star, question, target⟩ ∈ g.allActions := by
        simp [allActions, he, StepEnd.lastAction]
      simpa [step, he, StepEnd.target] using htarget _ hlast

theorem VariablePhrase.isReadFrom (g : VariablePhrase) (h : g.tokens <:+: ts) :
    g.record.IsReadFrom ts := by
  have hliteral : g.value.token ∈ ts := h.subset (by simp [tokens])
  refine ⟨_, _, _, h, g.name.spellsName, rfl, ?_⟩
  cases hg : g.value with
  | text literal =>
    rw [hg] at hliteral
    obtain ⟨s, hs⟩ := literal.exists_text hdecoded hliteral
    exact .inl ⟨s, by simp [record, hg, ValuePhrase.token, hs.2], hs⟩
  | pattern literal =>
    rw [hg] at hliteral
    obtain ⟨p, hp⟩ := literal.exists_pattern hdecoded hliteral
    exact .inr ⟨p, by simp [record, hg, ValuePhrase.token, hp.2], hp⟩

end StepMachine
