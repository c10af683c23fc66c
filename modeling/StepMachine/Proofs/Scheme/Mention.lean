import StepMachine.Proofs.Scheme.Meaning

/-! # What tokens mention

Tokens that are read from left to right mention names and numbers in parentheses. The mentions of
a phrase are its uses, and a part of a step that broke off mentions what its whole parts use. Each
mention stands where it says: a name is one of the tokens, a number is three of them in a row.
-/
namespace StepMachine

/-- Among the tokens, in this order, stand these names and these numbers in parentheses. -/
inductive Mentions : List Token → List (Reference String) → List (Reference Literal) → Prop
  | nil : Mentions [] [] []
  | other (t : Token) {ts : List Token} {names : List (Reference String)}
      {numbers : List (Reference Literal)} (h : Mentions ts names numbers) :
      Mentions (t :: ts) names numbers
  | name (w : Terminal .name) {ts : List Token} {names : List (Reference String)}
      {numbers : List (Reference Literal)} (h : Mentions ts names numbers) :
      Mentions (w.token :: ts) (⟨w.token.text, w.token.position⟩ :: names) numbers
  | number (g : StepIdPhrase) {ts : List Token} {names : List (Reference String)}
      {numbers : List (Reference Literal)} (h : Mentions ts names numbers) :
      Mentions (g.tokens ++ ts) names (⟨g.value, g.position⟩ :: numbers)

namespace Mentions

variable {ts us : List Token} {names names' : List (Reference String)}
variable {numbers numbers' : List (Reference Literal)}

theorem none (ts : List Token) : Mentions ts [] [] := by
  induction ts with
  | nil => exact .nil
  | cons t ts ih => exact .other t ih

theorem append (h : Mentions ts names numbers) (k : Mentions us names' numbers') :
    Mentions (ts ++ us) (names ++ names') (numbers ++ numbers') := by
  induction h with
  | nil => exact k
  | other t _ ih => exact .other t ih
  | name w _ ih => exact .name w ih
  | number g _ ih =>
    rw [List.append_assoc]
    exact .number g ih

theorem exists_name (h : Mentions ts names numbers) {r : Reference String} (hr : r ∈ names) :
    ∃ w : Terminal .name, w.token ∈ ts ∧ r = ⟨w.token.text, w.token.position⟩ := by
  induction h with
  | nil => simp at hr
  | other t _ ih =>
    obtain ⟨w, hw, rfl⟩ := ih hr
    exact ⟨w, List.mem_cons_of_mem _ hw, rfl⟩
  | name v _ ih =>
    rcases List.mem_cons.mp hr with rfl | hr
    · exact ⟨v, List.mem_cons_self .., rfl⟩
    · obtain ⟨w, hw, rfl⟩ := ih hr
      exact ⟨w, List.mem_cons_of_mem _ hw, rfl⟩
  | number g _ ih =>
    obtain ⟨w, hw, rfl⟩ := ih hr
    exact ⟨w, List.mem_append_right _ hw, rfl⟩

theorem exists_number (h : Mentions ts names numbers) {r : Reference Literal} (hr : r ∈ numbers) :
    ∃ g : StepIdPhrase, g.tokens <:+: ts ∧ r = ⟨g.value, g.position⟩ := by
  induction h with
  | nil => simp at hr
  | other t _ ih =>
    obtain ⟨g, hg, rfl⟩ := ih hr
    exact ⟨g, hg.trans (List.suffix_cons t _).isInfix, rfl⟩
  | name w _ ih =>
    obtain ⟨g, hg, rfl⟩ := ih hr
    exact ⟨g, hg.trans (List.suffix_cons _ _).isInfix, rfl⟩
  | number f _ ih =>
    rcases List.mem_cons.mp hr with rfl | hr
    · exact ⟨f, (List.prefix_append _ _).isInfix, rfl⟩
    · obtain ⟨g, hg, rfl⟩ := ih hr
      exact ⟨g, hg.trans (List.suffix_append _ _).isInfix, rfl⟩

/-- Numbers are mentioned in the order of the tokens. -/
theorem positions_sublist (h : Mentions ts names numbers) :
    (numbers.map (·.position)).Sublist (ts.map (·.position)) := by
  induction h with
  | nil => exact .refl _
  | other t _ ih => exact ih.cons _
  | name w _ ih => exact ih.cons _
  | number g _ ih => exact ((ih.cons _).cons _).cons_cons _

/-- Names are mentioned in the order of the tokens. -/
theorem name_positions_sublist (h : Mentions ts names numbers) :
    (names.map (·.position)).Sublist (ts.map (·.position)) := by
  induction h with
  | nil => exact .refl _
  | other t _ ih => exact ih.cons _
  | name w _ ih => exact ih.cons_cons _
  | number g _ ih => exact ((ih.cons _).cons _).cons _

end Mentions

/-! ### Phrases -/

theorem TargetPhrase.mentions (g : TargetPhrase) : Mentions g.tokens [] g.stepUses := by
  cases g with
  | step id =>
    have h := Mentions.number id .nil
    rwa [List.append_nil] at h
  | token bang opening name closing => exact .none _

theorem ConditionPhrase.mentions (g : ConditionPhrase) : Mentions [g.token] g.nameUses [] := by
  cases g with
  | name word => exact .name word .nil
  | _ => exact .none _

theorem ActionPhrase.mentions (g : ActionPhrase) : Mentions g.tokens g.nameUses g.stepUses := by
  have h := g.condition.mentions.append (.other g.question.token g.target.mentions)
  rwa [List.append_nil] at h

theorem mentions_flatMap {γ : Type} {tokens : γ → List Token}
    {names : γ → List (Reference String)} {numbers : γ → List (Reference Literal)}
    (h : ∀ g, Mentions (tokens g) (names g) (numbers g)) (gs : List γ) :
    Mentions (gs.flatMap tokens) (gs.flatMap names) (gs.flatMap numbers) := by
  induction gs with
  | nil => exact .nil
  | cons g gs ih => exact (h g).append ih

theorem StepEnd.mentions (g : StepEnd) : Mentions g.tokens [] g.stepUses := by
  cases g with
  | fallback target => exact target.mentions
  | wildcard star question target => exact .nil

/-- The uses in a step are what its tokens mention after the parenthesis that opens it. -/
theorem StepPhrase.mentions_tail (g : StepPhrase) :
    Mentions g.tokens.tail g.nameUses g.stepUses := by
  have hactions := mentions_flatMap ActionPhrase.mentions g.allActions
  have hrest := hactions.append g.ending.mentions
  rw [List.append_nil] at hrest
  exact .other g.id.number.token (.other g.id.closing.token (.other g.colon.token hrest))

theorem StepPhrase.mentions (g : StepPhrase) : Mentions g.tokens g.nameUses g.stepUses :=
  .other g.id.opening.token g.mentions_tail

end StepMachine
