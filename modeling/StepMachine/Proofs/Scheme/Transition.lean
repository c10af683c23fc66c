import Mathlib.Logic.Relation
import StepMachine.Regex.Compile
import StepMachine.Scheme

/-! # Transitions

A step takes the target of the first action that matches, and the fallback if none does; only a
condition on a pattern that has none can keep it from a target. So an action on a name that stands
for nothing is never taken, nor is one behind an action on `*`, nor the
fallback of a step that has such an action. A step from which all of these are cleared away takes
the same targets, and what it has become does not depend on the order in which that is done.
-/
namespace StepMachine

variable {E : Engine}

/-- The condition can be tested: one on a pattern has a pattern. -/
def Condition.IsTestable : Condition → Prop
  | pattern value _ => ∃ p, value = some (.pattern p)
  | _ => True

theorem Condition.exists_accepts_iff {c : Condition} {ch : String} :
    (∃ answer, c.accepts E ch = .ok answer) ↔ c.IsTestable := by
  cases c with
  | pattern value place => rcases value with _ | _ | _ | p <;> simp [accepts, IsTestable]
  | _ => simp [accepts, IsTestable]

/-- The condition is on a name that has no variable. -/
def Condition.isUnbound : Condition → Bool
  | named _ none _ => true
  | _ => false

theorem Condition.accepts_of_isUnbound {c : Condition} (h : c.isUnbound = true) (ch : String) :
    c.accepts E ch = .ok false := by
  cases c with
  | named name binding place =>
    cases binding with
    | none => rfl
    | some v => cases h
  | _ => cases h

theorem Condition.accepts_of_isWildcard {c : Condition} (h : c.isWildcard = true) (ch : String) :
    c.accepts E ch = .ok true := by
  cases c with
  | wildcard place => rfl
  | _ => cases h

theorem Condition.isWildcard_of_isUnbound {c : Condition} (h : c.isUnbound = true) :
    c.isWildcard = false := by
  cases c with
  | named => rfl
  | _ => cases h

namespace Action

/-- The actions whose conditions are not on names without a variable. -/
def bound (actions : List Action) : List Action := actions.filter (!·.condition.isUnbound)

/-- The actions up to the first one on `*`. -/
def upToWildcard : List Action → List Action
  | [] => []
  | a :: rest => if a.condition.isWildcard then [a] else a :: upToWildcard rest

/-- The first of the actions that is on `*`. -/
def wildcard? (actions : List Action) : Option Action := actions.find? (·.condition.isWildcard)

variable {actions : List Action}

theorem bound_cons_of_isUnbound {a : Action} (h : a.condition.isUnbound = true) :
    bound (a :: actions) = bound actions := List.filter_cons_of_neg (by simp [h])

theorem bound_cons_of_not_isUnbound {a : Action} (h : a.condition.isUnbound = false) :
    bound (a :: actions) = a :: bound actions := List.filter_cons_of_pos (by simp [h])

@[simp] theorem bound_bound (actions : List Action) : bound (bound actions) = bound actions := by
  simp [bound]

@[simp] theorem upToWildcard_upToWildcard (actions : List Action) :
    upToWildcard (upToWildcard actions) = upToWildcard actions := by
  induction actions with
  | nil => rfl
  | cons a rest ih =>
    cases ha : a.condition.isWildcard with
    | true => simp [upToWildcard, ha]
    | false => simp [upToWildcard, ha, ih]

/-- It makes no difference which is cleared away first. -/
theorem upToWildcard_bound (actions : List Action) :
    upToWildcard (bound actions) = bound (upToWildcard actions) := by
  induction actions with
  | nil => rfl
  | cons a rest ih =>
    cases hu : a.condition.isUnbound with
    | true =>
      have hw := Condition.isWildcard_of_isUnbound hu
      simp only [upToWildcard, hw, bound_cons_of_isUnbound hu, Bool.false_eq_true, if_false, ih]
    | false =>
      rw [bound_cons_of_not_isUnbound hu, upToWildcard, upToWildcard]
      split
      · rw [bound_cons_of_not_isUnbound hu]
        rfl
      · rw [bound_cons_of_not_isUnbound hu, ih]

theorem wildcard?_bound (actions : List Action) : wildcard? (bound actions) = wildcard? actions := by
  induction actions with
  | nil => rfl
  | cons a rest ih =>
    cases hu : a.condition.isUnbound with
    | true =>
      have hw := Condition.isWildcard_of_isUnbound hu
      rw [bound_cons_of_isUnbound hu, ih, wildcard?, wildcard?, List.find?_cons_of_neg (by simp [hw])]
    | false =>
      rw [bound_cons_of_not_isUnbound hu, wildcard?, wildcard?, List.find?_cons, List.find?_cons]
      rw [wildcard?, wildcard?] at ih
      rw [ih]

theorem wildcard?_upToWildcard (actions : List Action) :
    wildcard? (upToWildcard actions) = wildcard? actions := by
  induction actions with
  | nil => rfl
  | cons a rest ih =>
    rw [wildcard?, wildcard?] at ih ⊢
    rw [upToWildcard]
    split
    · next hw => simp [hw]
    · rw [List.find?_cons, List.find?_cons, ih]

/-! ### The first action that matches -/

variable {ch : String}

/-- What is not taken is passed over. -/
theorem firstAccepting_bound (actions : List Action) :
    firstAccepting E ch (bound actions) = firstAccepting E ch actions := by
  induction actions with
  | nil => rfl
  | cons a rest ih =>
    cases hu : a.condition.isUnbound with
    | true =>
      have hpass : a.accepts E ch = .ok false := Condition.accepts_of_isUnbound hu ch
      rw [bound_cons_of_isUnbound hu, ih, firstAccepting, hpass]
    | false => rw [bound_cons_of_not_isUnbound hu, firstAccepting, firstAccepting, ih]

/-- Nothing is tested behind an action on `*`. -/
theorem firstAccepting_upToWildcard (actions : List Action) :
    firstAccepting E ch (upToWildcard actions) = firstAccepting E ch actions := by
  induction actions with
  | nil => rfl
  | cons a rest ih =>
    rw [upToWildcard]
    split
    · next hw =>
      have hmatch : a.accepts E ch = .ok true := Condition.accepts_of_isWildcard hw ch
      simp only [firstAccepting, hmatch]
    · rw [firstAccepting, firstAccepting, ih]

/-- Where there is an action on `*`, some action matches, unless a test fails before. -/
theorem firstAccepting_ne_none {a : Action} (ha : a ∈ actions) (hw : a.condition.isWildcard = true) :
    firstAccepting E ch actions ≠ .ok none := by
  induction actions with
  | nil => cases ha
  | cons b rest ih =>
    rw [firstAccepting]
    split
    · simp
    · simp
    · next hpass =>
      rcases List.mem_cons.mp ha with rfl | ha
      · have hmatch : a.accepts E ch = .ok true := Condition.accepts_of_isWildcard hw ch
        exact absurd (hpass.symm.trans hmatch) (by simp)
      · exact ih ha

/-- The action with this number is the first that is not passed over. -/
def IsReached (E : Engine) (ch : String) (actions : List Action) (i : Nat) (a : Action) : Prop :=
  actions[i]? = some a ∧ ∀ j < i, ∀ b, actions[j]? = some b → b.accepts E ch = .ok false

theorem IsReached.cons {a b : Action} {i : Nat} (h : IsReached E ch actions i a)
    (hb : b.accepts E ch = .ok false) : IsReached E ch (b :: actions) (i + 1) a := by
  obtain ⟨ha, hbefore⟩ := h
  refine ⟨by rwa [List.getElem?_cons_succ], fun j hj d hd => ?_⟩
  cases j with
  | zero =>
    obtain rfl : b = d := by simpa using hd
    exact hb
  | succ j =>
    rw [List.getElem?_cons_succ] at hd
    exact hbefore j (by omega) d hd

theorem isReached_head (a : Action) (actions : List Action) :
    IsReached E ch (a :: actions) 0 a := ⟨rfl, fun _ hj => absurd hj (Nat.not_lt_zero _)⟩

/-- The first action that is not passed over matches, or its test fails; if there is none, no
action matches. -/
theorem firstAccepting_cases (E : Engine) (ch : String) (actions : List Action) :
    (∃ i a, IsReached E ch actions i a ∧ a.accepts E ch = .ok true ∧
      firstAccepting E ch actions = .ok (some a)) ∨
    ((∀ a ∈ actions, a.accepts E ch = .ok false) ∧ firstAccepting E ch actions = .ok none) ∨
    ∃ i a missing, IsReached E ch actions i a ∧ a.accepts E ch = .error missing ∧
      firstAccepting E ch actions = .error missing := by
  induction actions with
  | nil => exact .inr (.inl ⟨by simp, rfl⟩)
  | cons a rest ih =>
    rw [firstAccepting]
    split
    · next missing hfail => exact .inr (.inr ⟨0, a, missing, isReached_head a rest, hfail, rfl⟩)
    · next hmatch => exact .inl ⟨0, a, isReached_head a rest, hmatch, rfl⟩
    · next hpass =>
      obtain ⟨i, b, hb, hmatch, hfirst⟩ | ⟨hall, hfirst⟩ | ⟨i, b, missing, hb, hfail, hfirst⟩ := ih
      · exact .inl ⟨i + 1, b, hb.cons hpass, hmatch, hfirst⟩
      · exact .inr (.inl ⟨List.forall_mem_cons.mpr ⟨hpass, hall⟩, hfirst⟩)
      · exact .inr (.inr ⟨i + 1, b, missing, hb.cons hpass, hfail, hfirst⟩)

end Action

namespace Step

variable (s : Step)

/-- The transition leads to the first action that matches, or to the fallback if none does, unless
an action is tested before that asks for a pattern and has none. -/
theorem transition_cases (E : Engine) (ch : String) :
    (∃ i a, Action.IsReached E ch s.actions i a ∧ a.accepts E ch = .ok true ∧
      s.transition E ch = .ok a.target) ∨
    ((∀ a ∈ s.actions, a.accepts E ch = .ok false) ∧ s.transition E ch = .ok s.fallback) ∨
    ∃ i a missing, Action.IsReached E ch s.actions i a ∧ ¬a.condition.IsTestable ∧
      s.transition E ch = .error missing := by
  obtain ⟨i, a, ha, hmatch, hfirst⟩ | ⟨hall, hfirst⟩ | ⟨i, a, missing, ha, hfail, hfirst⟩ :=
    Action.firstAccepting_cases E ch s.actions
  · exact .inl ⟨i, a, ha, hmatch, by rw [transition, hfirst]⟩
  · exact .inr (.inl ⟨hall, by rw [transition, hfirst]⟩)
  · refine .inr (.inr ⟨i, a, missing, ha, fun htestable => ?_, by rw [transition, hfirst]⟩)
    obtain ⟨answer, hanswer⟩ := Condition.exists_accepts_iff.mpr htestable
    exact absurd (hanswer.symm.trans hfail) (by simp)

theorem mem_targets_of_transition {ch : String} {t : Target} (h : s.transition E ch = .ok t) :
    t ∈ s.targets := by
  rw [targets]
  obtain ⟨i, a, ha, -, htarget⟩ | ⟨-, hfallback⟩ | ⟨i, a, missing, -, -, hfail⟩ :=
    s.transition_cases E ch
  · obtain rfl := Except.ok.inj (h.symm.trans htarget)
    exact List.mem_append_left _ (List.mem_map_of_mem (List.mem_of_getElem? ha.1))
  · obtain rfl := Except.ok.inj (h.symm.trans hfallback)
    exact List.mem_append_right _ (List.mem_singleton_self _)
  · exact absurd (h.symm.trans hfail) (by simp)

/-- A step whose conditions can all be tested has a target for every text. -/
theorem exists_transition (h : ∀ a ∈ s.actions, a.condition.IsTestable) (ch : String) :
    ∃ t ∈ s.targets, s.transition E ch = .ok t := by
  obtain ⟨i, a, -, -, htarget⟩ | ⟨-, hfallback⟩ | ⟨i, a, missing, ha, hfail, -⟩ :=
    s.transition_cases E ch
  · exact ⟨a.target, s.mem_targets_of_transition htarget, htarget⟩
  · exact ⟨s.fallback, s.mem_targets_of_transition hfallback, hfallback⟩
  · exact absurd (h a (List.mem_of_getElem? ha.1)) hfail

/-! ### What is never taken -/

/-- Some action is on `*`. -/
def hasWildcard : Bool := s.actions.any (·.condition.isWildcard)

/-- The step without the actions on names that have no variable. -/
def dropUnbound : Step := { s with actions := Action.bound s.actions }

/-- The step without the actions behind the first one on `*`. -/
def dropBehindWildcard : Step := { s with actions := Action.upToWildcard s.actions }

/-- The step with another fallback. -/
def withFallback (t : Target) : Step := { s with fallback := t }

/-- The target of the first action on `*`, or the fallback if there is none. -/
def lastResort : Target := ((Action.wildcard? s.actions).map (·.target)).getD s.fallback

/-- The step without what is never taken; its fallback is what is taken when nothing else is. -/
def normal : Step := s.dropUnbound.dropBehindWildcard.withFallback s.lastResort

/-- One way to clear away what is never taken. -/
inductive Clears (s : Step) : Step → Prop
  | unbound : Clears s s.dropUnbound
  | behindWildcard : Clears s s.dropBehindWildcard
  | fallback (h : s.hasWildcard = true) (t : Target) : Clears s (s.withFallback t)

variable {s} {s' : Step}

theorem exists_wildcard_iff :
    s.hasWildcard = true ↔ ∃ a, Action.wildcard? s.actions = some a := by
  rw [hasWildcard, ← Option.isSome_iff_exists, Action.wildcard?, List.find?_isSome,
    List.any_eq_true]

theorem transition_dropUnbound (s : Step) (ch : String) :
    s.dropUnbound.transition E ch = s.transition E ch := by
  rw [transition, transition, dropUnbound, Action.firstAccepting_bound]

theorem transition_dropBehindWildcard (s : Step) (ch : String) :
    s.dropBehindWildcard.transition E ch = s.transition E ch := by
  rw [transition, transition, dropBehindWildcard, Action.firstAccepting_upToWildcard]

theorem transition_withFallback (h : s.hasWildcard = true) (t : Target) (ch : String) :
    (s.withFallback t).transition E ch = s.transition E ch := by
  obtain ⟨a, ha, hw⟩ := List.any_eq_true.mp h
  rw [transition, transition, withFallback]
  cases hfirst : firstAccepting E ch s.actions with
  | error missing => rfl
  | ok found =>
    cases found with
    | none => exact absurd hfirst (Action.firstAccepting_ne_none ha hw)
    | some b => rfl

namespace Clears

theorem transition_eq (h : Clears s s') (ch : String) :
    s'.transition E ch = s.transition E ch := by
  cases h with
  | unbound => exact transition_dropUnbound s ch
  | behindWildcard => exact transition_dropBehindWildcard s ch
  | fallback h t => exact transition_withFallback h t ch

theorem lastResort_eq (h : Clears s s') : s'.lastResort = s.lastResort := by
  cases h with
  | unbound => simp only [lastResort, dropUnbound, Action.wildcard?_bound]
  | behindWildcard => simp only [lastResort, dropBehindWildcard, Action.wildcard?_upToWildcard]
  | fallback h t =>
    obtain ⟨a, ha⟩ := exists_wildcard_iff.mp h
    simp [lastResort, withFallback, ha]

/-- What is left in the end is the same, whatever is cleared away first. -/
theorem normal_eq (h : Clears s s') : s'.normal = s.normal := by
  rw [normal, normal, h.lastResort_eq]
  cases h with
  | unbound => simp [dropUnbound, dropBehindWildcard, withFallback]
  | behindWildcard =>
    simp [dropUnbound, dropBehindWildcard, withFallback, Action.upToWildcard_bound]
  | fallback h t => simp [dropUnbound, dropBehindWildcard, withFallback]

end Clears

/-- All of it can be cleared away. -/
theorem clears_normal (s : Step) : Relation.ReflTransGen Clears s s.normal := by
  have hdrop : Relation.ReflTransGen Clears s s.dropUnbound.dropBehindWildcard :=
    .tail (.single .unbound) .behindWildcard
  cases hw : s.dropUnbound.dropBehindWildcard.hasWildcard with
  | true => exact hdrop.tail (.fallback hw _)
  | false =>
    have hnone : Action.wildcard? (Action.upToWildcard (Action.bound s.actions)) = none :=
      List.find?_eq_none.mpr (List.any_eq_false.mp hw)
    rw [Action.wildcard?_upToWildcard, Action.wildcard?_bound] at hnone
    have hfallback : s.lastResort = s.fallback := by simp [lastResort, hnone]
    rw [normal, hfallback]
    exact hdrop

/-- Steps that come from one another by clearing away are those with one normal form. -/
theorem eqvGen_clears_iff : Relation.EqvGen Clears s s' ↔ s.normal = s'.normal := by
  constructor
  · intro h
    induction h with
    | rel _ _ h => exact h.normal_eq.symm
    | refl => rfl
    | symm _ _ _ ih => exact ih.symm
    | trans _ _ _ _ _ ih₁ ih₂ => exact ih₁.trans ih₂
  · intro h
    have hs := Relation.EqvGen.reflTransGen_le_eqvGen _ _ _ (clears_normal s)
    have hs' := Relation.EqvGen.reflTransGen_le_eqvGen _ _ _ (clears_normal s')
    exact hs.trans _ _ _ (h ▸ hs'.symm _ _)

theorem transition_of_clears (h : Relation.ReflTransGen Clears s s') (ch : String) :
    s'.transition E ch = s.transition E ch := by
  induction h with
  | refl => rfl
  | tail _ hclears ih => rw [hclears.transition_eq, ih]

/-- Nothing but actions and fallback has a part in a transition. -/
theorem transition_congr (ha : s.actions = s'.actions) (hf : s.fallback = s'.fallback)
    (ch : String) : s.transition E ch = s'.transition E ch := by
  rw [transition, transition, ha, hf]

/-- A transition takes the first action that matches, or else the fallback, as long as no condition
on a pattern without one is tested; and what is never taken may be cleared away: an action on a name
without a variable, all behind an action on `*`, and the fallback of a step with such an action.
Clearing away leads to one normal form, whatever is done first, and steps of one normal form have
the same transitions. -/
theorem transition_ignores_cleared (E : Engine) (s : Step) :
    (∀ ch,
      (∃ i a, Action.IsReached E ch s.actions i a ∧ a.accepts E ch = .ok true ∧
        s.transition E ch = .ok a.target) ∨
      ((∀ a ∈ s.actions, a.accepts E ch = .ok false) ∧ s.transition E ch = .ok s.fallback) ∨
      ∃ i a missing, Action.IsReached E ch s.actions i a ∧ ¬a.condition.IsTestable ∧
        s.transition E ch = .error missing) ∧
    ((∀ a ∈ s.actions, a.condition.IsTestable) →
      ∀ ch, ∃ t ∈ s.targets, s.transition E ch = .ok t) ∧
    (∀ ch, s.dropUnbound.transition E ch = s.transition E ch) ∧
    (∀ ch, s.dropBehindWildcard.transition E ch = s.transition E ch) ∧
    (s.hasWildcard = true →
      ∀ t ch, (s.withFallback t).transition E ch = s.transition E ch) ∧
    (∀ s', Relation.EqvGen Clears s s' ↔ s.normal = s'.normal) ∧
    ∀ s' : Step, s.normal.actions = s'.normal.actions → s.normal.fallback = s'.normal.fallback →
      ∀ ch, s.transition E ch = s'.transition E ch := by
  refine ⟨s.transition_cases E, s.exists_transition, transition_dropUnbound s,
    transition_dropBehindWildcard s, transition_withFallback, fun s' => eqvGen_clears_iff, ?_⟩
  intro s' hactions hfallback ch
  calc s.transition E ch
      = s.normal.transition E ch := (transition_of_clears (clears_normal s) ch).symm
    _ = s'.normal.transition E ch := transition_congr hactions hfallback ch
    _ = s'.transition E ch := transition_of_clears (clears_normal s') ch

end Step

/-- On the first line, `(1): y?[a] /(?!b)*+[a-c]/?[b] *?[c] "z"?[d] [e]`, where `y` has no
variable. -/
def clutteredStep : Step where
  id := .number 1
  actions := [
    ⟨.named "y" none ⟨1, 6, 5⟩, .token (some (.text "a")) false ⟨1, 8, 7⟩⟩,
    ⟨.pattern (some (.pattern ⟨"(?!b)*+[a-c]", ""⟩)) ⟨1, 12, 11⟩,
      .token (some (.text "b")) false ⟨1, 27, 26⟩⟩,
    ⟨.wildcard ⟨1, 31, 30⟩, .token (some (.text "c")) false ⟨1, 33, 32⟩⟩,
    ⟨.text (some (.text "z")) ⟨1, 37, 36⟩, .token (some (.text "d")) false ⟨1, 41, 40⟩⟩]
  fallback := .token (some (.text "e")) false ⟨1, 45, 44⟩
  position := ⟨1, 1, 0⟩

/-- The step with nothing left but what may be taken. -/
def tidyStep : Step where
  id := .number 1
  actions := [
    ⟨.pattern (some (.pattern ⟨"(?!b)*+[a-c]", ""⟩)) ⟨1, 12, 11⟩,
      .token (some (.text "b")) false ⟨1, 27, 26⟩⟩,
    ⟨.wildcard ⟨1, 31, 30⟩, .token (some (.text "c")) false ⟨1, 33, 32⟩⟩]
  fallback := .token (some (.text "c")) false ⟨1, 33, 32⟩
  position := ⟨1, 1, 0⟩

theorem cluttered_taken_as_tidy :
    let E := Regex.engine (.plain true)
    clutteredStep.hasWildcard = true ∧
    (∀ t ch, (clutteredStep.withFallback t).transition E ch = clutteredStep.transition E ch) ∧
    (∃ t ∈ clutteredStep.targets, clutteredStep.transition E "b" = .ok t) ∧
    Relation.EqvGen Step.Clears clutteredStep tidyStep ∧
    ∀ ch, clutteredStep.transition E ch = tidyStep.transition E ch := by
  intro E
  have hwildcard : clutteredStep.hasWildcard = true := by decide
  have hnormal : clutteredStep.normal = tidyStep.normal := by decide
  have htestable : ∀ a ∈ clutteredStep.actions, a.condition.IsTestable := by
    simp [clutteredStep, Condition.IsTestable]
  obtain ⟨-, htargets, -, -, hfallback, hclears, hsame⟩ :=
    Step.transition_ignores_cleared E clutteredStep
  exact ⟨hwildcard, hfallback hwildcard, htargets htestable "b", (hclears tidyStep).mpr hnormal,
    hsame tidyStep (by rw [hnormal]) (by rw [hnormal])⟩

end StepMachine
