import StepMachine.Proofs.Scheme.Acceptance
import StepMachine.Proofs.Scheme.Uses

/-! # Schemes without errors

A derivation stands for a draft without errors exactly if no name and no number is declared twice
and every name that a condition bears is declared. Such a draft has all the declarations, and in
use are the names that its own conditions bear and the numbers that its own targets lead to.
-/
namespace StepMachine

/-- Names and numbers are declared once, and all names in conditions are declared. -/
structure SchemePhrase.IsClean (g : SchemePhrase) : Prop where
  names : (g.bindings.map (·.record.name)).Nodup
  numbers : (g.steps.map (·.id.value)).Nodup
  declared : ∀ s ∈ g.steps, ∀ use ∈ s.nameUses, ∃ b ∈ g.bindings, b.record.name = use.id

theorem unknownNames_eq_nil_iff {vars : List Variable} {uses : List (Reference String)} :
    unknownNames vars uses = [] ↔ ∀ use ∈ uses, ∃ v ∈ vars, v.name = use.id := by
  simp [unknownNames, isDeclared, List.filter_eq_nil_iff]

namespace SchemePhrase

variable {g : SchemePhrase}

theorem exists_variableDecls_iff {name : String} :
    (∃ v ∈ g.variableDecls, v.name = name) ↔ ∃ b ∈ g.bindings, b.record.name = name := by
  have h := any_firstOnly Variable.name (g.bindings.map VariablePhrase.record) name
  have hany : (g.variableDecls.any (·.name == name) = true) ↔
      (g.bindings.map VariablePhrase.record).any (·.name == name) = true := by
    rw [variableDecls, h]
  simpa [List.any_eq_true] using hany

theorem variableErrors_eq_nil_iff :
    g.variableErrors = [] ↔ (g.bindings.map (·.record.name)).Nodup := by
  have hkeys : g.bindings.map (·.record.name) =
      (g.bindings.map VariablePhrase.record).map Variable.name := by
    rw [List.map_map]
    rfl
  rw [hkeys, nodup_keys_iff, variableErrors, List.flatMap_eq_nil_iff]
  refine forall₂_congr ?_
  rintro ⟨v, taken⟩ -
  cases taken <;> simp

theorem stepErrors_eq_nil_iff : g.stepErrors = [] ↔ (g.steps.map (·.id.value)).Nodup ∧
    ∀ s ∈ g.steps, ∀ use ∈ s.nameUses, ∃ b ∈ g.bindings, b.record.name = use.id := by
  have hparts : g.stepErrors = [] ↔ ∀ p ∈ withTaken (·.id.value) g.steps,
      (∀ use ∈ p.1.nameUses, ∃ b ∈ g.bindings, b.record.name = use.id) ∧ p.2 = false := by
    rw [stepErrors, List.flatMap_eq_nil_iff]
    refine forall₂_congr ?_
    rintro ⟨s, taken⟩ -
    simp only [List.append_eq_nil_iff, unknownNames_eq_nil_iff, exists_variableDecls_iff]
    cases taken <;> simp
  rw [hparts, nodup_keys_iff]
  constructor
  · intro h
    refine ⟨fun p hp => (h p hp).2, ?_⟩
    -- every step comes up in the table, whether or not its number was taken
    intro s hs
    obtain ⟨taken, hmem⟩ := exists_mem_withTaken (·.id.value) hs
    exact (h _ hmem).1
  · rintro ⟨hfree, hdeclared⟩ ⟨s, taken⟩ hp
    exact ⟨hdeclared s (mem_of_mem_withTaken _ hp), hfree _ hp⟩

theorem errors_eq_nil_iff : g.draft.errors = [] ↔ g.IsClean := by
  have hparts : g.draft.errors = g.variableErrors ++ g.stepErrors := rfl
  rw [hparts, List.append_eq_nil_iff, variableErrors_eq_nil_iff, stepErrors_eq_nil_iff]
  constructor
  · rintro ⟨hnames, hnumbers, hdeclared⟩
    exact ⟨hnames, hnumbers, hdeclared⟩
  · rintro ⟨hnames, hnumbers, hdeclared⟩
    exact ⟨hnames, hnumbers, hdeclared⟩

namespace IsClean

variable (h : g.IsClean)
include h

theorem variableDecls_eq : g.variableDecls = g.bindings.map VariablePhrase.record := by
  apply firstOnly_eq_self
  rw [List.map_map]
  exact h.names

theorem stepDecls_eq : g.draft.stepDecls = g.steps.map (·.step g.variableDecls) := by
  apply firstOnly_eq_self
  rw [List.map_map]
  exact h.numbers

theorem variableRefs_eq :
    g.draft.variableRefs = firstOnly Reference.id (g.steps.flatMap StepPhrase.nameUses) := by
  have hall : (g.steps.flatMap StepPhrase.nameUses).filter (isDeclared g.variableDecls) =
      g.steps.flatMap StepPhrase.nameUses := by
    rw [List.filter_eq_self]
    intro use huse
    obtain ⟨s, hs, hmem⟩ := List.mem_flatMap.mp huse
    obtain ⟨v, hv, hname⟩ := exists_variableDecls_iff.mpr (h.declared s hs use hmem)
    exact List.any_eq_true.mpr ⟨v, hv, by simp [hname]⟩
  rw [draft, hall]

/-- In use are the names that conditions of declared steps bear. -/
theorem usesVariable_iff {name : String} : g.draft.usesVariable name = true ↔
    ∃ s ∈ g.draft.stepDecls, ∃ a ∈ s.actions, a.condition.name? = some name := by
  have hany : g.draft.usesVariable name = true ↔
      ∃ s ∈ g.steps, ∃ r ∈ s.nameUses, r.id = name := by
    rw [Draft.usesVariable, h.variableRefs_eq, any_firstOnly]
    simp [List.any_eq_true]
  rw [hany, h.stepDecls_eq]
  simp only [List.mem_map, exists_exists_and_eq_and, StepPhrase.usesName_iff g.variableDecls]

/-- In use are the numbers that targets of declared steps lead to. -/
theorem usesStep_iff {id : Literal} : g.draft.usesStep id = true ↔
    ∃ s ∈ g.draft.stepDecls, ∃ t ∈ s.targets, t.stepId? = some id := by
  have hany : g.draft.usesStep id = true ↔ ∃ s ∈ g.steps, ∃ r ∈ s.stepUses, r.id = id := by
    rw [Draft.usesStep, draft, any_firstOnly]
    simp [List.any_eq_true]
  rw [hany, h.stepDecls_eq]
  simp only [List.mem_map, exists_exists_and_eq_and, StepPhrase.usesNumber_iff g.variableDecls]

end IsClean

end SchemePhrase

/-- Tokens that are read without errors spell a scheme without errors. -/
theorem exists_clean {tokens : List Token} (hend : EndsInEnd tokens)
    (hdecoded : ∀ t ∈ tokens, t.IsDecoded) {d : Draft} (hd : Draft.ofTokens tokens = .ok d)
    (hnone : d.errors = []) : ∃ g : SchemePhrase, g.tokens = beforeEnd tokens ∧
      d = g.draft ∧ g.IsClean := by
  obtain ⟨g, hg, hdraft⟩ | ⟨-, d', hd', herror⟩ := ofTokens_cases hend hdecoded
  · have heq : d = g.draft := Except.ok.inj (hd.symm.trans hdraft)
    exact ⟨g, hg, heq, SchemePhrase.errors_eq_nil_iff.mp (heq ▸ hnone)⟩
  · have heq : d' = d := Except.ok.inj (hd'.symm.trans hd)
    rw [heq, Draft.hasSyntaxError, hnone] at herror
    cases herror

end StepMachine
