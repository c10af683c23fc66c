import StepMachine.Proofs.Scheme.Meaning

/-! # Uses of names and numbers

The uses in a step as it is written can be read off the step that it stands for: a name is used by
the conditions that bear it, and a number by the targets that lead to it. Only the target of a last
action on `*` counts twice there, if it serves as the fallback.
-/
namespace StepMachine

/-! ### Names -/

/-- The name that the condition asks for a variable by. -/
def Condition.name? : Condition → Option String
  | named name _ _ => some name
  | _ => none

theorem ConditionPhrase.name?_condition (vars : List Variable) (g : ConditionPhrase) :
    (g.condition vars).name?.toList = g.nameUses.map (·.id) := by
  cases g <;> rfl

theorem StepPhrase.ids_nameUses (vars : List Variable) (g : StepPhrase) :
    g.nameUses.map (·.id) = (g.step vars).actions.filterMap (·.condition.name?) := by
  have haction : ∀ a : ActionPhrase, a.nameUses.map (·.id) =
      ((a.action vars).condition.name?).toList := fun a =>
    (a.condition.name?_condition vars).symm
  have hactions : (g.step vars).actions = g.allActions.map (·.action vars) := rfl
  rw [hactions, List.filterMap_map, List.filterMap_eq_flatMap_toList, nameUses, List.map_flatMap]
  congr 1
  funext a
  exact haction a

theorem StepPhrase.usesName_iff (vars : List Variable) (g : StepPhrase) {name : String} :
    (∃ r ∈ g.nameUses, r.id = name) ↔
      ∃ a ∈ (g.step vars).actions, a.condition.name? = some name := by
  rw [← List.mem_filterMap, ← g.ids_nameUses vars, List.mem_map]

/-! ### Numbers -/

/-- The use of a step that the target is. -/
def Target.use? : Target → Option (Reference Literal)
  | step id place => some ⟨id, place⟩
  | token .. => none

theorem Target.use?_eq_some_iff {t : Target} {r : Reference Literal} :
    t.use? = some r ↔ t = .step r.id r.position := by
  cases t with
  | step id place =>
    simp only [use?, Option.some.injEq, step.injEq]
    constructor
    · rintro rfl
      exact ⟨rfl, rfl⟩
    · rintro ⟨rfl, rfl⟩
      rfl
  | token name isError place => simp [use?]

theorem TargetPhrase.use?_target (g : TargetPhrase) : g.target.use?.toList = g.stepUses := by
  cases g with
  | step id => rfl
  | token bang opening name closing => cases bang <;> rfl

theorem StepPhrase.filterMap_targets (vars : List Variable) (g : StepPhrase) :
    (g.step vars).targets.filterMap Target.use? =
      g.allActions.flatMap ActionPhrase.stepUses ++ g.ending.target.stepUses := by
  have hactions : ((g.step vars).actions.map (·.target)).filterMap Target.use? =
      g.allActions.flatMap ActionPhrase.stepUses := by
    change ((g.allActions.map (·.action vars)).map (·.target)).filterMap Target.use? = _
    rw [List.filterMap_eq_flatMap_toList, List.flatMap_map, List.flatMap_map]
    congr 1
    funext a
    exact a.target.use?_target
  have hfallback : [(g.step vars).fallback].filterMap Target.use? = g.ending.target.stepUses := by
    rw [List.filterMap_eq_flatMap_toList, List.flatMap_singleton]
    exact g.ending.target.use?_target
  rw [Step.targets, List.filterMap_append, hactions, hfallback]

/-- The targets of a step are its uses, and the target of a last action on `*` once more if that
serves as the fallback. -/
theorem StepPhrase.uses_targets (vars : List Variable) (g : StepPhrase) : ∃ again,
    (g.step vars).targets.filterMap Target.use? = g.stepUses ++ again ∧ again ⊆ g.stepUses := by
  rw [g.filterMap_targets, stepUses]
  cases he : g.ending with
  | fallback target => exact ⟨[], by simp [StepEnd.target, StepEnd.stepUses], by simp⟩
  | wildcard star question target =>
    refine ⟨target.stepUses, by simp [StepEnd.target, StepEnd.stepUses], ?_⟩
    -- the action on `*` has this target too
    have hlast : ⟨.wildcard star, question, target⟩ ∈ g.allActions := by
      simp [allActions, he, StepEnd.lastAction]
    intro r hr
    exact List.mem_append_left _ (List.mem_flatMap.mpr ⟨_, hlast, hr⟩)

theorem StepPhrase.mem_targets_of_mem_stepUses (vars : List Variable) (g : StepPhrase)
    {r : Reference Literal} (hr : r ∈ g.stepUses) :
    .step r.id r.position ∈ (g.step vars).targets := by
  obtain ⟨again, huses, -⟩ := g.uses_targets vars
  have hmem : r ∈ (g.step vars).targets.filterMap Target.use? := by
    rw [huses]
    exact List.mem_append_left _ hr
  obtain ⟨t, ht, huse⟩ := List.mem_filterMap.mp hmem
  exact Target.use?_eq_some_iff.mp huse ▸ ht

theorem StepPhrase.mem_stepUses_of_mem_targets (vars : List Variable) (g : StepPhrase) {id : Literal}
    {place : Position} (ht : .step id place ∈ (g.step vars).targets) :
    ⟨id, place⟩ ∈ g.stepUses := by
  obtain ⟨again, huses, hagain⟩ := g.uses_targets vars
  have hmem : ⟨id, place⟩ ∈ g.stepUses ++ again := by
    rw [← huses]
    exact List.mem_filterMap.mpr ⟨_, ht, rfl⟩
  rcases List.mem_append.mp hmem with hmem | hmem
  · exact hmem
  · exact hagain hmem

theorem StepPhrase.usesNumber_iff (vars : List Variable) (g : StepPhrase) {id : Literal} :
    (∃ r ∈ g.stepUses, r.id = id) ↔ ∃ t ∈ (g.step vars).targets, t.stepId? = some id := by
  constructor
  · rintro ⟨r, hr, rfl⟩
    exact ⟨_, g.mem_targets_of_mem_stepUses vars hr, rfl⟩
  · rintro ⟨t, ht, hid⟩
    cases t with
    | step n place =>
      obtain rfl : n = id := Option.some.inj hid
      exact ⟨_, g.mem_stepUses_of_mem_targets vars ht, rfl⟩
    | token name isError place => cases hid

end StepMachine
