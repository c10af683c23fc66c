import StepMachine.Proofs.Compiled.Damage

/-! # Which warnings there are

The warnings of a compiled scheme can be told from its own tables and the options, whatever else is
wrong with the text. The options decide only which sorts of warnings are kept, and the profile that
they were chosen for decides nothing. Without errors, unused is what no condition bears the name of,
or what no target of a declared step leads to.
-/
namespace StepMachine

/-- The warnings with this code are wanted. -/
def CheckOptions.wants (o : CheckOptions) : Code → Bool
  | .unusedVariable => o.unusedVariables
  | .unusedStep => o.unusedSteps
  | .undeclaredStep => o.undeclaredSteps
  | _ => false

/-- The warnings that the tables of the scheme call for: on variables whose names are not in use, on
steps whose numbers are not in use, and on uses of numbers that no step has. -/
def CompiledScheme.calledFor (c : CompiledScheme) (o : CheckOptions) : List Diagnostic :=
  (if o.unusedVariables then
    (c.variableDecls.filter (·.name ∉ c.variableRefs.map (·.id))).map fun v =>
      ⟨.unusedVariable v.name, v.position⟩ else []) ++
  (if o.unusedSteps then
    (c.stepDecls.filter (·.id ∉ c.stepRefs.map (·.id))).map fun s =>
      ⟨.unusedStep s.id, s.position⟩ else []) ++
  (if o.undeclaredSteps then
    (c.stepRefs.filter (·.id ∉ c.stepDecls.map (·.id))).map fun r =>
      ⟨.undeclaredStep r.id, r.position⟩ else [])

/-- The records of each table have different keys and stand in the order of the text. -/
structure CompiledScheme.IsOrdered (c : CompiledScheme) : Prop where
  names : (c.variableDecls.map (·.name)).Nodup
  numbers : (c.stepDecls.map (·.id)).Nodup
  uses : (c.stepRefs.map (·.id)).Nodup
  variableDecls : (c.variableDecls.map (·.position.index)).Pairwise (· < ·)
  stepDecls : (c.stepDecls.map (·.position.index)).Pairwise (· < ·)
  stepRefs : (c.stepRefs.map (·.position.index)).Pairwise (· < ·)

/-! ### Findings -/

namespace Draft

variable {d : Draft} {o : CheckOptions}

theorem filter_unlisted {α β κ : Type} [DecidableEq κ] (key : α → κ) (key' : β → κ) (l : List α)
    (table : List β) : l.filter (fun a => !table.any (key' · == key a)) =
      l.filter (key · ∉ table.map key') := by
  refine List.filter_congr fun a _ => ?_
  have hany : table.any (key' · == key a) = decide (key a ∈ table.map key') :=
    Bool.eq_iff_iff.mpr ((any_key_iff key').trans decide_eq_true_iff.symm)
  rw [hany, decide_not]

theorem findings_eq_calledFor (d : Draft) (o : CheckOptions) (text : String) (tokens : List Token)
    (scanned : List Diagnostic) :
    d.findings o = (CompiledScheme.ofDraft text tokens scanned d).calledFor o := by
  have hvariables := filter_unlisted Variable.name Reference.id d.variableDecls d.variableRefs
  have hsteps := filter_unlisted Step.id Reference.id d.stepDecls d.stepRefs
  have hundeclared := filter_unlisted Reference.id Step.id d.stepRefs d.stepDecls
  simp only [findings, unusedVariables, unusedSteps, undeclaredSteps, usesVariable, usesStep,
    hvariables, hsteps, hundeclared]
  rfl

theorem filter_wants {ds : List Diagnostic} {code : Code} (h : ∀ x ∈ ds, x.code = code) :
    ds.filter (o.wants ·.code) = if o.wants code then ds else [] := by
  split
  · next hwanted =>
    rw [List.filter_eq_self]
    intro x hx
    rw [h x hx, hwanted]
  · next hunwanted =>
    rw [List.filter_eq_nil_iff]
    intro x hx
    rw [h x hx]
    exact hunwanted

/-- What is found is what would be found under all checks, less what is not wanted. -/
theorem findings_eq_filter (d : Draft) (o : CheckOptions) :
    d.findings o = (d.findings .default).filter (o.wants ·.code) := by
  have hvariables : ∀ x ∈ d.unusedVariables, x.code = .unusedVariable := by
    intro x hx
    obtain ⟨v, -, rfl⟩ := List.mem_map.mp hx
    rfl
  have hsteps : ∀ x ∈ d.unusedSteps, x.code = .unusedStep := by
    intro x hx
    obtain ⟨s, -, rfl⟩ := List.mem_map.mp hx
    rfl
  have hundeclared : ∀ x ∈ d.undeclaredSteps, x.code = .undeclaredStep := by
    intro x hx
    obtain ⟨r, -, rfl⟩ := List.mem_map.mp hx
    rfl
  have hall : d.findings .default = d.unusedVariables ++ d.unusedSteps ++ d.undeclaredSteps := rfl
  rw [hall, List.filter_append, List.filter_append, filter_wants hvariables,
    filter_wants hsteps, filter_wants hundeclared]
  rfl

theorem unusedVariable_mem_findings (ho : o.unusedVariables = true) {v : Variable}
    (hv : v ∈ d.variableDecls) :
    ⟨.unusedVariable v.name, v.position⟩ ∈ d.findings o ↔ ¬d.usesVariable v.name = true := by
  rw [mem_findings_iff, Bool.not_eq_true]
  constructor
  · rintro (⟨-, w, -, hfree, heq⟩ | ⟨-, s, -, -, heq⟩ | ⟨-, r, -, -, heq⟩)
    · have hname : v.name = w.name := by simpa using congrArg Diagnostic.cause heq
      rw [hname, hfree]
    · cases heq
    · cases heq
  · intro hfree
    exact .inl ⟨ho, v, hv, hfree, rfl⟩

theorem unusedStep_mem_findings (ho : o.unusedSteps = true) {s : Step} (hs : s ∈ d.stepDecls) :
    ⟨.unusedStep s.id, s.position⟩ ∈ d.findings o ↔ ¬d.usesStep s.id = true := by
  rw [mem_findings_iff, Bool.not_eq_true]
  constructor
  · rintro (⟨-, v, -, -, heq⟩ | ⟨-, t, -, hfree, heq⟩ | ⟨-, r, -, -, heq⟩)
    · cases heq
    · have hid : s.id = t.id := by simpa using congrArg Diagnostic.cause heq
      rw [hid, hfree]
    · cases heq
  · intro hfree
    exact .inr (.inl ⟨ho, s, hs, hfree, rfl⟩)

end Draft

/-! ### Compiled schemes -/

variable {E : Engine} {text : String} {scanned : List Diagnostic} {c : CompiledScheme}

namespace IsRun

variable {o : CheckOptions} {start finish : ParseState} {parts : PartialScheme}
variable (h : IsRun E text o c scanned start finish parts)
include h

theorem findings_eq (o' : CheckOptions) : finish.draft.findings o' = c.calledFor o' := by
  rw [finish.draft.findings_eq_calledFor o' text c.tokens scanned, h.result_eq]
  rfl

theorem pairwise_of_sublist {α : Type} {l : List α} {place : α → Position}
    (hs : (l.map place).Sublist (parts.tokens.map (·.position))) :
    (l.map fun a => (place a).index).Pairwise (· < ·) := by
  refine (scanAll_isLaidOut h.scan_eq).pairwise_of_sublist (hs.trans ?_)
  rw [h.tokens_eq]
  exact (List.sublist_append_left _ _).map _

theorem isOrdered : c.IsOrdered := by
  -- each record has its place from a token of its own, and the tokens stand in order
  have hvariables : (c.variableDecls.map (·.position)).Sublist
      (parts.tokens.map (·.position)) := by
    rw [h.variableDecls_eq]
    refine ((firstOnly_sublist _ _).map _).trans ?_
    have hplaces := parts.words_sublist.map (·.position)
    rw [List.map_map] at hplaces ⊢
    exact hplaces
  have hsteps : (c.stepDecls.map (·.position)).Sublist (parts.tokens.map (·.position)) := by
    rw [h.stepDecls_eq]
    refine ((firstOnly_sublist _ _).map _).trans ?_
    have hplaces := parts.openings_sublist.map (·.position)
    rw [List.map_map] at hplaces ⊢
    exact hplaces
  have huses : (c.stepRefs.map (·.position)).Sublist (parts.tokens.map (·.position)) := by
    rw [h.stepRefs_eq]
    exact ((firstOnly_sublist _ _).map _).trans parts.mentions_tokens.positions_sublist
  refine ⟨?_, ?_, ?_, ?_, ?_, ?_⟩
  · rw [h.variableDecls_eq]
    exact nodup_firstOnly ..
  · rw [h.stepDecls_eq]
    exact nodup_firstOnly ..
  · rw [h.stepRefs_eq]
    exact nodup_firstOnly ..
  · exact h.pairwise_of_sublist hvariables
  · exact h.pairwise_of_sublist hsteps
  · exact h.pairwise_of_sublist huses

theorem compileWith_eq (o' : CheckOptions) :
    CompiledScheme.compileWith E text o' = .ok { c with warnings := c.calledFor o' } := by
  have hwarnings : finish.draft.warnings ++ finish.draft.findings o' = c.calledFor o' := by
    rw [h.draft.warnings_eq, List.nil_append, h.findings_eq]
  rw [CompiledScheme.compileWith, h.scan_eq]
  simp only [Draft.checked, h.ofTokens_eq, h.hasNumbers.checkReferences_eq]
  rw [← hwarnings, h.result_eq]
  rfl

/-- Without errors, a variable is unused if no condition of a declared step bears its name. -/
theorem unusedVariable_mem_warnings (hnone : c.errors = []) (ho : o.unusedVariables = true)
    {v : Variable} (hv : v ∈ c.variableDecls) :
    ⟨.unusedVariable v.name, v.position⟩ ∈ c.warnings ↔
      ¬∃ s ∈ c.stepDecls, ∃ a ∈ s.actions, a.condition.name? = some v.name := by
  obtain ⟨g, hdraft, hclean⟩ := h.exists_clean hnone
  have hmem : v ∈ finish.draft.variableDecls := by
    rw [h.result_eq] at hv
    exact hv
  rw [h.warnings_eq, Draft.unusedVariable_mem_findings ho hmem, ← h.draft_stepDecls, hdraft,
    hclean.usesVariable_iff]

/-- Without errors, a step is unused if no target of a declared step leads to it. -/
theorem unusedStep_mem_warnings (hnone : c.errors = []) (ho : o.unusedSteps = true)
    {s : Step} (hs : s ∈ c.stepDecls) :
    ⟨.unusedStep s.id, s.position⟩ ∈ c.warnings ↔
      ¬∃ s' ∈ c.stepDecls, ∃ t ∈ s'.targets, t.stepId? = some s.id := by
  obtain ⟨g, hdraft, hclean⟩ := h.exists_clean hnone
  rw [← h.draft_stepDecls] at hs ⊢
  rw [h.warnings_eq, Draft.unusedStep_mem_findings ho hs, hdraft, hclean.usesStep_iff]

end IsRun

/-- The warnings are exactly what the tables of the scheme call for, in the order and at the places
in which the records were read. Options only filter them, and the profile changes nothing. Without
errors, what is reported as unused is what the declared steps do not use. -/
theorem compile_warnings_exact {given : Option CheckOptions} {profile : Option Profile}
    {o : CheckOptions} (ho : CheckOptions.resolve given profile = .ok o)
    (h : CompiledScheme.compile E text given profile = .ok c) :
    c.warnings = c.calledFor o ∧ c.IsOrdered ∧ (∃ n, c.IsReadFrom (c.tokens.take n)) ∧
    (∀ o', CompiledScheme.compile E text (some o') none =
      .ok { c with warnings := c.calledFor o' }) ∧
    (∃ full, CompiledScheme.compile E text none none = .ok full ∧
      ∀ o', c.calledFor o' = full.warnings.filter (o'.wants ·.code)) ∧
    (∀ p, CompiledScheme.compile E text (some { o with profile := p }) none = .ok c) ∧
    (c.errors = [] →
      (o.unusedVariables = true → ∀ v ∈ c.variableDecls,
        (⟨.unusedVariable v.name, v.position⟩ ∈ c.warnings ↔
          ¬∃ s ∈ c.stepDecls, ∃ a ∈ s.actions, a.condition.name? = some v.name)) ∧
      (o.unusedSteps = true → ∀ s ∈ c.stepDecls,
        (⟨.unusedStep s.id, s.position⟩ ∈ c.warnings ↔
          ¬∃ s' ∈ c.stepDecls, ∃ t ∈ s'.targets, t.stepId? = some s.id))) := by
  have hcompile : CompiledScheme.compileWith E text o = .ok c := CompiledScheme.compile_eq ho ▸ h
  obtain ⟨scanned, start, finish, parts, hrun⟩ := exists_isRun hcompile
  have hwarnings : c.warnings = c.calledFor o := by rw [hrun.warnings_eq, hrun.findings_eq]
  have hother : ∀ o', CompiledScheme.compile E text (some o') none =
      .ok { c with warnings := c.calledFor o' } := fun o' =>
    (CompiledScheme.compile_eq rfl).trans (hrun.compileWith_eq o')
  refine ⟨hwarnings, hrun.isOrdered, ⟨finish.cursor.index, ?_⟩, hother,
    ⟨_, hother .default, ?_⟩, ?_, ?_⟩
  · rw [hrun.take_index]
    exact hrun.isReadFrom
  · intro o'
    rw [← hrun.findings_eq, finish.draft.findings_eq_filter, hrun.findings_eq]
  · intro p
    have hsame : c.calledFor { o with profile := p } = c.calledFor o := rfl
    rw [hother, hsame, ← hwarnings]
  · intro hnone
    exact ⟨fun hwanted v hv => hrun.unusedVariable_mem_warnings hnone hwanted hv,
      fun hwanted s hs => hrun.unusedStep_mem_warnings hnone hwanted hs⟩

/-- The first text goes on where it should end, and is still checked; in the second one the second
variable and the first step are not used. -/
theorem unused_reported :
    let E := Regex.engine (.plain true)
    (∃ c, CompiledScheme.compile E "a:\"x\" b:\"y\" (1): a?(2) *?(3) (2): [t] )" none none = .ok c ∧
      c.errors ≠ [] ∧ c.warnings = c.calledFor .default ∧
      CompiledScheme.compile E "a:\"x\" b:\"y\" (1): a?(2) *?(3) (2): [t] )"
        (some ⟨.relaxed, false, true, false⟩) none =
        .ok { c with warnings := [⟨.unusedStep (.number 1), ⟨1, 13, 12⟩⟩] }) ∧
    ∃ c, CompiledScheme.compile E "a:\"x\" b:\"y\" (1): a?(2) *?(3) (2): [t]" none none = .ok c ∧
      c.warnings.map (·.cause) =
        [.unusedVariable "b", .unusedStep (.number 1), .undeclaredStep (.number 3)] ∧
      (∀ v ∈ c.variableDecls, (⟨.unusedVariable v.name, v.position⟩ ∈ c.warnings ↔
        ¬∃ s ∈ c.stepDecls, ∃ a ∈ s.actions, a.condition.name? = some v.name)) ∧
      ∀ s ∈ c.stepDecls, (⟨.unusedStep s.id, s.position⟩ ∈ c.warnings ↔
        ¬∃ s' ∈ c.stepDecls, ∃ t ∈ s'.targets, t.stepId? = some s.id) := by
  intro E
  constructor
  · have hseen : (CompiledScheme.compile E "a:\"x\" b:\"y\" (1): a?(2) *?(3) (2): [t] )"
        none none).toOption.map
        (fun c => (c.errors.map (·.code), c.calledFor ⟨.relaxed, false, true, false⟩)) =
        some ([.expectedEnd], [⟨.unusedStep (.number 1), ⟨1, 13, 12⟩⟩]) := by decide +kernel
    obtain ⟨c, hcompile, hc⟩ := exists_of_toOption_map hseen
    obtain ⟨herrors, hcalled⟩ := Prod.mk.inj hc
    obtain ⟨hwarnings, -, -, hother, -⟩ := compile_warnings_exact rfl hcompile
    refine ⟨c, hcompile, ?_, hwarnings, hcalled ▸ hother _⟩
    intro he
    simp [he] at herrors
  · have hseen : (CompiledScheme.compile E "a:\"x\" b:\"y\" (1): a?(2) *?(3) (2): [t]"
        none none).toOption.map (fun c => (c.errors, c.warnings.map (·.cause))) =
        some ([], [.unusedVariable "b", .unusedStep (.number 1),
          .undeclaredStep (.number 3)]) := by decide +kernel
    obtain ⟨c, hcompile, hc⟩ := exists_of_toOption_map hseen
    obtain ⟨herrors, hcauses⟩ := Prod.mk.inj hc
    obtain ⟨-, -, -, -, -, -, hexact⟩ := compile_warnings_exact rfl hcompile
    obtain ⟨hvariables, hsteps⟩ := hexact herrors
    exact ⟨c, hcompile, hcauses, hvariables rfl, hsteps rfl⟩

end StepMachine
