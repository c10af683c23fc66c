import StepMachine.Proofs.Compiled.Warnings
import StepMachine.Proofs.Scheme.Places

/-! # Places in a compiled scheme

Every place in a compiled scheme is that of one of its tokens, of the kind that goes with the
record, and so is every place that is reported. Variables, steps and what is in the steps stand in
the order of the text, whatever was left out between them.
-/
namespace StepMachine

namespace CompiledScheme

variable (c : CompiledScheme)

/-- The places of the variables, and then step by step all places in the steps. -/
def places : List Position :=
  c.variableDecls.map (·.position) ++ c.stepDecls.flatMap Step.places

/-- At every place in the scheme stands a token that goes with the record. -/
structure IsPlaced : Prop where
  variableDecls : ∀ v ∈ c.variableDecls, IsPlaceOf c.tokens .name v.position
  stepDecls : ∀ s ∈ c.stepDecls, IsPlaceOf c.tokens .openParen s.position
  conditions : ∀ s ∈ c.stepDecls, ∀ a ∈ s.actions,
    IsPlaceOf c.tokens a.condition.kind a.condition.position
  bindings : ∀ s ∈ c.stepDecls, ∀ a ∈ s.actions, ∀ name v place,
    a.condition = .named name (some v) place → v ∈ c.variableDecls
  targets : ∀ s ∈ c.stepDecls, ∀ t ∈ s.targets, IsPlaceOf c.tokens t.kind t.position
  variableRefs : ∀ r ∈ c.variableRefs, IsPlaceOf c.tokens .name r.position
  stepRefs : ∀ r ∈ c.stepRefs, IsPlaceOf c.tokens .openParen r.position
  errors : ∀ x ∈ c.errors, ∃ t ∈ c.tokens, t.position = x.position
  warnings : ∀ x ∈ c.warnings, ∃ t ∈ c.tokens, t.position = x.position

end CompiledScheme

theorem IsPlaceOf.exists_token {ts : List Token} {kind : TokenKind} {p : Position}
    (h : IsPlaceOf ts kind p) : ∃ t ∈ ts, t.position = p := by
  obtain ⟨t, ht, -, hp⟩ := h
  exact ⟨t, ht, hp⟩

variable {E : Engine} {text : String} {scanned : List Diagnostic} {c : CompiledScheme}

namespace IsRun

variable {o : CheckOptions} {start finish : ParseState} {parts : PartialScheme}
variable (h : IsRun E text o c scanned start finish parts)
include h

theorem exists_phrase {s : Step} (hs : s ∈ c.stepDecls) :
    ∃ g ∈ parts.steps, s = g.step c.variableDecls := by
  rw [← h.draft_stepDecls] at hs
  rw [← h.draft_variableDecls]
  exact h.draft.exists_step hs

theorem ascends : Ascends parts.tokens := by
  have hall := (scanAll_isLaidOut h.scan_eq).pairwise.imp fun hlt => hlt.1
  rw [h.tokens_eq] at hall
  exact Ascends.of_append hall

theorem ascends_step {g : StepPhrase} (hg : g ∈ parts.steps) : Ascends g.tokens :=
  List.Pairwise.sublist (parts.infix_of_step hg).sublist h.ascends

theorem places_sublist : c.places.Sublist (parts.tokens.map (·.position)) := by
  have hvariables : (c.variableDecls.map (·.position)).Sublist
      ((parts.bindings.flatMap VariablePhrase.tokens).map (·.position)) := by
    rw [h.variableDecls_eq]
    refine ((firstOnly_sublist _ _).map _).trans ?_
    have hplaces := parts.binding_words_sublist.map (·.position)
    rw [List.map_map] at hplaces ⊢
    exact hplaces
  have hsteps : (c.stepDecls.flatMap Step.places).Sublist
      ((parts.steps.flatMap StepPhrase.tokens).map (·.position)) := by
    rw [h.stepDecls_eq]
    refine ((firstOnly_sublist _ _).flatMap _).trans ?_
    rw [List.flatMap_map, List.map_flatMap]
    exact List.Sublist.flatMap_right _ fun g hg => g.places_sublist _ (h.ascends_step hg)
  rw [PartialScheme.tokens, List.map_append, List.map_append, List.map_append]
  exact (hvariables.trans (List.sublist_append_left _ _)).append
    (hsteps.trans (List.sublist_append_left _ _))

theorem isPlaced : c.IsPlaced := by
  have hread := h.isReadFrom
  have hmem : parts.tokens ⊆ c.tokens := fun _ ht => h.mem_tokens ht
  have hstep : ∀ g ∈ parts.steps, g.tokens ⊆ c.tokens := fun g hg =>
    List.Subset.trans (parts.infix_of_step hg).subset hmem
  have hvariableDecls : ∀ v ∈ c.variableDecls, IsPlaceOf c.tokens .name v.position := by
    intro v hv
    obtain ⟨name, mark, literal, hrow, hname, hplace, -⟩ := hread.variableDecls v hv
    exact ⟨name, hmem (hrow.subset (List.mem_cons_self ..)), hname.1, hplace⟩
  have hopening : ∀ id place, (Target.step id place).IsReadFrom parts.tokens →
      IsPlaceOf c.tokens .openParen place := by
    rintro id place ⟨opening, number, closing, hrow, hkind, hplace, -⟩
    exact ⟨opening, hmem (hrow.subset (List.mem_cons_self ..)), hkind, hplace⟩
  have hstepDecls : ∀ s ∈ c.stepDecls, IsPlaceOf c.tokens .openParen s.position :=
    fun s hs => hopening _ _ (hread.stepDecls s hs).id
  have hstepRefs : ∀ r ∈ c.stepRefs, IsPlaceOf c.tokens .openParen r.position :=
    fun r hr => hopening _ _ (hread.stepRefs r hr)
  refine ⟨hvariableDecls, hstepDecls, ?conditions, ?bindings, ?targets, ?variableRefs, hstepRefs,
    ?errors, ?warnings⟩
  case conditions =>
    intro s hs
    obtain ⟨g, hg, rfl⟩ := h.exists_phrase hs
    exact g.condition_isPlaceOf _ (hstep g hg)
  case bindings =>
    intro s hs a ha name v place hcondition
    obtain ⟨g, hg, rfl⟩ := h.exists_phrase hs
    exact List.mem_of_find?_eq_some (StepPhrase.named_cases ha hcondition).1.symm
  case targets =>
    intro s hs
    obtain ⟨g, hg, rfl⟩ := h.exists_phrase hs
    exact g.target_isPlaceOf _ (hstep g hg)
  case variableRefs =>
    intro r hr
    obtain ⟨t, ht, hname, hplace⟩ := hread.variableRefs r hr
    exact ⟨t, hmem ht, hname.1, hplace⟩
  case errors =>
    intro x hx
    rw [h.errors_eq] at hx
    rcases List.mem_append.mp hx with hx | hx
    · obtain ⟨-, t, ht, -, hplace⟩ := scanAll_reports h.scan_eq x hx
      exact ⟨t, ht, hplace⟩
    · exact exists_token_of_mem_errors (scanAll_endsInEnd h.scan_eq) h.ofTokens_eq hx
  case warnings =>
    intro x hx
    rw [h.warnings_eq] at hx
    rcases Draft.mem_findings_iff.mp hx with
      ⟨-, v, hv, -, rfl⟩ | ⟨-, s, hs, -, rfl⟩ | ⟨-, r, hr, -, rfl⟩
    · rw [h.draft_variableDecls] at hv
      exact (hvariableDecls v hv).exists_token
    · rw [h.draft_stepDecls] at hs
      exact (hstepDecls s hs).exists_token
    · rw [h.draft_stepRefs] at hr
      exact (hstepRefs r hr).exists_token

end IsRun

/-- The places in a compiled scheme are those of tokens of the right kinds, and the places of its
variables, its steps, their actions and their fallbacks go through the text in this order. Only a
fallback that was left out has its place, and all else, from the target of the last action. -/
theorem compile_places {given : Option CheckOptions} {profile : Option Profile}
    (h : CompiledScheme.compile E text given profile = .ok c) :
    c.IsPlaced ∧ (c.places.map (·.index)).Pairwise (· < ·) ∧
    ∀ s ∈ c.stepDecls,
      (∃ g : StepPhrase, g.tokens <:+: c.tokens ∧ s = g.step c.variableDecls ∧
        (s.repeatsTarget = true ↔ g.ending.tokens = [])) ∧
      (s.repeatsTarget = true → ∃ a, s.actions.getLast? = some a ∧
        a.condition.isWildcard = true ∧ s.fallback = a.target) := by
  obtain ⟨o, -, hcompile⟩ := CompiledScheme.exists_resolve h
  obtain ⟨scanned, start, finish, parts, hrun⟩ := exists_isRun hcompile
  refine ⟨hrun.isPlaced, ?_, ?_⟩
  · rw [List.pairwise_map]
    exact hrun.ascends.pairwise_positions hrun.places_sublist
  · intro s hs
    obtain ⟨g, hg, rfl⟩ := hrun.exists_phrase hs
    have hascends := hrun.ascends_step hg
    have hrow : g.tokens <:+: c.tokens := by
      rw [hrun.tokens_eq]
      exact (parts.infix_of_step hg).trans (List.prefix_append _ _).isInfix
    exact ⟨⟨g, hrow, rfl, g.repeatsTarget_iff _ hascends⟩,
      g.exists_last_of_repeatsTarget _ hascends⟩

/-- The first step leaves out its fallback, the second one is declared twice, and a bracket is left
at the end. -/
theorem crowdedText_placed :
    let E := Regex.engine (.plain true)
    ∃ c, CompiledScheme.compile E "a:\"x\" (1): a?(2) *?![e] (2): [t] (2): (1) ]" none none = .ok c ∧
      c.errors.length = 2 ∧ c.places.map (·.index) = [0, 6, 11, 13, 17, 19, 24, 29] ∧
      c.stepDecls.map (·.repeatsTarget) = [true, false] ∧ c.IsPlaced ∧
      (c.places.map (·.index)).Pairwise (· < ·) := by
  intro E
  have hseen : (CompiledScheme.compile E "a:\"x\" (1): a?(2) *?![e] (2): [t] (2): (1) ]"
      none none).toOption.map (fun c =>
        (c.errors.length, c.places.map (·.index), c.stepDecls.map (·.repeatsTarget))) =
      some (2, [0, 6, 11, 13, 17, 19, 24, 29], [true, false]) := by decide +kernel
  obtain ⟨c, hcompile, hc⟩ := exists_of_toOption_map hseen
  simp only [Prod.mk.injEq] at hc
  obtain ⟨herrors, hplaces, hrepeats⟩ := hc
  obtain ⟨hplaced, hordered, -⟩ := compile_places hcompile
  exact ⟨c, hcompile, herrors, hplaces, hrepeats, hplaced, hordered⟩

end StepMachine
