import StepMachine.Proofs.Scheme.Errors
import StepMachine.Proofs.Scheme.Routines

/-! # Bindings

The variables are complete before the first step is read, and no step changes them. So a condition
on a name is bound to what the name stands for in the end, and it is unbound only if the name is
unknown then, which is reported at the condition and nowhere else.
-/
namespace StepMachine

theorem isDeclared_eq_false_iff {vars : List Variable} {use : Reference String} :
    isDeclared vars use = false ↔ ∀ v ∈ vars, v.name ≠ use.id := by
  simp [isDeclared]

theorem mem_unknownNames_iff {vars : List Variable} {uses : List (Reference String)}
    {x : Diagnostic} : x ∈ unknownNames vars uses ↔
      ∃ use ∈ uses, (∀ v ∈ vars, v.name ≠ use.id) ∧
        x = ⟨.unknownVariable use.id, use.position⟩ := by
  simp only [unknownNames, List.mem_map, List.mem_filter, Bool.not_eq_true',
    isDeclared_eq_false_iff, and_assoc]
  exact exists_congr fun use => and_congr_right' (and_congr_right' eq_comm)

/-! ### Conditions on names -/

section

variable {vars : List Variable} {name : String} {binding : Option Variable} {place : Position}

theorem ConditionPhrase.named_cases {g : ConditionPhrase}
    (h : g.condition vars = .named name binding place) :
    binding = vars.find? (·.name == name) ∧ ⟨name, place⟩ ∈ g.nameUses := by
  cases g with
  | name word =>
    obtain ⟨rfl, rfl, rfl⟩ := Condition.named.inj h
    exact ⟨rfl, List.mem_singleton_self _⟩
  | _ => simp [condition] at h

/-- A condition on a name is bound when its step is read, which is a use of the name. -/
theorem StepPhrase.named_cases {g : StepPhrase} {a : Action} (ha : a ∈ (g.step vars).actions)
    (h : a.condition = .named name binding place) :
    binding = vars.find? (·.name == name) ∧ ⟨name, place⟩ ∈ g.nameUses := by
  obtain ⟨f, hf, rfl⟩ := List.mem_map.mp ha
  obtain ⟨hbinding, huse⟩ := ConditionPhrase.named_cases h
  exact ⟨hbinding, List.mem_flatMap.mpr ⟨f, hf, huse⟩⟩

end

/-! ### Reports on names -/

theorem SchemePhrase.unknown_mem_stepErrors {g : SchemePhrase} {s : StepPhrase} (hs : s ∈ g.steps)
    {x : Diagnostic} (hx : x ∈ unknownNames g.variableDecls s.nameUses) : x ∈ g.stepErrors := by
  obtain ⟨taken, htaken⟩ := exists_mem_withTaken (fun s => s.id.value) hs
  exact List.mem_flatMap.mpr ⟨_, htaken, List.mem_append_left _ hx⟩

namespace PartialScheme.IsDraft

variable {r : PartialScheme} {d : Draft} (h : r.IsDraft d)
include h

theorem exists_step {s : Step} (hs : s ∈ d.stepDecls) :
    ∃ g ∈ r.steps, s = g.step d.variableDecls := by
  rw [h.stepDecls_eq] at hs
  obtain ⟨g, hg, rfl⟩ := List.mem_map.mp (mem_of_mem_firstOnly _ hs)
  exact ⟨g, hg, by rw [h.variableDecls_eq]⟩

/-- A name that a whole step uses is reported if it is not declared. -/
theorem unknown_mem_errors {g : StepPhrase} (hg : g ∈ r.steps) {use : Reference String}
    (huse : use ∈ g.nameUses) (hnone : ∀ v ∈ d.variableDecls, v.name ≠ use.id) :
    ⟨.unknownVariable use.id, use.position⟩ ∈ d.errors := by
  have hstep : ⟨.unknownVariable use.id, use.position⟩ ∈ r.whole.stepErrors :=
    SchemePhrase.unknown_mem_stepErrors hg
      (mem_unknownNames_iff.mpr ⟨use, huse, h.variableDecls_eq ▸ hnone, rfl⟩)
  obtain ⟨atVariable, atStep, atEnd, herrors, -⟩ := h.errors_eq
  simp only [herrors, List.mem_append]
  exact .inl (.inl (.inl (.inr hstep)))

/-- Only a name that is not declared is reported as unknown, where a passed token mentions it. -/
theorem exists_unknown {x : Diagnostic} (hx : x ∈ d.errors) (hcode : x.code = .unknownVariable) :
    ∃ use ∈ r.nameUses, (∀ v ∈ d.variableDecls, v.name ≠ use.id) ∧
      x = ⟨.unknownVariable use.id, use.position⟩ := by
  obtain ⟨atVariable, atStep, atEnd, herrors, hsyntax⟩ := h.errors_eq
  have hname : ∀ uses : List (Reference String), (∀ use ∈ uses, use ∈ r.nameUses) →
      x ∈ unknownNames r.whole.variableDecls uses → ∃ use ∈ r.nameUses,
        (∀ v ∈ d.variableDecls, v.name ≠ use.id) ∧
        x = ⟨.unknownVariable use.id, use.position⟩ := by
    intro uses hsub hunknown
    obtain ⟨use, huse, hnone, rfl⟩ := mem_unknownNames_iff.mp hunknown
    exact ⟨use, hsub use huse, h.variableDecls_eq ▸ hnone, rfl⟩
  have hother : x ∉ atVariable ++ atStep ++ atEnd := fun hmem => by
    simpa [hcode, Code.isSyntax] using hsyntax x hmem
  simp only [List.mem_append, or_assoc, not_or] at hother
  simp only [herrors, List.mem_append, or_assoc] at hx
  rcases hx with hx | hx | hx | hx | hx | hx
  · simp [SchemePhrase.code_of_mem_variableErrors hx] at hcode
  · exact absurd hx hother.1
  · rcases SchemePhrase.cases_of_mem_stepErrors hx with ⟨s, hs, hx⟩ | ⟨s, -, rfl⟩
    · refine hname _ (fun use huse => List.mem_append_left _ ?_) hx
      exact List.mem_flatMap.mpr ⟨s, hs, huse⟩
    · cases hcode
  · exact hname _ (fun use huse => List.mem_append_right _ huse) hx
  · exact absurd hx hother.2.1
  · exact absurd hx hother.2.2

end PartialScheme.IsDraft

variable {tokens : List Token}

/-- Whatever the tokens are, each condition on a name in a declared step is bound to what the name
stands for in the end, and if it stands for nothing then that is reported at the condition; such
reports are made for names that were passed and are not declared, and for no others. Only a report
that would have to show a long number keeps the reading from its end. No step changes the
variables, no variable changes a step or a use, and warnings are not touched at all. -/
theorem bindings_are_final (hend : EndsInEnd tokens) :
    (StopsAtLongNumber tokens ∨ ∃ (start finish : ParseState) (passed : List Token),
      ParseState.ofTokens tokens = .ok start ∧ start.cursor.tokens = tokens ∧
      Parse.scheme start = (.done (), finish) ∧ Draft.ofTokens tokens = .ok finish.draft ∧
      start.cursor.Passes passed finish.cursor ∧
      (∀ s ∈ finish.draft.stepDecls, ∀ a ∈ s.actions, ∀ name binding place,
        a.condition = .named name binding place →
        binding = finish.draft.variableNamed name ∧
        (binding = none ↔ ∀ v ∈ finish.draft.variableDecls, v.name ≠ name) ∧
        (binding = none → ⟨.unknownVariable name, place⟩ ∈ finish.draft.errors)) ∧
      ∀ x ∈ finish.draft.errors, x.code = .unknownVariable → ∃ t ∈ passed, t.kind = .name ∧
        x = ⟨.unknownVariable t.text, t.position⟩ ∧
        ∀ v ∈ finish.draft.variableDecls, v.name ≠ t.text) ∧
    (∀ s, (Parse.stepList s).2.draft.variableDecls = s.draft.variableDecls) ∧
    (∀ s, (Parse.variableList s).2.draft.stepDecls = s.draft.stepDecls ∧
      (Parse.variableList s).2.draft.variableRefs = s.draft.variableRefs ∧
      (Parse.variableList s).2.draft.stepRefs = s.draft.stepRefs) ∧
    ∀ (r : Routine) (s : ParseState), (r.run s).2.draft.warnings = s.draft.warnings := by
  refine ⟨?_, ?_, ?_, ?_⟩
  · obtain ⟨c, hstart, rfl, -⟩ := exists_start hend
    obtain ⟨t, b, hread, hb⟩ | ⟨r, t, hread, hp, hd⟩ := Parse.scheme_parts hend
    · exact .inl (stopsAtLongNumber_of_scheme hstart hread hb)
    refine .inr ⟨⟨c, .empty⟩, t, r.tokens, hstart, rfl, hread,
      ofTokens_eq_of_scheme hstart hread, hp, ?_, ?_⟩
    · intro s hs a ha name binding place hcondition
      obtain ⟨g, hg, rfl⟩ := hd.exists_step hs
      obtain ⟨hbinding, huse⟩ := StepPhrase.named_cases ha hcondition
      have hnone : binding = none ↔ ∀ v ∈ t.draft.variableDecls, v.name ≠ name := by
        simp [hbinding, List.find?_eq_none]
      exact ⟨hbinding, hnone, fun hfree => hd.unknown_mem_errors hg huse (hnone.mp hfree)⟩
    · intro x hx hcode
      obtain ⟨use, huse, hnone, rfl⟩ := hd.exists_unknown hx hcode
      obtain ⟨w, hw, rfl⟩ := r.mentions_tokens.exists_name huse
      exact ⟨w.token, hw, w.kind_eq, rfl, hnone⟩
  · exact fun s => Routine.stepList.isMadeOf.differsIn s .variableDecls (by decide)
  · intro s
    have h := Routine.variableList.isMadeOf.differsIn s
    exact ⟨h .stepDecls (by decide), h .variableRefs (by decide), h .stepRefs (by decide)⟩
  · intro r s
    exact r.isMadeOf.differsIn s .warnings (by cases r <;> decide)

/-- `x:"" y (1): x?[go] y?[go] [go]`, where `y` is not declared for want of a colon. -/
def unboundTokens : List Token := [
  .onFirstLine .name "x" 0, .onFirstLine .colon ":" 1, .onFirstLine .string "\"\"" 2,
  .onFirstLine .name "y" 5, .onFirstLine .openParen "(" 7, .numberOnFirstLine "1" 8 1,
  .onFirstLine .closeParen ")" 9, .onFirstLine .colon ":" 10, .onFirstLine .name "x" 12,
  .onFirstLine .question "?" 13, .onFirstLine .openBracket "[" 14, .onFirstLine .name "go" 15,
  .onFirstLine .closeBracket "]" 17, .onFirstLine .name "y" 19, .onFirstLine .question "?" 20,
  .onFirstLine .openBracket "[" 21, .onFirstLine .name "go" 22, .onFirstLine .closeBracket "]" 24,
  .onFirstLine .openBracket "[" 26, .onFirstLine .name "go" 27, .onFirstLine .closeBracket "]" 29,
  .onFirstLine .eof "" 30]

theorem unbound_reported : EndsInEnd unboundTokens ∧ ∃ d, Draft.ofTokens unboundTokens = .ok d ∧
    ∀ s ∈ d.stepDecls, ∀ a ∈ s.actions, ∀ name binding place,
      a.condition = .named name binding place → binding = d.variableNamed name ∧
      (binding = none → ⟨.unknownVariable name, place⟩ ∈ d.errors) := by
  have hend : EndsInEnd unboundTokens := by decide
  have hwritable : ∀ t ∈ unboundTokens, t.IsWritable := by decide +kernel
  obtain ⟨hstops | ⟨_, finish, _, -, -, -, hdraft, -, hbound, -⟩, -⟩ := bindings_are_final hend
  · exact (not_stopsAtLongNumber hwritable hstops).elim
  refine ⟨hend, finish.draft, hdraft, ?_⟩
  intro s hs a ha name binding place hcondition
  obtain ⟨hbinding, -, hreported⟩ := hbound s hs a ha name binding place hcondition
  exact ⟨hbinding, hreported⟩

example : (Draft.ofTokens unboundTokens).toOption.map (fun d =>
      (d.stepDecls.flatMap (·.actions.map (·.condition)), d.errors)) =
    some ([.named "x" (some ⟨"x", none, ⟨1, 1, 0⟩⟩) ⟨1, 13, 12⟩, .named "y" none ⟨1, 20, 19⟩],
      [⟨.expected .colon, ⟨1, 8, 7⟩⟩, ⟨.unknownVariable "y", ⟨1, 20, 19⟩⟩]) := by decide +kernel

end StepMachine
