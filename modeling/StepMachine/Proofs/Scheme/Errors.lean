import StepMachine.Proofs.Scheme.Partial

/-! # Errors of a reading

An element that breaks off ends the list it is in, and it has reported what was missing once. So
the errors of a reading come in groups: what the variables repeat, what broke the variables off,
what the steps repeat or do not know, what broke the steps off, and whether tokens are left. No
input, however long and damaged, has more than three errors of syntax.
-/
namespace StepMachine

/-! ### Errors of what is whole -/

namespace SchemePhrase

variable {g : SchemePhrase} {x : Diagnostic}

theorem code_of_mem_variableErrors (h : x ∈ g.variableErrors) : x.code = .takenVariable := by
  obtain ⟨⟨v, taken⟩, -, hx⟩ := List.mem_flatMap.mp h
  cases taken with
  | false => simp at hx
  | true =>
    rw [List.mem_singleton.mp hx]
    rfl

theorem cases_of_mem_stepErrors (h : x ∈ g.stepErrors) :
    (∃ s ∈ g.steps, x ∈ unknownNames g.variableDecls s.nameUses) ∨
      ∃ s ∈ g.steps, x = ⟨.takenStep s.id.value, s.id.position⟩ := by
  obtain ⟨⟨s, taken⟩, hs, hx⟩ := List.mem_flatMap.mp h
  rcases List.mem_append.mp hx with hx | hx
  · exact .inl ⟨s, mem_of_mem_withTaken _ hs, hx⟩
  · cases taken with
    | false => simp at hx
    | true => exact .inr ⟨s, mem_of_mem_withTaken _ hs, List.mem_singleton.mp hx⟩

end SchemePhrase

/-! ### Groups -/

/-- The errors of a reading in groups, each with the codes that it can have. -/
structure ErrorGroups where
  taken : List Diagnostic
  atVariable : Option Diagnostic
  found : List Diagnostic
  atStep : Option Diagnostic
  atEnd : Option Diagnostic
  code_taken : ∀ x ∈ taken, x.code = .takenVariable
  code_atVariable : ∀ x ∈ atVariable, x.code = .expectedToken ∨ x.code = .expectedValue
  code_found : ∀ x ∈ found, x.code = .unknownVariable ∨ x.code = .takenStep
  code_atStep : ∀ x ∈ atStep, x.code = .expectedToken ∨ x.code = .expectedTarget
  code_atEnd : ∀ x ∈ atEnd, x.code = .expectedEnd

namespace ErrorGroups

variable (g : ErrorGroups)

/-- All errors, in their order. -/
def all : List Diagnostic :=
  g.taken ++ g.atVariable.toList ++ g.found ++ g.atStep.toList ++ g.atEnd.toList

/-- The errors of syntax are those that a list broke off with and the one at the end. -/
theorem filter_isSyntax_all : g.all.filter (·.code.isSyntax) =
    g.atVariable.toList ++ g.atStep.toList ++ g.atEnd.toList := by
  have htaken : g.taken.filter (·.code.isSyntax) = [] :=
    List.filter_eq_nil_iff.mpr fun x hx => by simp [g.code_taken x hx, Code.isSyntax]
  have hfound : g.found.filter (·.code.isSyntax) = [] :=
    List.filter_eq_nil_iff.mpr fun x hx => by
      rcases g.code_found x hx with h | h <;> simp [h, Code.isSyntax]
  have hatVariable : g.atVariable.toList.filter (·.code.isSyntax) = g.atVariable.toList :=
    List.filter_eq_self.mpr fun x hx => by
      rcases g.code_atVariable x (Option.mem_toList.mp hx) with h | h <;> simp [h, Code.isSyntax]
  have hatStep : g.atStep.toList.filter (·.code.isSyntax) = g.atStep.toList :=
    List.filter_eq_self.mpr fun x hx => by
      rcases g.code_atStep x (Option.mem_toList.mp hx) with h | h <;> simp [h, Code.isSyntax]
  have hatEnd : g.atEnd.toList.filter (·.code.isSyntax) = g.atEnd.toList :=
    List.filter_eq_self.mpr fun x hx => by
      simp [g.code_atEnd x (Option.mem_toList.mp hx), Code.isSyntax]
  simp only [all, List.filter_append, htaken, hfound, hatVariable, hatStep, hatEnd, List.nil_append,
    List.append_nil]

theorem countP_isSyntax_le : g.all.countP (·.code.isSyntax) ≤ 3 := by
  have hatMost (x : Option Diagnostic) : x.toList.length ≤ 1 := by cases x <;> simp
  have h₁ := hatMost g.atVariable
  have h₂ := hatMost g.atStep
  have h₃ := hatMost g.atEnd
  rw [List.countP_eq_length_filter, filter_isSyntax_all, List.length_append, List.length_append]
  omega

end ErrorGroups

namespace PartialScheme

variable {r : PartialScheme}

theorem code_of_mem_found {x : Diagnostic}
    (h : x ∈ r.whole.stepErrors ++ unknownNames r.whole.variableDecls r.names) :
    x.code = .unknownVariable ∨ x.code = .takenStep := by
  rcases List.mem_append.mp h with h | h
  · rcases SchemePhrase.cases_of_mem_stepErrors h with ⟨s, -, hs⟩ | ⟨s, -, rfl⟩
    · exact .inl (code_of_mem_unknownNames hs)
    · exact .inr rfl
  · exact .inl (code_of_mem_unknownNames h)

/-- The errors of what is whole and of what broke off, and of what is left. -/
def errorGroups (r : PartialScheme) (atVariable atStep atEnd : Option Diagnostic)
    (hv : ∀ x ∈ atVariable, x.code.breaksVariable = true)
    (hs : ∀ x ∈ atStep, x.code.breaksStep = true)
    (he : ∀ x ∈ atEnd, x.code = .expectedEnd) : ErrorGroups where
  taken := r.whole.variableErrors
  atVariable := atVariable
  found := r.whole.stepErrors ++ unknownNames r.whole.variableDecls r.names
  atStep := atStep
  atEnd := atEnd
  code_taken := fun _ h => SchemePhrase.code_of_mem_variableErrors h
  code_atVariable := fun x h => Code.breaksVariable_iff.mp (hv x h)
  code_found := fun _ h => code_of_mem_found h
  code_atStep := fun x h => Code.breaksStep_iff.mp (hs x h)
  code_atEnd := he

end PartialScheme

namespace Parse

theorem code_of_mem_leftOver {c : Cursor} {x : Diagnostic} (h : x ∈ leftOver c) :
    x.code = .expectedEnd ∧ x.position = c.current.position := by
  unfold leftOver at h
  split at h
  · cases h
  · cases h
    exact ⟨rfl, rfl⟩

theorem isSome_leftOver_iff {c : Cursor} :
    (leftOver c).isSome = true ↔ c.current.kind ≠ .eof := by
  unfold leftOver
  split
  · next h => simp [Cursor.kind_of_isAt h]
  · next h => simpa [Cursor.isAt] using h

end Parse

variable {tokens : List Token}

/-- Errors do not cascade. Whatever the tokens are, the variables are read and then the steps; each
list has at most one error of syntax, with which it broke off, at the token where it stopped, and
after which it declares nothing; and only if a token is left then, that is reported, too. Nothing
keeps the reading from getting there but a report that would have to show a long number. -/
theorem errors_do_not_cascade (hend : EndsInEnd tokens) : StopsAtLongNumber tokens ∨
    ∃ (g : ErrorGroups) (start middle finish : ParseState) (d : Draft),
      ParseState.ofTokens tokens = .ok start ∧
      Parse.variableList start = (.done (), middle) ∧ Parse.stepList middle = (.done (), finish) ∧
      Parse.scheme start = (.done (), ⟨finish.cursor, d⟩) ∧ Draft.ofTokens tokens = .ok d ∧
      d.errors = g.all ∧ d.errors.countP (·.code.isSyntax) ≤ 3 ∧
      middle.draft.errors = g.taken ++ g.atVariable.toList ∧
      finish.draft.errors = middle.draft.errors ++ g.found ++ g.atStep.toList ∧
      (∀ x ∈ g.atVariable, Parse.IsBreak (·.isAt .name) Parse.variableDeclaration
        Code.breaksVariable start middle x) ∧
      (∀ x ∈ g.atStep, Parse.IsBreak (·.isAt .openParen) Parse.stepDeclaration
        Code.breaksStep middle finish x) ∧
      (g.atEnd.isSome = true ↔ finish.cursor.current.kind ≠ .eof) ∧
      (∀ x ∈ g.atEnd, x.position = finish.cursor.current.position) ∧
      d.variableDecls = middle.draft.variableDecls ∧ d.stepDecls = finish.draft.stepDecls := by
  obtain ⟨c, hstart, rfl, -⟩ := exists_start hend
  obtain ⟨t, u, b, hv, hs, hb⟩ |
    ⟨r, t, u, atVariable, atStep, hv, hs, -, hd, hdecls, herrors, hbreak, hbreak'⟩ :=
    Parse.lists_parts hend
  · exact .inl (stopsAtLongNumber_of_scheme hstart (Parse.scheme_of_broken hv hs) hb)
  have hread := Parse.scheme_of_lists hv hs
  let g := r.errorGroups atVariable atStep (Parse.leftOver u.cursor)
    (fun x hx => (hbreak x hx).breaks_code) (fun x hx => (hbreak' x hx).breaks_code)
    fun x hx => (Parse.code_of_mem_leftOver hx).1
  have hall : (u.draft.reporting (Parse.leftOver u.cursor)).errors = g.all := by
    rw [hd]
    simp [Draft.reporting, PartialScheme.draft, PartialScheme.errorGroups, ErrorGroups.all, g]
  have hfound : u.draft.errors = t.draft.errors ++ g.found ++ g.atStep.toList := by
    rw [hd, herrors]
    simp [PartialScheme.draft, PartialScheme.errorGroups, g]
  exact .inr ⟨g, ⟨c, .empty⟩, t, u, _, hstart, hv, hs, hread, ofTokens_eq_of_scheme hstart hread,
    hall, hall ▸ g.countP_isSyntax_le, herrors, hfound, hbreak, hbreak',
    Parse.isSome_leftOver_iff, fun x hx => (Parse.code_of_mem_leftOver hx).2, hdecls.symm, rfl⟩

/-- `x:"" x:"" x (1))`, where nothing goes on after the second `x`. -/
def brokenTokens : List Token := [
  .onFirstLine .name "x" 0, .onFirstLine .colon ":" 1, .onFirstLine .string "\"\"" 2,
  .onFirstLine .name "x" 5, .onFirstLine .colon ":" 6, .onFirstLine .string "\"\"" 7,
  .onFirstLine .name "x" 10, .onFirstLine .openParen "(" 12, .numberOnFirstLine "1" 13 1,
  .onFirstLine .closeParen ")" 14, .onFirstLine .closeParen ")" 15, .onFirstLine .eof "" 16]

theorem broken_reported : EndsInEnd brokenTokens ∧ ∃ (g : ErrorGroups) (d : Draft),
    Draft.ofTokens brokenTokens = .ok d ∧ d.errors = g.all ∧
    d.errors.countP (·.code.isSyntax) ≤ 3 := by
  have hend : EndsInEnd brokenTokens := by decide
  have hwritable : ∀ t ∈ brokenTokens, t.IsWritable := by decide +kernel
  obtain hstops | ⟨g, _, _, _, d, -, -, -, -, hd, hall, hcount, -⟩ := errors_do_not_cascade hend
  · exact (not_stopsAtLongNumber hwritable hstops).elim
  · exact ⟨hend, g, d, hd, hall, hcount⟩

/-- The variable that is declared again, what each list broke off with, and the rest. -/
example : (Draft.ofTokens brokenTokens).toOption.map (·.errors.map fun x =>
      (x.code, x.position.index)) =
    some [(.takenVariable, 5), (.expectedToken, 12), (.expectedToken, 15), (.expectedEnd, 15)] := by
  decide +kernel

end StepMachine
