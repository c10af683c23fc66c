import StepMachine.Proofs.Compiled.Run
import StepMachine.Proofs.Scheme.Errors
import StepMachine.Proofs.Scheme.Provenance

/-! # Damage is never silent

No damaged token is passed when a scheme is read, so none has a part in what is compiled. If the
scanner reports something then so does the reading, since a damaged token is no leaf of a
derivation. All that is reported while scanning and reading is an error, and all that is found by
the checks is a warning.
-/
namespace StepMachine

/-! ### Severities -/

theorem Code.severity_of_isSyntax {code : Code} (h : code.isSyntax = true) :
    code.severity = .error := by
  cases code <;> first | rfl | simp [isSyntax] at h

theorem Code.severity_of_category {code : Code} (h : code.category = "lexer") :
    code.severity = .error := by
  cases code <;> first | rfl | simp [category] at h

/-- An error of a reading is one of syntax, or about a name, or about a step whose number was taken
when it was declared. -/
theorem PartialScheme.IsDraft.cases_of_mem_errors {r : PartialScheme} {d : Draft}
    (h : r.IsDraft d) {x : Diagnostic} (hx : x ∈ d.errors) :
    x.code.isSyntax = true ∨ x.code = .takenVariable ∨ x.code = .unknownVariable ∨
      ∃ s ∈ r.steps, x = ⟨.takenStep s.id.value, s.id.position⟩ := by
  obtain ⟨atVariable, atStep, atEnd, herrors, hgrammar⟩ := h.errors_eq
  simp only [List.mem_append, or_assoc] at hgrammar
  simp only [herrors, List.mem_append, or_assoc] at hx
  rcases hx with hx | hx | hx | hx | hx | hx
  · exact .inr (.inl (SchemePhrase.code_of_mem_variableErrors hx))
  · exact .inl (hgrammar x (.inl hx))
  · rcases SchemePhrase.cases_of_mem_stepErrors hx with ⟨s, -, hs⟩ | hs
    · exact .inr (.inr (.inl (code_of_mem_unknownNames hs)))
    · exact .inr (.inr (.inr hs))
  · exact .inr (.inr (.inl (code_of_mem_unknownNames hx)))
  · exact .inl (hgrammar x (.inr (.inl hx)))
  · exact .inl (hgrammar x (.inr (.inr hx)))

theorem PartialScheme.IsDraft.severity_eq {r : PartialScheme} {d : Draft} (h : r.IsDraft d) :
    ∀ x ∈ d.errors, x.severity = .error := by
  intro x hx
  rcases h.cases_of_mem_errors hx with hc | hc | hc | ⟨s, -, rfl⟩
  · exact Code.severity_of_isSyntax hc
  · simp [Diagnostic.severity, hc, Code.severity]
  · simp [Diagnostic.severity, hc, Code.severity]
  · rfl

theorem Draft.severity_of_mem_findings {d : Draft} {o : CheckOptions} {x : Diagnostic}
    (h : x ∈ d.findings o) : x.severity = .warning := by
  rcases mem_findings_iff.mp h with
    ⟨-, v, -, -, rfl⟩ | ⟨-, s, -, -, rfl⟩ | ⟨-, r, -, -, rfl⟩
  · rfl
  · rfl
  · rfl

/-! ### Damaged tokens -/

variable {E : Engine} {text : String} {tokens : List Token} {scanned : List Diagnostic}

/-- What the scanner damages is no leaf. -/
theorem Token.IsLeaf.undamaged (h : scanAll E text = .ok (tokens, scanned)) {t : Token}
    (ht : t ∈ tokens) (hl : t.IsLeaf) : ¬(t.invalid = true ∨ t.kind = .unknown) := by
  have hknown : t.kind ≠ .unknown := by
    intro hk
    simpa [hk, TokenKind.isTerminal] using hl.1
  rintro (hi | hk)
  · have hstands := hl.2
    rcases kind_of_invalid h ht hi with hk | hk | hk
    · simp [standsFor, hk, hi, TokenKind.isLiteral] at hstands
    · simp [standsFor, hk, hi, TokenKind.isLiteral] at hstands
    · exact hknown hk
  · exact hknown hk

theorem mem_beforeEnd (h : scanAll E text = .ok (tokens, scanned)) {t : Token} (ht : t ∈ tokens)
    (hk : t.kind ≠ .eof) : t ∈ beforeEnd tokens := by
  obtain ⟨body, e, rfl, he, hbody⟩ := scanAll_ending h
  rw [beforeEnd_concat hbody he]
  rcases List.mem_append.mp ht with ht | ht
  · exact ht
  · rw [List.mem_singleton.mp ht] at hk
    exact absurd he hk

namespace IsRun

variable {o : CheckOptions} {c : CompiledScheme} {start finish : ParseState}
variable {parts : PartialScheme} (h : IsRun E text o c scanned start finish parts)
include h

/-- The reading ends at or before the first damaged token. -/
theorem index_le {i : Nat} {t : Token} (hi : c.tokens[i]? = some t)
    (ht : t.invalid = true ∨ t.kind = .unknown) : finish.cursor.index ≤ i := by
  by_contra hlt
  have htake : (c.tokens.take finish.cursor.index)[i]? = some t := by
    rw [List.getElem?_take_of_lt (Nat.lt_of_not_le hlt), hi]
  rw [h.take_index] at htake
  have hleaf := parts.isLeaf t (List.mem_of_getElem? htake)
  exact hleaf.undamaged h.scan_eq (List.mem_of_getElem? hi) ht

/-- A text on which the scanner reports something is not read without an error. -/
theorem errors_ne_nil (hscanned : scanned ≠ []) : finish.draft.errors ≠ [] := by
  intro hnone
  have hdecoded := scanAll_isDecoded h.scan_eq
  have hend := scanAll_endsInEnd h.scan_eq
  obtain ⟨d, ds, rfl⟩ := List.exists_cons_of_ne_nil hscanned
  obtain ⟨-, t, ht, hi, -⟩ := scanAll_reports h.scan_eq d (List.mem_cons_self ..)
  obtain ⟨g, hg, -⟩ | ⟨-, d', hd', herror⟩ := ofTokens_cases hend hdecoded
  · have hk : t.kind ≠ .eof := by
      intro he
      have hkind := kind_of_invalid h.scan_eq ht hi
      simp [he] at hkind
    have hleaf := g.isLeaf t (hg ▸ mem_beforeEnd h.scan_eq ht hk)
    exact hleaf.undamaged h.scan_eq ht (.inl hi)
  · rw [h.ofTokens_eq] at hd'
    cases hd'
    simp [Draft.hasSyntaxError, hnone] at herror

theorem severity_of_mem_errors {x : Diagnostic} (hx : x ∈ c.errors) : x.severity = .error := by
  rw [h.errors_eq] at hx
  rcases List.mem_append.mp hx with hx | hx
  · exact Code.severity_of_category (scanAll_reports h.scan_eq x hx).1
  · exact h.draft.severity_eq x hx

theorem hasErrors_iff : c.hasErrors = true ↔ c.errors ≠ [] := by
  rw [CompiledScheme.hasErrors, hasErrors, List.any_eq_true]
  constructor
  · rintro ⟨x, hx, -⟩
    exact List.ne_nil_of_mem hx
  · intro hne
    obtain ⟨x, xs, hxs⟩ := List.exists_cons_of_ne_nil hne
    have hx : x ∈ c.errors := hxs ▸ List.mem_cons_self ..
    exact ⟨x, hx, by simp [Diagnostic.isError, h.severity_of_mem_errors hx]⟩

end IsRun

/-! ### Compiled schemes -/

/-- The tokens spell all that the scheme holds. -/
structure CompiledScheme.IsReadFrom (ts : List Token) (c : CompiledScheme) : Prop where
  variableDecls : ∀ v ∈ c.variableDecls, v.IsReadFrom ts
  stepDecls : ∀ s ∈ c.stepDecls, s.IsReadFrom ts
  variableRefs : ∀ r ∈ c.variableRefs, ∃ t ∈ ts, t.SpellsName r.id ∧ t.position = r.position
  stepRefs : ∀ r ∈ c.stepRefs, (Target.step r.id r.position).IsReadFrom ts

theorem IsRun.isReadFrom {o : CheckOptions} {c : CompiledScheme} {start finish : ParseState}
    {parts : PartialScheme} (h : IsRun E text o c scanned start finish parts) :
    c.IsReadFrom parts.tokens := by
  have hdecoded := h.isDecoded
  have hvariables : ∀ v ∈ parts.whole.variableDecls, v.IsReadFrom parts.tokens := by
    intro v hv
    obtain ⟨g, hg, rfl⟩ := List.mem_map.mp (mem_of_mem_firstOnly _ hv)
    exact g.isReadFrom hdecoded (parts.infix_of_binding hg)
  refine ⟨?_, ?_, ?_, ?_⟩
  · rw [h.variableDecls_eq]
    exact hvariables
  · rw [h.stepDecls_eq]
    intro s hs
    obtain ⟨g, hg, rfl⟩ := List.mem_map.mp (mem_of_mem_firstOnly _ hs)
    exact g.isReadFrom hdecoded hvariables (parts.infix_of_step hg)
  · rw [h.variableRefs_eq]
    intro r hr
    have hmem := List.mem_of_mem_filter (mem_of_mem_firstOnly _ hr)
    obtain ⟨w, hw, rfl⟩ := parts.mentions_tokens.exists_name hmem
    exact ⟨w.token, hw, w.spellsName, rfl⟩
  · rw [h.stepRefs_eq]
    intro r hr
    obtain ⟨g, hg, rfl⟩ := parts.mentions_tokens.exists_number (mem_of_mem_firstOnly _ hr)
    exact g.isReadFrom hdecoded hg

/-- Damage is never silent: a scheme is read up to the first damaged token at most and from
undamaged tokens only, what the scanner reports leads to an error of the reading as well, and the
scheme has errors exactly if its reading reported one. -/
theorem compile_reports_damage {given : Option CheckOptions} {profile : Option Profile}
    {c : CompiledScheme} (h : CompiledScheme.compile E text given profile = .ok c) :
    ∃ (scanned : List Diagnostic) (start finish : ParseState),
      scanAll E text = .ok (c.tokens, scanned) ∧
      ParseState.ofTokens c.tokens = .ok start ∧
      Parse.scheme start = (.done (), finish) ∧
      (∀ i t, c.tokens[i]? = some t → t.invalid = true ∨ t.kind = .unknown →
        finish.cursor.index ≤ i) ∧
      c.IsReadFrom (c.tokens.take finish.cursor.index) ∧
      c.errors = scanned ++ finish.draft.errors ∧
      (scanned ≠ [] → finish.draft.errors ≠ []) ∧
      (∀ d ∈ c.errors, d.severity = .error) ∧ (∀ d ∈ c.warnings, d.severity = .warning) ∧
      (c.hasErrors = true ↔ c.errors ≠ []) ∧ (c.errors ≠ [] ↔ finish.draft.errors ≠ []) := by
  obtain ⟨o, -, hcompile⟩ := CompiledScheme.exists_resolve h
  obtain ⟨scanned, start, finish, parts, hrun⟩ := exists_isRun hcompile
  refine ⟨scanned, start, finish, hrun.scan_eq, hrun.start_eq, hrun.scheme_eq,
    fun i t hi ht => hrun.index_le hi ht, ?_, hrun.errors_eq, hrun.errors_ne_nil,
    fun d hd => hrun.severity_of_mem_errors hd, ?_, hrun.hasErrors_iff, ?_⟩
  · rw [hrun.take_index]
    exact hrun.isReadFrom
  · intro d hd
    rw [hrun.warnings_eq] at hd
    exact Draft.severity_of_mem_findings hd
  · rw [hrun.errors_eq]
    constructor
    · intro hne hnone
      have hscanned : scanned ≠ [] := by simpa [hnone] using hne
      exact hrun.errors_ne_nil hscanned hnone
    · intro hne
      simp [hne]

/-- The string after the only step is not closed. -/
theorem openString_reported :
    let E := Regex.engine (.plain true)
    ∃ (c : CompiledScheme) (finish : ParseState),
      CompiledScheme.compile E "(1): *?(1) \"x" none none = .ok c ∧
      finish.cursor.index ≤ 9 ∧ c.IsReadFrom (c.tokens.take finish.cursor.index) ∧
      c.hasErrors = true ∧ finish.draft.errors ≠ [] := by
  intro E
  have hseen : (CompiledScheme.compile E "(1): *?(1) \"x" none none).toOption.map
      (fun c => (c.hasErrors, c.tokens[9]?.map (·.invalid))) = some (true, some true) := by
    decide +kernel
  obtain ⟨c, hcompile, hc⟩ := exists_of_toOption_map hseen
  obtain ⟨herrors, ht⟩ := Prod.mk.inj hc
  obtain ⟨t, ht, hinvalid⟩ := Option.map_eq_some_iff.mp ht
  obtain ⟨-, -, finish, -, -, -, hindex, hread, -, -, -, -, hhas, hboth⟩ :=
    compile_reports_damage hcompile
  exact ⟨c, finish, hcompile, hindex 9 t ht (.inl hinvalid), hread, herrors,
    hboth.mp (hhas.mp herrors)⟩

end StepMachine
