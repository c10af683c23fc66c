import StepMachine.Proofs.Scheme.Clean
import StepMachine.Proofs.Scheme.Partial
import StepMachine.Proofs.Token.Damage
import StepMachine.Proofs.Token.Layout
import StepMachine.Scheme.Compiled

/-! # How a scheme is compiled

A text that can be scanned is compiled: its tokens end in one of the end and their literals are
decoded, so reading them breaks nothing and leaves a draft, which is checked and handed over. What
the draft holds is read off whole variables and steps and perhaps parts of two more.
-/
namespace StepMachine

variable {E : Engine} {text : String} {tokens : List Token} {scanned : List Diagnostic}

theorem scanAll_isLaidOut (h : scanAll E text = .ok (tokens, scanned)) :
    IsLaidOut [] text.toList tokens :=
  scan_isLaidOut (scan_of_scanAll h)

/-- The tokens of a text, of which only the last is one of the end. -/
theorem scanAll_ending (h : scanAll E text = .ok (tokens, scanned)) : ∃ body t,
    tokens = body ++ [t] ∧ t.kind = .eof ∧ ∀ u ∈ body, u.kind ≠ .eof := by
  obtain ⟨body, t, rfl, hk, -, -, hbody⟩ := (scanAll_isLaidOut h).exists_ending
  exact ⟨body, t, rfl, hk, fun u hu => (hbody u hu).1⟩

theorem scanAll_endsInEnd (h : scanAll E text = .ok (tokens, scanned)) : EndsInEnd tokens := by
  obtain ⟨body, t, rfl, hk, -⟩ := scanAll_ending h
  simp [EndsInEnd, hk]

theorem scanAll_isDecoded (h : scanAll E text = .ok (tokens, scanned)) :
    ∀ t ∈ tokens, t.IsDecoded :=
  (scan_spec (scan_of_scanAll h)).2

theorem ParseState.ofTokens_eq_ok {s : ParseState} (h : ParseState.ofTokens tokens = .ok s) :
    s.cursor.index = 0 ∧ s.cursor.tokens = tokens ∧ s.draft = .empty := by
  unfold ParseState.ofTokens Cursor.ofTokens? at h
  cases tokens with
  | nil => cases h
  | cons t rest =>
    dsimp only at h
    split at h
    · cases h
    · next cursor hcursor =>
      cases h
      split at hcursor
      · cases hcursor
        exact ⟨rfl, rfl, rfl⟩
      · cases hcursor

/-- The text has these tokens and reports, reading them goes from `start` to `finish` over the
parts, the check gets through, and the result is what the draft is then. -/
structure IsRun (E : Engine) (text : String) (o : CheckOptions) (c : CompiledScheme)
    (scanned : List Diagnostic) (start finish : ParseState) (parts : PartialScheme) : Prop where
  scan_eq : scanAll E text = .ok (c.tokens, scanned)
  start_eq : ParseState.ofTokens c.tokens = .ok start
  scheme_eq : Parse.scheme start = (.done (), finish)
  passes : start.cursor.Passes parts.tokens finish.cursor
  draft : parts.IsDraft finish.draft
  result_eq : c = .ofDraft text c.tokens scanned (finish.draft.warned (finish.draft.findings o))

/-- A text that can be scanned is compiled. -/
theorem exists_compileWith (h : scanAll E text = .ok (tokens, scanned)) (o : CheckOptions) :
    ∃ (c : CompiledScheme) (start finish : ParseState) (parts : PartialScheme),
      CompiledScheme.compileWith E text o = .ok c ∧
      IsRun E text o c scanned start finish parts := by
  obtain ⟨cursor, hstart, rfl, hsound⟩ :=
    exists_ofTokens (scanAll_endsInEnd h) (scanAll_isDecoded h)
  obtain ⟨t, b, -, hb⟩ | ⟨parts, finish, hread, hpasses, hdraft⟩ :=
    Parse.scheme_parts hsound.endsInEnd
  · exact (hsound.not_isLongNumberOf b hb).elim
  have hnumbers : finish.draft.HasNumbers := by
    refine hdraft.hasNumbers fun t ht => scanAll_isDecoded h t ?_
    rw [hpasses.tokens_eq]
    exact List.mem_append_left _ ht
  refine ⟨.ofDraft text cursor.tokens scanned (finish.draft.warned (finish.draft.findings o)), _,
    finish, parts, ?_, h, hstart, hread, hpasses, hdraft, rfl⟩
  rw [CompiledScheme.compileWith, h]
  simp only [Draft.checked, ofTokens_eq_of_scheme hstart hread, hnumbers.checkReferences_eq]

variable {o : CheckOptions} {c : CompiledScheme}

/-- Whatever is compiled has been scanned and read. -/
theorem exists_isRun (h : CompiledScheme.compileWith E text o = .ok c) :
    ∃ scanned start finish parts, IsRun E text o c scanned start finish parts := by
  cases hscan : scanAll E text with
  | error failure =>
    rw [CompiledScheme.compileWith, hscan] at h
    cases h
  | ok found =>
    obtain ⟨c', start, finish, parts, hc', hrun⟩ := exists_compileWith hscan o
    rw [h] at hc'
    cases hc'
    exact ⟨_, start, finish, parts, hrun⟩

theorem CompiledScheme.compile_eq {given : Option CheckOptions} {profile : Option Profile}
    (h : CheckOptions.resolve given profile = .ok o) :
    compile E text given profile = compileWith E text o := by
  rw [compile, h]

theorem CompiledScheme.exists_resolve {given : Option CheckOptions} {profile : Option Profile}
    (h : compile E text given profile = .ok c) :
    ∃ o, CheckOptions.resolve given profile = .ok o ∧ compileWith E text o = .ok c := by
  cases ho : CheckOptions.resolve given profile with
  | error failure =>
    rw [compile, ho] at h
    cases h
  | ok o => exact ⟨o, rfl, compile_eq ho ▸ h⟩

namespace IsRun

variable {start finish : ParseState} {parts : PartialScheme}
variable (h : IsRun E text o c scanned start finish parts)
include h

theorem tokens_eq : c.tokens = parts.tokens ++ finish.cursor.tokens := by
  rw [← (ParseState.ofTokens_eq_ok h.start_eq).2.1, h.passes.tokens_eq]

theorem index_eq : finish.cursor.index = parts.tokens.length := by
  rw [h.passes.index_eq, (ParseState.ofTokens_eq_ok h.start_eq).1, Nat.zero_add]

theorem mem_tokens {t : Token} (ht : t ∈ parts.tokens) : t ∈ c.tokens := by
  rw [h.tokens_eq]
  exact List.mem_append_left _ ht

theorem isDecoded : ∀ t ∈ parts.tokens, t.IsDecoded :=
  fun t ht => scanAll_isDecoded h.scan_eq t (h.mem_tokens ht)

theorem hasNumbers : finish.draft.HasNumbers := h.draft.hasNumbers h.isDecoded

/-- The tokens that were passed are those before the cursor. -/
theorem take_index : c.tokens.take finish.cursor.index = parts.tokens := by
  rw [h.tokens_eq, h.index_eq, List.take_left]

theorem ofTokens_eq : Draft.ofTokens c.tokens = .ok finish.draft :=
  ofTokens_eq_of_scheme h.start_eq h.scheme_eq

theorem draft_variableDecls : finish.draft.variableDecls = c.variableDecls := by
  rw [h.result_eq]
  rfl

theorem draft_stepDecls : finish.draft.stepDecls = c.stepDecls := by
  rw [h.result_eq]
  rfl

theorem draft_stepRefs : finish.draft.stepRefs = c.stepRefs := by
  rw [h.result_eq]
  rfl

theorem variableDecls_eq : c.variableDecls = parts.whole.variableDecls :=
  h.draft_variableDecls.symm.trans h.draft.variableDecls_eq

/-- The steps of a text that was compiled have numbers. -/
theorem exists_number {s : Step} (hs : s ∈ c.stepDecls) : ∃ n, s.id = .number n := by
  rw [← h.draft_stepDecls] at hs
  obtain ⟨n, hn, -⟩ := h.hasNumbers s.id (.inl (List.mem_map_of_mem hs))
  exact ⟨n, hn⟩

theorem stepDecls_eq : c.stepDecls =
    firstOnly Step.id (parts.steps.map (·.step parts.whole.variableDecls)) :=
  h.draft_stepDecls.symm.trans h.draft.stepDecls_eq

theorem variableRefs_eq : c.variableRefs =
    firstOnly Reference.id (parts.nameUses.filter (isDeclared parts.whole.variableDecls)) := by
  rw [h.result_eq]
  exact h.draft.variableRefs_eq

theorem stepRefs_eq : c.stepRefs = firstOnly Reference.id parts.stepUses :=
  h.draft_stepRefs.symm.trans h.draft.stepRefs_eq

theorem errors_eq : c.errors = scanned ++ finish.draft.errors := by
  rw [h.result_eq]
  rfl

/-- A run without errors is along a derivation without errors. -/
theorem exists_clean (hnone : c.errors = []) :
    ∃ g : SchemePhrase, finish.draft = g.draft ∧ g.IsClean := by
  rw [h.errors_eq] at hnone
  have hdraft := (List.append_eq_nil_iff.mp hnone).2
  obtain ⟨g, -, heq, hclean⟩ := StepMachine.exists_clean (scanAll_endsInEnd h.scan_eq)
    (scanAll_isDecoded h.scan_eq) h.ofTokens_eq hdraft
  exact ⟨g, heq, hclean⟩

theorem warnings_eq : c.warnings = finish.draft.findings o := by
  rw [h.result_eq]
  change finish.draft.warnings ++ finish.draft.findings o = _
  rw [h.draft.warnings_eq, List.nil_append]

end IsRun

end StepMachine
