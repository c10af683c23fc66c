import StepMachine.Proofs.Compiled.Damage
import StepMachine.Proofs.Scheme.Equivariance
import StepMachine.Proofs.Token.Stopping

/-! # When there is no result

If an engine takes a body, or finds fault with it or with a number in it, then a text leaves no
result exactly if it cannot be scanned, and the first token that stops the work decides why. All
else is reported in words, and the numbers in the words were read before, so they are not too long
to be written.
-/
namespace StepMachine

variable {E : Engine} {text : String} {scanned : List Diagnostic} {c : CompiledScheme}

namespace IsRun

variable {o : CheckOptions} {start finish : ParseState} {parts : PartialScheme}
variable (h : IsRun E text o c scanned start finish parts)
include h

theorem isWorded_of_mem_errors {d : Diagnostic} (hd : d ∈ c.errors) : d.cause.IsWorded := by
  rw [h.errors_eq] at hd
  rcases List.mem_append.mp hd with hd | hd
  · -- the scanner does not report on steps
    rw [Cause.isWorded_iff]
    intro id hid
    have hlexer : d.cause.code.category = "lexer" := (scanAll_reports h.scan_eq d hd).1
    rcases Cause.code_of_shown? hid with hc | hc | hc <;> simp [hc, Code.category] at hlexer
  · exact Draft.isWorded_of_ofTokens h.ofTokens_eq d hd

theorem isWorded_of_mem_warnings {d : Diagnostic} (hd : d ∈ c.warnings) : d.cause.IsWorded := by
  rw [h.warnings_eq] at hd
  have hgoes : (finish.draft.checkReferences o).1 = .ok () := by
    rw [h.hasNumbers.checkReferences_eq]
  exact (finish.draft.checkReferences_spec o).2.mp hgoes d hd

/-- Everything that is reported can be put in words. -/
theorem isWorded {d : Diagnostic} (hd : d ∈ c.diagnostics) : d.cause.IsWorded := by
  rcases List.mem_append.mp hd with hd | hd
  · exact h.isWorded_of_mem_errors hd
  · exact h.isWorded_of_mem_warnings hd

end IsRun

/-! ### Results -/

/-- Whatever can be scanned is compiled, whatever is wanted, and what is reported can be worded. -/
theorem exists_compile {tokens : List Token} (hscan : scanAll E text = .ok (tokens, scanned))
    {given : Option CheckOptions} {profile : Option Profile} {o : CheckOptions}
    (ho : CheckOptions.resolve given profile = .ok o) :
    ∃ c, CompiledScheme.compile E text given profile = .ok c ∧
      ∀ d ∈ c.diagnostics, d.cause.IsWorded := by
  obtain ⟨c, start, finish, parts, hcompile, hrun⟩ := exists_compileWith hscan o
  exact ⟨c, (CompiledScheme.compile_eq ho).trans hcompile, fun d hd => hrun.isWorded hd⟩

theorem compile_eq_error_iff {given : Option CheckOptions} {profile : Option Profile}
    {o : CheckOptions} (ho : CheckOptions.resolve given profile = .ok o)
    {failure : CompileFailure} : CompiledScheme.compile E text given profile = .error failure ↔
      ∃ stop, failure = .scan stop ∧ scan E text = .error stop := by
  rw [scan_eq]
  cases hscan : scanAll E text with
  | error stop =>
    rw [CompiledScheme.compile_eq ho, CompiledScheme.compileWith, hscan]
    simp [Except.map, eq_comm]
  | ok found =>
    obtain ⟨c, hc, -⟩ := exists_compile hscan ho
    rw [hc]
    simp [Except.map]

theorem resolve_eq_ok {given : Option CheckOptions} {profile : Option Profile}
    (h : given = none ∨ profile = none) : ∃ o, CheckOptions.resolve given profile = .ok o := by
  rcases h with rfl | rfl
  · cases profile <;> exact ⟨_, rfl⟩
  · cases given <;> exact ⟨_, rfl⟩

/-- Whatever the engine, a text leaves no result exactly if it cannot be scanned, which is so exactly
if one of its tokens is a numeral beyond the limit or a closed pattern without repeated flags in
whose body the engine finds a number out of range; the first such token decides how both fail. Any
other text is compiled, and all that is reported can be put in words. -/
theorem compile_fails_iff (hE : E.HasUsualTrouble) (text : String) {given : Option CheckOptions}
    {profile : Option Profile} (h : given = none ∨ profile = none) :
    ∃ raw, (∀ ts, Tokenizes .start text.toList ts ↔ ts = raw) ∧
      (∀ stop, scan E text = .error stop ↔ IsFirstStop E raw stop) ∧
      ((∃ stop, scan E text = .error stop) ↔ ∃ t ∈ raw, ∃ stop, t.Stops E stop) ∧
      (∀ failure, CompiledScheme.compile E text given profile = .error failure ↔
        ∃ stop, failure = .scan stop ∧ scan E text = .error stop) ∧
      ((∀ t ∈ raw, ∀ stop, ¬t.Stops E stop) →
        ∃ c, CompiledScheme.compile E text given profile = .ok c ∧
          ∀ d ∈ c.diagnostics, d.cause.IsWorded) := by
  obtain ⟨o, ho⟩ := resolve_eq_ok h
  have hraw : Tokenizes .start text.toList (rawTokens text.toList) := tokenizes_iff.mpr rfl
  have hscan : ∀ stop, scan E text = .error stop ↔ IsFirstStop E (rawTokens text.toList) stop :=
    fun _ => scan_eq_error_iff hE hraw
  refine ⟨_, fun _ => tokenizes_iff, hscan, ?_, fun _ => compile_eq_error_iff ho, ?_⟩
  · simp only [hscan]
    exact exists_isFirstStop E _
  · intro hgoes
    cases hfound : scanAll E text with
    | error stop =>
      have herror : scan E text = .error stop := by rw [scan_eq, hfound]; rfl
      obtain ⟨t, ht, other, hstop⟩ := (exists_isFirstStop E _).mp ⟨stop, (hscan stop).mp herror⟩
      exact absurd hstop (hgoes t ht other)
    | ok found => exact exists_compile hfound ho

/-- The engine that the library comes with has no other trouble. -/
theorem Regex.engine_hasUsualTrouble (edition : Regex.Edition) :
    (Regex.engine edition).HasUsualTrouble := by
  intro body o refusal h
  rw [Regex.engine] at h
  dsimp only at h
  split at h
  · cases h
  · next failure hfailure =>
    cases h
    cases failure <;> simp [Regex.Failure.trouble]

/-- One mark may follow a quantifier, so the body is at fault before its count is read. -/
example : ((Regex.engine (.plain true)).refusal? "a*?+\x7b4294967295\x7d" ⟨false, false⟩).map
    (·.trouble) = some .fault := by decide +kernel

/-- The character before the pattern starts nothing, and the pattern asks for a count of `2 ^ 32`. -/
theorem largeCount_fails :
    let E := Regex.engine (.plain true)
    let refusal : Engine.Refusal := ⟨.overflow, "the repetition number is too large"⟩
    E.HasUsualTrouble ∧ ((none : Option CheckOptions) = none ∨ some Profile.strict = none) ∧
      scan E "#/a\x7b4294967296\x7d/" = .error (.refused refusal) ∧
      CompiledScheme.compile E "#/a\x7b4294967296\x7d/" none (some .strict) =
        .error (.scan (.refused refusal)) := by
  intro E refusal
  have hE : E.HasUsualTrouble := Regex.engine_hasUsualTrouble _
  have hscan : scan E "#/a\x7b4294967296\x7d/" = .error (.refused refusal) := by decide +kernel
  have hconsistent : (none : Option CheckOptions) = none ∨ some Profile.strict = none := .inl rfl
  obtain ⟨-, -, -, -, hcompile, -⟩ :=
    compile_fails_iff hE "#/a\x7b4294967296\x7d/" hconsistent
  exact ⟨hE, hconsistent, hscan, (hcompile _).mpr ⟨_, rfl, hscan⟩⟩

end StepMachine
