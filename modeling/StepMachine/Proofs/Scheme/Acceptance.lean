import StepMachine.Proofs.Scheme.Soundness
import StepMachine.Proofs.Scheme.Unambiguity

/-! # Schemes are accepted as the grammar says

A draft has an error of syntax exactly if the tokens before the end are not spelled by a
derivation. Errors are only added, so one of syntax stays; and what a phrase adds by its meaning,
a name that is not declared or a declaration that comes too late, is none of syntax. If there is a
derivation it is the only one, and the draft is the one that it stands for.
-/
namespace StepMachine

/-- Some error is one of syntax. -/
def Draft.hasSyntaxError (d : Draft) : Bool := d.errors.any (·.code.isSyntax)

namespace Draft

variable (d : Draft)

@[simp] theorem hasSyntaxError_error (x : Diagnostic) :
    (d.error x).hasSyntaxError = (d.hasSyntaxError || x.code.isSyntax) := by
  simp [hasSyntaxError, error]

@[simp] theorem hasSyntaxError_note (names : List (Reference String))
    (steps : List (Reference Literal)) : (d.note names steps).hasSyntaxError = d.hasSyntaxError := by
  have hnone : (unknownNames d.variableDecls names).any (·.code.isSyntax) = false := by
    rw [List.any_eq_false]
    intro x hx
    simp [code_of_mem_unknownNames hx, Code.isSyntax]
  simp [hasSyntaxError, note, hnone]

@[simp] theorem hasSyntaxError_addVariable (v : Variable) :
    (d.addVariable v).hasSyntaxError = d.hasSyntaxError := by
  unfold hasSyntaxError addVariable
  split <;> simp [Diagnostic.code, Cause.code, Code.isSyntax]

@[simp] theorem hasSyntaxError_addStep (s : Step) :
    (d.addStep s).hasSyntaxError = d.hasSyntaxError := by
  unfold hasSyntaxError addStep
  split <;> simp [Diagnostic.code, Cause.code, Code.isSyntax]

theorem hasSyntaxError_addToVariable (g : VariablePhrase) :
    (g.addTo d).hasSyntaxError = d.hasSyntaxError := d.hasSyntaxError_addVariable g.record

theorem hasSyntaxError_addToStep (g : StepPhrase) :
    (g.addTo d).hasSyntaxError = d.hasSyntaxError := by
  rw [StepPhrase.addTo, hasSyntaxError_addStep, hasSyntaxError_note]

theorem hasSyntaxError_foldl {γ : Type} {addTo : Draft → γ → Draft}
    (h : ∀ d g, (addTo d g).hasSyntaxError = d.hasSyntaxError) (gs : List γ) :
    (gs.foldl addTo d).hasSyntaxError = d.hasSyntaxError := by
  induction gs generalizing d with
  | nil => rfl
  | cons g gs ih => rw [List.foldl_cons, ih, h]

end Draft

theorem SchemePhrase.hasSyntaxError_draft (g : SchemePhrase) : g.draft.hasSyntaxError = false := by
  rw [← g.draft_eq_foldl, Draft.hasSyntaxError_foldl _ Draft.hasSyntaxError_addToStep,
    Draft.hasSyntaxError_foldl _ Draft.hasSyntaxError_addToVariable]
  rfl

/-- Where all numbers have values, nothing is given up on without an error of syntax. -/
theorem Stopped.hasSyntaxError {breaks : Code → Bool} {c : Cursor} {d : Draft}
    {names : List (Reference String)} {numbers : List (Reference Literal)} {t : ParseState}
    (h : Stopped breaks c d names numbers t)
    (hbreaks : ∀ {code}, breaks code = true → code.isSyntax = true) (hc : c.IsSound) :
    t.draft.hasSyntaxError = true := by
  obtain ⟨x, hd, hx, hnone⟩ := h.reports
  cases x with
  | none =>
    obtain ⟨u, hu, hn⟩ := hnone rfl
    exact absurd (hc.hasNumber u hu) hn
  | some y =>
    rw [hd, Draft.reporting_some, Draft.hasSyntaxError_error, hbreaks (hx y rfl).1, Bool.or_true]

theorem StoppedAfter.hasSyntaxError {c : Cursor} {d : Draft} {t : ParseState}
    (h : StoppedAfter c d t) (hc : c.IsSound) : t.draft.hasSyntaxError = true := by
  obtain ⟨names, numbers, h⟩ := h
  exact h.hasSyntaxError Code.isSyntax_of_breaksStep hc

namespace Parse

variable {s : ParseState}

/-- After an error of syntax, steps may still follow but the error stays. -/
theorem stepList_keeps (hc : s.cursor.IsSound) (hs : s.draft.hasSyntaxError = true) :
    stepList.Ends s (fun _ t => t.draft.hasSyntaxError = true) (fun _ => False) := by
  refine ((stepList_ends hc.endsInEnd).mono_broken hc.not_isLongNumberOf).mono ?_ (fun _ h => h)
  rintro _ t ⟨gs, m, -, p, hd, rfl | ⟨-, h⟩⟩
  · rw [hd, Draft.hasSyntaxError_foldl _ Draft.hasSyntaxError_addToStep, hs]
  · exact h.hasSyntaxError (hc.of_passes p)

/-- A scheme is read to its end along a derivation, or else an error of syntax is reported. -/
theorem scheme_ends (hc : s.cursor.IsSound) :
    scheme.Ends s (fun _ t => t.draft.hasSyntaxError = true ∨
      ∃ g : SchemePhrase, s.cursor.Passes g.tokens t.cursor ∧ t.cursor.isAt .eof = true)
      (fun _ => False) := by
  have hend : ∀ t : ParseState, t.draft.hasSyntaxError = true →
      ((do if (← cursor).isAt .eof then pure () else
        report (.general .expectedEnd) (← position)) : Parse Unit).Ends t
        (fun _ t => t.draft.hasSyntaxError = true ∨ ∃ g : SchemePhrase,
          s.cursor.Passes g.tokens t.cursor ∧ t.cursor.isAt .eof = true) (fun _ => False) := by
    intro t ht
    simp only [ends_bind, ends_cursor, ends_ite, ends_pure, ends_position, ends_report,
      Draft.hasSyntaxError_error, ht, Bool.true_or, true_or, ite_self]
  rw [scheme, ends_bind]
  refine (variableList_ends hc.endsInEnd).mono ?_ (fun _ h => h)
  rintro _ t ⟨vs, m, -, p, -, rfl | ⟨-, ht⟩⟩
  · have cm := hc.of_passes p
    rw [ends_bind]
    refine ((stepList_ends cm.endsInEnd).mono_broken cm.not_isLongNumberOf).mono ?_ (fun _ h => h)
    rintro _ u ⟨gs, n, -, q, -, rfl | ⟨-, hu⟩⟩
    · simp only [ends_bind, ends_cursor, ends_ite, ends_pure, ends_position, ends_report]
      split
      · next he => exact .inr ⟨⟨vs, gs⟩, p.trans q, he⟩
      · exact .inl (by simp [Diagnostic.code, Cause.code, Code.isSyntax])
    · exact hend u (hu.hasSyntaxError (cm.of_passes q))
  · -- after a broken variable steps may still be read, but nothing takes the error back
    have cm := hc.of_passes p
    have herror := ht.hasSyntaxError Code.isSyntax_of_breaksVariable cm
    obtain ⟨ts, q, -⟩ := ht.passes
    rw [ends_bind]
    exact (stepList_keeps (cm.of_passes q) herror).mono (fun _ u hu => hend u hu) (fun _ h => h)

end Parse

/-! ### Drafts of token lists -/

variable {tokens : List Token}

theorem exists_ofTokens (hend : EndsInEnd tokens) (hdecoded : ∀ t ∈ tokens, t.IsDecoded) :
    ∃ c : Cursor, ParseState.ofTokens tokens = .ok ⟨c, .empty⟩ ∧ c.tokens = tokens ∧ c.IsSound := by
  obtain ⟨c, hstart, rfl, -⟩ := exists_start hend
  exact ⟨c, hstart, rfl, ⟨hend, fun u hu => (hdecoded u hu).hasNumber⟩,
    not_hasLongNumber fun u hu => (hdecoded u hu).isWritable⟩

/-- A derivation of the tokens is read up to the end. -/
theorem SchemePhrase.exists_read {g : SchemePhrase} (hend : EndsInEnd tokens)
    (hdecoded : ∀ t ∈ tokens, t.IsDecoded) (hg : g.tokens = beforeEnd tokens) :
    ∃ c e : Cursor, ParseState.ofTokens tokens = .ok ⟨c, .empty⟩ ∧ c.tokens = tokens ∧ c.IsSound ∧
      c.Passes g.tokens e ∧ e.isAt .eof = true ∧
      Parse.scheme ⟨c, .empty⟩ = (.done (), ⟨e, g.draft⟩) := by
  obtain ⟨c, hstart, rfl, hc⟩ := exists_ofTokens hend hdecoded
  obtain ⟨e, p, he⟩ := Cursor.exists_passes_beforeEnd hend
  rw [← hg] at p
  exact ⟨c, e, hstart, rfl, hc, p, he, Parse.scheme_reads hc p he⟩

/-- The draft is the meaning of a derivation of the tokens, or there is none and the draft has an
error of syntax. -/
theorem ofTokens_cases (hend : EndsInEnd tokens) (hdecoded : ∀ t ∈ tokens, t.IsDecoded) :
    (∃ g : SchemePhrase, g.tokens = beforeEnd tokens ∧ Draft.ofTokens tokens = .ok g.draft) ∨
    (¬∃ g : SchemePhrase, g.tokens = beforeEnd tokens) ∧
      ∃ d, Draft.ofTokens tokens = .ok d ∧ d.hasSyntaxError = true := by
  by_cases hg : ∃ g : SchemePhrase, g.tokens = beforeEnd tokens
  · obtain ⟨g, hg⟩ := hg
    obtain ⟨c, e, hstart, -, -, -, -, hread⟩ := SchemePhrase.exists_read hend hdecoded hg
    exact .inl ⟨g, hg, ofTokens_eq_of_scheme hstart hread⟩
  · refine .inr ⟨hg, ?_⟩
    obtain ⟨c, hstart, rfl, hc⟩ := exists_ofTokens hend hdecoded
    obtain ⟨_, t, hread, ht⟩ | ⟨t, -, hfalse⟩ :=
      (Parse.scheme_ends (s := ⟨c, .empty⟩) hc).exists_or
    · refine ⟨t.draft, ofTokens_eq_of_scheme hstart hread, ht.resolve_right ?_⟩
      rintro ⟨g, p, he⟩
      exact hg ⟨g, (p.beforeEnd_eq (fun u hu => (g.isLeaf u hu).kind_ne_eof) he).symm⟩
    · exact hfalse.elim

/-- An undamaged leaf on the first line. -/
def Terminal.onFirstLine (kind : TokenKind) (text : String) (index : Nat)
    (value : Option Literal) : Terminal kind where
  token := ⟨kind, text, ⟨1, index + 1, index⟩, value, false⟩
  stands := by simp [Token.standsFor]

/-- A number in parentheses on the first line. -/
def StepIdPhrase.onFirstLine (digits : String) (index : Nat) (value : Int) : StepIdPhrase where
  opening := .onFirstLine .openParen "(" index none
  number := .onFirstLine .number digits (index + 1) (some (.number value))
  closing := .onFirstLine .closeParen ")" (index + 2) none

/-- `(1):*?[go](1):(2)`, where the first step leaves out its fallback. -/
def twoSteps : SchemePhrase where
  bindings := []
  steps := [
    ⟨.onFirstLine "1" 0 1, .onFirstLine .colon ":" 3 none, [],
      .wildcard (.onFirstLine .star "*" 4 none) (.onFirstLine .question "?" 5 none)
        (.token none (.onFirstLine .openBracket "[" 6 none)
          (.name (.onFirstLine .name "go" 7 none)) (.onFirstLine .closeBracket "]" 9 none))⟩,
    ⟨.onFirstLine "1" 10 1, .onFirstLine .colon ":" 13 none, [],
      .fallback (.step (.onFirstLine "2" 14 2))⟩]

/-- The tokens of both steps and the end. -/
def twoStepTokens : List Token := twoSteps.tokens ++ [⟨.eof, "", ⟨1, 18, 17⟩, none, false⟩]

theorem twoStepTokens_decoded : ∀ t ∈ twoStepTokens, t.IsDecoded := by
  simp [twoStepTokens, twoSteps, SchemePhrase.tokens, StepPhrase.tokens, StepIdPhrase.tokens,
    StepPhrase.allActions, StepEnd.lastAction, StepEnd.tokens, ActionPhrase.tokens,
    ConditionPhrase.token, TargetPhrase.tokens, TokenNamePhrase.token, Terminal.onFirstLine,
    StepIdPhrase.onFirstLine, Token.IsDecoded, Token.isValid,
    Text.isWritable_of_le (n := 1) (by decide), Text.isWritable_of_le (n := 2) (by decide)]

/-- Acceptance is exact: the draft is free of errors of syntax if and only if a derivation spells
the tokens before the end. No two derivations spell the same tokens. -/
theorem hasSyntaxError_eq_false_iff_derives (hend : EndsInEnd tokens)
    (hdecoded : ∀ t ∈ tokens, t.IsDecoded) :
    (∃ d, Draft.ofTokens tokens = .ok d ∧
      (d.hasSyntaxError = false ↔ ∃ g : SchemePhrase, g.tokens = beforeEnd tokens)) ∧
    Function.Injective SchemePhrase.tokens := by
  refine ⟨?_, SchemePhrase.tokens_injective⟩
  obtain ⟨g, hg, hdraft⟩ | ⟨hnone, d, hdraft, herror⟩ := ofTokens_cases hend hdecoded
  · exact ⟨g.draft, hdraft, iff_of_true g.hasSyntaxError_draft ⟨g, hg⟩⟩
  · exact ⟨d, hdraft, iff_of_false (by simp [herror]) hnone⟩

theorem twoSteps_accepted : EndsInEnd twoStepTokens ∧ (∀ t ∈ twoStepTokens, t.IsDecoded) ∧
    ∃ d, Draft.ofTokens twoStepTokens = .ok d ∧ d.hasSyntaxError = false := by
  have hend : EndsInEnd twoStepTokens := by decide
  obtain ⟨⟨d, hd, hiff⟩, -⟩ := hasSyntaxError_eq_false_iff_derives hend twoStepTokens_decoded
  exact ⟨hend, twoStepTokens_decoded, d, hd, hiff.mpr ⟨twoSteps, by decide⟩⟩

/-- If a derivation spells the tokens before the end, their draft is what it stands for. -/
theorem ofTokens_eq_draft {g : SchemePhrase} (hend : EndsInEnd tokens)
    (hdecoded : ∀ t ∈ tokens, t.IsDecoded) (hg : g.tokens = beforeEnd tokens) :
    Draft.ofTokens tokens = .ok g.draft := by
  obtain ⟨h, hh, hdraft⟩ | ⟨hnone, -⟩ := ofTokens_cases hend hdecoded
  · have heq : h = g := SchemePhrase.tokens_injective (hh.trans hg.symm)
    exact heq ▸ hdraft
  · exact absurd ⟨g, hg⟩ hnone

theorem twoSteps_draft : EndsInEnd twoStepTokens ∧ (∀ t ∈ twoStepTokens, t.IsDecoded) ∧
    twoSteps.tokens = beforeEnd twoStepTokens ∧
    Draft.ofTokens twoStepTokens = .ok twoSteps.draft := by
  have hend : EndsInEnd twoStepTokens := by decide
  have hspells : twoSteps.tokens = beforeEnd twoStepTokens := by decide
  exact ⟨hend, twoStepTokens_decoded, hspells,
    ofTokens_eq_draft hend twoStepTokens_decoded hspells⟩

end StepMachine
