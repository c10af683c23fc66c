import StepMachine.Proofs.Compiled.Entry
import StepMachine.Proofs.Compiled.Run
import StepMachine.Proofs.Scheme.Equivariance
import StepMachine.Proofs.Token.Respacing

/-! # Layout is free

What a text is compiled to does not depend on the blanks between its tokens, but for the places
that are told: its tokens stay the same, the reading follows from token to token, and the checks
look at names and numbers only.
-/
namespace StepMachine

/-- Tokens that differ only in their places are read to drafts that differ only in places. -/
theorem Draft.ofTokens_placeless {tokens tokens' : List Token} {d d' : Draft}
    (htokens : tokens'.map (·.relabel .placeless) = tokens.map (·.relabel .placeless))
    (hd : Draft.ofTokens tokens = .ok d) (hd' : Draft.ofTokens tokens' = .ok d') :
    d'.relabel .placeless = d.relabel .placeless := by
  have h := Draft.ofTokens_moving (fun _ => .start) hd
  have h' := Draft.ofTokens_moving (fun _ => .start) hd'
  exact Except.ok.inj (h'.symm.trans ((congrArg Draft.ofTokens htokens).trans h))

theorem words_placeless {ds ds' : List Diagnostic}
    (h : ds'.map (·.relabel .placeless) = ds.map (·.relabel .placeless)) :
    ds'.map (fun d => (d.code, d.message)) = ds.map (fun d => (d.code, d.message)) := by
  have hwords : ∀ l : List Diagnostic, (l.map (·.relabel .placeless)).map
      (fun d => (d.code, d.message)) = l.map (fun d => (d.code, d.message)) := by
    intro l
    rw [List.map_map]
    refine List.map_congr_left fun d _ => ?_
    have hd : d.relabel .placeless = ⟨d.cause, .start⟩ := d.relabel_moving _
    rw [Function.comp_apply, hd]
    rfl
  rw [← hwords ds', h, hwords ds]

variable {E : Engine} {text : String} {c : CompiledScheme}

theorem IsRun.relabel_eq {o : CheckOptions} {scanned : List Diagnostic} {start finish : ParseState}
    {parts : PartialScheme} (h : IsRun E text o c scanned start finish parts) (ρ : Relabelling) :
    c.relabel ρ = .ofDraft text (c.tokens.map (·.relabel ρ)) (scanned.map (·.relabel ρ))
      ((finish.draft.relabel ρ).warned ((finish.draft.relabel ρ).findings o)) := by
  rw [Draft.findings_relabel, Draft.warned_relabel, ← CompiledScheme.relabel_ofDraft]
  exact congrArg _ h.result_eq

/-- With other blanks between its tokens a text is compiled to the same scheme, with the same entry and
the same errors and warnings in the same words; only places change. -/
theorem compile_respaced {given : Option CheckOptions} {profile : Option Profile}
    (h : CompiledScheme.compile E text given profile = .ok c) {first : String} {gaps : List String}
    (hs : IsSpacing ((beforeEnd c.tokens).map (·.text)) first gaps) :
    ∃ c', CompiledScheme.compile E (respace ((beforeEnd c.tokens).map (·.text)) first gaps) given
        profile = .ok c' ∧
      c'.relabel .placeless = { c.relabel .placeless with sourceText := c'.sourceText } ∧
      (∃ entry entry', c.entryStep = .ok entry ∧ c'.entryStep = .ok entry' ∧
        entry'.map (·.relabel .placeless) = entry.map (·.relabel .placeless)) ∧
      c'.errors.map (fun d => (d.code, d.message)) =
        c.errors.map (fun d => (d.code, d.message)) ∧
      c'.warnings.map (fun d => (d.code, d.message)) =
        c.warnings.map (fun d => (d.code, d.message)) := by
  obtain ⟨o, ho, hcompile⟩ := CompiledScheme.exists_resolve h
  obtain ⟨scanned, start, finish, parts, hrun⟩ := exists_isRun hcompile
  obtain ⟨tokens', scanned', hscan', htokens, hscanned⟩ := scanAll_respaced hrun.scan_eq hs
  obtain ⟨c', start', finish', parts', hcompile', hrun'⟩ := exists_compileWith hscan' o
  have hsame : tokens' = c'.tokens :=
    (Prod.mk.inj (Except.ok.inj (hscan'.symm.trans hrun'.scan_eq))).1
  rw [hsame] at htokens
  have hdraft := Draft.ofTokens_placeless htokens hrun.ofTokens_eq hrun'.ofTokens_eq
  have heq : c'.relabel .placeless =
      { c.relabel .placeless with sourceText := c'.sourceText } := by
    have htext : c'.sourceText = (c'.relabel .placeless).sourceText := rfl
    rw [htext, hrun'.relabel_eq, hrun.relabel_eq, htokens, hscanned, hdraft]
    rfl
  have hsameEntry : (c'.relabel .placeless).entryStep = (c.relabel .placeless).entryStep := by
    rw [heq]
    rfl
  refine ⟨c', (CompiledScheme.compile_eq ho).trans hcompile', heq, ?_, ?_, ?_⟩
  · obtain ⟨entry, hentry⟩ := CompiledScheme.exists_entryStep_eq fun _ hs => hrun.exists_number hs
    obtain ⟨entry', hentry'⟩ := CompiledScheme.exists_entryStep_eq fun _ hs => hrun'.exists_number hs
    have hc := c.entryStep_relabel_moving fun _ => .start
    have hc' := c'.entryStep_relabel_moving fun _ => .start
    rw [hentry] at hc
    rw [hentry'] at hc'
    exact ⟨entry, entry', hentry, hentry', Except.ok.inj (hc'.symm.trans (hsameEntry.trans hc))⟩
  · exact words_placeless (congrArg CompiledScheme.errors heq)
  · exact words_placeless (congrArg CompiledScheme.warnings heq)

/-- The last string is not closed, so nothing may be put after it. -/
theorem openString_respaced :
    let E := Regex.engine (.plain true)
    ∃ c c', CompiledScheme.compile E "a:\"x" none none = .ok c ∧
      IsSpacing ((beforeEnd c.tokens).map (·.text)) "\n" [" ", "\t", ""] ∧
      CompiledScheme.compile E "\na :\t\"x" none none = .ok c' ∧
      c'.relabel .placeless = { c.relabel .placeless with sourceText := c'.sourceText } := by
  intro E
  have hseen : (CompiledScheme.compile E "a:\"x" none none).toOption.map
      (fun c => (beforeEnd c.tokens).map (·.text)) = some ["a", ":", "\"x"] := by decide +kernel
  obtain ⟨c, hcompile, htexts⟩ := exists_of_toOption_map hseen
  have hs : IsSpacing ((beforeEnd c.tokens).map (·.text)) "\n" [" ", "\t", ""] := by
    have hblank : ∀ gap ∈ ["\n", " ", "\t", ""], gap.toList.all Text.isBlank = true := by decide
    rw [htexts]
    exact ⟨fun gap hgap => List.all_eq_true.mp (hblank gap hgap), rfl, by decide, fun _ _ _ => rfl⟩
  obtain ⟨c', hcompile', heq, -⟩ := compile_respaced hcompile hs
  rw [htexts] at hcompile'
  exact ⟨c, c', hcompile, hs, hcompile', heq⟩

end StepMachine
