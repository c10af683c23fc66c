import StepMachine.Proofs.Scheme.Equivariance
import StepMachine.Proofs.Scheme.Partial

/-! # Schemes under new places, names and numbers

Tokens of an arbitrary list are relabelled before they are read and checked. As long as all reports
can be worded about the new numbers, nothing comes of it but the relabelled draft: no table is put
in another order, no record is merged with another one or parted from it, and every report is made
again, about the new names at the new places. A report that cannot be worded anew leaves no draft.
-/
namespace StepMachine

variable (ρ : Relabelling)

@[simp] theorem Cause.code_relabel (c : Cause) : (c.relabel ρ).code = c.code := by
  cases c <;> rfl

/-- What a report is filed under: its code and its place. -/
def Diagnostic.entry (x : Diagnostic) : Code × Position := (x.code, x.position)

/-- Codes do not depend on names and numbers. -/
theorem Diagnostic.entry_relabel (x : Diagnostic) :
    (x.relabel ρ).entry = (x.code, ρ.place x.position) :=
  congrArg (·, ρ.place x.position) (x.cause.code_relabel ρ)

theorem Diagnostic.map_entry_relabel (xs : List Diagnostic) :
    (xs.map (·.relabel ρ)).map entry = xs.map fun x => (x.code, ρ.place x.position) := by
  rw [List.map_map]
  exact List.map_congr_left fun x _ => x.entry_relabel ρ

variable {tokens : List Token} {o : CheckOptions} {d : Draft}

/-! ### Reading and checking -/

/-- The failure is that of a long number among the tokens, which a report would have to show. -/
def CompileFailure.IsLongNumberOf (tokens : List Token) : CompileFailure → Prop
  | parse (.breach b) => b.IsLongNumberOf tokens
  | check long => HasLongNumber tokens long
  | parse .noEnd | optionsAndProfile | scan _ => False

namespace Draft

theorem checked_eq_ok_iff : checked tokens o = .ok d ↔ ∃ read, ofTokens tokens = .ok read ∧
    (∀ x ∈ read.findings o, x.cause.IsWorded) ∧ d = read.warned (read.findings o) := by
  cases hread : ofTokens tokens with
  | error failure => simp [checked, hread]
  | ok read =>
    have hgoes := (read.checkReferences_spec o).2
    cases hcheck : read.checkReferences o with
    | mk outcome after =>
      rw [hcheck] at hgoes
      cases outcome with
      | error long =>
        have hunworded : ¬∀ x ∈ read.findings o, x.cause.IsWorded := fun h => by
          cases hgoes.mpr h
        simp [checked, hread, hcheck, hunworded]
      | ok _ =>
        have hafter : after = read.warned (read.findings o) :=
          congrArg Prod.snd (hcheck.symm.trans (checkReferences_eq_of_ok (by rw [hcheck])))
        have hworded := hgoes.mp rfl
        simp only [checked, hread, hcheck, Except.ok.injEq, exists_eq_left', hafter]
        exact ⟨fun h => ⟨hworded, h.symm⟩, fun h => h.2.symm⟩

/-- Reading and checking fail only on a long number among the tokens. -/
theorem isLongNumberOf_of_checked (hend : EndsInEnd tokens) {failure : CompileFailure}
    (h : checked tokens o = .error failure) : failure.IsLongNumberOf tokens := by
  obtain ⟨c, hstart, rfl, -⟩ := exists_start hend
  obtain ⟨t, b, hread, hb⟩ | ⟨r, t, hread, hpasses, hdraft⟩ := Parse.scheme_parts hend
  · simp only [checked, ofTokens_eq_of_broken hstart hread] at h
    cases h
    exact hb
  simp only [checked, ofTokens_eq_of_scheme hstart hread] at h
  rcases hcheck : t.draft.checkReferences o with ⟨long | _, after⟩
  · simp only [hcheck] at h
    cases h
    refine (hdraft.hasLongNumber_of_check (o := o) (by rw [hcheck])).mono ?_
    rw [hpasses.tokens_eq]
    exact List.subset_append_left _ _
  · simp only [hcheck] at h
    cases h

/-- Relabelled tokens leave the relabelled draft if all reports can be worded anew, and none if one
of them cannot. -/
theorem checked_map_relabel (h : checked tokens o = .ok d) :
    (checked (tokens.map (·.relabel ρ)) o = .ok (d.relabel ρ) ∧
      ∀ x ∈ d.errors ++ d.warnings, x.StaysWorded ρ) ∨
    ((∃ failure, checked (tokens.map (·.relabel ρ)) o = .error failure) ∧
      ∃ x ∈ d.errors ++ d.warnings, ¬x.StaysWorded ρ) := by
  obtain ⟨read, hread, -, rfl⟩ := checked_eq_ok_iff.mp h
  obtain ⟨r, -, hparts⟩ := exists_parts_of_ofTokens hread
  have hwarnings : (read.warned (read.findings o)).warnings = read.findings o := by
    rw [warned, hparts.warnings_eq, List.nil_append]
  have herrors : (read.warned (read.findings o)).errors = read.errors := rfl
  rw [hwarnings, herrors]
  obtain ⟨hread', hnew⟩ | ⟨⟨long, hread'⟩, x, hx, hlong⟩ := ofTokens_relabel ρ hread
  · have hfindings := findings_relabel ρ read o
    by_cases hworded : ∀ x ∈ read.findings o, x.StaysWorded ρ
    · refine .inl ⟨checked_eq_ok_iff.mpr ⟨_, hread', ?_, ?_⟩, ?_⟩
      · rw [hfindings]
        exact List.forall_mem_map.mpr hworded
      · rw [hfindings, warned_relabel]
      · exact List.forall_mem_append.mpr ⟨hnew, hworded⟩
    · refine .inr ⟨?_, ?_⟩
      · cases hchecked : checked (tokens.map (·.relabel ρ)) o with
        | error failure => exact ⟨failure, rfl⟩
        | ok d' =>
          obtain ⟨read', heq, hall, -⟩ := checked_eq_ok_iff.mp hchecked
          obtain rfl : read.relabel ρ = read' := Except.ok.inj (hread'.symm.trans heq)
          rw [hfindings] at hall
          exact absurd (List.forall_mem_map.mp hall) hworded
      · push Not at hworded
        obtain ⟨x, hx, hlong⟩ := hworded
        exact ⟨x, List.mem_append_right _ hx, hlong⟩
  · refine .inr ⟨⟨.parse (.breach (.longNumber long)), ?_⟩, x, List.mem_append_left _ hx, hlong⟩
    simp only [checked, hread']

end Draft

/-- Tokens are read and checked unless a report would have to show a number among them that is too
long. If they are, then relabelled tokens are if and only if each report on the first ones can be
worded about the new numbers; and this gives the relabelled draft, with reports of the same codes in
the same order at the new places. -/
theorem checked_relabel (hend : EndsInEnd tokens) (o : CheckOptions) :
    (∀ failure, Draft.checked tokens o = .error failure → failure.IsLongNumberOf tokens) ∧
    ∀ d, Draft.checked tokens o = .ok d →
      ((∃ d', Draft.checked (tokens.map (·.relabel ρ)) o = .ok d') ↔
        ∀ x ∈ d.errors ++ d.warnings, x.StaysWorded ρ) ∧
      ∀ d', Draft.checked (tokens.map (·.relabel ρ)) o = .ok d' → d' = d.relabel ρ ∧
        d'.errors.map Diagnostic.entry =
          d.errors.map (fun x => (x.code, ρ.place x.position)) ∧
        d'.warnings.map Diagnostic.entry =
          d.warnings.map (fun x => (x.code, ρ.place x.position)) := by
  refine ⟨fun failure => Draft.isLongNumberOf_of_checked hend, fun d hd => ?_⟩
  obtain ⟨hchecked, hworded⟩ | ⟨⟨failure, hfailed⟩, x, hx, hlong⟩ :=
    Draft.checked_map_relabel ρ hd
  · refine ⟨iff_of_true ⟨_, hchecked⟩ hworded, fun d' hd' => ?_⟩
    obtain rfl : d.relabel ρ = d' := Except.ok.inj (hchecked.symm.trans hd')
    exact ⟨rfl, Diagnostic.map_entry_relabel ρ _, Diagnostic.map_entry_relabel ρ _⟩
  · have hnone : ∀ d', Draft.checked (tokens.map (·.relabel ρ)) o ≠ .ok d' := by
      intro d' hd'
      cases hfailed.symm.trans hd'
    exact ⟨iff_of_false (fun ⟨d', hd'⟩ => hnone d' hd') fun hall => hlong (hall x hx),
      fun d' hd' => absurd hd' (hnone d')⟩

/-- `x:"x" y:/x/ (1): x?[x] z?(2) (1)`, where `y` is not used and neither `z` nor step 2 is
declared. -/
def looseTokens : List Token := [
  .onFirstLine .name "x" 0, .onFirstLine .colon ":" 1,
  ⟨.string, "\"x\"", ⟨1, 3, 2⟩, some (.text "x"), false⟩,
  .onFirstLine .name "y" 6, .onFirstLine .colon ":" 7, .onFirstLine .pattern "/x/" 8,
  .onFirstLine .openParen "(" 12, .numberOnFirstLine "1" 13 1, .onFirstLine .closeParen ")" 14,
  .onFirstLine .colon ":" 15, .onFirstLine .name "x" 17, .onFirstLine .question "?" 18,
  .onFirstLine .openBracket "[" 19, .onFirstLine .name "x" 20, .onFirstLine .closeBracket "]" 21,
  .onFirstLine .name "z" 23, .onFirstLine .question "?" 24, .onFirstLine .openParen "(" 25,
  .numberOnFirstLine "2" 26 2, .onFirstLine .closeParen ")" 27, .onFirstLine .openParen "(" 29,
  .numberOnFirstLine "1" 30 1, .onFirstLine .closeParen ")" 31, .onFirstLine .eof "" 32]

/-- Names get a letter more, numbers change their sign, and all places fall together. -/
def flatMirrored : Relabelling where
  place _ := .start
  name s := "u" ++ s
  number n := -n
  name_injective _ _ h := (String.append_right_inj "u").mp h
  number_injective _ _ h := Int.neg_inj.mp h

theorem loose_relabelled : EndsInEnd looseTokens ∧ ∃ d : Draft,
    Draft.checked looseTokens .default = .ok d ∧
    Draft.checked (looseTokens.map (·.relabel flatMirrored)) .default =
      .ok (d.relabel flatMirrored) ∧
    (d.relabel flatMirrored).warnings.map Diagnostic.entry =
      d.warnings.map (fun x => (x.code, .start)) := by
  have hend : EndsInEnd looseTokens := by decide
  have hseen : (Draft.checked looseTokens .default).toOption.map (·.errors.length) = some 1 := by
    decide +kernel
  have hseen' : (Draft.checked (looseTokens.map (·.relabel flatMirrored)) .default).toOption.map
      (·.errors.length) = some 1 := by decide +kernel
  obtain ⟨d, hd, -⟩ := exists_of_toOption_map hseen
  obtain ⟨d', hd', -⟩ := exists_of_toOption_map hseen'
  obtain ⟨-, hchecked⟩ := checked_relabel flatMirrored hend .default
  obtain ⟨rfl, -, hwarnings⟩ := (hchecked d hd).2 d' hd'
  exact ⟨hend, d, hd, hd', hwarnings⟩

example : (Draft.checked (looseTokens.map (·.relabel flatMirrored)) .default).toOption.map (fun d =>
      (d.stepRefs.map (·.id), d.errors.map (·.message), d.warnings.map (·.message))) =
    some ([.number (-2), .number (-1)], [.ok "Variable 'uz' is not defined"],
      [.ok "Variable 'uy' is declared but never used",
        .ok "Step -2 is referenced but never declared"]) := by decide +kernel

/-- `(1):[a](1):[a]`, where step 1 is declared twice. -/
def twiceTokens : List Token := [
  .onFirstLine .openParen "(" 0, .numberOnFirstLine "1" 1 1, .onFirstLine .closeParen ")" 2,
  .onFirstLine .colon ":" 3, .onFirstLine .openBracket "[" 4, .onFirstLine .name "a" 5,
  .onFirstLine .closeBracket "]" 6, .onFirstLine .openParen "(" 7, .numberOnFirstLine "1" 8 1,
  .onFirstLine .closeParen ")" 9, .onFirstLine .colon ":" 10, .onFirstLine .openBracket "[" 11,
  .onFirstLine .name "a" 12, .onFirstLine .closeBracket "]" 13, .onFirstLine .eof "" 14]

/-- Numbers get more digits than can be written. -/
def farRenumbered : Relabelling where
  place p := p
  name s := s
  number n := n + 10 ^ 5000
  name_injective _ _ h := h
  number_injective _ _ h := add_right_cancel h

/-- The report on the second declaration can only be worded about the old number. -/
theorem twice_renumbered_fails : EndsInEnd twiceTokens ∧ ∃ d : Draft,
    Draft.checked twiceTokens .default = .ok d ∧
    Draft.checked (twiceTokens.map (·.relabel farRenumbered)) .default ≠
      .ok (d.relabel farRenumbered) := by
  have hend : EndsInEnd twiceTokens := by decide
  have hseen : (Draft.checked twiceTokens .default).toOption.map (·.errors) =
      some [⟨.takenStep (.number 1), ⟨1, 8, 7⟩⟩] := by decide +kernel
  obtain ⟨d, hd, herrors⟩ := exists_of_toOption_map hseen
  have hlong : ¬Text.IsWritable (1 + 10 ^ 5000) := by decide +kernel
  refine ⟨hend, d, hd, ?_⟩
  obtain ⟨-, hworded⟩ | ⟨⟨failure, hfailed⟩, -⟩ := Draft.checked_map_relabel farRenumbered hd
  · have htwice := hworded ⟨.takenStep (.number 1), ⟨1, 8, 7⟩⟩ (by simp [herrors])
    exact absurd (Cause.isWorded_iff.mp htwice _ rfl) hlong
  · rw [hfailed]
    simp

end StepMachine
