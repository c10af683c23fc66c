import StepMachine.Proofs.Scheme.Progress

/-! # What abandoned readings report

An element that breaks off has reported so itself: a routine is abandoned exactly if it has added
one error of syntax, and that error comes last and is at the token where the routine stopped. So
a routine that another one calls need not be asked again what was missing. Names that are unknown
are all that is reported besides, whether the routine is done or abandoned.
-/
namespace StepMachine

/-- Reading has come from one state to the other and has added errors at the end: unknown names and
then, if reading stopped for one, an error of syntax at the current token. -/
structure ParseState.Adds (s : ParseState) (last : Option Diagnostic) (t : ParseState) : Prop where
  passes : ∃ ts, s.cursor.Passes ts t.cursor
  errors : ∃ unknown : List Diagnostic,
    t.draft.errors = s.draft.errors ++ unknown ++ last.toList ∧
      ∀ x ∈ unknown, x.code = .unknownVariable
  stops : ∀ x ∈ last, x.code.isSyntax = true ∧ x.position = t.cursor.current.position

namespace ParseState.Adds

variable {s t u : ParseState} {last : Option Diagnostic}

theorem of_passes {c : Cursor} {ts : List Token} (p : s.cursor.Passes ts c) :
    s.Adds none { s with cursor := c } where
  passes := ⟨ts, p⟩
  errors := ⟨[], by simp, by simp⟩
  stops := by simp

theorem of_errors_eq {d : Draft} (h : d.errors = s.draft.errors) :
    s.Adds none { s with draft := d } where
  passes := ⟨[], .refl _⟩
  errors := ⟨[], by simp [h], by simp⟩
  stops := by simp

theorem refl (s : ParseState) : s.Adds none s := of_passes (.refl s.cursor)

theorem unknown (name : String) (p : Position) :
    s.Adds none { s with draft := s.draft.error ⟨.unknownVariable name, p⟩ } where
  passes := ⟨[], .refl _⟩
  errors := ⟨[⟨.unknownVariable name, p⟩], by simp [Draft.error],
    by simp [Diagnostic.code, Cause.code]⟩
  stops := by simp

theorem failed {cause : Cause} (h : cause.code.isSyntax = true) :
    s.Adds (some ⟨cause, s.cursor.current.position⟩) (s.failed cause) where
  passes := ⟨[], .refl _⟩
  errors := ⟨[], by simp [ParseState.failed, Draft.error], by simp⟩
  stops := by
    intro x hx
    obtain rfl := Option.mem_some_iff.mp hx
    exact ⟨h, rfl⟩

theorem trans (h : s.Adds none t) (k : t.Adds last u) : s.Adds last u where
  passes := by
    obtain ⟨ts, p⟩ := h.passes
    obtain ⟨us, q⟩ := k.passes
    exact ⟨ts ++ us, p.trans q⟩
  errors := by
    obtain ⟨before, hbefore, hunknown⟩ := h.errors
    obtain ⟨after, hafter, hunknown'⟩ := k.errors
    refine ⟨before ++ after, by simp [hafter, hbefore], ?_⟩
    intro x hx
    exact (List.mem_append.mp hx).elim (hunknown x) (hunknown' x)
  stops := k.stops

theorem seesNumbers (h : s.Adds last t) (hs : s.cursor.SeesNumbers) : t.cursor.SeesNumbers := by
  obtain ⟨ts, p⟩ := h.passes
  exact hs.of_passes p

end ParseState.Adds

namespace Parse

variable {α β : Type} {m n : Parse α} {next : α → Parse β} {s : ParseState}

/-- From `s` the reading adds an error of syntax if it is abandoned, and none if it is done. -/
def ExplainsFrom (m : Parse α) (s : ParseState) : Prop :=
  m.Ends s (fun _ t => s.Adds none t) (fun t => ∃ x, s.Adds (some x) t)

/-- The reading explains why it is abandoned, wherever it starts. -/
def Explains (m : Parse α) : Prop := ∀ s, s.cursor.SeesNumbers → m.ExplainsFrom s

theorem ExplainsFrom.bind (hm : m.ExplainsFrom s) (hs : s.cursor.SeesNumbers)
    (hnext : ∀ a, (next a).Explains) : (m >>= next).ExplainsFrom s := by
  rw [ExplainsFrom, ends_bind]
  refine Ends.mono hm ?_ (fun _ h => h)
  intro a t ht
  refine Ends.mono (hnext a t (ht.seesNumbers hs)) (fun _ _ hu => ht.trans hu) ?_
  rintro u ⟨x, hu⟩
  exact ⟨x, ht.trans hu⟩

namespace Explains

theorem pure (a : α) : (pure a : Parse α).Explains := fun s _ => .refl s

theorem bind (hm : m.Explains) (hnext : ∀ a, (next a).Explains) : (m >>= next).Explains :=
  fun s hs => (hm s hs).bind hs hnext

theorem test {p : Cursor → Bool} (hm : m.Explains) (hn : n.Explains) :
    (cursor >>= fun c => if p c then m else n).Explains := by
  intro s hs
  rw [ExplainsFrom, ends_bind, ends_cursor]
  split
  · exact hm s hs
  · exact hn s hs

theorem position : Parse.position.Explains := fun s _ => .refl s

theorem bump : Parse.bump.Explains := by
  intro s _
  obtain ⟨ts, p, -⟩ := s.cursor.exists_passes_next
  exact ends_bump.mpr (.of_passes p)

theorem eat (kind : TokenKind) : (Parse.eat kind).Explains := by
  intro s _
  rw [ExplainsFrom, ends_eat]
  split
  · obtain ⟨ts, p, -⟩ := s.cursor.exists_passes_next
    exact .of_passes p
  · exact .refl s

theorem change {f : Draft → Draft} (hf : ∀ d, (f d).errors = d.errors) :
    (Parse.change f).Explains := fun s _ => .of_errors_eq (hf s.draft)

theorem giveUp {cause : Cause} (h : cause.code.isSyntax = true) :
    (giveUp cause : Parse α).Explains := fun _ _ => ⟨_, .failed h⟩

theorem expect (kind : TokenKind) (what : Expected) : (expect kind what).Explains :=
  .bind (.eat kind) fun found => by
    cases found with
    | true => exact .pure ()
    | false => exact .giveUp rfl

theorem require {holds : Cursor → Bool} {cause : Cause} (h : cause.code.isSyntax = true) :
    (require holds cause).Explains := .test (.pure ()) (.giveUp h)

end Explains

/-- What comes after the current token may depend on that token. -/
theorem explainsFrom_bump_bind {next : Token → Parse β} (hs : s.cursor.SeesNumbers)
    (h : (next s.cursor.current).Explains) : (bump >>= next).ExplainsFrom s := by
  have hbump : (bump >>= fun _ => next s.cursor.current).ExplainsFrom s :=
    (Explains.bump s hs).bind hs fun _ => h
  rw [ExplainsFrom, ends_bind, ends_bump] at hbump ⊢
  exact hbump

namespace Explains

/-- A number that is not damaged has a value, so nothing is missing where no error is reported. -/
theorem stepId : stepId.Explains := by
  refine .bind .bump fun _ => ?_
  intro s hs
  rw [ExplainsFrom, ends_bind, ends_require]
  split
  · next hn =>
    refine explainsFrom_bump_bind hs ?_
    obtain ⟨number, hvalue⟩ := hs.hasNumber _ (List.mem_cons_self ..) hn
    rw [hvalue]
    exact .bind (.expect _ _) fun _ => .pure number
  · exact ⟨_, .failed rfl⟩

theorem tokenName : tokenName.Explains :=
  .test (.bind .bump fun _ => .pure _) (.test (.bind .bump fun _ => .pure _) (.giveUp rfl))

theorem tokenTarget : tokenTarget.Explains :=
  .bind .position fun _ => .bind (.eat _) fun _ => .bind (.expect _ _) fun _ =>
    .bind .tokenName fun _ => .bind (.expect _ _) fun _ => .pure _

theorem stepTarget : stepTarget.Explains :=
  .bind .position fun _ => .bind .stepId fun _ => .bind (.change fun _ => rfl) fun _ => .pure _

theorem target : target.Explains := .test .stepTarget (.test .tokenTarget (.giveUp rfl))

theorem variableCondition (name : String) (p : Position) : (variableCondition name p).Explains := by
  intro s hs
  rw [Parse.variableCondition, ExplainsFrom, ends_bind, ends_draft]
  cases s.draft.variableNamed name with
  | none => exact .unknown name p
  | some v => exact .of_errors_eq rfl

end Explains

theorem condition_explainsFrom (hs : s.cursor.SeesNumbers)
    (hstart : s.cursor.current.kind ∈ conditionStarts) : condition.ExplainsFrom s := by
  refine explainsFrom_bump_bind hs ?_
  revert hstart
  cases s.cursor.current.kind with
  | name => exact fun _ => .variableCondition _ _
  | string | pattern | star => exact fun _ => .pure _
  | _ => exact fun hstart => absurd hstart (by decide)

theorem action_explainsFrom (hs : s.cursor.SeesNumbers)
    (hstart : s.cursor.current.kind ∈ conditionStarts) : action.ExplainsFrom s :=
  (condition_explainsFrom hs hstart).bind hs fun _ => .bind (.expect _ _) fun _ =>
    .bind .target fun _ => .pure _

namespace Explains

theorem actionList : actionList.Explains := by
  intro s hs
  refine (ends_many (I := fun _ t => s.Adds none t) rfl (.refl s) ?_).mono
    (fun _ _ h => h.1) (fun _ h => h)
  intro _ t ht hat
  have hsound := ht.seesNumbers hs
  have hitem := (Loop.actionList.item_ends hsound.endsInEnd hat).mono_broken
    (Y := fun _ => False) fun _ hb => nomatch hb.1
  refine (hitem.and (action_explainsFrom hsound (kind_mem_of_atCondition hat))).mono ?_ ?_
  · rintro _ u ⟨⟨ts, hts, p⟩, hu⟩
    exact ⟨ht.trans hu, p.ahead_lt hts⟩
  · rintro u ⟨-, x, hu⟩
    exact ⟨x, ht.trans hu⟩

theorem fallback (actions : List Action) : (fallback actions).Explains := by
  rw [Parse.fallback]
  cases actions.getLast? with
  | none => exact .target
  | some last => exact .test (.pure _) .target

theorem step : step.Explains :=
  .bind .position fun _ => .bind .stepId fun _ => .bind (.expect _ _) fun _ =>
    .bind .actionList fun _ => .bind (.fallback _) fun _ => .pure _

theorem variableBinding : variableBinding.Explains :=
  .bind .bump fun _ => .bind (.expect _ _) fun _ => .bind (.require rfl) fun _ =>
    .bind .bump fun _ => .pure _

end Explains

end Parse

namespace Routine

/-- The routine reads an element or a part of one. It is not for a list of declarations, which is
read as far as it goes. -/
def isElement : Routine → Bool
  | scheme | variableList | stepList => false
  | _ => true

variable {r : Routine} {s : ParseState}

theorem explainsFrom (hr : r.isElement = true) (hs : s.cursor.SeesNumbers)
    (hstart : r = action → s.cursor.current.kind ∈ conditionStarts) : r.run.ExplainsFrom s := by
  cases r with
  | scheme | variableList | stepList => cases hr
  | variableBinding => exact Parse.Explains.variableBinding s hs
  | step => exact Parse.Explains.step s hs
  | stepId => exact Parse.Explains.stepId s hs
  | actionList => exact Parse.Explains.actionList s hs
  | action => exact Parse.action_explainsFrom hs (hstart rfl)
  | target => exact Parse.Explains.target s hs
  | tokenTarget => exact Parse.Explains.tokenTarget s hs

/-- An element declares nothing and warns of nothing. -/
theorem keeps_of_isElement (hr : r.isElement = true) (s : ParseState) :
    (r.run s).2.draft.variableDecls = s.draft.variableDecls ∧
      (r.run s).2.draft.stepDecls = s.draft.stepDecls ∧
      (r.run s).2.draft.warnings = s.draft.warnings := by
  have hdiffers := r.isMadeOf.differsIn s
  have hnot : .variableDecls ∉ r.tables ∧ .stepDecls ∉ r.tables ∧ .warnings ∉ r.tables := by
    cases r with
    | scheme | variableList | stepList => cases hr
    | _ => decide
  exact ⟨hdiffers _ hnot.1, hdiffers _ hnot.2.1, hdiffers _ hnot.2.2⟩

end Routine

theorem Cursor.Passes.eq_atIndex {tokens ts : List Token} {i : Nat} {hi : i < tokens.length}
    {c : Cursor} (p : (Cursor.atIndex tokens i hi).Passes ts c) :
    ∃ h, c = .atIndex tokens c.index h := by
  have htokens : c.tokens = tokens.drop c.index := by
    have hsplit := p.tokens_eq
    rw [tokens_atIndex] at hsplit
    rw [p.index_eq, index_atIndex, ← List.drop_drop, hsplit, List.drop_left]
  have hlt : c.index < tokens.length := by
    have hlength := congrArg List.length htokens
    rw [List.length_drop, Cursor.tokens, List.length_cons] at hlength
    omega
  exact ⟨hlt, ext_tokens rfl (by rw [tokens_atIndex, htokens])⟩

theorem countP_isSyntax_of_unknown {unknown : List Diagnostic}
    (h : ∀ x ∈ unknown, x.code = .unknownVariable) :
    unknown.countP (·.code.isSyntax) = 0 := by
  rw [List.countP_eq_zero]
  intro x hx
  rw [h x hx]
  decide

/-- Wherever an element or a part of one is read and whatever the draft, the routine is abandoned
exactly if it has added one error of syntax. That is then its last error, at the token where it
stopped; besides, it adds nothing but unknown names, and it declares nothing and never goes back. -/
theorem abandoned_iff_reported {tokens : List Token} (hend : EndsInEnd tokens)
    (hnumber : ∀ t ∈ tokens, t.HasNumber) {r : Routine} (hr : r.isElement = true) {i : Nat}
    (hi : i < tokens.length) (hstart : r = .action → tokens[i].kind ∈ conditionStarts)
    (d : Draft) : ∃ (o : Outcome r.Result) (t : ParseState) (added : List Diagnostic),
      r.run ⟨.atIndex tokens i hi, d⟩ = (o, t) ∧ ((∃ a, o = .done a) ∨ o = .abandoned) ∧
      (∃ (j : Nat) (hj : j < tokens.length), i ≤ j ∧ t.cursor = .atIndex tokens j hj) ∧
      t.draft.errors = d.errors ++ added ∧
      (o = .abandoned ↔ added.countP (·.code.isSyntax) = 1) ∧
      (o = .abandoned → ∃ unknown x, added = unknown ++ [x] ∧ x.code.isSyntax = true ∧
        x.position = t.cursor.current.position ∧ ∀ y ∈ unknown, y.code = .unknownVariable) ∧
      ((∃ a, o = .done a) → ∀ x ∈ added, x.code = .unknownVariable) ∧
      t.draft.variableDecls = d.variableDecls ∧ t.draft.stepDecls = d.stepDecls ∧
      t.draft.warnings = d.warnings := by
  have hsound : (Cursor.atIndex tokens i hi).SeesNumbers := by
    refine ⟨?_, fun t ht => hnumber t ?_⟩
    · simpa using hend.drop hi
    · rw [Cursor.tokens_atIndex] at ht
      exact List.mem_of_mem_drop ht
  have hplace : ∀ {last : Option Diagnostic} {t : ParseState},
      ParseState.Adds ⟨.atIndex tokens i hi, d⟩ last t →
      ∃ (j : Nat) (hj : j < tokens.length), i ≤ j ∧ t.cursor = .atIndex tokens j hj := by
    intro last t h
    obtain ⟨ts, p⟩ := h.passes
    obtain ⟨hj, heq⟩ := p.eq_atIndex
    exact ⟨_, hj, p.index_eq ▸ Nat.le_add_right _ _, heq⟩
  have hkeeps := Routine.keeps_of_isElement hr ⟨.atIndex tokens i hi, d⟩
  obtain ⟨a, t, hrun, h⟩ | ⟨t, hrun, x, h⟩ :=
    (Routine.explainsFrom (s := ⟨.atIndex tokens i hi, d⟩) hr hsound hstart).exists_or
  · obtain ⟨unknown, herrors, hunknown⟩ := h.errors
    rw [Option.toList_none, List.append_nil] at herrors
    rw [hrun] at hkeeps
    refine ⟨.done a, t, unknown, hrun, .inl ⟨a, rfl⟩, hplace h, herrors, ?_, by simp,
      fun _ => hunknown, hkeeps⟩
    simp [countP_isSyntax_of_unknown hunknown]
  · obtain ⟨unknown, herrors, hunknown⟩ := h.errors
    obtain ⟨hcode, hposition⟩ := h.stops x rfl
    rw [Option.toList_some, List.append_assoc] at herrors
    rw [hrun] at hkeeps
    refine ⟨.abandoned, t, unknown ++ [x], hrun, .inr rfl, hplace h, herrors, ?_,
      fun _ => ⟨unknown, x, rfl, hcode, hposition, hunknown⟩, by simp, hkeeps⟩
    simp [List.countP_append, countP_isSyntax_of_unknown hunknown, hcode]

/-- `y?[a`, where the bracket is not closed. -/
def unclosedTokens : List Token := [
  .onFirstLine .name "y" 0, .onFirstLine .question "?" 1, .onFirstLine .openBracket "[" 2,
  .onFirstLine .name "a" 3, .onFirstLine .eof "" 4]

/-- The name is unknown as well, but only the bracket is an error of syntax. -/
theorem unclosed_abandoned : EndsInEnd unclosedTokens ∧ (∀ t ∈ unclosedTokens, t.HasNumber) ∧
    Routine.action.isElement = true ∧ unclosedTokens[0].kind ∈ conditionStarts ∧
    ∃ t : ParseState,
      Parse.action ⟨.atIndex unclosedTokens 0 (by decide), .empty⟩ = (.abandoned, t) ∧
      t.draft.errors = [⟨.unknownVariable "y", ⟨1, 1, 0⟩⟩, ⟨.expected .closeBracket, ⟨1, 5, 4⟩⟩] ∧
      t.draft.errors.countP (·.code.isSyntax) = 1 := by
  have hend : EndsInEnd unclosedTokens := by decide
  have hnumber : ∀ t ∈ unclosedTokens, t.HasNumber := by
    have hnone : ∀ t ∈ unclosedTokens, t.isValid .number = false := by decide
    intro t ht hvalid
    rw [hnone t ht] at hvalid
    cases hvalid
  have hrun : Parse.action ⟨.atIndex unclosedTokens 0 (by decide), .empty⟩ = (.abandoned,
      ⟨.atIndex unclosedTokens 4 (by decide), { Draft.empty with
        errors := [⟨.unknownVariable "y", ⟨1, 1, 0⟩⟩, ⟨.expected .closeBracket, ⟨1, 5, 4⟩⟩] }⟩) :=
    Prod.ext rfl (by decide +kernel)
  obtain ⟨o, t, added, haction, -, -, herrors, hone, -⟩ := abandoned_iff_reported hend hnumber
    (r := .action) rfl (i := 0) (by decide) (fun _ => by decide) .empty
  obtain ⟨rfl, rfl⟩ := Prod.mk.inj (hrun.symm.trans haction)
  refine ⟨hend, hnumber, rfl, by decide, _, hrun, rfl, ?_⟩
  rw [herrors]
  exact hone.mp rfl

end StepMachine
