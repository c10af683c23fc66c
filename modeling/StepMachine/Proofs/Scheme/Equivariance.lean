import StepMachine.Proofs.Scheme.Ending
import StepMachine.Proofs.Relabelling

/-! # Reading relabelled tokens

A routine that reads relabelled tokens into a relabelled draft goes as it went before, and what it
leaves is relabelled. The two part only where a number has to be shown that is too long: the old
one, or the new one, and then the report that would have shown it can be pointed at. The laws below
reduce this to the parts of a routine; a loop takes as many rounds as before, since relabelling
keeps how many tokens are ahead.
-/
namespace StepMachine

variable (ρ : Relabelling) {α β γ δ : Type}

/-- The report can be worded about the new names and numbers. -/
def Diagnostic.StaysWorded (x : Diagnostic) : Prop := (x.relabel ρ).cause.IsWorded

def Outcome.relabel (f : α → β) : Outcome α → Outcome β
  | done a => .done (f a)
  | abandoned => .abandoned
  | broken b => .broken (b.relabel ρ)

namespace Parse

/-- The reading from `s` comes to a number that it would have to show and cannot write. -/
def BreaksOff (m : Parse α) (s : ParseState) : Prop :=
  ∃ long t, m s = (.broken (.longNumber long), t)

/-- From the relabelled state the second reading ends as the first one does from `s`, relabelled,
and all that this one adds to the errors can be worded anew; or it comes to a long number, and one
of the errors of the first reading cannot be worded anew; or the first one comes to a long number.
What has been reported before stays. -/
def Follows (f : α → β) (m : Parse α) (m' : Parse β) (s : ParseState) : Prop :=
  s.draft.errors ⊆ (m s).2.draft.errors ∧
  (m.BreaksOff s ∨
    (m'.BreaksOff (s.relabel ρ) ∧ ∃ x ∈ (m s).2.draft.errors, ¬x.StaysWorded ρ) ∨
    (m' (s.relabel ρ) = ((m s).1.relabel ρ f, (m s).2.relabel ρ) ∧
      ∀ x ∈ (m s).2.draft.errors, x ∈ s.draft.errors ∨ x.StaysWorded ρ))

variable {ρ} {s : ParseState} {f : α → β} {g : γ → δ} {m n : Parse α} {m' n' : Parse β}

theorem BreaksOff.bind {next : α → Parse γ} (h : m.BreaksOff s) : (m >>= next).BreaksOff s := by
  obtain ⟨long, t, heq⟩ := h
  exact ⟨long, t, by rw [bind_apply, heq]⟩

theorem BreaksOff.asFarAsItGoes (h : m.BreaksOff s) : (asFarAsItGoes m).BreaksOff s := by
  obtain ⟨long, t, heq⟩ := h
  exact ⟨long, t, by rw [Parse.asFarAsItGoes, heq]⟩

/-! ### Parts of routines -/

/-- A reading that reports nothing is followed by one that ends as it does. -/
theorem follows_of_eq (h : m' (s.relabel ρ) = ((m s).1.relabel ρ f, (m s).2.relabel ρ))
    (herrors : (m s).2.draft.errors = s.draft.errors) : Follows ρ f m m' s := by
  refine ⟨herrors ▸ List.Subset.refl _, .inr (.inr ⟨h, ?_⟩)⟩
  intro x hx
  exact .inl (herrors ▸ hx)

theorem follows_pure (a : α) : Follows ρ f (pure a) (pure (f a)) s := follows_of_eq rfl rfl

theorem follows_abandon : Follows ρ f abandon abandon s := follows_of_eq rfl rfl

/-- Two readings that leave what others leave, and break off where those do, follow each other as
those do. -/
theorem Follows.of_same_end {n : Parse γ} {n' : Parse δ} (h : Follows ρ f m m' s)
    (hstate : (n s).2 = (m s).2) (hbreak : m.BreaksOff s → n.BreaksOff s)
    (hbreak' : m'.BreaksOff (s.relabel ρ) → n'.BreaksOff (s.relabel ρ))
    (hend : m' (s.relabel ρ) = ((m s).1.relabel ρ f, (m s).2.relabel ρ) →
      n' (s.relabel ρ) = ((n s).1.relabel ρ g, (m s).2.relabel ρ)) : Follows ρ g n n' s := by
  unfold Follows
  rw [hstate]
  exact h.imp_right
    (Or.imp hbreak (Or.imp (And.imp_left hbreak') (And.imp_left hend)))

theorem Follows.bind {next : α → Parse γ} {next' : β → Parse δ} (h : Follows ρ f m m' s)
    (hnext : ∀ a t, Follows ρ g (next a) (next' (f a)) t) :
    Follows ρ g (m >>= next) (m' >>= next') s := by
  rcases hm : m s with ⟨a | _ | b, t⟩
  · have hbind : (m >>= next) s = next a t := by rw [bind_apply, hm]
    obtain ⟨hkeep, hcases⟩ := h
    obtain ⟨hkeep', hcases'⟩ := hnext a t
    unfold Follows
    rw [hm] at hkeep hcases
    rw [hbind]
    refine ⟨List.Subset.trans hkeep hkeep', ?_⟩
    obtain hbreak | ⟨hbreak, x, hx, hlong⟩ | ⟨heq, hnew⟩ := hcases
    · exact .inl hbreak.bind
    · exact .inr (.inl ⟨hbreak.bind, x, hkeep' hx, hlong⟩)
    have hbind' : (m' >>= next') (s.relabel ρ) = next' (f a) (t.relabel ρ) := by
      rw [bind_apply, heq]
      rfl
    unfold BreaksOff at hcases' ⊢
    rw [hbind, hbind']
    refine hcases'.imp_right (Or.imp_right (And.imp_right ?_))
    intro hnew' x hx
    exact (hnew' x hx).elim (hnew x) .inr
  · have hbind : (m >>= next) s = (.abandoned, t) := by rw [bind_apply, hm]
    refine h.of_same_end (by rw [hbind, hm]) .bind .bind fun heq => ?_
    rw [bind_apply, heq, hbind, hm]
    rfl
  · have hbind : (m >>= next) s = (.broken b, t) := by rw [bind_apply, hm]
    refine h.of_same_end (by rw [hbind, hm]) .bind .bind fun heq => ?_
    rw [bind_apply, heq, hbind, hm]
    rfl

theorem follows_bind_cursor {next : Cursor → Parse γ} {next' : Cursor → Parse δ} :
    Follows ρ g (cursor >>= next) (cursor >>= next') s ↔
      Follows ρ g (next s.cursor) (next' (s.cursor.relabel ρ)) s := Iff.rfl

theorem follows_bind_draft {next : Draft → Parse γ} {next' : Draft → Parse δ} :
    Follows ρ g (draft >>= next) (draft >>= next') s ↔
      Follows ρ g (next s.draft) (next' (s.draft.relabel ρ)) s := Iff.rfl

theorem follows_bind_position {next : Position → Parse γ} {next' : Position → Parse δ} :
    Follows ρ g (position >>= next) (position >>= next') s ↔
      Follows ρ g (next s.cursor.current.position)
        (next' (ρ.place s.cursor.current.position)) s := Iff.rfl

theorem follows_bind_bump {next : Token → Parse γ} {next' : Token → Parse δ} :
    Follows ρ g (bump >>= next) (bump >>= next') s ↔
      Follows ρ g (next s.cursor.current) (next' (s.cursor.current.relabel ρ))
        { s with cursor := s.cursor.next } := by
  have hbump : bump (s.relabel ρ) = (.done (s.cursor.current.relabel ρ),
      ({ s with cursor := s.cursor.next } : ParseState).relabel ρ) := by
    have hcursor := s.cursor.bump_relabel ρ
    rw [Cursor.bump_fst] at hcursor
    simp only [bump, ParseState.relabel, hcursor]
    rfl
  have hbump' : bump s = (.done s.cursor.current, { s with cursor := s.cursor.next }) := by
    rw [← Cursor.bump_fst]
    rfl
  unfold Follows BreaksOff
  simp only [bind_apply, hbump, hbump']

theorem follows_eat (kind : TokenKind) : Follows ρ id (eat kind) (eat kind) s := by
  have hcursor := s.cursor.eat_relabel ρ kind
  refine follows_of_eq ?_ rfl
  simp only [eat, ParseState.relabel, hcursor]
  rfl

theorem follows_change {h h' : Draft → Draft}
    (heq : h' (s.draft.relabel ρ) = (h s.draft).relabel ρ)
    (herrors : (h s.draft).errors = s.draft.errors) :
    Follows ρ id (change h) (change h') s := by
  refine follows_of_eq ?_ herrors
  simp only [change, ParseState.relabel, heq]
  rfl

theorem follows_ask {h h' : Draft → α × Draft}
    (heq : h' (s.draft.relabel ρ) = ((h s.draft).1, (h s.draft).2.relabel ρ))
    (herrors : (h s.draft).2.errors = s.draft.errors) :
    Follows ρ id (ask h) (ask h') s := by
  refine follows_of_eq ?_ herrors
  simp only [ask, ParseState.relabel, heq]
  rfl

theorem report_relabel (cause : Cause) (p : Position) :
    report (cause.relabel ρ) (ρ.place p) (s.relabel ρ) =
      ((report cause p s).1.relabel ρ id, (report cause p s).2.relabel ρ) := by
  have herror := s.draft.error_relabel ρ ⟨cause, p⟩
  simp only [report, change, ParseState.relabel, ← herror]
  rfl

theorem subset_errors_report (cause : Cause) (p : Position) :
    s.draft.errors ⊆ (report cause p s).2.draft.errors :=
  List.subset_append_left _ _

theorem follows_report (cause : Cause) (hworded : (cause.relabel ρ).IsWorded) (p : Position) :
    Follows ρ id (report cause p) (report (cause.relabel ρ) (ρ.place p)) s := by
  refine ⟨subset_errors_report cause p, .inr (.inr ⟨report_relabel cause p, ?_⟩)⟩
  intro x hx
  rcases List.mem_append.mp hx with hx | hx
  · exact .inl hx
  · rw [List.mem_singleton.mp hx]
    exact .inr hworded

theorem follows_giveUp (cause : Cause) (hworded : (cause.relabel ρ).IsWorded) :
    Follows ρ f (giveUp cause) (giveUp (cause.relabel ρ)) s := by
  rw [giveUp, giveUp, follows_bind_position]
  exact (follows_report cause hworded _).bind fun _ _ => follows_abandon

/-- A report that has to be worded first is made unless its old wording or its new one fails. -/
theorem follows_insistOnWording (cause : Cause) (p : Position) :
    Follows ρ id (insistOnWording cause >>= fun _ => report cause p)
      (insistOnWording (cause.relabel ρ) >>= fun _ => report (cause.relabel ρ) (ρ.place p)) s := by
  cases hold : cause.message with
  | error long =>
    have hbreak : insistOnWording cause s = (.broken (.longNumber long), s) := by
      simp only [insistOnWording, hold]
      rfl
    have hbind : (insistOnWording cause >>= fun _ => report cause p) s =
        (.broken (.longNumber long), s) := by rw [bind_apply, hbreak]
    unfold Follows
    rw [hbind]
    exact ⟨List.Subset.refl _, .inl ⟨long, s, hbind⟩⟩
  | ok words =>
    have hgoes : (insistOnWording cause >>= fun _ => report cause p) = report cause p := by
      simp only [insistOnWording, hold]
      rfl
    rw [hgoes]
    by_cases hworded : (cause.relabel ρ).IsWorded
    · obtain ⟨words', hnew⟩ := hworded
      have hgoes' : (insistOnWording (cause.relabel ρ) >>= fun _ =>
          report (cause.relabel ρ) (ρ.place p)) = report (cause.relabel ρ) (ρ.place p) := by
        simp only [insistOnWording, hnew]
        rfl
      rw [hgoes']
      exact follows_report cause ⟨words', hnew⟩ p
    · obtain ⟨long, hnew⟩ : ∃ long, (cause.relabel ρ).message = .error long := by
        cases hnew : (cause.relabel ρ).message with
        | error long => exact ⟨long, rfl⟩
        | ok words' => exact absurd ⟨words', hnew⟩ hworded
      have hbreak : (insistOnWording (cause.relabel ρ)).BreaksOff (s.relabel ρ) :=
        ⟨long, s.relabel ρ, by simp only [insistOnWording, hnew]; rfl⟩
      refine ⟨subset_errors_report cause p, .inr (.inl ⟨hbreak.bind, ⟨cause, p⟩, ?_, hworded⟩)⟩
      exact List.mem_append_right _ (List.mem_singleton_self _)

theorem follows_ite {p : Prop} [Decidable p] (hm : p → Follows ρ f m m' s)
    (hn : ¬p → Follows ρ f n n' s) :
    Follows ρ f (if p then m else n) (if p then m' else n') s := by
  split
  · next h => exact hm h
  · next h => exact hn h

theorem follows_expect (kind : TokenKind) (what : Expected) :
    Follows ρ id (expect kind what) (expect kind what) s := by
  rw [expect]
  refine (follows_eat kind).bind ?_
  intro taken t
  exact follows_ite (fun _ => follows_pure ()) fun _ => follows_giveUp (.expected what) ⟨_, rfl⟩

theorem follows_require {holds : Cursor → Bool} (cause : Cause)
    (hworded : (cause.relabel ρ).IsWorded) (hholds : ∀ c, holds (c.relabel ρ) = holds c) :
    Follows ρ id (require holds cause) (require holds (cause.relabel ρ)) s := by
  rw [require, require, follows_bind_cursor, hholds]
  exact follows_ite (fun _ => follows_pure ()) fun _ => follows_giveUp cause hworded

theorem follows_ofOption (o : Option α) : Follows ρ f (ofOption o) (ofOption (o.map f)) s := by
  cases o with
  | none => exact follows_abandon
  | some a => exact follows_pure a

theorem Follows.asFarAsItGoes (h : Follows ρ f m m' s) :
    Follows ρ id (asFarAsItGoes m) (asFarAsItGoes m') s := by
  have hstate : (Parse.asFarAsItGoes m s).2 = (m s).2 := by
    rw [Parse.asFarAsItGoes]
    rcases m s with ⟨_ | _ | _, t⟩ <;> rfl
  refine h.of_same_end hstate .asFarAsItGoes .asFarAsItGoes fun heq => ?_
  rw [Parse.asFarAsItGoes, Parse.asFarAsItGoes, heq]
  rcases m s with ⟨_ | _ | _, t⟩ <;> rfl

/-! ### Loops -/

section

variable {starts : Cursor → Bool} {item : Parse α} {p : Progress}

theorem Progress.passes_relabel (c : Cursor) : p.passes (c.relabel ρ) = p.passes c := by
  rw [Progress.passes, Progress.passes, Cursor.length_ahead_relabel]

theorem follows_many {item' : Parse β} (hstarts : ∀ c, starts (c.relabel ρ) = starts c)
    (hitem : ∀ s, starts s.cursor = true → Follows ρ f item item' s) :
    Follows ρ (List.map f) (many starts item p) (many starts item' p) s := by
  have hcursor : ∀ s : ParseState, starts (s.relabel ρ).cursor = starts s.cursor :=
    fun s => hstarts s.cursor
  have hpasses : ∀ (p : Progress) (s : ParseState),
      p.passes (s.relabel ρ).cursor = p.passes s.cursor :=
    fun p s => Progress.passes_relabel s.cursor
  induction p, s using many_induction starts with
  | stop p s hs =>
    have hstop : many starts item p s = (.done [], s) := many_of_stop hs
    refine follows_of_eq ?_ (by rw [hstop])
    rw [many_of_stop ((hcursor s).trans hs), hstop]
    rfl
  | stall p s hs hp =>
    have hstall : many starts item p s = (.broken (.ofStall s.cursor), s) := many_of_stall hs hp
    refine follows_of_eq ?_ (by rw [hstall])
    rw [many_of_stall ((hcursor s).trans hs) ((hpasses p s).trans hp), hstall]
    rfl
  | round p s hs hp ih =>
    have hmark : Progress.mark (s.relabel ρ).cursor = .mark s.cursor := by
      rw [Progress.mark, ParseState.relabel, Cursor.length_ahead_relabel, Progress.mark]
    unfold Follows BreaksOff
    rw [many_eq_bind hs hp, many_eq_bind ((hcursor s).trans hs) ((hpasses p s).trans hp), hmark]
    refine (hitem s hs).bind fun a t => ?_
    exact (ih t).bind fun as u => follows_pure (f := List.map f) (a :: as)

end

/-! ### The grammar -/

theorem stepId_follows : Follows ρ (·.relabel ρ) stepId stepId s := by
  rw [stepId, follows_bind_bump]
  refine (follows_require (.expected .stepNumber) ⟨_, rfl⟩ fun _ => rfl).bind fun _ t => ?_
  rw [follows_bind_bump]
  refine (follows_expect .closeParen .closeParen).bind fun _ u => ?_
  rw [Token.value_relabel]
  exact follows_ofOption _

theorem tokenName_follows :
    Follows ρ (Option.map (·.relabel ρ)) tokenName tokenName s := by
  rw [tokenName, follows_bind_cursor]
  refine follows_ite (fun _ => ?_) fun _ => ?_
  · rw [follows_bind_bump, Token.value_relabel]
    exact follows_pure _
  · rw [follows_bind_cursor]
    refine follows_ite (fun hname => ?_) fun _ => follows_giveUp (.expected .tokenName) ⟨_, rfl⟩
    have hkind : s.cursor.current.kind = .name := by simpa [Cursor.isAt] using hname
    rw [follows_bind_bump, Token.text_relabel ρ _ hkind]
    exact follows_pure (some (Literal.text s.cursor.current.text))

theorem tokenTarget_follows : Follows ρ (·.relabel ρ) tokenTarget tokenTarget s := by
  rw [tokenTarget, follows_bind_position]
  refine (follows_eat .bang).bind fun isError t => ?_
  refine (follows_expect .openBracket .openBracket).bind fun _ u => ?_
  refine tokenName_follows.bind fun name v => ?_
  refine (follows_expect .closeBracket .closeBracket).bind fun _ w => ?_
  exact follows_pure (Target.token name isError _)

theorem stepTarget_follows : Follows ρ (·.relabel ρ) stepTarget stepTarget s := by
  rw [stepTarget, follows_bind_position]
  refine stepId_follows.bind fun id t => ?_
  refine (follows_change (t.draft.useStep_relabel ρ id _) rfl).bind fun _ u => ?_
  exact follows_pure (Target.step id _)

theorem target_follows : Follows ρ (·.relabel ρ) target target s := by
  rw [target, follows_bind_cursor]
  refine follows_ite (fun _ => stepTarget_follows) fun _ => ?_
  rw [follows_bind_cursor]
  exact follows_ite (fun _ => tokenTarget_follows)
    fun _ => follows_giveUp (.general .expectedTarget) ⟨_, rfl⟩

theorem variableCondition_follows (name : String) (p : Position) :
    Follows ρ (·.relabel ρ) (variableCondition name p)
      (variableCondition (ρ.name name) (ρ.place p)) s := by
  rw [variableCondition, variableCondition, follows_bind_draft, Draft.variableNamed_relabel]
  cases s.draft.variableNamed name with
  | none =>
    refine (follows_report (.unknownVariable name) ⟨_, rfl⟩ p).bind fun _ t => ?_
    exact follows_pure (Condition.named name none p)
  | some v =>
    refine (follows_change (s.draft.useVariable_relabel ρ name p) rfl).bind fun _ t => ?_
    exact follows_pure (Condition.named name (some v) p)

theorem condition_follows : Follows ρ (·.relabel ρ) condition condition s := by
  rw [condition, follows_bind_bump, Token.kind_relabel, Token.value_relabel,
    Token.position_relabel]
  cases hkind : s.cursor.current.kind with
  | name =>
    rw [Token.text_relabel ρ _ hkind]
    exact variableCondition_follows _ _
  | string => exact follows_pure (Condition.text _ _)
  | pattern => exact follows_pure (Condition.pattern _ _)
  | star => exact follows_pure (Condition.wildcard _)
  | _ => exact follows_of_eq rfl rfl

theorem action_follows : Follows ρ (·.relabel ρ) action action s := by
  rw [action]
  refine condition_follows.bind fun condition t => ?_
  refine (follows_expect .question .question).bind fun _ u => ?_
  exact target_follows.bind fun target v => follows_pure (Action.mk condition target)

theorem actionList_follows : Follows ρ (List.map (·.relabel ρ)) actionList actionList s :=
  follows_many (fun _ => rfl) fun _ _ => action_follows

theorem isWildcard_relabel (c : Condition) : (c.relabel ρ).isWildcard = c.isWildcard := by
  cases c <;> rfl

theorem atFallback_relabel (c : Cursor) : atFallback (c.relabel ρ) = atFallback c := by
  simp only [atFallback, atStepHeader, Cursor.atAny_relabel, Cursor.isAt_relabel,
    Cursor.nth_relabel]

theorem fallback_follows (actions : List Action) :
    Follows ρ (·.relabel ρ) (fallback actions) (fallback (actions.map (·.relabel ρ))) s := by
  rw [fallback, fallback, List.getLast?_map]
  cases actions.getLast? with
  | none => exact target_follows
  | some last =>
    have hlast : (last.relabel ρ).condition.isWildcard = last.condition.isWildcard :=
      isWildcard_relabel last.condition
    dsimp only [Option.map_some]
    rw [follows_bind_cursor, hlast, atFallback_relabel]
    exact follows_ite (fun _ => follows_pure last.target) fun _ => target_follows

theorem step_follows : Follows ρ (·.relabel ρ) step step s := by
  rw [step, follows_bind_position]
  refine stepId_follows.bind fun id t => ?_
  refine (follows_expect .colon .colon).bind fun _ u => ?_
  refine actionList_follows.bind fun actions v => ?_
  refine (fallback_follows actions).bind fun fallback w => ?_
  exact follows_pure (Step.mk id actions fallback _)

theorem stepDeclaration_follows : Follows ρ id stepDeclaration stepDeclaration s := by
  rw [stepDeclaration]
  refine step_follows.bind fun s t => ?_
  refine (follows_ask (t.draft.declareStep_relabel ρ s) rfl).bind fun declared u => ?_
  exact follows_ite (fun _ => follows_pure ())
    fun _ => follows_insistOnWording (.takenStep s.id) s.position

theorem stepList_follows : Follows ρ id stepList stepList s :=
  (follows_many (fun _ => rfl) fun _ _ => stepDeclaration_follows).asFarAsItGoes

/-- A variable is only read where a name stands, and its text is relabelled there. -/
theorem variableBinding_follows (hname : s.cursor.isAt .name = true) :
    Follows ρ (·.relabel ρ) variableBinding variableBinding s := by
  have hkind : s.cursor.current.kind = .name := by simpa [Cursor.isAt] using hname
  rw [variableBinding, follows_bind_bump, Token.text_relabel ρ _ hkind, Token.position_relabel]
  refine (follows_expect .colon .colon).bind fun _ t => ?_
  have hcause : ((Cause.expectedValue s.cursor.current.text).relabel ρ).IsWorded := ⟨_, rfl⟩
  refine (follows_require _ hcause fun _ => rfl).bind fun _ u => ?_
  rw [follows_bind_bump, Token.value_relabel]
  exact follows_pure (Variable.mk _ _ _)

theorem variableDeclaration_follows (hname : s.cursor.isAt .name = true) :
    Follows ρ id variableDeclaration variableDeclaration s := by
  rw [variableDeclaration]
  refine (variableBinding_follows hname).bind fun v t => ?_
  refine (follows_ask (t.draft.declareVariable_relabel ρ v) rfl).bind fun declared u => ?_
  exact follows_ite (fun _ => follows_pure ())
    fun _ => follows_report (.takenVariable v.name) ⟨_, rfl⟩ v.position

theorem variableList_follows : Follows ρ id variableList variableList s :=
  (follows_many (fun _ => rfl) fun _ hname => variableDeclaration_follows hname).asFarAsItGoes

theorem scheme_follows : Follows ρ id scheme scheme s := by
  rw [scheme]
  refine variableList_follows.bind fun _ t => ?_
  refine stepList_follows.bind fun _ u => ?_
  rw [follows_bind_cursor]
  refine follows_ite (fun _ => follows_pure ()) fun _ => ?_
  rw [follows_bind_position]
  exact follows_report (.general .expectedEnd) ⟨_, rfl⟩ _

end Parse

/-! ### Drafts -/

/-- If the tokens have a draft, that of the relabelled tokens is relabelled, as long as all errors
can be worded anew. Otherwise there is none, because of a number that is too long. -/
theorem Draft.ofTokens_relabel {ts : List Token} {d : Draft} (h : Draft.ofTokens ts = .ok d) :
    (Draft.ofTokens (ts.map (·.relabel ρ)) = .ok (d.relabel ρ) ∧
      ∀ x ∈ d.errors, x.StaysWorded ρ) ∨
    ((∃ long, Draft.ofTokens (ts.map (·.relabel ρ)) = .error (.breach (.longNumber long))) ∧
      ∃ x ∈ d.errors, ¬x.StaysWorded ρ) := by
  unfold Draft.ofTokens ParseState.ofTokens at h ⊢
  rw [Cursor.ofTokens?_relabel]
  cases hstart : Cursor.ofTokens? ts with
  | none =>
    rw [hstart] at h
    cases h
  | some c =>
    rw [hstart] at h
    have hfollows : Parse.Follows ρ id Parse.scheme Parse.scheme ⟨c, .empty⟩ :=
      Parse.scheme_follows
    have hempty : ParseState.relabel ρ ⟨c, .empty⟩ = ⟨c.relabel ρ, .empty⟩ := rfl
    obtain ⟨-, hcases⟩ := hfollows
    rw [hempty] at hcases
    dsimp only [Option.map_some] at h ⊢
    cases hscheme : Parse.scheme ⟨c, .empty⟩ with
    | mk outcome t =>
      rw [hscheme] at h hcases
      have hd : t.draft = d := by
        cases outcome with
        | done _ | abandoned => exact Except.ok.inj h
        | broken b => cases h
      obtain ⟨long, u, heq⟩ | ⟨⟨long, u, heq⟩, x, hx, hlong⟩ | ⟨heq, hnew⟩ := hcases
      · rw [hscheme] at heq
        cases heq
        cases h
      · exact .inr ⟨⟨long, by simp only [heq]⟩, x, hd ▸ hx, hlong⟩
      · rw [← hd, heq]
        refine .inl ⟨?_, fun x hx => (hnew x hx).resolve_left (by simp [Draft.empty])⟩
        cases outcome with
        | done _ | abandoned => rfl
        | broken b => cases h

/-- What has been reported about tokens that have a draft can be worded. -/
theorem Draft.isWorded_of_ofTokens {ts : List Token} {d : Draft} (h : Draft.ofTokens ts = .ok d) :
    ∀ x ∈ d.errors, x.cause.IsWorded := by
  have hsame : ts.map (·.relabel (.moving id)) = ts :=
    (List.map_congr_left fun t _ => t.relabel_moving id).trans ts.map_id
  have hrelabel := Draft.ofTokens_relabel (.moving id) h
  rw [hsame, h] at hrelabel
  obtain ⟨-, hworded⟩ | ⟨⟨long, hfailed⟩, -⟩ := hrelabel
  · intro x hx
    have hx := hworded x hx
    rwa [Diagnostic.StaysWorded, x.relabel_moving] at hx
  · cases hfailed

/-- New places change nothing in the words, so the draft is found again. -/
theorem Draft.ofTokens_moving {ts : List Token} {d : Draft} (f : Position → Position)
    (h : Draft.ofTokens ts = .ok d) :
    Draft.ofTokens (ts.map (·.relabel (.moving f))) = .ok (d.relabel (.moving f)) := by
  obtain ⟨heq, -⟩ | ⟨-, x, hx, hlong⟩ := Draft.ofTokens_relabel (.moving f) h
  · exact heq
  · rw [Diagnostic.StaysWorded, x.relabel_moving] at hlong
    exact absurd (Draft.isWorded_of_ofTokens h x hx) hlong

end StepMachine
