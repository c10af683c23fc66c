import StepMachine.Proofs.Scheme.Ending
import StepMachine.Proofs.Scheme.Meaning

/-! # Reading what a derivation spells

Where a phrase lies ahead, the routine for it passes exactly the tokens of the phrase, is done
with what the phrase stands for, and acts on the draft as the phrase does. A list of phrases is
read to its end if no further one can begin there. A step without a fallback is recognized by
what follows: the next step or the end.
-/
namespace StepMachine.Parse

variable {c e f : Cursor} {d : Draft}

/-- What a number in parentheses among sound tokens was decoded to can be written. -/
theorem isWritable_value {g : StepIdPhrase} (hc : c.IsSound) (h : c.Passes g.tokens e) :
    ∃ n, g.number.token.value = some (.number n) ∧ g.value.IsWritable := by
  have hmem : g.number.token ∈ c.tokens := by simp [h.tokens_eq, StepIdPhrase.tokens]
  have hvalid := g.number.isValid rfl
  obtain ⟨n, hn⟩ := hc.hasNumber _ hmem hvalid
  refine ⟨n, hn, ?_⟩
  rw [StepIdPhrase.value, hn]
  by_contra hlong
  exact hc.noLongNumber ⟨n⟩ ⟨hlong, _, hmem, hvalid, hn⟩

theorem stepId_reads {g : StepIdPhrase} (hc : c.IsSound) (h : c.Passes g.tokens e) :
    stepId ⟨c, d⟩ = (.done g.value, ⟨e, d⟩) := by
  obtain ⟨n, hn, -⟩ := isWritable_value hc h
  have hv := g.number.isValid rfl
  obtain ⟨h1, h⟩ := h.cons (by simp)
  obtain ⟨h2, h⟩ := h.cons (by simp)
  obtain ⟨h3, h⟩ := h.cons (by simp)
  rw [eq_done_iff]
  simp [stepId, Cursor.atValid, Cursor.isAt, h2, h3, hv, hn, h.eq_of_nil, StepIdPhrase.value]

theorem tokenName_reads {g : TokenNamePhrase} (h : c.Passes [g.token] e) :
    tokenName ⟨c, d⟩ = (.done g.value, ⟨e, d⟩) := by
  cases g with
  | text t =>
    have hv := t.isValid rfl
    obtain ⟨h1, h⟩ := h.cons (by simp [TokenNamePhrase.token])
    rw [eq_done_iff]
    simp [tokenName, Cursor.atValid, h1, TokenNamePhrase.token, hv, h.eq_of_nil,
      TokenNamePhrase.value]
  | name t =>
    obtain ⟨h1, h⟩ := h.cons (by simp [TokenNamePhrase.token])
    rw [eq_done_iff]
    simp [tokenName, Cursor.atValid, Cursor.isAt, Token.isValid, h1, TokenNamePhrase.token,
      h.eq_of_nil, TokenNamePhrase.value]

theorem bracketed_reads {opening : Terminal .openBracket} {name : TokenNamePhrase}
    {closing : Terminal .closeBracket}
    (h : c.Passes [opening.token, name.token, closing.token] e) :
    c.isAt .openBracket = true ∧ ∃ m, tokenName ⟨c.next, d⟩ = (.done name.value, ⟨m, d⟩) ∧
      m.isAt .closeBracket = true ∧ m.next = e := by
  obtain ⟨h1, h⟩ := h.cons (by simp)
  obtain ⟨m, hm, h⟩ := h.split_cons
  obtain ⟨h3, h⟩ := h.cons (by simp)
  exact ⟨by simp [Cursor.isAt, h1], m, tokenName_reads hm, by simp [Cursor.isAt, h3],
    h.eq_of_nil.symm⟩

theorem tokenTarget_reads {bang : Option (Terminal .bang)} {opening : Terminal .openBracket}
    {name : TokenNamePhrase} {closing : Terminal .closeBracket}
    (h : c.Passes (TargetPhrase.token bang opening name closing).tokens e) :
    tokenTarget ⟨c, d⟩ =
      (.done (TargetPhrase.token bang opening name closing).target, ⟨e, d⟩) := by
  rw [eq_done_iff]
  cases bang with
  | none =>
    have h1 := (h.cons (by simp)).1
    obtain ⟨hopen, m, hname, hclose, rfl⟩ := bracketed_reads (d := d) h
    have hbang : c.isAt .bang = false := by simp [Cursor.isAt, h1]
    simp [tokenTarget, hbang, hopen, ends_of_done hname, hclose, TargetPhrase.target, h1]
  | some bang =>
    obtain ⟨h1, h⟩ := h.cons (by simp)
    obtain ⟨hopen, m, hname, hclose, rfl⟩ := bracketed_reads (d := d) h
    have hbang : c.isAt .bang = true := by simp [Cursor.isAt, h1]
    simp [tokenTarget, hbang, hopen, ends_of_done hname, hclose, TargetPhrase.target, h1]

/-- Noting the use of one step is all that a target does to a draft. -/
theorem useStep_eq_note (id : Literal) (p : Position) : d.useStep id p = d.note [] [⟨id, p⟩] := by
  simp [Draft.useStep, Draft.note, unknownNames, addAll]

theorem target_reads {g : TargetPhrase} (hc : c.IsSound) (h : c.Passes g.tokens e) :
    target ⟨c, d⟩ = (.done g.target, ⟨e, d.note [] g.stepUses⟩) := by
  rw [eq_done_iff]
  cases g with
  | step id =>
    have h1 := (h.cons (by simp)).1
    simp [target, stepTarget, Cursor.isAt, h1, ends_of_done (stepId_reads hc h),
      useStep_eq_note, TargetPhrase.target, TargetPhrase.stepUses, StepIdPhrase.position]
  | token bang opening name closing =>
    have hstart : c.isAt .openParen = false ∧ c.atAny tokenTargetStarts = true := by
      cases bang with
      | none => simp [Cursor.isAt, Cursor.atAny, tokenTargetStarts, (h.cons (by simp)).1]
      | some bang => simp [Cursor.isAt, Cursor.atAny, tokenTargetStarts, (h.cons (by simp)).1]
    simp [target, hstart.1, hstart.2, ends_of_done (tokenTarget_reads h), TargetPhrase.stepUses]

/-- A name is looked up among the variables, and its use noted or its absence reported. -/
theorem variableCondition_reads (name : String) (p : Position) :
    variableCondition name p ⟨c, d⟩ =
      (.done (.named name (d.variableNamed name) p), ⟨c, d.note [⟨name, p⟩] []⟩) := by
  rw [eq_done_iff]
  cases hv : d.variableNamed name with
  | none =>
    have hnot : isDeclared d.variableDecls ⟨name, p⟩ = false := by
      simpa [isDeclared, Draft.variableNamed, List.find?_eq_none] using hv
    simp [variableCondition, hv, Draft.note, unknownNames, hnot, Draft.error]
  | some v =>
    have hyes : isDeclared d.variableDecls ⟨name, p⟩ = true := by
      have hm := List.mem_of_find?_eq_some hv
      have hn := List.find?_some hv
      exact List.any_eq_true.mpr ⟨v, hm, hn⟩
    simp [variableCondition, hv, Draft.note, unknownNames, hyes, Draft.useVariable, addAll]

theorem condition_reads {g : ConditionPhrase} (h : c.Passes [g.token] e) :
    condition ⟨c, d⟩ = (.done (g.condition d.variableDecls), ⟨e, d.note g.nameUses []⟩) := by
  rw [eq_done_iff]
  cases g with
  | name t =>
    obtain ⟨h1, h⟩ := h.cons (by simp [ConditionPhrase.token])
    simp [condition, h1, ConditionPhrase.token, h.eq_of_nil,
      ends_of_done (variableCondition_reads _ _), ConditionPhrase.condition,
      ConditionPhrase.nameUses, Draft.variableNamed]
  | text t =>
    obtain ⟨h1, h⟩ := h.cons (by simp [ConditionPhrase.token])
    simp [condition, h1, ConditionPhrase.token, h.eq_of_nil, ConditionPhrase.condition,
      ConditionPhrase.nameUses]
  | pattern t =>
    obtain ⟨h1, h⟩ := h.cons (by simp [ConditionPhrase.token])
    simp [condition, h1, ConditionPhrase.token, h.eq_of_nil, ConditionPhrase.condition,
      ConditionPhrase.nameUses]
  | wildcard t =>
    obtain ⟨h1, h⟩ := h.cons (by simp [ConditionPhrase.token])
    simp [condition, h1, ConditionPhrase.token, h.eq_of_nil, ConditionPhrase.condition,
      ConditionPhrase.nameUses]

theorem action_reads {g : ActionPhrase} (hc : c.IsSound) (h : c.Passes g.tokens e) :
    action ⟨c, d⟩ =
      (.done (g.action d.variableDecls), ⟨e, d.note g.nameUses g.stepUses⟩) := by
  obtain ⟨m, hm, h⟩ := Cursor.Passes.split_cons h
  have hmc := hc.of_passes hm
  obtain ⟨h1, h⟩ := h.cons (by simp)
  have hquestion : m.isAt .question = true := by simp [Cursor.isAt, h1]
  have hnext := (hmc.of_passes (hmc.passes_next (by simp [h1])))
  rw [eq_done_iff]
  simp [action, ends_of_done (condition_reads hm), hquestion, ends_of_done (target_reads hnext h),
    Draft.note_note, ActionPhrase.action, ActionPhrase.nameUses, ActionPhrase.stepUses]

/-! ### Lists -/

/-- Phrase by phrase, a list of phrases is passed if no further one can begin behind it. -/
theorem blocks_read {γ : Type} {tokens : γ → List Token} {addTo : Draft → γ → Draft}
    {starts : Cursor → Bool} {item : Parse Unit}
    (hstarts : ∀ {c m g}, c.Passes (tokens g) m → starts c = true)
    (hitem : ∀ {c m d g} {gs : List γ}, c.IsSound → c.Passes (tokens g) m →
      m.Passes (gs.flatMap tokens) e → item ⟨c, d⟩ = (.done (), ⟨m, addTo d g⟩))
    (he : starts e = false) {gs : List γ} (hc : c.IsSound) (h : c.Passes (gs.flatMap tokens) e) :
    Blocks starts item ⟨c, d⟩ (gs.map tokens) ⟨e, gs.foldl addTo d⟩ := by
  induction gs generalizing c d with
  | nil =>
    obtain rfl := h.eq_of_nil
    exact .stop he
  | cons g gs ih =>
    obtain ⟨m, hm, h⟩ := h.split
    exact .round (hstarts hm) (hitem hc hm h) hm (ih (hc.of_passes hm) h)

theorem list_reads {starts : Cursor → Bool} {item : Parse Unit} {blocks : List (List Token)}
    {s t : ParseState} (h : Blocks starts item s blocks t) (hne : ∀ block ∈ blocks, block ≠ []) :
    asFarAsItGoes (many starts item .start) s = (.done (), t) := by
  obtain ⟨as, hr⟩ := h.exists_rounds hne
  rw [eq_done_iff, ends_asFarAsItGoes, ends_of_done (hr.many_eq rfl)]
  exact ⟨rfl, rfl⟩

theorem atCondition_eq_false (h : NotStartedBy conditionStarts c.tokens) :
    atCondition c = false := by
  have hk : c.current.kind ∉ conditionStarts := h c.current rfl
  simp only [conditionStarts, List.mem_cons, List.not_mem_nil, or_false, not_or] at hk
  simp [atCondition, Cursor.isAt, Cursor.atValid, Token.isValid, hk]

theorem atCondition_of_passes {g : ActionPhrase} (h : c.Passes g.tokens e) :
    atCondition c = true := by
  have h1 := (Cursor.Passes.cons h g.condition.isLeaf.kind_ne_eof).1
  cases hg : g.condition with
  | name t => simp [atCondition, Cursor.isAt, h1, hg, ConditionPhrase.token]
  | text t => simp [atCondition, Cursor.atValid, h1, hg, ConditionPhrase.token, t.isValid rfl]
  | pattern t => simp [atCondition, Cursor.atValid, h1, hg, ConditionPhrase.token, t.isValid rfl]
  | wildcard t => simp [atCondition, Cursor.isAt, h1, hg, ConditionPhrase.token]

theorem actionList_reads {gs : List ActionPhrase} (hc : c.IsSound)
    (h : c.Passes (gs.flatMap ActionPhrase.tokens) e) (he : atCondition e = false) :
    actionList ⟨c, d⟩ = (.done (gs.map (·.action d.variableDecls)),
      ⟨e, d.note (gs.flatMap ActionPhrase.nameUses) (gs.flatMap ActionPhrase.stepUses)⟩) := by
  refine Rounds.many_eq ?_ rfl
  induction gs generalizing c d with
  | nil =>
    obtain rfl := h.eq_of_nil
    simpa using Rounds.stop (s := ⟨e, d⟩) he
  | cons g gs ih =>
    obtain ⟨m, hm, h⟩ := h.split
    have hrest := ih (d := d.note g.nameUses g.stepUses) (hc.of_passes hm) h
    rw [Draft.note_note, Draft.variableDecls_note] at hrest
    exact .round (atCondition_of_passes hm) (action_reads hc hm)
      (hm.ahead_lt (by simp [ActionPhrase.tokens])) hrest

/-! ### Steps -/

/-- The cursor is on the first of these steps, or on the end if there are none. -/
def AtSteps (c : Cursor) (gs : List StepPhrase) : Prop :=
  ∃ f, c.Passes (gs.flatMap StepPhrase.tokens) f ∧ f.isAt .eof = true

/-- Where a list of steps lies ahead, there is the end or the next step's header. -/
theorem AtSteps.cases {gs : List StepPhrase} (h : AtSteps c gs) :
    c.isAt .eof = true ∨ c.isAt .openParen = true ∧ atStepHeader c = true := by
  obtain ⟨f, hp, hf⟩ := h
  rcases steps_tokens_cases gs with hn | ⟨id, colon, ts, hc⟩
  · rw [hn] at hp
    exact .inl (hp.eq_of_nil ▸ hf)
  · rw [hc] at hp
    have ht := hp.tokens_eq
    have h0 : c.current = id.opening.token := (hp.cons (by simp)).1
    have n0 : c.nth 0 = id.opening.token.kind := Cursor.nth_eq (by simp [ht, StepIdPhrase.tokens])
    have n1 : c.nth 1 = id.number.token.kind := Cursor.nth_eq (by simp [ht, StepIdPhrase.tokens])
    have n2 : c.nth 2 = id.closing.token.kind := Cursor.nth_eq (by simp [ht, StepIdPhrase.tokens])
    have n3 : c.nth 3 = colon.token.kind := Cursor.nth_eq (by simp [ht, StepIdPhrase.tokens])
    exact .inr ⟨by simp [Cursor.isAt, h0], by simp [atStepHeader, n0, n1, n2, n3]⟩

theorem AtSteps.isAt_eq_false {gs : List StepPhrase} (h : AtSteps c gs) {kind : TokenKind}
    (he : .eof ≠ kind) (ho : .openParen ≠ kind) : c.isAt kind = false := by
  rcases h.cases with hk | ⟨hk, -⟩
  · exact Cursor.isAt_eq_false hk he
  · exact Cursor.isAt_eq_false hk ho

theorem AtSteps.not_atFallback {gs : List StepPhrase} (h : AtSteps c gs) :
    atFallback c = false := by
  rcases h.cases with he | ⟨hopen, hheader⟩
  · simp [atFallback, Cursor.atAny, tokenTargetStarts, Cursor.isAt, Cursor.kind_of_isAt he]
  · simp [atFallback, Cursor.atAny, tokenTargetStarts, Cursor.kind_of_isAt hopen, hheader]

/-- A target before a list of steps is a fallback: after its number comes no colon. -/
theorem atFallback_of_passes {g : TargetPhrase} {gs : List StepPhrase}
    (h : c.Passes g.tokens e) (he : AtSteps e gs) : atFallback c = true := by
  cases g with
  | step id =>
    have ht := h.tokens_eq
    have h0 : c.current = id.opening.token := (h.cons (by simp)).1
    have n3 := Cursor.nth_eq (c := c) (n := 3) (t := e.current) (by rw [ht]; rfl)
    have hcolon : (e.current.kind == .colon) = false := he.isAt_eq_false (by decide) (by decide)
    simp [atFallback, Cursor.isAt, h0, atStepHeader, n3, hcolon]
  | token bang opening name closing =>
    cases bang with
    | none => simp [atFallback, Cursor.atAny, tokenTargetStarts, (h.cons (by simp)).1]
    | some bang => simp [atFallback, Cursor.atAny, tokenTargetStarts, (h.cons (by simp)).1]

theorem fallback_reads {g : StepPhrase} {vars : List Variable} {gs : List StepPhrase}
    (hc : c.IsSound) (h : c.Passes g.ending.tokens e) (he : AtSteps e gs) :
    fallback (g.allActions.map (·.action vars)) ⟨c, d⟩ =
      (.done g.ending.target.target, ⟨e, d.note [] g.ending.stepUses⟩) := by
  obtain ⟨id, colon, actions, ending⟩ := g
  rw [eq_done_iff]
  cases ending with
  | fallback target =>
    have htarget := target_reads (d := d) hc h
    have hfallback := atFallback_of_passes h he
    unfold fallback
    split
    · exact (ends_of_done htarget).mpr ⟨rfl, rfl⟩
    · simpa [hfallback] using (ends_of_done htarget).mpr ⟨rfl, rfl⟩
  | wildcard star question target =>
    obtain rfl := h.eq_of_nil
    have hlast : ((StepPhrase.allActions ⟨id, colon, actions, .wildcard star question target⟩).map
        (·.action vars)).getLast? = some ⟨.wildcard star.token.position, target.target⟩ := by
      simp [StepPhrase.allActions, StepEnd.lastAction, ActionPhrase.action,
        ConditionPhrase.condition]
    simp [fallback, hlast, Condition.isWildcard, he.not_atFallback, StepEnd.target,
      StepEnd.stepUses]

/-- A step is read part by part: its number, the colon, its actions and its fallback. -/
theorem step_parts {g : StepPhrase} {gs : List StepPhrase} (hc : c.IsSound)
    (h : c.Passes g.tokens e) (he : AtSteps e gs) : ∃ m n : Cursor,
      stepId ⟨c, d⟩ = (.done g.id.value, ⟨m, d⟩) ∧ m.isAt .colon = true ∧
      actionList ⟨m.next, d⟩ = (.done (g.allActions.map (·.action d.variableDecls)),
        ⟨n, d.note g.nameUses (g.allActions.flatMap ActionPhrase.stepUses)⟩) ∧
      fallback (g.allActions.map (·.action d.variableDecls))
        ⟨n, d.note g.nameUses (g.allActions.flatMap ActionPhrase.stepUses)⟩ =
          (.done g.ending.target.target, ⟨e, d.note g.nameUses g.stepUses⟩) ∧
      c.Passes (g.id.tokens ++ g.colon.token :: g.allActions.flatMap ActionPhrase.tokens) n ∧
      n.Passes g.ending.tokens e := by
  obtain ⟨m, hid, h⟩ := Cursor.Passes.split h
  have hm := hc.of_passes hid
  obtain ⟨hcolon, h⟩ := h.cons (by simp)
  have hnext := hm.passes_next (by simp [hcolon])
  obtain ⟨n, hactions, hending⟩ := h.split
  have hn := hm.of_passes hnext
  have hstop : atCondition n = false := by
    obtain ⟨f, hf, hend⟩ := he
    have hk := Cursor.kind_of_isAt hend
    apply atCondition_eq_false
    rw [(hending.trans hf).tokens_eq]
    exact (g.ending.not_condition gs).append (by simp [NotStartedBy, Cursor.tokens, hk,
      conditionStarts])
  have huses : (d.note g.nameUses (g.allActions.flatMap ActionPhrase.stepUses)).note []
      g.ending.stepUses = d.note g.nameUses g.stepUses := by
    rw [Draft.note_note, List.append_nil]
    rfl
  refine ⟨m, n, stepId_reads hc hid, by simp [Cursor.isAt, hcolon],
    actionList_reads hn hactions hstop, ?_, hid.trans (hcolon ▸ hnext.trans hactions), hending⟩
  rw [← huses]
  exact fallback_reads (hn.of_passes hactions) hending he

theorem step_reads {g : StepPhrase} {gs : List StepPhrase} (hc : c.IsSound)
    (h : c.Passes g.tokens e) (he : AtSteps e gs) : step ⟨c, d⟩ =
      (.done (g.step d.variableDecls), ⟨e, d.note g.nameUses g.stepUses⟩) := by
  obtain ⟨m, n, hid, hcolon, hactions, hfallback, hp, -⟩ := step_parts (d := d) hc h he
  have hopen : c.current = g.id.opening.token := (hp.cons (by simp)).1
  rw [eq_done_iff]
  simp [step, ends_of_done hid, hcolon, ends_of_done hactions, ends_of_done hfallback,
    StepPhrase.step, StepIdPhrase.position, hopen]

/-- A step that has been read is declared, or reported if its number was taken; but a report that
cannot be worded breaks the reading off. -/
theorem declareStep_ends {st : Step} {s : ParseState} :
    (do
      if ← ask (·.declareStep st) then pure ()
      else
        insistOnWording (.takenStep st.id)
        report (.takenStep st.id) st.position : Parse Unit).Ends s
      (fun _ t => t = { s with draft := s.draft.addStep st }) (fun _ => False)
      (fun b => ∃ long, b = .longNumber long ∧ st.id.write = .error long) := by
  simp only [ends_bind, ends_ask, ends_ite, ends_pure, ends_insistOnWording, ends_report,
    Draft.addStep, Draft.declareStep, Draft.error]
  cases s.draft.stepDecls.any (·.id == st.id) with
  | false => simp
  | true =>
    simp only [Bool.not_true, Bool.false_eq_true, if_false]
    split
    · rfl
    · next long hlong => exact ⟨long, rfl, Cause.aboutStep_eq_error_iff.mp hlong⟩

theorem stepDeclaration_reads {g : StepPhrase} {gs : List StepPhrase} (hc : c.IsSound)
    (h : c.Passes g.tokens e) (he : AtSteps e gs) :
    stepDeclaration ⟨c, d⟩ = (.done (), ⟨e, g.addTo d⟩) := by
  obtain ⟨m, hid, -⟩ := Cursor.Passes.split h
  obtain ⟨n, -, hwritable⟩ := isWritable_value hc hid
  rw [eq_done_iff, stepDeclaration, ends_bind, ends_of_done (step_reads hc h he)]
  refine (declareStep_ends.mono ?_ (fun _ h => h)).mono_broken ?_
  · rintro _ t rfl
    exact ⟨rfl, rfl⟩
  · rintro _ ⟨long, rfl, hlong⟩
    obtain ⟨hvalue, hlong⟩ := Literal.write_eq_error_iff.mp hlong
    have hvalue : g.id.value = .number long.value := hvalue
    rw [hvalue] at hwritable
    exact hlong hwritable

theorem stepBlocks_read {gs : List StepPhrase} (hc : c.IsSound)
    (h : c.Passes (gs.flatMap StepPhrase.tokens) e) (he : e.isAt .eof = true) :
    Blocks (·.isAt .openParen) stepDeclaration ⟨c, d⟩ (gs.map StepPhrase.tokens)
      ⟨e, gs.foldl StepPhrase.addTo d⟩ := by
  refine blocks_read ?_ ?_ (Cursor.isAt_eq_false he (by decide)) hc h
  · intro c m g hm
    simp [Cursor.isAt, (Cursor.Passes.cons hm (by simp)).1]
  · intro c m d g gs hc hm hrest
    exact stepDeclaration_reads hc hm ⟨e, hrest, he⟩

theorem stepList_reads {gs : List StepPhrase} (hc : c.IsSound)
    (h : c.Passes (gs.flatMap StepPhrase.tokens) e) (he : e.isAt .eof = true) :
    stepList ⟨c, d⟩ = (.done (), ⟨e, gs.foldl StepPhrase.addTo d⟩) := by
  refine list_reads (stepBlocks_read hc h he) ?_
  simp [StepPhrase.tokens, StepIdPhrase.tokens]

/-! ### Variables -/

theorem variableBinding_reads {g : VariablePhrase} (h : c.Passes g.tokens e) :
    variableBinding ⟨c, d⟩ = (.done g.record, ⟨e, d⟩) := by
  obtain ⟨h1, h⟩ := h.cons (by simp)
  obtain ⟨h2, h⟩ := h.cons (by simp)
  have hvalue : g.value.token.kind ≠ .eof ∧
      (g.value.token.isValid .string || g.value.token.isValid .pattern) = true := by
    cases hv : g.value with
    | text t => simp [ValuePhrase.token, t.isValid rfl]
    | pattern t => simp [ValuePhrase.token, t.isValid rfl]
  obtain ⟨h3, h⟩ := h.cons hvalue.1
  rw [eq_done_iff]
  simp only [variableBinding, ends_bind, ends_bump, ends_expect, ends_require, Cursor.isAt,
    Cursor.atValid, h1, h2, h3, hvalue.2, Terminal.kind_eq, beq_self_eq_true, if_true]
  exact ⟨rfl, by rw [h.eq_of_nil]⟩

/-- A variable that has been read is declared, or reported if its name was taken. -/
theorem declareVariable_reads (v : Variable) :
    (do if ← ask (·.declareVariable v) then pure ()
        else report (.takenVariable v.name) v.position : Parse Unit) ⟨c, d⟩ =
      (.done (), ⟨c, d.addVariable v⟩) := by
  rw [eq_done_iff]
  simp only [ends_bind, ends_ask, ends_ite, ends_pure, ends_report, Draft.addVariable,
    Draft.declareVariable, Draft.error]
  cases d.variableDecls.any (·.name == v.name) <;> simp

theorem variableDeclaration_reads {g : VariablePhrase} (h : c.Passes g.tokens e) :
    variableDeclaration ⟨c, d⟩ = (.done (), ⟨e, d.addVariable g.record⟩) := by
  rw [eq_done_iff, variableDeclaration, ends_bind, ends_of_done (variableBinding_reads h),
    ends_of_done (declareVariable_reads _)]
  exact ⟨rfl, rfl⟩

theorem variableBlocks_read {gs : List VariablePhrase} (hc : c.IsSound)
    (h : c.Passes (gs.flatMap VariablePhrase.tokens) e) (he : e.isAt .name = false) :
    Blocks (·.isAt .name) variableDeclaration ⟨c, d⟩ (gs.map VariablePhrase.tokens)
      ⟨e, gs.foldl VariablePhrase.addTo d⟩ := by
  refine blocks_read ?_ ?_ he hc h
  · intro c m g hm
    simp [Cursor.isAt, (Cursor.Passes.cons hm (by simp)).1]
  · intro c m d g gs _ hm _
    exact variableDeclaration_reads hm

theorem variableList_reads {gs : List VariablePhrase} (hc : c.IsSound)
    (h : c.Passes (gs.flatMap VariablePhrase.tokens) e) (he : e.isAt .name = false) :
    variableList ⟨c, d⟩ = (.done (), ⟨e, gs.foldl VariablePhrase.addTo d⟩) := by
  refine list_reads (variableBlocks_read hc h he) ?_
  simp [VariablePhrase.tokens]

/-! ### Schemes -/

/-- A derivation that ends before a token of the end is read as the draft it stands for. -/
theorem scheme_reads {g : SchemePhrase} (hc : c.IsSound) (h : c.Passes g.tokens e)
    (he : e.isAt .eof = true) : scheme ⟨c, .empty⟩ = (.done (), ⟨e, g.draft⟩) := by
  obtain ⟨m, hbindings, hsteps⟩ := Cursor.Passes.split h
  have hat : AtSteps m g.steps := ⟨e, hsteps, he⟩
  have hname : m.isAt .name = false := hat.isAt_eq_false (by decide) (by decide)
  rw [eq_done_iff]
  simp [scheme, ends_of_done (variableList_reads hc hbindings hname),
    ends_of_done (stepList_reads (hc.of_passes hbindings) hsteps he), he, g.draft_eq_foldl]

end StepMachine.Parse
