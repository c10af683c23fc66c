import StepMachine.Proofs.Scheme.Progress

/-! # Calls of routines

Which routine reads which tokens is told by the calls: the states at which a routine is started
while a scheme is read. The calls follow the text of the grammar. A use of a step is noted by
`target` and nowhere else, so behind every record in that table there is a call of it; the header
of a step is read by another call and leaves no record.
-/
namespace StepMachine

open Parse

/-- While a scheme is read from `start`, the routine is called at the state. -/
inductive ParseState.Calls (start : ParseState) : Routine → ParseState → Prop
  | scheme : Calls start .scheme start
  | variableList : Calls start .variableList start
  | variableBinding {s : ParseState}
      (hr : Relation.ReflTransGen (Round (·.isAt .name) variableDeclaration) start s)
      (hn : s.cursor.isAt .name = true) : Calls start .variableBinding s
  | stepList {s : ParseState} (hv : Parse.variableList start = (.done (), s)) :
      Calls start .stepList s
  | step {s t : ParseState} (h : Calls start .stepList s)
      (hr : Relation.ReflTransGen (Round (·.isAt .openParen) stepDeclaration) s t)
      (ho : t.cursor.isAt .openParen = true) : Calls start .step t
  | header {s : ParseState} (h : Calls start .step s) : Calls start .stepId s
  | actionList {s t u : ParseState} {id : Literal} (h : Calls start .step s)
      (hid : Parse.stepId s = (.done id, t)) (hc : expect .colon .colon t = (.done (), u)) :
      Calls start .actionList u
  | action {s t : ParseState} (h : Calls start .actionList s)
      (hr : Relation.ReflTransGen (Round atCondition Parse.action) s t)
      (hc : atCondition t.cursor = true) : Calls start .action t
  | ofAction {s t u : ParseState} {c : Condition} (h : Calls start .action s)
      (hc : condition s = (.done c, t)) (hq : expect .question .question t = (.done (), u)) :
      Calls start .target u
  /-- The actions have been read, and the last of them does not serve as the fallback. -/
  | ofFallback {s t : ParseState} {actions : List Action} (h : Calls start .actionList s)
      (hl : Parse.actionList s = (.done actions, t))
      (hf : ∀ last ∈ actions.getLast?,
        (last.condition.isWildcard && !atFallback t.cursor) = false) : Calls start .target t
  | stepId {s : ParseState} (h : Calls start .target s) (ho : s.cursor.isAt .openParen = true) :
      Calls start .stepId s
  | tokenTarget {s : ParseState} (h : Calls start .target s)
      (ho : s.cursor.isAt .openParen = false)
      (hb : s.cursor.atAny tokenTargetStarts = true) : Calls start .tokenTarget s

variable {start s t : ParseState} {α β : Type}

theorem Parse.IsMadeOf.leadsTo {m : Parse α} (h : IsMadeOf Routine.scheme.tables m)
    {o : Outcome α} (hm : m s = (o, t)) : s.LeadsTo t := by
  have hmoves := h.moves s
  rwa [hm] at hmoves

theorem Loop.leadsTo_of_rounds (l : Loop)
    (h : Relation.ReflTransGen (Round l.starts l.item) s t) : s.LeadsTo t := by
  induction h with
  | refl => exact .refl
  | tail _ hround ih => exact ih.trans (leadsTo_of_round hround)

/-- Reading comes to every state at which a routine is called. -/
theorem ParseState.Calls.leadsTo {r : Routine} (h : start.Calls r s) : start.LeadsTo s := by
  induction h with
  | scheme => exact .refl
  | variableList => exact .refl
  | variableBinding hr _ => exact Loop.variableList.leadsTo_of_rounds hr
  | stepList hv => exact (IsMadeOf.variableList (by decide)).leadsTo hv
  | step _ hr _ ih => exact ih.trans (Loop.stepList.leadsTo_of_rounds hr)
  | header _ ih => exact ih
  | actionList _ hid hc ih =>
    exact (ih.trans (IsMadeOf.stepId.leadsTo hid)).trans ((IsMadeOf.expect _ _).leadsTo hc)
  | action _ hr _ ih => exact ih.trans (Loop.actionList.leadsTo_of_rounds hr)
  | ofAction _ hc hq ih =>
    exact (ih.trans ((IsMadeOf.condition (by decide)).leadsTo hc)).trans
      ((IsMadeOf.expect _ _).leadsTo hq)
  | ofFallback _ hl _ ih =>
    exact ih.trans ((IsMadeOf.actionList (by decide) (by decide)).leadsTo hl)
  | stepId _ _ ih => exact ih
  | tokenTarget _ _ _ ih => exact ih

/-! ### Reading as a sequence of changes and calls -/

/-- The tables besides that of the uses of steps. -/
def Table.besidesStepRefs : List Table := [.variableDecls, .stepDecls, .variableRefs]

/-- A change that leaves the uses of steps alone, or a call of `target`. -/
inductive Turn (start : ParseState) (s : ParseState) : ParseState → Prop
  | move {t : ParseState} (h : Moves Table.besidesStepRefs s t) : Turn start s t
  | target (h : start.Calls .target s) : Turn start s (target s).2

namespace Parse

variable {m : Parse α} {next : α → Parse β}

theorem IsMadeOf.turns (h : IsMadeOf Table.besidesStepRefs m) (s : ParseState) :
    Relation.ReflTransGen (Turn start) s (m s).2 :=
  Relation.ReflTransGen.mono (fun _ _ => .move) _ _ (h.moves s)

theorem bind_turns (hm : Relation.ReflTransGen (Turn start) s (m s).2)
    (hnext : ∀ a t, m s = (.done a, t) → Relation.ReflTransGen (Turn start) t (next a t).2) :
    Relation.ReflTransGen (Turn start) s ((m >>= next) s).2 := by
  rw [bind_apply]
  rcases hs : m s with ⟨a | _ | _, t⟩ <;> rw [hs] at hm
  · exact hm.trans (hnext a t hs)
  · exact hm
  · exact hm

theorem many_turns {starts : Cursor → Bool} {item : Parse α} {p : Progress}
    (hitem : ∀ t, Relation.ReflTransGen (Round starts item) s t → starts t.cursor = true →
      Relation.ReflTransGen (Turn start) t (item t).2) :
    Relation.ReflTransGen (Turn start) s (many starts item p s).2 := by
  induction p, s using many_induction starts with
  | stop p s hs => rw [many_of_stop hs]
  | stall p s hs hp => rw [many_of_stall hs hp]
  | round p s hs hp ih =>
    rw [many_eq_bind hs hp]
    refine bind_turns (hitem s .refl hs) fun a t ha => ?_
    have hrest := ih t fun u hu => hitem u (.head ⟨hs, a, ha⟩ hu)
    exact bind_turns hrest fun as u _ => .refl

theorem target_turns (h : start.Calls .target s) :
    Relation.ReflTransGen (Turn start) s (target s).2 := .single (.target h)

theorem action_turns (h : start.Calls .action s) :
    Relation.ReflTransGen (Turn start) s (action s).2 := by
  refine bind_turns ((IsMadeOf.condition (by decide)).turns s) fun c t hc => ?_
  refine bind_turns ((IsMadeOf.expect _ _).turns t) fun _ u hq => ?_
  exact bind_turns (target_turns (.ofAction h hc hq)) fun _ _ _ => .refl

theorem actionList_turns (h : start.Calls .actionList s) :
    Relation.ReflTransGen (Turn start) s (actionList s).2 :=
  many_turns fun _ hr hc => action_turns (.action h hr hc)

theorem fallback_turns (h : start.Calls .actionList s) {actions : List Action}
    (hl : actionList s = (.done actions, t)) :
    Relation.ReflTransGen (Turn start) t (fallback actions t).2 := by
  unfold fallback
  cases hlast : actions.getLast? with
  | none => exact target_turns (.ofFallback h hl (by simp [hlast]))
  | some last =>
    change Relation.ReflTransGen _ t ((if last.condition.isWildcard && !atFallback t.cursor
      then pure last.target else target) t).2
    split
    · exact .refl
    · next hf => exact target_turns (.ofFallback h hl (by simpa [hlast] using hf))

theorem stepDeclaration_turns (h : start.Calls .step s) :
    Relation.ReflTransGen (Turn start) s (stepDeclaration s).2 := by
  have hstep : Relation.ReflTransGen (Turn start) s (step s).2 := by
    refine bind_turns .refl fun p t hp => ?_
    obtain rfl : s = t := (Prod.mk.inj hp).2
    refine bind_turns (IsMadeOf.stepId.turns s) fun id t hid => ?_
    refine bind_turns ((IsMadeOf.expect _ _).turns t) fun _ u hc => ?_
    have hactions := ParseState.Calls.actionList h hid hc
    refine bind_turns (actionList_turns hactions) fun actions v hl => ?_
    exact bind_turns (fallback_turns hactions hl) fun _ _ _ => .refl
  refine bind_turns hstep fun s t _ => ?_
  exact (IsMadeOf.bind (.ask fun _ => differsIn_declareStep (by decide) s)
    fun _ => .ite (.pure _) (.bind (.insistOnWording _) fun _ => .report _ _)).turns t

theorem scheme_turns (start : ParseState) :
    Relation.ReflTransGen (Turn start) start (scheme start).2 := by
  refine bind_turns ((IsMadeOf.variableList (by decide)).turns start) fun _ s hv => ?_
  have hsteps : Relation.ReflTransGen (Turn start) s (stepList s).2 := by
    have hmany : Relation.ReflTransGen (Turn start) s
        (many (·.isAt .openParen) stepDeclaration .start s).2 :=
      many_turns fun _ hr ho => stepDeclaration_turns (.step (.stepList hv) hr ho)
    unfold stepList asFarAsItGoes
    split <;> simp_all
  refine bind_turns hsteps fun _ t _ => ?_
  exact (IsMadeOf.test (Cursor.looksFourAhead_isAt .eof) (.pure ())
    (.bind .position fun _ => .report _ _)).turns t

end Parse

/-! ### Uses of steps -/

theorem mem_addNew {α κ : Type} [BEq κ] {key : α → κ} {a b : α} {table : List α}
    (h : b ∈ addNew key a table) : b ∈ table ∨ b = a := by
  unfold addNew at h
  split at h
  · exact .inl h
  · simpa using h

/-- Only a target that is read as a step notes a use, namely its own. -/
theorem Parse.target_notes {x : Reference Literal} (hx : x ∈ (target s).2.draft.stepRefs) :
    x ∈ s.draft.stepRefs ∨ ∃ t, target s = (.done (.step x.id x.position), t) := by
  cases ho : s.cursor.isAt .openParen with
  | false =>
    obtain ⟨m, hmade, htarget⟩ : ∃ m : Parse Target, IsMadeOf [] m ∧ target s = m s := by
      refine ⟨if s.cursor.atAny tokenTargetStarts then tokenTarget
        else giveUp (.general .expectedTarget), .ite .tokenTarget (.giveUp _), ?_⟩
      change (if s.cursor.isAt .openParen then stepTarget else _) s = _
      rw [ho]
      rfl
    have hsame := hmade.differsIn s .stepRefs (by decide)
    rw [htarget, hsame] at hx
    exact .inl hx
  | true =>
    have htarget : target s = (stepId >>= fun id => do
        change (·.useStep id s.cursor.current.position)
        pure (.step id s.cursor.current.position)) s := by
      change (if s.cursor.isAt .openParen then stepTarget else _) s = _
      rw [ho]
      rfl
    have hmade : IsMadeOf [] stepId := .stepId
    have hsame := hmade.differsIn s .stepRefs (by decide)
    rw [htarget, bind_apply] at hx ⊢
    rcases hid : stepId s with ⟨id | _ | _, t⟩ <;> rw [hid] at hx hsame
    · rcases mem_addNew hx with hx | rfl
      · exact .inl (hsame ▸ hx)
      · exact .inr ⟨_, rfl⟩
    · exact .inl (hsame ▸ hx)
    · exact .inl (hsame ▸ hx)

theorem Turn.leadsTo (h : Turn start s t) : s.LeadsTo t := by
  cases h with
  | move h => exact .single (h.mono (by decide))
  | target _ => exact Routine.target.leadsTo s

/-- A use that was not noted before was noted by a call of `target`, whose tokens have been passed
in the end. -/
theorem exists_call_of_mem_stepRefs (h : Relation.ReflTransGen (Turn start) s t)
    {x : Reference Literal} (hx : x ∈ t.draft.stepRefs) :
    x ∈ s.draft.stepRefs ∨ ∃ u v : ParseState, start.Calls .target u ∧
      target u = (.done (.step x.id x.position), v) ∧ v.LeadsTo t := by
  induction h with
  | refl => exact .inl hx
  | @tail t w _ hturn ih =>
    have hlater : x ∈ t.draft.stepRefs → x ∈ s.draft.stepRefs ∨ ∃ u v : ParseState,
        start.Calls .target u ∧ target u = (.done (.step x.id x.position), v) ∧ v.LeadsTo w := by
      intro hx
      rcases ih hx with hx | ⟨u, v, hu, hv, hvt⟩
      · exact .inl hx
      · exact .inr ⟨u, v, hu, hv, hvt.trans hturn.leadsTo⟩
    cases hturn with
    | move hmove =>
      have hsame := differsIn_of_moves (.single hmove) .stepRefs (by decide)
      exact hlater (hsame ▸ hx)
    | target hcall =>
      rcases target_notes hx with hx | ⟨v, hv⟩
      · exact hlater hx
      · exact .inr ⟨t, v, hcall, hv, by rw [hv]; exact .refl⟩

end StepMachine
