import StepMachine.Proofs.Scheme.Mention
import StepMachine.Proofs.Scheme.Reading

/-! # What is read was spelled by a derivation

A routine that is done has passed the tokens of a phrase and nothing else. A routine that is
abandoned has noted what the tokens it passed mention, and has reported an error of syntax last, at
the token where it stopped; only a number without a value is given up on without a report. No
routine ends in a breach, but that a step may have a number that is taken and too long to be shown.
-/
namespace StepMachine

/-- The codes of errors in the order of tokens. -/
def Code.isSyntax : Code → Bool
  | expectedToken | expectedValue | expectedTarget | expectedEnd => true
  | _ => false

/-- The codes of errors that a variable breaks off with. -/
def Code.breaksVariable : Code → Bool
  | expectedToken | expectedValue => true
  | _ => false

/-- The codes of errors that a step breaks off with. -/
def Code.breaksStep : Code → Bool
  | expectedToken | expectedTarget => true
  | _ => false

theorem Code.breaksVariable_iff {code : Code} :
    code.breaksVariable = true ↔ code = .expectedToken ∨ code = .expectedValue := by
  cases code <;> simp [breaksVariable]

theorem Code.breaksStep_iff {code : Code} :
    code.breaksStep = true ↔ code = .expectedToken ∨ code = .expectedTarget := by
  cases code <;> simp [breaksStep]

theorem Code.isSyntax_of_breaksVariable {code : Code} (h : code.breaksVariable = true) :
    code.isSyntax = true := by
  rcases breaksVariable_iff.mp h with rfl | rfl <;> rfl

theorem Code.isSyntax_of_breaksStep {code : Code} (h : code.breaksStep = true) :
    code.isSyntax = true := by
  rcases breaksStep_iff.mp h with rfl | rfl <;> rfl

/-- The draft with the error reported, if there is one. -/
def Draft.reporting (d : Draft) (x : Option Diagnostic) : Draft :=
  { d with errors := d.errors ++ x.toList }

@[simp] theorem Draft.reporting_none (d : Draft) : d.reporting none = d := by
  simp [reporting]

@[simp] theorem Draft.reporting_some (d : Draft) (x : Diagnostic) :
    d.reporting (some x) = d.error x := rfl

/-- From the cursor `c` and the draft `d` something was read that no derivation goes on from:
leaves are passed, what they mention is noted, and an error is reported at the current token. There
is none only if some number ahead has no value. -/
structure Stopped (breaks : Code → Bool) (c : Cursor) (d : Draft)
    (names : List (Reference String)) (numbers : List (Reference Literal)) (t : ParseState) : Prop where
  passes : ∃ ts, c.Passes ts t.cursor ∧ (∀ u ∈ ts, u.IsLeaf) ∧ Mentions ts names numbers
  reports : ∃ x : Option Diagnostic, t.draft = (d.note names numbers).reporting x ∧
    (∀ y ∈ x, breaks y.code = true ∧ y.position = t.cursor.current.position) ∧
    (x = none → ∃ u ∈ c.tokens, ¬u.HasNumber)

/-- Part of a step was read that no derivation goes on from, whatever it mentions. -/
def StoppedAfter (c : Cursor) (d : Draft) (t : ParseState) : Prop :=
  ∃ names numbers, Stopped Code.breaksStep c d names numbers t

theorem code_of_mem_unknownNames {vars : List Variable} {uses : List (Reference String)}
    {x : Diagnostic} (h : x ∈ unknownNames vars uses) : x.code = .unknownVariable := by
  obtain ⟨use, _, rfl⟩ := List.mem_map.mp h
  rfl

section

variable {c m : Cursor} {d : Draft} {t : ParseState} {ts : List Token} {cause : Cause}
variable {names names' : List (Reference String)} {numbers numbers' : List (Reference Literal)}
variable {breaks : Code → Bool}

theorem Stopped.failed (hc : breaks cause.code = true) :
    Stopped breaks c d [] [] (ParseState.failed ⟨c, d⟩ cause) where
  passes := ⟨[], .refl _, by simp, .nil⟩
  reports := ⟨some ⟨cause, c.current.position⟩, by rw [Draft.note_nil]; rfl,
    by simpa [Diagnostic.code] using ⟨hc, rfl⟩, by simp⟩

theorem Stopped.of_read (h : Stopped breaks m (d.note names numbers) names' numbers' t)
    (p : c.Passes ts m) (hts : ∀ u ∈ ts, u.IsLeaf) (hm : Mentions ts names numbers) :
    Stopped breaks c d (names ++ names') (numbers ++ numbers') t := by
  obtain ⟨us, q, hus, hm'⟩ := h.passes
  refine ⟨⟨ts ++ us, p.trans q, ?_, hm.append hm'⟩, ?_⟩
  · intro u hu
    rcases List.mem_append.mp hu with hu | hu
    · exact hts u hu
    · exact hus u hu
  · obtain ⟨x, hd, hx, hnone⟩ := h.reports
    rw [Draft.note_note] at hd
    refine ⟨x, hd, hx, ?_⟩
    intro he
    obtain ⟨u, hu, hn⟩ := hnone he
    exact ⟨u, p.subset hu, hn⟩

theorem Stopped.of_passes (h : Stopped breaks m d names numbers t) (p : c.Passes ts m)
    (hts : ∀ u ∈ ts, u.IsLeaf) : Stopped breaks c d names numbers t := by
  rw [← d.note_nil] at h
  exact h.of_read p hts (.none ts)

theorem StoppedAfter.failed (hc : cause.code.breaksStep = true) :
    StoppedAfter c d (ParseState.failed ⟨c, d⟩ cause) := ⟨_, _, Stopped.failed hc⟩

theorem StoppedAfter.of_read (h : StoppedAfter m (d.note names numbers) t) (p : c.Passes ts m)
    (hts : ∀ u ∈ ts, u.IsLeaf) (hm : Mentions ts names numbers) : StoppedAfter c d t := by
  obtain ⟨_, _, h⟩ := h
  exact ⟨_, _, h.of_read p hts hm⟩

theorem StoppedAfter.of_passes (h : StoppedAfter m d t) (p : c.Passes ts m)
    (hts : ∀ u ∈ ts, u.IsLeaf) : StoppedAfter c d t := by
  obtain ⟨_, _, h⟩ := h
  exact ⟨_, _, h.of_passes p hts⟩

end

namespace Terminal

variable {c : Cursor} {kind : TokenKind}

/-- The current token as a leaf, if it is a name or a mark. -/
def ofAt (h : c.isAt kind = true) (hl : kind.isLiteral = false) : Terminal kind :=
  ⟨c.current, by simpa [Token.standsFor, hl, Cursor.isAt] using h⟩

/-- The current token as a leaf, if it is not damaged. -/
def ofValid (h : c.atValid kind = true) : Terminal kind :=
  ⟨c.current, by
    obtain ⟨hk, hi⟩ : c.current.kind = kind ∧ c.current.invalid = false := by
      simpa [Cursor.atValid, Token.isValid] using h
    simp [Token.standsFor, hk, hi]⟩

theorem passes (t : Terminal kind) (hc : EndsInEnd c.tokens) (ht : c.current = t.token)
    (hk : kind.isTerminal = true) :
    c.Passes [t.token] c.next ∧ EndsInEnd c.next.tokens ∧ ∀ u ∈ [t.token], u.IsLeaf := by
  have hl : t.token.IsLeaf := t.isLeaf_token.mpr hk
  have hp := hc.passes_next (ht ▸ hl.kind_ne_eof)
  exact ⟨ht ▸ hp, hc.of_passes hp, by simpa using hl⟩

end Terminal

theorem isLeaf_of_mem_flatMap {γ : Type} {tokens : γ → List Token}
    (h : ∀ g, ∀ t ∈ tokens g, t.IsLeaf) {gs : List γ} : ∀ t ∈ gs.flatMap tokens, t.IsLeaf := by
  intro t ht
  obtain ⟨g, _, hg⟩ := List.mem_flatMap.mp ht
  exact h g t hg

theorem StepIdPhrase.isLeaf (g : StepIdPhrase) : ∀ t ∈ g.tokens, t.IsLeaf :=
  (TargetPhrase.step g).isLeaf

namespace Parse

variable {α : Type} {s : ParseState}

theorem stepId_ends (hc : EndsInEnd s.cursor.tokens) (ho : s.cursor.isAt .openParen = true) :
    stepId.Ends s (fun n t => ∃ g : StepIdPhrase, s.cursor.Passes g.tokens t.cursor ∧
      n = g.value ∧ t.draft = s.draft) (StoppedAfter s.cursor s.draft) := by
  obtain ⟨p1, c1, l1⟩ := (Terminal.ofAt ho rfl).passes hc rfl rfl
  simp only [stepId, ends_bind, ends_bump, ends_require, ends_expect, ends_ofOption]
  split
  · next hn =>
    obtain ⟨p2, c2, l2⟩ := (Terminal.ofValid hn).passes c1 rfl rfl
    split
    · next hclose =>
      obtain ⟨p3, -, -⟩ := (Terminal.ofAt hclose rfl).passes c2 rfl rfl
      cases hv : s.cursor.next.current.value with
      | some n =>
        refine .inl ⟨n, rfl, ?_⟩
        refine ⟨⟨.ofAt ho rfl, .ofValid hn, .ofAt hclose rfl⟩, (p1.trans p2).trans p3, ?_, trivial⟩
        simp [StepIdPhrase.value, Terminal.ofValid, hv]
      | none =>
        have hu : s.cursor.next.current ∈ s.cursor.tokens := p1.subset (List.mem_cons_self ..)
        have hnone : ¬s.cursor.next.current.HasNumber := by
          intro h
          obtain ⟨n, hn⟩ := h hn
          simp [hn] at hv
        refine .inr ⟨rfl, [], [], ⟨_, (p1.trans p2).trans p3, ?_, .none _⟩, none, ?_⟩
        · simp [TokenKind.isTerminal]
        · exact ⟨by simp, by simp, fun _ => ⟨_, hu, hnone⟩⟩
    · exact ((StoppedAfter.failed rfl).of_passes p2 l2).of_passes p1 l1
  · exact (StoppedAfter.failed rfl).of_passes p1 l1

theorem tokenName_ends (hc : EndsInEnd s.cursor.tokens) :
    tokenName.Ends s (fun a t => ∃ g : TokenNamePhrase, s.cursor.Passes [g.token] t.cursor ∧
      a = g.value ∧ t.draft = s.draft) (StoppedAfter s.cursor s.draft) := by
  simp only [tokenName, ends_bind, ends_cursor, ends_ite, ends_bump, ends_pure, ends_giveUp]
  split
  · next hv =>
    have p := ((Terminal.ofValid hv).passes hc rfl rfl).1
    exact ⟨.text (.ofValid hv), p, rfl, trivial⟩
  · split
    · next hn =>
      have p := ((Terminal.ofAt hn rfl).passes hc rfl rfl).1
      exact ⟨.name (.ofAt hn rfl), p, rfl, trivial⟩
    · exact .failed rfl

/-- The part of a token target after its `!`, whichever way it is put to use. -/
theorem bracketed_ends (hc : EndsInEnd s.cursor.tokens) {next : Option Literal → Parse α}
    {D : α → ParseState → Prop}
    (hnext : ∀ (o : Terminal .openBracket) (g : TokenNamePhrase) (b : Terminal .closeBracket) t,
      s.cursor.Passes [o.token, g.token, b.token] t.cursor → t.draft = s.draft →
        (next g.value).Ends t D (StoppedAfter s.cursor s.draft)) :
    (do
      expect .openBracket .openBracket
      let name ← tokenName
      expect .closeBracket .closeBracket
      next name : Parse α).Ends s D (StoppedAfter s.cursor s.draft) := by
  rw [ends_bind, ends_expect]
  split
  · next ho =>
    obtain ⟨p1, c1, l1⟩ := (Terminal.ofAt ho rfl).passes hc rfl rfl
    rw [ends_bind]
    refine (tokenName_ends c1).mono ?_ (fun _ h => h.of_passes p1 l1)
    rintro _ t ⟨g, p2, rfl, hd⟩
    have l2 : ∀ u ∈ [g.token], u.IsLeaf := by
      cases g <;> simp [TokenNamePhrase.token, TokenKind.isTerminal]
    rw [ends_bind, ends_expect]
    split
    · next hclose =>
      obtain ⟨p3, -, -⟩ := (Terminal.ofAt hclose rfl).passes (c1.of_passes p2) rfl rfl
      exact hnext (.ofAt ho rfl) g (.ofAt hclose rfl) _ ((p1.trans p2).trans p3) hd
    · exact hd ▸ ((StoppedAfter.failed rfl).of_passes p2 l2).of_passes p1 l1
  · exact .failed rfl

theorem tokenTarget_ends (hc : EndsInEnd s.cursor.tokens) :
    tokenTarget.Ends s (fun a t => ∃ g : TargetPhrase, s.cursor.Passes g.tokens t.cursor ∧
      a = g.target ∧ t.draft = s.draft.note [] g.stepUses) (StoppedAfter s.cursor s.draft) := by
  rw [tokenTarget, ends_bind, ends_position, ends_bind, ends_eat]
  split
  · next hb =>
    obtain ⟨p1, c1, l1⟩ := (Terminal.ofAt hb rfl).passes hc rfl rfl
    refine Ends.mono (bracketed_ends c1 (D := fun a t => ∃ g : TargetPhrase,
      s.cursor.Passes g.tokens t.cursor ∧ a = g.target ∧ t.draft = s.draft.note [] g.stepUses) ?_)
      (fun _ _ h => h) (fun _ h => h.of_passes p1 l1)
    intro o g b t p2 hd
    exact ⟨.token (some (.ofAt hb rfl)) o g b, p1.trans p2, rfl,
      by simpa [TargetPhrase.stepUses] using hd⟩
  · apply bracketed_ends hc
    intro o g b t p hd
    have hposition : o.token.position = s.cursor.current.position := by
      rw [(p.cons (by simp)).1]
    exact ⟨.token none o g b, p, by rw [← hposition]; rfl,
      by simpa [TargetPhrase.stepUses] using hd⟩

theorem target_ends (hc : EndsInEnd s.cursor.tokens) :
    target.Ends s (fun a t => ∃ g : TargetPhrase, s.cursor.Passes g.tokens t.cursor ∧
      a = g.target ∧ t.draft = s.draft.note [] g.stepUses) (StoppedAfter s.cursor s.draft) := by
  simp only [target, ends_bind, ends_cursor, ends_ite, ends_giveUp]
  split
  · next ho =>
    simp only [stepTarget, ends_bind, ends_position]
    refine (stepId_ends hc ho).mono ?_ (fun _ h => h)
    rintro _ t ⟨g, p, rfl, hd⟩
    have hposition : g.position = s.cursor.current.position := by
      rw [(Cursor.Passes.cons p (by simp)).1]
      rfl
    refine ⟨.step g, p, by rw [← hposition]; rfl, ?_⟩
    rw [← hposition]
    change t.draft.useStep g.value g.position = _
    rw [useStep_eq_note, hd]
    rfl
  · split
    · exact tokenTarget_ends hc
    · exact .failed rfl

/-- Phrases have been read up to a place where none begins, or one more has broken off. -/
theorem list_ends {γ : Type} {tokens : γ → List Token} {addTo : Draft → γ → Draft}
    {starts : Cursor → Bool} {item : Parse Unit} (BrokeOff : Cursor → Draft → ParseState → Prop)
    {X : Breach → Prop} (hne : ∀ g, tokens g ≠ [])
    (hitem : ∀ {t : ParseState}, EndsInEnd t.cursor.tokens → t.cursor.tokens ⊆ s.cursor.tokens →
      starts t.cursor = true → item.Ends t
        (fun _ u => ∃ g, t.cursor.Passes (tokens g) u.cursor ∧ u.draft = addTo t.draft g)
        (BrokeOff t.cursor t.draft) X) (hc : EndsInEnd s.cursor.tokens) :
    (asFarAsItGoes (many starts item .start)).Ends s (fun _ t => ∃ (gs : List γ) (m : ParseState),
      Relation.ReflTransGen (Round starts item) s m ∧ s.cursor.Passes (gs.flatMap tokens) m.cursor ∧
      m.draft = gs.foldl addTo s.draft ∧
      (t = m ∨ item m = (.abandoned, t) ∧ BrokeOff m.cursor m.draft t)) (fun _ => False) X := by
  rw [ends_asFarAsItGoes]
  -- while the rounds are done, the phrases read so far account for all tokens and for the draft
  refine (ends_many (I := fun _ t => ∃ gs : List γ,
    Relation.ReflTransGen (Round starts item) s t ∧ s.cursor.Passes (gs.flatMap tokens) t.cursor ∧
      t.draft = gs.foldl addTo s.draft)
    (A := fun t => ∃ (gs : List γ) (m : ParseState),
      Relation.ReflTransGen (Round starts item) s m ∧ s.cursor.Passes (gs.flatMap tokens) m.cursor ∧
      m.draft = gs.foldl addTo s.draft ∧ item m = (.abandoned, t) ∧ BrokeOff m.cursor m.draft t)
    rfl ⟨[], .refl, .refl _, rfl⟩ ?_).mono ?_ ?_
  · rintro _ t ⟨gs, r, p, hd⟩ hs
    refine (hitem (hc.of_passes p) p.subset hs).and_eq.mono ?_ (fun u ⟨h, hu⟩ => ⟨gs, t, r, p, hd, hu, h⟩)
    rintro _ u ⟨⟨g, q, hd'⟩, hu⟩
    exact ⟨⟨gs ++ [g], r.tail ⟨hs, _, hu⟩, by simpa using p.trans q, by simp [hd', hd]⟩,
      q.ahead_lt (hne g)⟩
  · rintro _ t ⟨⟨gs, r, p, hd⟩, _⟩
    exact ⟨gs, t, r, p, hd, .inl rfl⟩
  · rintro t ⟨gs, m, r, p, hd, h⟩
    exact ⟨gs, m, r, p, hd, .inr h⟩

/-! ### Actions and steps -/

theorem exists_condition {c : Cursor} (h : atCondition c = true) :
    ∃ g : ConditionPhrase, c.current = g.token := by
  simp only [atCondition, Bool.or_eq_true] at h
  rcases h with ((h | h) | h) | h
  · exact ⟨.name (.ofAt h rfl), rfl⟩
  · exact ⟨.wildcard (.ofAt h rfl), rfl⟩
  · exact ⟨.text (.ofValid h), rfl⟩
  · exact ⟨.pattern (.ofValid h), rfl⟩

theorem action_ends (hc : EndsInEnd s.cursor.tokens) (hs : atCondition s.cursor = true) :
    action.Ends s (fun a t => ∃ g : ActionPhrase, s.cursor.Passes g.tokens t.cursor ∧
      a = g.action s.draft.variableDecls ∧ t.draft = s.draft.note g.nameUses g.stepUses)
      (StoppedAfter s.cursor s.draft) := by
  obtain ⟨g, hg⟩ := exists_condition hs
  have p1 := hc.passes_next (hg ▸ g.isLeaf.kind_ne_eof)
  have l1 : ∀ u ∈ [s.cursor.current], u.IsLeaf := by simpa [hg] using g.isLeaf
  have m1 : Mentions [s.cursor.current] g.nameUses [] := hg ▸ g.mentions
  have c1 := hc.of_passes p1
  have hread := condition_reads (d := s.draft) (hg ▸ p1)
  simp only [action, ends_bind, ends_of_done hread, ends_expect]
  split
  · next hq =>
    obtain ⟨p2, c2, l2⟩ := (Terminal.ofAt hq rfl).passes c1 rfl rfl
    refine (target_ends c2).mono ?_ (fun _ h => (h.of_passes p2 l2).of_read p1 l1 m1)
    rintro _ t ⟨h, p3, rfl, hd⟩
    refine ⟨⟨g, .ofAt hq rfl, h⟩, ((hg ▸ p1).trans p2).trans p3, rfl, ?_⟩
    rw [hd, Draft.note_note]
    simp [ActionPhrase.nameUses, ActionPhrase.stepUses]
  · exact (StoppedAfter.failed rfl).of_read p1 l1 m1

theorem actionList_ends (hc : EndsInEnd s.cursor.tokens) :
    actionList.Ends s (fun as t => ∃ gs : List ActionPhrase,
      s.cursor.Passes (gs.flatMap ActionPhrase.tokens) t.cursor ∧
      as = gs.map (·.action s.draft.variableDecls) ∧ t.draft = s.draft.note
        (gs.flatMap ActionPhrase.nameUses) (gs.flatMap ActionPhrase.stepUses))
      (StoppedAfter s.cursor s.draft) := by
  refine (ends_many rfl ⟨[], .refl _, rfl, by simp⟩ ?_).mono (fun _ _ h => h.1) (fun _ h => h)
  rintro _ t ⟨gs, p, rfl, hd⟩ hs
  refine (action_ends (hc.of_passes p) hs).mono ?_
    (fun u h => (hd ▸ h).of_read p (isLeaf_of_mem_flatMap ActionPhrase.isLeaf)
      (mentions_flatMap ActionPhrase.mentions gs))
  rintro _ u ⟨g, q, rfl, hd'⟩
  refine ⟨⟨gs ++ [g], by simpa using p.trans q, by simp [hd], ?_⟩,
    q.ahead_lt (by simp [ActionPhrase.tokens])⟩
  rw [hd', hd, Draft.note_note]
  simp

theorem exists_star_of_isWildcard {g : ConditionPhrase} {vars : List Variable}
    (h : (g.condition vars).isWildcard = true) : ∃ star, g = .wildcard star := by
  cases g with
  | wildcard star => exact ⟨star, rfl⟩
  | _ => simp [ConditionPhrase.condition, Condition.isWildcard] at h

theorem fallback_ends (hc : EndsInEnd s.cursor.tokens) (gs : List ActionPhrase)
    (vars : List Variable) :
    (fallback (gs.map (·.action vars))).Ends s
      (fun a t => ∃ (as : List ActionPhrase) (ending : StepEnd), gs = as ++ ending.lastAction ∧
        s.cursor.Passes ending.tokens t.cursor ∧ a = ending.target.target ∧
        t.draft = s.draft.note [] ending.stepUses) (StoppedAfter s.cursor s.draft) := by
  have htarget := (target_ends hc).mono (F := fun a t => ∃ (as : List ActionPhrase)
      (ending : StepEnd), gs = as ++ ending.lastAction ∧ s.cursor.Passes ending.tokens t.cursor ∧
      a = ending.target.target ∧ t.draft = s.draft.note [] ending.stepUses)
    (fun _ _ ⟨g, h⟩ => ⟨gs, .fallback g, (List.append_nil gs).symm, h⟩) (fun _ h => h)
  unfold fallback
  split
  · exact htarget
  · next last hlast =>
    simp only [ends_bind, ends_cursor, ends_ite, ends_pure]
    split
    · next hw =>
      obtain ⟨hwild, -⟩ := Bool.and_eq_true_iff.mp hw
      obtain ⟨g, hg, rfl⟩ := Option.map_eq_some_iff.mp (List.getLast?_map ▸ hlast)
      obtain ⟨star, hstar⟩ := exists_star_of_isWildcard hwild
      obtain ⟨as, rfl⟩ := List.getLast?_eq_some_iff.mp hg
      refine ⟨as, .wildcard star g.question g.target, ?_, .refl _, rfl, by simp [StepEnd.stepUses]⟩
      rw [StepEnd.lastAction, ← hstar]
    · exact htarget

theorem step_ends (hc : EndsInEnd s.cursor.tokens) (ho : s.cursor.isAt .openParen = true) :
    step.Ends s (fun a t => ∃ g : StepPhrase, s.cursor.Passes g.tokens t.cursor ∧
      a = g.step s.draft.variableDecls ∧ t.draft = s.draft.note g.nameUses g.stepUses)
      (StoppedAfter s.cursor s.draft) := by
  simp only [step, ends_bind, ends_position]
  refine (stepId_ends hc ho).mono ?_ (fun _ h => h)
  rintro _ t ⟨id, p1, rfl, hd1⟩
  have c1 := hc.of_passes p1
  have hposition : id.position = s.cursor.current.position := by
    rw [(Cursor.Passes.cons p1 (by simp)).1]
    rfl
  rw [ends_expect]
  split
  · next hcolon =>
    obtain ⟨p2, c2, l2⟩ := (Terminal.ofAt hcolon rfl).passes c1 rfl rfl
    have hstop : ∀ v, StoppedAfter t.cursor.next t.draft v →
        StoppedAfter s.cursor s.draft v := fun v h =>
      hd1 ▸ (h.of_passes p2 l2).of_passes p1 id.isLeaf
    refine (actionList_ends c2).mono ?_ hstop
    rintro _ u ⟨gs, p3, rfl, hd3⟩
    refine (fallback_ends (c2.of_passes p3) gs _).mono ?_ (fun v h => hstop v
      ((hd3 ▸ h).of_read p3 (isLeaf_of_mem_flatMap ActionPhrase.isLeaf)
        (mentions_flatMap ActionPhrase.mentions gs)))
    rintro _ v ⟨as, ending, rfl, p4, rfl, hd4⟩
    refine ⟨⟨id, .ofAt hcolon rfl, as, ending⟩, ?_, ?_, ?_⟩
    · simpa [StepPhrase.tokens, StepPhrase.allActions] using ((p1.trans p2).trans p3).trans p4
    · rw [← hposition, hd1]
      rfl
    · rw [hd4, hd3, Draft.note_note, List.append_nil]
      exact congrArg (Draft.note · _ _) hd1
  · exact hd1 ▸ (StoppedAfter.failed rfl).of_passes p1 id.isLeaf

/-- What a number in parentheses was decoded to is too long only if it is among the tokens. -/
theorem hasLongNumber_of_write {ts : List Token} {g : StepIdPhrase} {long : Text.LongNumber}
    (hg : g.tokens ⊆ ts) (h : g.value.write = .error long) : HasLongNumber ts long := by
  obtain ⟨hvalue, hlong⟩ := Literal.write_eq_error_iff.mp h
  have hmem : g.number.token ∈ ts := hg (by simp [StepIdPhrase.tokens])
  refine ⟨hlong, g.number.token, hmem, g.number.isValid rfl, ?_⟩
  -- a number without a value counts as nought, which is not too long
  cases hv : g.number.token.value with
  | some l =>
    rw [StepIdPhrase.value, hv, Option.getD_some] at hvalue
    rw [hvalue]
  | none =>
    rw [StepIdPhrase.value, hv, Option.getD_none, Literal.number.injEq] at hvalue
    rw [← hvalue] at hlong
    exact absurd (Text.isWritable_of_le (by decide)) hlong

theorem stepDeclaration_ends (hc : EndsInEnd s.cursor.tokens)
    (ho : s.cursor.isAt .openParen = true) :
    stepDeclaration.Ends s (fun _ t => ∃ g : StepPhrase, s.cursor.Passes g.tokens t.cursor ∧
      t.draft = g.addTo s.draft) (StoppedAfter s.cursor s.draft)
      (Breach.IsLongNumberOf s.cursor.tokens) := by
  rw [stepDeclaration, ends_bind]
  refine ((step_ends hc ho).orBroken _).mono ?_ (fun _ h => h)
  rintro _ t ⟨g, p, rfl, hd⟩
  refine (declareStep_ends.mono ?_ (fun _ h => h.elim)).mono_broken ?_
  · rintro _ _ rfl
    exact ⟨g, p, by rw [hd]; rfl⟩
  · rintro _ ⟨long, rfl, hlong⟩
    have hsub : g.id.tokens ⊆ s.cursor.tokens := by
      rw [p.tokens_eq, StepPhrase.tokens, List.append_assoc]
      exact List.subset_append_left _ _
    exact hasLongNumber_of_write hsub hlong

/-- Steps have been read up to a place where none opens, or one more has broken off. -/
theorem stepList_ends (hc : EndsInEnd s.cursor.tokens) :
    stepList.Ends s (fun _ t => ∃ (gs : List StepPhrase) (m : ParseState),
      Relation.ReflTransGen (Round (·.isAt .openParen) stepDeclaration) s m ∧
      s.cursor.Passes (gs.flatMap StepPhrase.tokens) m.cursor ∧
      m.draft = gs.foldl StepPhrase.addTo s.draft ∧
      (t = m ∨ stepDeclaration m = (.abandoned, t) ∧ StoppedAfter m.cursor m.draft t))
      (fun _ => False) (Breach.IsLongNumberOf s.cursor.tokens) := by
  refine list_ends StoppedAfter ?_ ?_ hc
  · intro g
    simp [StepPhrase.tokens, StepIdPhrase.tokens]
  · intro t ht hsub ho
    exact (stepDeclaration_ends ht ho).mono_broken fun _ hb => hb.mono hsub

/-! ### Variables -/

theorem variableBinding_ends (hc : EndsInEnd s.cursor.tokens) (hn : s.cursor.isAt .name = true) :
    variableBinding.Ends s (fun a t => ∃ g : VariablePhrase,
      s.cursor.Passes g.tokens t.cursor ∧ a = g.record ∧ t.draft = s.draft)
      (Stopped Code.breaksVariable s.cursor s.draft [] []) := by
  obtain ⟨p1, c1, l1⟩ := (Terminal.ofAt hn rfl).passes hc rfl rfl
  simp only [variableBinding, ends_bind, ends_bump, ends_expect, ends_require, ends_pure]
  split
  · next hcolon =>
    obtain ⟨p2, c2, l2⟩ := (Terminal.ofAt hcolon rfl).passes c1 rfl rfl
    split
    · next hv =>
      rcases Bool.or_eq_true_iff.mp hv with hv | hv
      · have p3 := ((Terminal.ofValid hv).passes c2 rfl rfl).1
        exact ⟨⟨.ofAt hn rfl, .ofAt hcolon rfl, .text (.ofValid hv)⟩, (p1.trans p2).trans p3, rfl,
          trivial⟩
      · have p3 := ((Terminal.ofValid hv).passes c2 rfl rfl).1
        exact ⟨⟨.ofAt hn rfl, .ofAt hcolon rfl, .pattern (.ofValid hv)⟩, (p1.trans p2).trans p3,
          rfl, trivial⟩
    · exact ((Stopped.failed rfl).of_passes p2 l2).of_passes p1 l1
  · exact (Stopped.failed rfl).of_passes p1 l1

theorem variableDeclaration_ends (hc : EndsInEnd s.cursor.tokens)
    (hn : s.cursor.isAt .name = true) :
    variableDeclaration.Ends s (fun _ t => ∃ g : VariablePhrase,
      s.cursor.Passes g.tokens t.cursor ∧ t.draft = g.addTo s.draft)
      (Stopped Code.breaksVariable s.cursor s.draft [] []) := by
  rw [variableDeclaration, ends_bind]
  refine (variableBinding_ends hc hn).mono ?_ (fun _ h => h)
  rintro _ t ⟨g, p, rfl, hd⟩
  apply (ends_of_done (declareVariable_reads (c := t.cursor) (d := t.draft) _)).mpr
  exact ⟨g, p, by rw [hd]; rfl⟩

/-- Variables have been read up to a place where none opens, or one more has broken off. -/
theorem variableList_ends (hc : EndsInEnd s.cursor.tokens) :
    variableList.Ends s (fun _ t => ∃ (gs : List VariablePhrase) (m : ParseState),
      Relation.ReflTransGen (Round (·.isAt .name) variableDeclaration) s m ∧
      s.cursor.Passes (gs.flatMap VariablePhrase.tokens) m.cursor ∧
      m.draft = gs.foldl VariablePhrase.addTo s.draft ∧
      (t = m ∨ variableDeclaration m = (.abandoned, t) ∧
        Stopped Code.breaksVariable m.cursor m.draft [] [] t)) (fun _ => False) := by
  refine list_ends (fun c d t => Stopped Code.breaksVariable c d [] [] t) ?_
    (fun ht _ hn => variableDeclaration_ends ht hn) hc
  intro g
  simp [VariablePhrase.tokens]

end Parse

end StepMachine
