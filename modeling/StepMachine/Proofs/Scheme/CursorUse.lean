import StepMachine.Proofs.Scheme.Progress

/-! # Cursors in use

A cursor is used together with a mark of progress: it is asked what stands where, told to go on, and
checked for having gone on. Only two of the calls move it, by one token and never past one of the
end. Looking ahead is no different from going there, as long as nothing but the last token is one of
the end.
-/
namespace StepMachine

/-- A cursor and the mark that the last check of progress has left. -/
structure TrackedCursor where
  cursor : Cursor
  progress : Progress

namespace TrackedCursor

inductive Call where
  | bump
  | eat (kind : TokenKind)
  | isAt (kind : TokenKind)
  | atValid (kind : TokenKind)
  | atAny (kinds : List TokenKind)
  | nth (n : Nat)
  | hasProgressed
  | assertProgressing

inductive Answer where
  | token (t : Token)
  | truth (holds : Bool)
  | kind (kind : TokenKind)
  | checked (result : Except Breach Unit)

namespace Call

/-- The call checks progress, whatever comes of it. -/
def isCheck : Call → Bool
  | hasProgressed | assertProgressing => true
  | _ => false

/-- The call goes past the current token: it always does so, or it finds the kind it asks for. -/
def goesOn (c : Cursor) : Call → Bool
  | bump => true
  | eat kind => (c.eat kind).1
  | _ => false

end Call

/-- The answer to a call, and what it leaves. A check that fails leaves its mark as well. -/
def call (d : TrackedCursor) : Call → Answer × TrackedCursor
  | .bump => (.token d.cursor.bump.1, { d with cursor := d.cursor.bump.2 })
  | .eat kind => (.truth (d.cursor.eat kind).1, { d with cursor := (d.cursor.eat kind).2 })
  | .isAt kind => (.truth (d.cursor.isAt kind), d)
  | .atValid kind => (.truth (d.cursor.atValid kind), d)
  | .atAny kinds => (.truth (d.cursor.atAny kinds), d)
  | .nth n => (.kind (d.cursor.nth n), d)
  | .hasProgressed =>
    (.truth (d.progress.check d.cursor).1,
      { d with progress := (d.progress.check d.cursor).2 })
  | .assertProgressing =>
    (.checked (d.progress.insist d.cursor).1,
      { d with progress := (d.progress.insist d.cursor).2 })

/-- What calls leave, one after another. -/
def callAll (d : TrackedCursor) (calls : List Call) : TrackedCursor :=
  calls.foldl (fun d q => (d.call q).2) d

variable {d : TrackedCursor} {tokens : List Token}

theorem callAll_append (d : TrackedCursor) (calls more : List Call) :
    d.callAll (calls ++ more) = (d.callAll calls).callAll more := List.foldl_append

theorem callAll_cons (d : TrackedCursor) (q : Call) (calls : List Call) :
    d.callAll (q :: calls) = (d.call q).2.callAll calls := rfl

theorem callAll_concat (d : TrackedCursor) (calls : List Call) (q : Call) :
    d.callAll (calls ++ [q]) = ((d.callAll calls).call q).2 := List.foldl_concat ..

/-! ### Moves -/

theorem cursor_call (d : TrackedCursor) (q : Call) :
    (d.call q).2.cursor = if q.goesOn d.cursor then d.cursor.next else d.cursor := by
  cases q with
  | bump => rfl
  | eat kind =>
    simp only [call, Call.goesOn, Cursor.eat]
    split <;> rfl
  | _ => rfl

theorem exists_passes_call (d : TrackedCursor) (q : Call) : ∃ ts,
    d.cursor.Passes ts (d.call q).2.cursor ∧ ∀ t ∈ ts, t.kind ≠ .eof := by
  rw [cursor_call]
  split
  · exact d.cursor.exists_passes_next
  · exact ⟨[], .refl _, by simp⟩

theorem exists_passes_callAll (d : TrackedCursor) (calls : List Call) : ∃ ts,
    d.cursor.Passes ts (d.callAll calls).cursor ∧ ∀ t ∈ ts, t.kind ≠ .eof := by
  induction calls generalizing d with
  | nil => exact ⟨[], .refl _, by simp⟩
  | cons q calls ih =>
    obtain ⟨ts, p, hts⟩ := d.exists_passes_call q
    obtain ⟨us, p', hus⟩ := ih (d.call q).2
    refine ⟨ts ++ us, p.trans p', ?_⟩
    intro t ht
    exact (List.mem_append.mp ht).elim (hts t) (hus t)

/-- A call that goes on moves the cursor by one token if that is none of the end, and no other call
moves it. -/
theorem moves_call (h : EndsInEnd d.cursor.tokens) (q : Call) :
    if q.goesOn d.cursor = true ∧ d.cursor.current.kind ≠ .eof then
      (d.call q).2.cursor.index = d.cursor.index + 1
    else (d.call q).2.cursor = d.cursor := by
  rw [cursor_call]
  by_cases hq : q.goesOn d.cursor = true
  · by_cases hk : d.cursor.current.kind = .eof
    · simp [hq, hk, Cursor.next_of_eof hk]
    · simpa [hq, hk] using (h.passes_next hk).index_eq
  · simp [hq]

theorem index_call_le (h : EndsInEnd d.cursor.tokens) (q : Call) :
    (d.call q).2.cursor.index ≤ d.cursor.index + 1 := by
  have hmoves := moves_call h q
  split at hmoves
  · exact hmoves.le
  · rw [hmoves]
    exact Nat.le_succ _

theorem index_callAll_le (h : EndsInEnd d.cursor.tokens) (calls : List Call) :
    (d.callAll calls).cursor.index ≤ d.cursor.index + calls.length := by
  induction calls generalizing d with
  | nil => exact Nat.le_refl _
  | cons q calls ih =>
    obtain ⟨ts, p, -⟩ := d.exists_passes_call q
    have hfirst := index_call_le h q
    have hrest := ih (h.of_passes p)
    rw [callAll_cons, List.length_cons]
    omega

/-! ### Checks -/

theorem progress_call (d : TrackedCursor) (q : Call) :
    (d.call q).2.progress = if q.isCheck then .mark d.cursor else d.progress := by
  cases q <;> rfl

theorem progress_callAll {calls : List Call} (h : ∀ q ∈ calls, q.isCheck = false) :
    (d.callAll calls).progress = d.progress := by
  induction calls generalizing d with
  | nil => rfl
  | cons q calls ih =>
    obtain ⟨hq, hcalls⟩ := List.forall_mem_cons.mp h
    rw [callAll_cons, ih hcalls, progress_call, hq]
    rfl

theorem passes_callAll {q : Call} {calls : List Call} (hq : q.isCheck = true)
    (h : ∀ r ∈ calls, r.isCheck = false) :
    (d.callAll (q :: calls)).progress.passes (d.callAll (q :: calls)).cursor =
      decide (d.cursor.index < (d.callAll (q :: calls)).cursor.index) := by
  obtain ⟨ts, p, -⟩ := d.exists_passes_callAll (q :: calls)
  rw [callAll_cons, progress_callAll h, progress_call, hq]
  exact passes_mark_of_passes p

/-! ### Looking ahead -/

/-- A token of the end stands at the end only. -/
def IsOnlyEnd (ts : List Token) : Prop := EndsInEnd ts ∧ ∀ t ∈ ts.dropLast, t.kind ≠ .eof

theorem IsOnlyEnd.of_passes {c e : Cursor} {ts : List Token} (h : IsOnlyEnd c.tokens)
    (p : c.Passes ts e) : IsOnlyEnd e.tokens := by
  refine ⟨h.1.of_passes p, fun t ht => h.2 t ?_⟩
  have hne : e.tokens ≠ [] := List.cons_ne_nil _ _
  rw [p.tokens_eq, List.dropLast_append_of_ne_nil hne]
  exact List.mem_append_right _ ht

theorem nth_eq_of_min {c : Cursor} {t : Token} {n : Nat}
    (h : c.tokens[min n c.ahead.length]? = some t) : c.nth n = t.kind := by
  have hget : c.tokens.getD (min n c.ahead.length) c.current = t := by
    rw [List.getD_eq_getElem?_getD, h, Option.getD_some]
  exact congrArg Token.kind hget

/-- What is seen at a distance is seen from the next token at a distance less by one. -/
theorem IsOnlyEnd.nth_succ {c : Cursor} (h : IsOnlyEnd c.tokens) (n : Nat) :
    c.nth (n + 1) = c.next.nth n := by
  by_cases hk : c.current.kind = .eof
  · have hahead : c.ahead = [] := by
      by_contra hne
      refine h.2 c.current ?_ hk
      rw [Cursor.tokens, List.dropLast_cons_of_ne_nil hne]
      exact List.mem_cons_self ..
    rw [Cursor.next_of_eof hk]
    simp [Cursor.nth, hahead]
  · -- The next token is seen one place nearer, and so is the last one, where looking ahead ends.
    have p := h.1.passes_next hk
    have hahead : c.ahead = c.next.tokens := (List.cons.inj p.tokens_eq).2
    have hlength : c.ahead.length = c.next.ahead.length + 1 := by
      rw [hahead, Cursor.tokens, List.length_cons]
    obtain ⟨t, ht⟩ : ∃ t, c.next.tokens[min n c.next.ahead.length]? = some t := by
      rw [← Option.isSome_iff_exists, isSome_getElem?, Cursor.tokens, List.length_cons]
      omega
    rw [nth_eq_of_min ht]
    apply nth_eq_of_min
    rw [hlength, Nat.add_min_add_right, p.tokens_eq, List.singleton_append, List.getElem?_cons_succ,
      ht]

/-- Looking ahead shows what is come to by going on. -/
theorem IsOnlyEnd.nth_eq (h : IsOnlyEnd d.cursor.tokens) (n : Nat) :
    d.cursor.nth n = (d.callAll (List.replicate n .bump)).cursor.current.kind := by
  induction n generalizing d with
  | zero => simp [Cursor.nth, callAll]
  | succ n ih =>
    obtain ⟨ts, p, -⟩ := d.exists_passes_call .bump
    rw [List.replicate_succ, callAll_cons, h.nth_succ, ← ih (h.of_passes p)]
    rfl

/-! ### Runs of calls -/

/-- A cursor that no call has been made on. -/
def ofCursor (c : Cursor) : TrackedCursor := ⟨c, .start⟩

/-- How a cursor that started on the first of the tokens stands after the calls, and how it answers
the next one. -/
structure KeepsStep (tokens : List Token) (start : TrackedCursor) (calls : List Call) : Prop where
  isWithin : (start.callAll calls).cursor.IsWithin tokens
  index_le (more : List Call) : (start.callAll calls).cursor.index ≤
    (start.callAll (calls ++ more)).cursor.index
  index_le_add (more : List Call) : (start.callAll (calls ++ more)).cursor.index ≤
    (start.callAll calls).cursor.index + more.length
  moves (q : Call) :
    if q.goesOn (start.callAll calls).cursor = true ∧
        (start.callAll calls).cursor.current.kind ≠ .eof then
      (start.callAll (calls ++ [q])).cursor.index = (start.callAll calls).cursor.index + 1
    else (start.callAll (calls ++ [q])).cursor = (start.callAll calls).cursor
  firstCheck (h : ∀ q ∈ calls, q.isCheck = false) :
    ((start.callAll calls).call .hasProgressed).1 = .truth true
  laterCheck (before after : List Call) (q : Call) (heq : calls = before ++ q :: after)
    (hq : q.isCheck = true) (h : ∀ r ∈ after, r.isCheck = false) :
    ((start.callAll calls).call .hasProgressed).1 =
      .truth (decide ((start.callAll before).cursor.index < (start.callAll calls).cursor.index))
  passes_iff : ((start.callAll calls).call .assertProgressing).1 = .checked (.ok ()) ↔
    ((start.callAll calls).call .hasProgressed).1 = .truth true
  breaks_iff : ((start.callAll calls).call .assertProgressing).1 =
      .checked (.error (.ofStall (start.callAll calls).cursor)) ↔
    ((start.callAll calls).call .hasProgressed).1 = .truth false
  nth_eq (h : ∀ t ∈ tokens.dropLast, t.kind ≠ .eof) (n : Nat) :
    ((start.callAll calls).call (.nth n)).1 =
      .kind (start.callAll (calls ++ List.replicate n .bump)).cursor.current.kind

theorem keepsStep (h : EndsInEnd tokens) {start : TrackedCursor}
    (hstart : Cursor.ofTokens? tokens = some start.cursor) (hmark : start.progress = .start)
    (calls : List Call) : KeepsStep tokens start calls := by
  have hcursor : start.cursor = .atIndex tokens 0 h.length_pos :=
    Option.some.inj (hstart.symm.trans (Cursor.ofTokens?_eq h))
  have htokens : start.cursor.tokens = tokens := by
    rw [hcursor, Cursor.tokens_atIndex, List.drop_zero]
  have hindex : start.cursor.index = 0 := by rw [hcursor, Cursor.index_atIndex]
  obtain ⟨ts, p, hts⟩ := start.exists_passes_callAll calls
  have hend : EndsInEnd (start.callAll calls).cursor.tokens := (htokens ▸ h).of_passes p
  constructor
  case isWithin => exact htokens ▸ p.isWithin hindex hts
  case index_le =>
    intro more
    obtain ⟨us, p', -⟩ := (start.callAll calls).exists_passes_callAll more
    rw [callAll_append, p'.index_eq]
    exact Nat.le_add_right _ _
  case index_le_add =>
    intro more
    rw [callAll_append]
    exact index_callAll_le hend more
  case moves =>
    intro q
    rw [callAll_concat]
    exact moves_call hend q
  case firstCheck =>
    intro hnone
    simp [call, Progress.check, progress_callAll hnone, hmark, Progress.passes, Progress.start]
  case laterCheck =>
    rintro before after q rfl hq hafter
    rw [callAll_append, call, Progress.check, passes_callAll hq hafter]
  case passes_iff => simp [call, Progress.insist, Progress.check]
  case breaks_iff => simp [call, Progress.insist, Progress.check]
  case nth_eq =>
    intro honly n
    have honly' : IsOnlyEnd start.cursor.tokens := htokens ▸ ⟨h, honly⟩
    rw [callAll_append, ← (honly'.of_passes p).nth_eq]
    rfl

end TrackedCursor

open TrackedCursor

/-- On tokens that end with one of the end a cursor can be set, and whatever it is then asked, it
stays in the list and goes forward one token at a time, no further than to the first token of the
end. A check passes if it is the first one or if the cursor has moved since the last one. -/
theorem cursor_keeps_step {tokens : List Token} (h : EndsInEnd tokens) :
    ∃ c, Cursor.ofTokens? tokens = some c ∧ c.index = 0 ∧
      ∀ calls, KeepsStep tokens (.ofCursor c) calls :=
  ⟨_, Cursor.ofTokens?_eq h, rfl, keepsStep h (Cursor.ofTokens?_eq h) rfl⟩

/-- The header of a step, as far as its number. -/
def headerTokens : List Token :=
  [.onFirstLine .openParen "(" 0, .numberOnFirstLine "1" 1 1, .onFirstLine .eof "" 2]

/-- The second check fails and still counts for the third one, which comes after a token has been
passed. -/
theorem failedCheck_counts : EndsInEnd headerTokens ∧
    ∃ c, Cursor.ofTokens? headerTokens = some c ∧
      (((ofCursor c).callAll [.hasProgressed]).call .assertProgressing).1 =
        .checked (.error (.stalled .openParen ⟨1, 1, 0⟩)) ∧
      (((ofCursor c).callAll [.hasProgressed, .assertProgressing, .eat .number,
        .eat .openParen]).call .hasProgressed).1 = .truth true ∧
      (((ofCursor c).callAll [.eat .openParen]).call (.nth 5)).1 = .kind .eof := by
  have hend : EndsInEnd headerTokens := by decide
  obtain ⟨c, hc, -, hkeeps⟩ := cursor_keeps_step hend
  have hcursor : c = .atIndex headerTokens 0 (by decide) :=
    Option.some.inj (hc.symm.trans (Cursor.ofTokens?_eq hend))
  refine ⟨hend, c, hc, ?stalls, ?passes, ?ahead⟩
  case stalls =>
    rw [hcursor]
    rfl
  case passes =>
    refine ((hkeeps _).laterCheck [.hasProgressed] [.eat .number, .eat .openParen]
      .assertProgressing rfl rfl (by decide)).trans ?_
    rw [hcursor]
    rfl
  case ahead =>
    rw [(hkeeps _).nth_eq (by decide), hcursor]
    rfl

end StepMachine
