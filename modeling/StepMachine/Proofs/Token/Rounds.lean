import Mathlib.Logic.Relation
import StepMachine.Proofs.Position
import StepMachine.Proofs.Token.Decoding
import StepMachine.Proofs.Token.Pending

/-! # Rounds of the scanner

The loop of the scanner looks at one character in a round, which it takes or hands back. After a
character has been handed back the machine is between tokens, where every character is taken, so the
rounds come to an end, and that is the end of the text. On the way every character that has been
taken is a blank, or it is in a token that has been emitted or in the pending one.
-/
namespace StepMachine

/-! ### What a character can do -/

namespace ScanState

variable {st : ScanState} {c : Char} {kind : TokenKind}

/-- The kind of token that a state builds. -/
def builds? (st : ScanState) : Option TokenKind := st.pending?.map Prod.fst

theorem exists_builds (h : st ≠ .dispatch) : ∃ kind, st.builds? = some kind := by
  cases st with
  | dispatch => exact absurd rfl h
  | _ => exact ⟨_, rfl⟩

/-- Inside a token of this kind a character is taken into it, or it is the last one, or the token is
a run that ends before it. -/
inductive MovesInside (st : ScanState) (kind : TokenKind) : ScanMove → Prop
  | take {next : ScanState} (h : next.builds? = some kind) : MovesInside st kind (.take next)
  | finish : MovesInside st kind (.finish kind)
  | handBack (h : st ∈ [name, number, patternFlags]) : MovesInside st kind (.handBack kind)

theorem movesInside (h : st.builds? = some kind) (c : Char) : st.MovesInside kind (st.move c) := by
  cases st with
  | dispatch => cases h
  | name | number | patternFlags =>
    cases h
    simp only [move]
    split
    · exact .take rfl
    · exact .handBack (by decide)
  | patternBody =>
    cases h
    simp only [move]
    split_ifs <;> exact .take rfl
  | patternEscape | doubleStringEscape | singleStringEscape =>
    cases h
    exact .take rfl
  | doubleString | singleString =>
    cases h
    simp only [move, stringMove]
    split_ifs
    · exact .take rfl
    · exact .finish
    · exact .take rfl

theorem isBlank_of_dispatchMove (h : dispatchMove c = .skip) : Text.isBlank c = true := by
  unfold dispatchMove at h
  split at h
  · cases h
  · split_ifs at h with hblank
    exact hblank

end ScanState

namespace Scanner

variable {s t u : Scanner} {c : Char} {kind : TokenKind} {cs : List Char}

theorem position_mark (s : Scanner) : s.mark.position = s.position := by
  unfold mark
  split <;> rfl

theorem tokens_mark (s : Scanner) : s.mark.tokens = s.tokens := by
  unfold mark
  split <;> rfl

theorem held_mark (s : Scanner) : s.mark.held = s.held := by
  unfold mark
  split <;> rfl

/-- A character is taken, or else it stays where it is. -/
theorem position_handle (s : Scanner) (c : Char) : (s.handle c).position =
    if s.state.handsBack c then s.position else s.position.advance c := by
  unfold handle ScanState.handsBack
  split <;> simp [*, bump, emit, report, position_mark]

theorem position_handle_of_dispatch (h : s.state = .dispatch) (c : Char) :
    (s.handle c).position = s.position.advance c := by
  rw [position_handle, h, ScanState.dispatch_handsBack, if_neg Bool.false_ne_true]

/-- The pending token is emitted and no character taken. The next one will be. -/
structure HandsBack (s t : Scanner) : Prop where
  state_mem : s.state ∈ [ScanState.name, .number, .patternFlags]
  position_eq : t.position = s.position
  state_eq : t.state = .dispatch
  emits : ∃ token : Token, token.text ≠ "" ∧ t.tokens = s.tokens.push token
  next : ∀ c, (t.handle c).position = t.position.advance c

theorem mem_tokens_handle {token : Token} (h : token ∈ s.tokens) :
    token ∈ (s.handle c).tokens := by
  unfold handle
  split <;> simp [bump, emit, report, tokens_mark, h]

end Scanner

/-! ### What has been taken -/

/-- The character with this index of the text is in the token. -/
def Token.Holds (t : Token) (i : Nat) (c : Char) : Prop :=
  t.position.index ≤ i ∧ t.text.toList[i - t.position.index]? = some c

namespace Scanner

/-- The part of a text from the start of the pending token to the next character. -/
def pendingText (cs : List Char) (s : Scanner) : List Char :=
  (cs.take s.position.index).drop s.tokenStart.index

/-- Between tokens, every character that has been taken is a blank or in a token. -/
structure IsClear (cs : List Char) (s : Scanner) : Prop extends s.IsIdle where
  index_le : s.position.index ≤ cs.length
  covered : ∀ i c, i < s.position.index → cs[i]? = some c → Text.isBlank c = false →
    ∃ t ∈ s.tokens, t.Holds i c

/-- A part of the text that has been taken is held back, and what comes before it is blank or in a
token. -/
structure IsHolding (cs : List Char) (s : Scanner) : Prop where
  index_le : s.position.index ≤ cs.length
  start_le : s.tokenStart.index ≤ s.position.index
  held_eq : s.held.toList = s.pendingText cs
  covered : ∀ i c, i < s.position.index → cs[i]? = some c → Text.isBlank c = false →
    (∃ t ∈ s.tokens, t.Holds i c) ∨ s.tokenStart.index ≤ i

/-- The invariant of the rounds. -/
inductive IsReading (cs : List Char) (s : Scanner) : Prop
  | clear (h : s.IsClear cs)
  | holding (hst : s.state ≠ .dispatch) (h : s.IsHolding cs)
      (ht : s.state.IsPendingText s.held.toList)

variable {s t u : Scanner} {c : Char} {kind : TokenKind} {cs : List Char}

theorem isReading_start (cs : List Char) : start.IsReading cs :=
  .clear ⟨⟨rfl, rfl⟩, Nat.zero_le _, fun _ _ hi => absurd hi (Nat.not_lt_zero _)⟩

theorem IsReading.index_le (h : s.IsReading cs) : s.position.index ≤ cs.length := by
  cases h with
  | clear h => exact h.index_le
  | holding _ h _ => exact h.index_le

theorem IsReading.isPendingText (h : s.IsReading cs) : s.state.IsPendingText s.held.toList := by
  cases h with
  | clear h =>
    rw [h.state_eq, h.held_eq]
    rfl
  | holding _ _ ht => exact ht

theorem drop_take_succ {m n : Nat} (hc : cs[n]? = some c) (hm : m ≤ n) :
    (cs.take (n + 1)).drop m = (cs.take n).drop m ++ [c] := by
  have hn : n < cs.length := (List.getElem?_eq_some_iff.mp hc).1
  rw [List.take_add_one, hc, Option.toList_some, List.drop_append_of_le_length]
  rw [List.length_take]
  omega

theorem IsReading.isHolding_mark (h : s.IsReading cs) : s.mark.IsHolding cs := by
  cases h with
  | clear h =>
    have hmark : s.mark = { s with tokenStart := s.position } := if_pos h.state_eq
    rw [hmark]
    refine ⟨h.index_le, Nat.le_refl _, ?_, fun i c hi hc hblank => .inl (h.covered i c hi hc hblank)⟩
    simp [h.held_eq, pendingText]
  | holding hst h _ => rwa [mark_of_ne hst]

theorem IsHolding.bump (h : s.IsHolding cs) (hc : cs[s.position.index]? = some c) :
    (s.bump c).IsHolding cs := by
  have hn : s.position.index < cs.length := (List.getElem?_eq_some_iff.mp hc).1
  have hindex : (s.bump c).position.index = s.position.index + 1 := Position.index_advance ..
  refine ⟨hindex ▸ hn, hindex ▸ Nat.le_succ_of_le h.start_le, ?_, ?_⟩
  · have hheld : (s.bump c).held.toList = s.held.toList ++ [c] := Array.toList_push
    rw [hheld, h.held_eq, pendingText, pendingText, hindex]
    exact (drop_take_succ hc h.start_le).symm
  · intro i d hi hd hblank
    rw [hindex] at hi
    rcases Nat.lt_succ_iff_lt_or_eq.mp hi with hlt | rfl
    · exact h.covered i d hlt hd hblank
    · exact .inr h.start_le

theorem IsHolding.isClear_emit (h : s.IsHolding cs) (kind : TokenKind) (invalid : Bool) :
    (s.emit kind invalid).IsClear cs := by
  refine ⟨⟨rfl, rfl⟩, h.index_le, ?_⟩
  intro i c hi hc hblank
  rcases h.covered i c hi hc hblank with ⟨t, ht, hholds⟩ | hstart
  · exact ⟨t, Array.mem_push_of_mem _ ht, hholds⟩
  · refine ⟨_, Array.mem_push_self, hstart, ?_⟩
    have hi' : i < s.position.index := hi
    rw [String.toList_ofList, h.held_eq, pendingText, List.getElem?_drop,
      Nat.add_sub_cancel' hstart, List.getElem?_take_of_lt hi', hc]

theorem IsClear.report (h : s.IsClear cs) (cause : Cause) : (s.report cause).IsClear cs :=
  ⟨⟨h.state_eq, h.held_eq⟩, h.index_le, h.covered⟩

theorem IsClear.skip (h : s.IsClear cs) (hc : cs[s.position.index]? = some c)
    (hblank : Text.isBlank c = true) :
    { s.mark with position := s.position.advance c }.IsClear cs := by
  have hn : s.position.index < cs.length := (List.getElem?_eq_some_iff.mp hc).1
  have hmark : s.mark = { s with tokenStart := s.position } := if_pos h.state_eq
  rw [hmark]
  refine ⟨⟨h.state_eq, h.held_eq⟩, ?_, ?_⟩
  · rw [Position.index_advance]
    exact hn
  · intro i d hi hd hd'
    rw [Position.index_advance] at hi
    rcases Nat.lt_succ_iff_lt_or_eq.mp hi with hlt | rfl
    · exact h.covered i d hlt hd hd'
    · obtain rfl : c = d := Option.some.inj (hc.symm.trans hd)
      simp [hblank] at hd'

/-- A look at the next character keeps the invariant. -/
theorem IsReading.handle (h : s.IsReading cs) (hc : cs[s.position.index]? = some c) :
    (s.handle c).IsReading cs := by
  -- Where a character is taken inside a token or ends one, it is held first, whatever comes of it.
  have hbump : (s.mark.bump c).IsHolding cs :=
    h.isHolding_mark.bump (by rwa [position_mark])
  unfold Scanner.handle
  split
  · next hm =>
    cases h with
    | clear h => exact .clear (h.skip hc (ScanState.isBlank_of_dispatchMove (h.move_eq ▸ hm)))
    | holding hst _ _ =>
      obtain ⟨kind, hkind⟩ := ScanState.exists_builds hst
      have hinside := ScanState.movesInside hkind c
      rw [hm] at hinside
      cases hinside
  · next next hm =>
    have ht : next.IsPendingText (s.held.toList ++ [c]) := h.isPendingText.take hm
    have hheld : (s.mark.bump c).held.toList = s.held.toList ++ [c] := by
      rw [bump, held_mark, Array.toList_push]
    refine .holding ?_ ⟨hbump.index_le, hbump.start_le, hbump.held_eq, hbump.covered⟩ (hheld ▸ ht)
    rintro rfl
    simp [ScanState.IsPendingText] at ht
  · exact .clear (hbump.isClear_emit _ _)
  · exact .clear ((hbump.isClear_emit _ _).report _)
  · next kind hm =>
    cases h with
    | clear h =>
      have hback := ScanState.dispatch_handsBack c
      rw [h.state_eq] at hm
      simp [ScanState.handsBack, hm] at hback
    | holding _ h _ => exact .clear (h.isClear_emit _ _)

theorem IsReading.isClear_close (h : s.IsReading cs) : s.close.IsClear cs := by
  cases h with
  | clear h =>
    have hclose : s.close = s := by simp [close, h.state_eq, ScanState.pending?]
    rwa [hclose]
  | holding hst h _ =>
    unfold close
    split
    · next hnone =>
      obtain ⟨kind, hkind⟩ := ScanState.exists_builds hst
      simp [ScanState.builds?, hnone] at hkind
    · exact h.isClear_emit _ _
    · exact (h.isClear_emit _ _).report _

/-! ### Rounds -/

/-- A round of the loop over a text: the next character is looked at once. -/
def Round (cs : List Char) (s t : Scanner) : Prop :=
  ∃ c, cs[s.position.index]? = some c ∧ t = s.handle c

/-- The machine comes from one state to the other by rounds. -/
def Reaches (cs : List Char) : Scanner → Scanner → Prop := Relation.ReflTransGen (Round cs)

/-- An upper bound for the number of rounds that are left. -/
def remaining (cs : List Char) (s : Scanner) : Nat :=
  2 * (cs.length - s.position.index) + if s.state = .dispatch then 0 else 1

theorem exists_round_iff : (∃ t, Round cs s t) ↔ s.position.index < cs.length := by
  constructor
  · rintro ⟨t, c, hc, -⟩
    exact (List.getElem?_eq_some_iff.mp hc).1
  · intro h
    exact ⟨_, _, List.getElem?_eq_getElem h, rfl⟩

theorem round_unique : Relator.RightUnique (Round cs) := by
  rintro s t u ⟨c, hc, rfl⟩ ⟨d, hd, rfl⟩
  obtain rfl : c = d := Option.some.inj (hc.symm.trans hd)
  rfl

theorem IsReading.of_reaches (h : s.IsReading cs) (hr : Reaches cs s t) : t.IsReading cs := by
  induction hr with
  | refl => exact h
  | tail _ hround ih =>
    obtain ⟨c, hc, rfl⟩ := hround
    exact ih.handle hc

theorem handle_of_handsBack (h : s.state.handsBack c = true) :
    s.state ∈ [ScanState.name, .number, .patternFlags] ∧ ∃ kind, s.handle c = s.emit kind false := by
  have hst : s.state ≠ .dispatch := by
    intro hst
    rw [hst, ScanState.dispatch_handsBack] at h
    cases h
  obtain ⟨kind, hkind⟩ := ScanState.exists_builds hst
  have hinside := ScanState.movesInside hkind c
  unfold ScanState.handsBack at h
  unfold Scanner.handle
  split at h
  · next other hm =>
    rw [hm] at hinside
    cases hinside with
    | handBack hmem => exact ⟨hmem, kind, by rw [hm]⟩
  · cases h

theorem IsReading.takes_or_handsBack (h : s.IsReading cs) (c : Char) :
    (s.handle c).position = s.position.advance c ∨ s.HandsBack (s.handle c) := by
  have hposition := s.position_handle c
  split at hposition
  · next hback =>
    right
    obtain ⟨hmem, kind, hhandle⟩ := handle_of_handsBack hback
    have hne : s.held.toList ≠ [] := by
      apply h.isPendingText.ne_nil
      intro hst
      simp [hst] at hmem
    rw [hhandle]
    exact ⟨hmem, rfl, rfl, ⟨_, by simpa using hne, rfl⟩, position_handle_of_dispatch rfl⟩
  · exact .inl hposition

theorem IsReading.remaining_lt (h : s.IsReading cs) (hr : Round cs s t) :
    remaining cs t < remaining cs s := by
  obtain ⟨c, hc, rfl⟩ := hr
  have hn : s.position.index < cs.length := (List.getElem?_eq_some_iff.mp hc).1
  unfold remaining
  rcases h.takes_or_handsBack c with htake | hback
  · rw [htake, Position.index_advance]
    split_ifs <;> omega
  · have hst : s.state ≠ .dispatch := by
      intro hst
      have hmem := hback.state_mem
      simp [hst] at hmem
    rw [hback.position_eq, if_pos hback.state_eq, if_neg hst]
    omega

/-! ### The end of the rounds -/

theorem reaches_feed (hc : cs[s.position.index]? = some c) :
    Reaches cs s (s.feed c) ∧ (s.feed c).position = s.position.advance c := by
  -- A character that is handed back is looked at once more, so it makes for two rounds.
  unfold feed
  have hposition := s.position_handle c
  split
  · next hback =>
    rw [if_pos hback] at hposition
    obtain ⟨-, kind, hhandle⟩ := handle_of_handsBack hback
    have hdispatch : (s.handle c).state = .dispatch := by rw [hhandle, emit]
    refine ⟨.head ⟨c, hc, rfl⟩ (.single ⟨c, by rwa [hposition], rfl⟩), ?_⟩
    rw [position_handle_of_dispatch hdispatch, hposition]
  · next hback =>
    rw [if_neg hback] at hposition
    exact ⟨.single ⟨c, hc, rfl⟩, hposition⟩

theorem reaches_feedAll (ds : List Char) (h : cs.drop s.position.index = ds) :
    Reaches cs s (s.feedAll ds) ∧
      (s.feedAll ds).position.index = s.position.index + ds.length := by
  induction ds generalizing s with
  | nil => exact ⟨.refl, rfl⟩
  | cons c ds ih =>
    have hc : cs[s.position.index]? = some c := by rw [← List.head?_drop, h, List.head?_cons]
    obtain ⟨hfeed, hposition⟩ := s.reaches_feed hc
    have hrest : cs.drop (s.feed c).position.index = ds := by
      rw [hposition, Position.index_advance, ← List.tail_drop, h, List.tail_cons]
    obtain ⟨hall, hindex⟩ := ih hrest
    rw [feedAll_cons, List.length_cons, hindex, hposition, Position.index_advance]
    exact ⟨hfeed.trans hall, by omega⟩

/-- The machine when the loop is done. -/
def atEnd (cs : List Char) : Scanner := start.feedAll cs

theorem reaches_atEnd (cs : List Char) : Reaches cs start (atEnd cs) ∧
    (atEnd cs).position.index = cs.length := by
  have hstart : cs.drop start.position.index = cs := rfl
  obtain ⟨hreaches, hindex⟩ := reaches_feedAll cs hstart
  exact ⟨hreaches, hindex.trans (Nat.zero_add _)⟩

/-- Whatever the rounds have come to, they go on to the same end. -/
theorem Reaches.atEnd (h : Reaches cs start s) : Reaches cs s (atEnd cs) := by
  obtain ⟨hend, hindex⟩ := reaches_atEnd cs
  -- A round has one outcome only, so of two states that are reached one leads to the other.
  rcases Relation.ReflTransGen.total_of_right_unique round_unique h hend with hr | hr
  · exact hr
  · rcases Relation.ReflTransGen.cases_head hr with heq | ⟨t, hround, -⟩
    · exact heq ▸ .refl
    · have hlt := exists_round_iff.mp ⟨t, hround⟩
      omega

/-! ### The pending token -/

theorem mem_tokens_of_reaches (h : Reaches cs s t) {token : Token} (ht : token ∈ s.tokens) :
    token ∈ t.tokens := by
  induction h with
  | refl => exact ht
  | tail _ hround ih =>
    obtain ⟨c, -, rfl⟩ := hround
    exact mem_tokens_handle ih

theorem mem_tokens_close {token : Token} (h : token ∈ s.tokens) : token ∈ s.close.tokens := by
  unfold close
  split <;> simp [emit, report, h]

/-- The token is of this kind and starts where the pending one does, with what is held. -/
def Extends (s : Scanner) (kind : TokenKind) (t : Token) : Prop :=
  t.kind = kind ∧ t.position = s.tokenStart ∧ s.held.toList <+: t.text.toList

theorem exists_extends_emit (s : Scanner) (kind : TokenKind) (invalid : Bool) :
    ∃ t ∈ (s.emit kind invalid).tokens, s.Extends kind t :=
  ⟨_, Array.mem_push_self, rfl, rfl, by simp⟩

theorem extends_of_bump {t : Token} (h : (s.bump c).Extends kind t) : s.Extends kind t := by
  obtain ⟨hk, hp, hheld⟩ := h
  refine ⟨hk, hp, List.IsPrefix.trans ?_ hheld⟩
  rw [bump, Array.toList_push]
  exact List.prefix_append _ _

theorem exists_extends_close (hkind : s.state.builds? = some kind) :
    ∃ t ∈ s.close.tokens, s.Extends kind t := by
  unfold close
  split
  · next hnone => simp [ScanState.builds?, hnone] at hkind
  · next k hk =>
    obtain rfl : k = kind := by simpa [ScanState.builds?, hk] using hkind
    exact s.exists_extends_emit k false
  · next k code hk =>
    obtain rfl : k = kind := by simpa [ScanState.builds?, hk] using hkind
    exact s.exists_extends_emit k true

/-- A look at a character leaves more of the same pending token, or the token is emitted. -/
theorem handle_pending (hkind : s.state.builds? = some kind) (c : Char) :
    ((s.handle c).state.builds? = some kind ∧
      ∀ t, (s.handle c).Extends kind t → s.Extends kind t) ∨
    ∃ t ∈ (s.handle c).tokens, s.Extends kind t := by
  have hst : s.state ≠ .dispatch := by
    intro hst
    rw [hst] at hkind
    cases hkind
  have hinside := ScanState.movesInside hkind c
  unfold Scanner.handle
  rw [mark_of_ne hst]
  generalize s.state.move c = move at hinside
  cases hinside with
  | take hnext => exact .inl ⟨hnext, fun _ ht => extends_of_bump ht⟩
  | finish =>
    obtain ⟨t, ht, hextends⟩ := (s.bump c).exists_extends_emit kind false
    exact .inr ⟨t, ht, extends_of_bump hextends⟩
  | handBack _ => exact .inr (s.exists_extends_emit kind false)

/-- What is pending becomes part of a token of the kind that the state builds. -/
theorem exists_token_of_pending (h : Reaches cs s u) (hkind : s.state.builds? = some kind) :
    ∃ t ∈ u.close.tokens, s.Extends kind t := by
  -- From the first round on: as long as the token is pending, the rounds after it see to it.
  induction h using Relation.ReflTransGen.head_induction_on with
  | refl => exact exists_extends_close hkind
  | @head s v hround hrest ih =>
    obtain ⟨c, -, rfl⟩ := hround
    rcases handle_pending hkind c with ⟨hnext, hback⟩ | ⟨t, ht, hextends⟩
    · obtain ⟨t, ht, hextends⟩ := ih hnext
      exact ⟨t, ht, hback t hextends⟩
    · exact ⟨t, mem_tokens_close (mem_tokens_of_reaches hrest ht), hextends⟩

/-! ### All rounds -/

/-- What is pending is the part of the text since the token began. It has the form that belongs to
the state, an undamaged token of the kind that the state builds begins with it, and so does the
token of the text that is emitted in the end. -/
structure HasPending (cs : List Char) (s : Scanner) (kind : TokenKind) : Prop where
  builds : s.state.builds? = some kind
  held_eq : s.held.toList = s.pendingText cs
  ne_nil : s.pendingText cs ≠ []
  isPendingText : s.state.IsPendingText (s.pendingText cs)
  exists_lexeme : ∃ more, Lexeme (s.pendingText cs ++ more) [] kind false
  exists_token : ∃ t ∈ (atEnd cs).close.tokens, t.kind = kind ∧ t.position = s.tokenStart ∧
    s.pendingText cs <+: t.text.toList

/-- How the machine stands between two rounds, and what the next one can do. -/
structure GoesOn (cs : List Char) (s : Scanner) : Prop where
  index_le : s.position.index ≤ cs.length
  exists_round_iff : (∃ t, Round cs s t) ↔ s.position.index < cs.length
  takes_or_handsBack (c : Char) (hc : cs[s.position.index]? = some c) :
    (s.handle c).position = s.position.advance c ∨ s.HandsBack (s.handle c)
  remaining_lt (t : Scanner) (h : Round cs s t) : remaining cs t < remaining cs s
  reaches_atEnd : Reaches cs s (atEnd cs)
  isClear_close : s.close.IsClear cs
  hasPending (h : s.state ≠ .dispatch) : ∃ kind, s.HasPending cs kind

theorem Reaches.hasPending (h : Reaches cs start s) (hst : s.state ≠ .dispatch) :
    ∃ kind, s.HasPending cs kind := by
  obtain ⟨kind, hkind⟩ := ScanState.exists_builds hst
  cases (isReading_start cs).of_reaches h with
  | clear hclear => exact absurd hclear.state_eq hst
  | holding _ hholding ht =>
    have hheld := hholding.held_eq
    obtain ⟨⟨k, report⟩, hpending, rfl⟩ := Option.map_eq_some_iff.mp hkind
    rw [hheld] at ht
    obtain ⟨t, htoken, hextends⟩ := exists_token_of_pending h.atEnd hkind
    rw [Extends, hheld] at hextends
    exact ⟨k, hkind, hheld, ht.ne_nil hst, ht, ht.exists_lexeme hpending, t, htoken, hextends⟩

theorem Reaches.goesOn (h : Reaches cs start s) : s.GoesOn cs := by
  have hreading := (isReading_start cs).of_reaches h
  exact ⟨hreading.index_le, Scanner.exists_round_iff, fun c _ => hreading.takes_or_handsBack c,
    fun _ => hreading.remaining_lt, h.atEnd, hreading.isClear_close, h.hasPending⟩

/-- The rounds over a text end where the text does, and the scanner that is closed there is the one
that the tokens of the text are had from. Until then every round takes a character or is followed by
one that does, and all that has been taken is accounted for. -/
theorem rounds_end_with_text (text : String) :
    Reaches text.toList start (atEnd text.toList) ∧
    (atEnd text.toList).position.index = text.toList.length ∧
    (atEnd text.toList).close.state = .dispatch ∧
    (∀ (E : Engine) (tokens : List Token) (source : Source),
      (Source.ofText text).lex E = .ok (tokens, source) →
      source.scanner = (atEnd text.toList).close) ∧
    ∀ s, Reaches text.toList start s → s.GoesOn text.toList := by
  obtain ⟨hreaches, hindex⟩ := reaches_atEnd text.toList
  refine ⟨hreaches, hindex, hreaches.goesOn.isClear_close.state_eq, ?_, fun s hs => hs.goesOn⟩
  intro E tokens source h
  rw [lex_ofText] at h
  cases hdecode : Token.decodeAll E (rawTokens text.toList) with
  | error failure =>
    rw [hdecode] at h
    cases h
  | ok decoded =>
    rw [hdecode] at h
    cases h
    rfl

/-- After three characters an escape is pending in a string that the text never closes. -/
theorem escape_is_pending :
    Reaches "a\"\\".toList start (start.feedAll "a\"\\".toList) ∧
    (start.feedAll "a\"\\".toList).state = .doubleStringEscape ∧
    (start.feedAll "a\"\\".toList).HasPending "a\"\\".toList .string := by
  obtain ⟨hreaches, -, -, -, hgoesOn⟩ := rounds_end_with_text "a\"\\"
  obtain ⟨kind, hpending⟩ := (hgoesOn _ hreaches).hasPending (by decide)
  have hkind : kind = .string := Option.some.inj (hpending.builds.symm.trans (by decide))
  exact ⟨hreaches, by decide, hkind ▸ hpending⟩

end Scanner

end StepMachine
