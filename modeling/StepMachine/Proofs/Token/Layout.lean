import Mathlib.Data.List.Nodup
import StepMachine.Proofs.Position
import StepMachine.Proofs.Token.Decoding

/-! # Where tokens stand

The tokens of a text stand in it one after another with nothing but blanks before, between and
after them, and the token of the end stands at the end. So a text is the texts of its tokens with
blanks in the gaps, and a token is found in the text by its index. Line and column are those that
a reader of the text before the token would count.
-/
namespace StepMachine

/-- The index after the last character of the token. -/
def Token.stop (t : Token) : Nat := t.position.index + t.text.length

/-- After the text `pre` the tokens are laid out over the text that comes next. -/
inductive IsLaidOut : List Char → List Char → List Token → Prop
  | ending {pre : List Char} {t : Token} (hk : t.kind = .eof) (ht : t.text = "")
      (hp : t.position = Position.start.advanceOver pre) : IsLaidOut pre [] [t]
  | blank {pre : List Char} {c : Char} {cs : List Char} {ts : List Token}
      (hc : Text.isBlank c = true) (h : IsLaidOut (pre ++ [c]) cs ts) : IsLaidOut pre (c :: cs) ts
  | token {pre : List Char} {t : Token} {rest : List Char} {ts : List Token} (hk : t.kind ≠ .eof)
      (ht : t.text ≠ "") (hp : t.position = Position.start.advanceOver pre)
      (h : IsLaidOut (pre ++ t.text.toList) rest ts) :
      IsLaidOut pre (t.text.toList ++ rest) (t :: ts)

theorem Token.index_eq {t : Token} {pre : List Char}
    (hp : t.position = Position.start.advanceOver pre) : t.position.index = pre.length := by
  rw [hp, Position.index_advanceOver_start]

theorem Tokenizes.isLaidOut {p : Position} {cs : List Char} {raw : List Token}
    (h : Tokenizes p cs raw) {E : Engine} {pre : List Char} {ts : List Token}
    (hp : p = Position.start.advanceOver pre) (hd : List.Forall₂ (Token.DecodesTo E) raw ts) :
    IsLaidOut pre cs ts := by
  induction h generalizing pre ts with
  | ending p =>
    obtain ⟨t, ts, ht, hts, rfl⟩ := List.forall₂_cons_left_iff.mp hd
    rw [List.forall₂_nil_left_iff.mp hts]
    exact .ending ht.kind_eq ht.text_eq (ht.position_eq.trans hp)
  | @blank p c cs raw hc _ ih =>
    refine .blank hc (ih ?_ hd)
    rw [hp, Position.advanceOver_concat]
  | @token p text rest kind damaged raw _ hl _ ih =>
    obtain ⟨t, ts, ht, hts, rfl⟩ := List.forall₂_cons_left_iff.mp hd
    have htext : t.text.toList = text := by rw [ht.text_eq, String.toList_ofList]
    subst htext
    refine .token ?_ ?_ (ht.position_eq.trans hp) (ih ?_ hts)
    · rw [ht.kind_eq]
      exact hl.kind_ne_eof
    · intro he
      exact hl.ne_nil (by simp [he])
    · rw [hp, Position.advanceOver_append]

namespace IsLaidOut

variable {pre cs : List Char} {ts : List Token}

/-- The last token, and no other, is one of the end. -/
theorem exists_ending (h : IsLaidOut pre cs ts) : ∃ body t, ts = body ++ [t] ∧ t.kind = .eof ∧
    t.text = "" ∧ t.position.index = (pre ++ cs).length ∧
    ∀ u ∈ body, u.kind ≠ .eof ∧ u.text ≠ "" := by
  induction h with
  | @ending pre t hk ht hp =>
    exact ⟨[], t, rfl, hk, ht, by rw [Token.index_eq hp, List.append_nil], by simp⟩
  | @blank pre c cs ts _ _ ih =>
    rw [List.append_cons]
    exact ih
  | @token pre t rest ts hk ht _ _ ih =>
    obtain ⟨body, u, rfl, hu, htext, hindex, hbody⟩ := ih
    rw [← List.append_assoc]
    refine ⟨t :: body, u, rfl, hu, htext, hindex, ?_⟩
    intro v hv
    rcases List.mem_cons.mp hv with rfl | hv
    · exact ⟨hk, ht⟩
    · exact hbody v hv

theorem le_index (h : IsLaidOut pre cs ts) : ∀ t ∈ ts, pre.length ≤ t.position.index := by
  induction h with
  | ending _ _ hp =>
    intro u hu
    rw [List.mem_singleton.mp hu, Token.index_eq hp]
  | blank _ _ ih =>
    intro u hu
    have hle := ih u hu
    rw [List.length_append] at hle
    omega
  | token _ _ hp _ ih =>
    intro u hu
    rcases List.mem_cons.mp hu with rfl | hu
    · rw [Token.index_eq hp]
    · have hle := ih u hu
      rw [List.length_append] at hle
      omega

theorem position_eq (h : IsLaidOut pre cs ts) : ∀ t ∈ ts,
    t.position = Position.start.advanceOver ((pre ++ cs).take t.position.index) := by
  have hplace : ∀ (pre cs : List Char) (t : Token),
      t.position = Position.start.advanceOver pre →
      t.position = Position.start.advanceOver ((pre ++ cs).take t.position.index) := by
    intro pre cs t hp
    rw [Token.index_eq hp, List.take_left, hp]
  induction h with
  | ending _ _ hp => simpa using hplace _ [] _ hp
  | blank _ _ ih =>
    rw [List.append_cons]
    exact ih
  | token _ _ hp _ ih =>
    intro u hu
    rcases List.mem_cons.mp hu with rfl | hu
    · exact hplace _ _ _ hp
    · rw [← List.append_assoc]
      exact ih u hu

theorem text_eq (h : IsLaidOut pre cs ts) : ∀ t ∈ ts,
    t.text.toList = ((pre ++ cs).drop t.position.index).take t.text.length := by
  induction h with
  | ending _ ht _ => simp [ht]
  | blank _ _ ih =>
    rw [List.append_cons]
    exact ih
  | @token pre t rest ts _ _ hp _ ih =>
    intro u hu
    rcases List.mem_cons.mp hu with rfl | hu
    · rw [Token.index_eq hp, List.drop_left, ← String.length_toList, List.take_left]
    · rw [← List.append_assoc]
      exact ih u hu

theorem pairwise (h : IsLaidOut pre cs ts) :
    ts.Pairwise fun t u => t.position.index < u.position.index ∧ t.stop ≤ u.position.index := by
  induction h with
  | ending => exact List.pairwise_singleton _ _
  | blank _ _ ih => exact ih
  | @token pre t rest ts _ ht hp h ih =>
    refine List.pairwise_cons.mpr ⟨?_, ih⟩
    intro u hu
    have hle := h.le_index u hu
    have hindex := Token.index_eq hp
    have hpos : 0 < t.text.toList.length := by
      rw [List.length_pos_iff]
      simpa using ht
    rw [List.length_append] at hle
    rw [String.length_toList] at hle hpos
    unfold Token.stop
    omega

/-- What stands where some of the tokens do, in their order, goes through the text with them. -/
theorem pairwise_of_sublist (h : IsLaidOut pre cs ts) {α : Type} {l : List α}
    {place : α → Position} (hs : (l.map place).Sublist (ts.map (·.position))) :
    (l.map fun a => (place a).index).Pairwise (· < ·) := by
  have hall : (ts.map (·.position.index)).Pairwise (· < ·) := by
    rw [List.pairwise_map]
    exact h.pairwise.imp fun hlt => hlt.1
  have hmap := hs.map (·.index)
  rw [List.map_map, List.map_map] at hmap
  exact hall.sublist hmap

theorem eq_of_position_eq (h : IsLaidOut pre cs ts) {t u : Token} (ht : t ∈ ts) (hu : u ∈ ts)
    (hp : t.position = u.position) : t = u := by
  have hplaces := h.pairwise_of_sublist (List.Sublist.refl (ts.map (·.position)))
  have hnodup : (ts.map (·.position.index)).Nodup := hplaces.imp fun hlt => Nat.ne_of_lt hlt
  exact List.inj_on_of_nodup_map hnodup ht hu (congrArg Position.index hp)

/-- A character at which no token stands is a blank. -/
theorem isBlank_of_uncovered (h : IsLaidOut pre cs ts) {i : Nat} {c : Char}
    (hi : pre.length ≤ i) (hc : (pre ++ cs)[i]? = some c)
    (hu : ∀ t ∈ ts, ¬(t.position.index ≤ i ∧ i < t.stop)) : Text.isBlank c = true := by
  induction h with
  | ending =>
    rw [List.append_nil, List.getElem?_eq_none hi] at hc
    cases hc
  | @blank pre d cs ts hd _ ih =>
    rcases Nat.eq_or_lt_of_le hi with rfl | hlt
    · have hcd : d = c := by simpa using hc
      exact hcd ▸ hd
    · rw [List.append_cons] at hc
      refine ih ?_ hc hu
      rw [List.length_append, List.length_singleton]
      exact hlt
  | @token pre t rest ts _ _ hp _ ih =>
    have hindex := Token.index_eq hp
    have hcover := hu t (List.mem_cons_self ..)
    rw [← List.append_assoc] at hc
    refine ih ?_ hc (fun u hmem => hu u (List.mem_cons_of_mem _ hmem))
    unfold Token.stop at hcover
    rw [List.length_append, String.length_toList]
    omega

/-- Blanks and tokens by turns make up the text. -/
theorem exists_gaps (h : IsLaidOut pre cs ts) : ∃ gaps : List (List Char),
    gaps.length = ts.length ∧ (∀ gap ∈ gaps, ∀ c ∈ gap, Text.isBlank c = true) ∧
    cs = (List.zipWith (fun gap t => gap ++ t.text.toList) gaps ts).flatten := by
  induction h with
  | ending _ ht _ => exact ⟨[[]], rfl, by simp, by simp [ht]⟩
  | @blank pre c cs ts hc h ih =>
    -- the blank goes to the front of the first gap, which there is since some token is left
    obtain ⟨gaps, hlen, hblank, heq⟩ := ih
    cases gaps with
    | nil =>
      obtain ⟨body, t, rfl, -⟩ := h.exists_ending
      simp at hlen
    | cons gap gaps =>
      cases ts with
      | nil => simp at hlen
      | cons t ts =>
        refine ⟨(c :: gap) :: gaps, hlen, ?_, by simp [heq]⟩
        simpa [hc] using hblank
  | token _ _ _ _ ih =>
    obtain ⟨gaps, hlen, hblank, heq⟩ := ih
    exact ⟨[] :: gaps, by simp [hlen], by simpa using hblank, by simp [← heq]⟩

end IsLaidOut

theorem scan_isLaidOut {E : Engine} {text : String} {tokens : List Token}
    (h : scan E text = .ok tokens) :
    IsLaidOut [] text.toList tokens := by
  have hraw : Tokenizes .start text.toList (rawTokens text.toList) := tokenizes_iff.mpr rfl
  exact hraw.isLaidOut rfl (scan_spec h).1

/-- The tokens stand in the text where they say, in order and apart, with the one of the end at
the end, and all that they leave out are blanks. -/
structure Covers (ts : List Token) (cs : List Char) : Prop where
  ending : ∃ body t, ts = body ++ [t] ∧ t.kind = .eof ∧ t.text = "" ∧
    t.position.index = cs.length ∧ ∀ u ∈ body, u.kind ≠ .eof ∧ u.text ≠ ""
  text_eq : ∀ t ∈ ts, t.text.toList = (cs.drop t.position.index).take t.text.length
  pairwise : ts.Pairwise fun t u =>
    t.position.index < u.position.index ∧ t.stop ≤ u.position.index
  uncovered : ∀ (i : Nat) (c : Char), cs[i]? = some c →
    (∀ t ∈ ts, ¬(t.position.index ≤ i ∧ i < t.stop)) → Text.isBlank c = true
  gaps : ∃ gaps : List (List Char), gaps.length = ts.length ∧
    (∀ gap ∈ gaps, ∀ c ∈ gap, Text.isBlank c = true) ∧
    cs = (List.zipWith (fun gap t => gap ++ t.text.toList) gaps ts).flatten
  position_eq : ∀ t ∈ ts, t.position = Position.start.advanceOver (cs.take t.position.index)
  line_eq : ∀ t ∈ ts, t.position.line = 1 + (cs.take t.position.index).count '\n'
  column_eq : ∀ t ∈ ts,
    t.position.column = 1 + (Position.lastLine (cs.take t.position.index)).length

/-- The tokens of a text, with the blanks between them, are the text, and each of them is placed
exactly. -/
theorem scan_covers {E : Engine} {text : String} {tokens : List Token}
    (h : scan E text = .ok tokens) :
    Covers tokens text.toList := by
  have hraw : Tokenizes .start text.toList (rawTokens text.toList) := tokenizes_iff.mpr rfl
  have hout : IsLaidOut [] text.toList tokens := hraw.isLaidOut rfl (scan_spec h).1
  have hposition := hout.position_eq
  refine ⟨hout.exists_ending, hout.text_eq, hout.pairwise, ?_, hout.exists_gaps, hposition, ?_, ?_⟩
  · intro i c hc hu
    exact hout.isBlank_of_uncovered (Nat.zero_le i) hc hu
  · intro t ht
    conv_lhs => rw [hposition t ht, Position.line_advanceOver]
    rfl
  · intro t ht
    conv_lhs => rw [hposition t ht, Position.column_advanceOver_start]
    rfl

theorem mixedText_covered : scan (Regex.engine (.plain true)) mixedText = .ok mixedTokens ∧
    Covers mixedTokens mixedText.toList :=
  ⟨scan_mixedText _, scan_covers (scan_mixedText (Regex.engine (.plain true)))⟩

end StepMachine
