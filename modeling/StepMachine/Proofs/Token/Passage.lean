import Mathlib.Data.List.Basic
import Mathlib.Data.List.TakeWhile
import StepMachine.Proofs.Wording
import StepMachine.Token.Cursor

/-! # Passages of a cursor

A cursor that goes from one token to another passes the tokens between them. Passages compose,
and what is passed fixes where the cursor comes to stand. Most readings need a cursor that sees a
token of the end and whose undamaged numbers are decoded and can be written; every passage keeps
all of this.
-/
namespace StepMachine

/-- A number that is not damaged has been decoded. -/
def Token.HasNumber (t : Token) : Prop :=
  t.isValid .number = true → ∃ n, t.value = some (.number n)

/-- Every literal that is not damaged has been decoded. A number has no more digits than can be
read. -/
def Token.IsDecoded (t : Token) : Prop :=
  (t.isValid .number = true → ∃ n, t.value = some (.number n) ∧ Text.IsWritable n) ∧
  (t.isValid .string = true → ∃ s, t.value = some (.text s)) ∧
  (t.isValid .pattern = true → ∃ p, t.value = some (.pattern p))

theorem Token.IsDecoded.hasNumber {t : Token} (h : t.IsDecoded) : t.HasNumber := fun hvalid =>
  let ⟨n, hn, _⟩ := h.1 hvalid
  ⟨n, hn⟩

/-- Among the tokens is an undamaged number that is too long to be written. -/
def HasLongNumber (ts : List Token) (long : Text.LongNumber) : Prop :=
  ¬Text.IsWritable long.value ∧
    ∃ t ∈ ts, t.isValid .number = true ∧ t.value = some (.number long.value)

theorem HasLongNumber.mono {ts us : List Token} {long : Text.LongNumber}
    (h : HasLongNumber ts long) (hsub : ts ⊆ us) : HasLongNumber us long := by
  obtain ⟨hlong, t, ht, hnumber⟩ := h
  exact ⟨hlong, t, hsub ht, hnumber⟩

/-- If the token is an undamaged number, its value can be written. -/
def Token.IsWritable (t : Token) : Prop :=
  t.isValid .number = true → ∀ l ∈ t.value, l.IsWritable

instance (t : Token) : Decidable t.IsWritable := inferInstanceAs (Decidable (_ → _))

theorem Token.IsDecoded.isWritable {t : Token} (h : t.IsDecoded) : t.IsWritable := by
  intro hvalid l hl
  obtain ⟨n, hn, hwritable⟩ := h.1 hvalid
  obtain rfl : .number n = l := by simpa [hn] using hl
  exact hwritable

theorem not_hasLongNumber {ts : List Token} (h : ∀ t ∈ ts, t.IsWritable)
    (long : Text.LongNumber) : ¬HasLongNumber ts long := by
  rintro ⟨hlong, t, ht, hvalid, hvalue⟩
  exact hlong (h t ht hvalid _ hvalue)

/-- The breach is that of a long number among the tokens. -/
def Breach.IsLongNumberOf (ts : List Token) : Breach → Prop
  | .longNumber long => HasLongNumber ts long
  | .stalled .. | .noCondition _ => False

theorem Breach.IsLongNumberOf.mono {ts us : List Token} {b : Breach} (h : b.IsLongNumberOf ts)
    (hsub : ts ⊆ us) : b.IsLongNumberOf us := by
  cases b with
  | longNumber long => exact HasLongNumber.mono h hsub
  | stalled | noCondition => exact h.elim

/-- A token on the first line that holds no literal. -/
def Token.onFirstLine (kind : TokenKind) (text : String) (index : Nat) : Token :=
  ⟨kind, text, ⟨1, index + 1, index⟩, none, false⟩

/-- A number on the first line. -/
def Token.numberOnFirstLine (digits : String) (index : Nat) (value : Int) : Token :=
  ⟨.number, digits, ⟨1, index + 1, index⟩, some (.number value), false⟩

theorem exists_of_toOption_map {ε α β : Type} {x : Except ε α} {f : α → β} {b : β}
    (h : x.toOption.map f = some b) : ∃ a, x = .ok a ∧ f a = b := by
  cases x with
  | error e => simp [Except.toOption] at h
  | ok a => exact ⟨a, rfl, by simpa [Except.toOption] using h⟩

/-- The last token is one of the end. -/
def EndsInEnd (ts : List Token) : Prop := ts.getLast?.map (·.kind) = some .eof

instance (ts : List Token) : Decidable (EndsInEnd ts) := inferInstanceAs (Decidable (_ = _))

/-- The tokens before the first one of the end. -/
def beforeEnd (ts : List Token) : List Token := ts.takeWhile (·.kind != .eof)

theorem beforeEnd_append {ts us : List Token} (hts : ∀ u ∈ ts, u.kind ≠ .eof) {t : Token}
    (ht : t.kind = .eof) : beforeEnd (ts ++ t :: us) = ts := by
  have hall : ∀ u ∈ ts, (u.kind != .eof) = true := fun u hu => bne_iff_ne.mpr (hts u hu)
  rw [beforeEnd, List.takeWhile_append_of_pos hall]
  simp [ht]

theorem beforeEnd_concat {ts : List Token} (hts : ∀ u ∈ ts, u.kind ≠ .eof) {t : Token}
    (ht : t.kind = .eof) : beforeEnd (ts ++ [t]) = ts := beforeEnd_append hts ht

theorem EndsInEnd.of_append {ts us : List Token} (h : EndsInEnd (ts ++ us)) (hu : us ≠ []) :
    EndsInEnd us := by
  unfold EndsInEnd at h ⊢
  rwa [List.getLast?_append_of_ne_nil _ hu] at h

theorem EndsInEnd.append {us : List Token} (h : EndsInEnd us) (ts : List Token) :
    EndsInEnd (ts ++ us) := by
  cases us with
  | nil => cases h
  | cons u us =>
    unfold EndsInEnd at h ⊢
    rwa [List.getLast?_append_of_ne_nil _ (List.cons_ne_nil u us)]

theorem EndsInEnd.length_pos {ts : List Token} (h : EndsInEnd ts) : 0 < ts.length := by
  apply List.length_pos_of_ne_nil
  rintro rfl
  simp [EndsInEnd] at h

theorem EndsInEnd.drop {ts : List Token} (h : EndsInEnd ts) {i : Nat} (hi : i < ts.length) :
    EndsInEnd (ts.drop i) := by
  rw [← List.take_append_drop i ts] at h
  exact h.of_append (List.ne_nil_of_length_pos (by rw [List.length_drop]; omega))

namespace Cursor

/-- The current token and the tokens after it. -/
def tokens (c : Cursor) : List Token := c.current :: c.ahead

/-- On the token with this number. -/
def atIndex (ts : List Token) (i : Nat) (h : i < ts.length) : Cursor := ⟨i, ts[i], ts.drop (i + 1)⟩

@[simp] theorem index_atIndex (ts : List Token) (i : Nat) (h : i < ts.length) :
    (atIndex ts i h).index = i := rfl

@[simp] theorem tokens_atIndex (ts : List Token) (i : Nat) (h : i < ts.length) :
    (atIndex ts i h).tokens = ts.drop i := (List.drop_eq_getElem_cons h).symm

theorem ofTokens?_eq {ts : List Token} (h : EndsInEnd ts) :
    ofTokens? ts = some (atIndex ts 0 h.length_pos) := by
  cases ts with
  | nil => simp [EndsInEnd] at h
  | cons t rest => exact if_pos h

/-- One token on, unless this is a token of the end. -/
def next (c : Cursor) : Cursor := c.bump.2

variable {c d e : Cursor} {t : Token} {ts us : List Token}

@[simp] theorem bump_fst (c : Cursor) : c.bump.1 = c.current := by
  unfold bump
  split
  · rfl
  · split <;> rfl

theorem kind_of_isAt {kind : TokenKind} (h : c.isAt kind = true) : c.current.kind = kind :=
  beq_iff_eq.mp h

theorem isAt_eq_false {kind kind' : TokenKind} (h : c.isAt kind = true) (hne : kind ≠ kind') :
    c.isAt kind' = false := by
  rw [isAt, kind_of_isAt h]
  exact beq_eq_false_iff_ne.mpr hne

theorem nth_eq {n : Nat} (h : c.tokens[n]? = some t) : c.nth n = t.kind := by
  have hn : n < c.tokens.length := (List.getElem?_eq_some_iff.mp h).1
  have hmin : min n c.ahead.length = n := by
    simp only [tokens, List.length_cons] at hn
    omega
  have hget : c.tokens.getD n c.current = t := by
    rw [List.getD_eq_getElem?_getD, h, Option.getD_some]
  unfold nth
  rw [hmin]
  exact congrArg Token.kind hget

/-- Between `c` and `d` stand the tokens `ts`. -/
structure Passes (c : Cursor) (ts : List Token) (d : Cursor) : Prop where
  tokens_eq : c.tokens = ts ++ d.tokens
  index_eq : d.index = c.index + ts.length

theorem Passes.refl (c : Cursor) : c.Passes [] c := ⟨rfl, rfl⟩

theorem Passes.trans (h : c.Passes ts d) (k : d.Passes us e) : c.Passes (ts ++ us) e := by
  refine ⟨by rw [h.tokens_eq, k.tokens_eq, List.append_assoc], ?_⟩
  rw [k.index_eq, h.index_eq, List.length_append, Nat.add_assoc]

theorem ext_tokens (hi : c.index = d.index) (ht : c.tokens = d.tokens) : c = d := by
  obtain ⟨i, t, ts⟩ := c
  obtain ⟨j, u, us⟩ := d
  have hcons : t = u ∧ ts = us := List.cons.inj ht
  obtain ⟨rfl, rfl⟩ := hcons
  have hindex : i = j := hi
  rw [hindex]

theorem Passes.eq_of_nil (h : c.Passes [] d) : d = c :=
  ext_tokens h.index_eq h.tokens_eq.symm

/-- The first token that is passed is the current one, and the rest is passed from the next. -/
theorem Passes.cons (h : c.Passes (t :: ts) d) (ht : t.kind ≠ .eof) :
    c.current = t ∧ c.next.Passes ts d := by
  obtain ⟨i, u, ahead⟩ := c
  have hcons : u = t ∧ ahead = ts ++ d.tokens := List.cons.inj h.tokens_eq
  have hi : d.index = i + (ts.length + 1) := h.index_eq
  obtain ⟨rfl, hrest⟩ := hcons
  refine ⟨rfl, ?_⟩
  cases ahead with
  | nil => simp [tokens] at hrest
  | cons v rest =>
    have hn : next ⟨i, u, v :: rest⟩ = ⟨i + 1, v, rest⟩ := by
      simp only [next, bump, isAt, beq_eq_false_iff_ne.mpr ht, Bool.false_eq_true, if_false]
    rw [hn]
    exact ⟨hrest, by dsimp only; omega⟩

theorem next_of_eof (hc : c.current.kind = .eof) : c.next = c := by
  simp [next, bump, isAt, hc]

/-- A cursor that sees more tokens gets past any that is none of the end. -/
theorem passes_next (hc : c.current.kind ≠ .eof) (ha : c.ahead ≠ []) :
    c.Passes [c.current] c.next := by
  obtain ⟨i, t, ahead⟩ := c
  cases ahead with
  | nil => exact absurd rfl ha
  | cons u rest =>
    have hn : next ⟨i, t, u :: rest⟩ = ⟨i + 1, u, rest⟩ := by
      simp only [next, bump, isAt, beq_eq_false_iff_ne.mpr hc, Bool.false_eq_true, if_false]
    exact hn ▸ ⟨rfl, rfl⟩

/-- Going on passes nothing but a token that is none of the end. -/
theorem exists_passes_next (c : Cursor) :
    ∃ ts, c.Passes ts c.next ∧ ∀ u ∈ ts, u.kind ≠ .eof := by
  by_cases hc : c.current.kind = .eof
  · exact ⟨[], by rw [next_of_eof hc]; exact .refl c, by simp⟩
  · obtain ⟨i, t, ahead⟩ := c
    cases ahead with
    | nil =>
      have hn : next ⟨i, t, []⟩ = ⟨i, t, []⟩ := by
        unfold next bump
        split <;> rfl
      exact ⟨[], by rw [hn]; exact .refl _, by simp⟩
    | cons u rest => exact ⟨[t], passes_next hc (List.cons_ne_nil _ _), by simpa using hc⟩

theorem Passes.split (h : c.Passes (ts ++ us) d) : ∃ m, c.Passes ts m ∧ m.Passes us d := by
  cases hm : us ++ d.tokens with
  | nil => simp [tokens] at hm
  | cons v rest =>
    have hi := h.index_eq
    rw [List.length_append] at hi
    refine ⟨⟨c.index + ts.length, v, rest⟩, ⟨?_, rfl⟩, ⟨hm.symm, by dsimp only; omega⟩⟩
    rw [h.tokens_eq, List.append_assoc, hm]
    rfl

theorem Passes.split_cons (h : c.Passes (t :: us) d) : ∃ m, c.Passes [t] m ∧ m.Passes us d := by
  rw [← List.singleton_append] at h
  exact h.split

/-- What is ahead behind a passage was ahead before it. -/
theorem Passes.subset (h : c.Passes ts d) : d.tokens ⊆ c.tokens := by
  rw [h.tokens_eq]
  exact List.subset_append_right _ _

end Cursor

theorem EndsInEnd.of_passes {c d : Cursor} {ts : List Token} (h : EndsInEnd c.tokens)
    (hp : c.Passes ts d) : EndsInEnd d.tokens := by
  rw [hp.tokens_eq] at h
  exact h.of_append (List.cons_ne_nil _ _)

/-- A cursor that sees a token of the end gets past any other token. -/
theorem EndsInEnd.passes_next {c : Cursor} (h : EndsInEnd c.tokens) (hc : c.current.kind ≠ .eof) :
    c.Passes [c.current] c.next := by
  apply Cursor.passes_next hc
  intro hnone
  have he : c.current.kind = .eof := by simpa [EndsInEnd, Cursor.tokens, hnone] using h
  exact absurd he hc

namespace Cursor

variable {c d e : Cursor} {t : Token} {ts us : List Token}

/-- The cursor sees a token of the end, and the undamaged numbers it sees are decoded. -/
structure SeesNumbers (c : Cursor) : Prop where
  endsInEnd : EndsInEnd c.tokens
  hasNumber : ∀ t ∈ c.tokens, t.HasNumber

theorem SeesNumbers.of_passes (h : c.SeesNumbers) (hp : c.Passes ts d) : d.SeesNumbers :=
  ⟨h.endsInEnd.of_passes hp, fun t ht => h.hasNumber t (hp.subset ht)⟩

/-- Besides, none of these numbers is too long to be written. -/
structure IsSound (c : Cursor) : Prop extends c.SeesNumbers where
  noLongNumber : ∀ long, ¬HasLongNumber c.tokens long

theorem IsSound.of_passes (h : c.IsSound) (hp : c.Passes ts d) : d.IsSound where
  toSeesNumbers := h.toSeesNumbers.of_passes hp
  noLongNumber long hlong := h.noLongNumber long (hlong.mono hp.subset)

theorem IsSound.not_isLongNumberOf (h : c.IsSound) (b : Breach) (hb : b.IsLongNumberOf c.tokens) :
    False := by
  cases b with
  | longNumber long => exact h.noLongNumber long hb
  | stalled | noCondition => exact hb

theorem IsSound.passes_next (h : c.IsSound) (hc : c.current.kind ≠ .eof) :
    c.Passes [c.current] c.next := h.endsInEnd.passes_next hc

theorem Passes.ahead_lt (h : c.Passes ts d) (ht : ts ≠ []) : d.ahead.length < c.ahead.length := by
  have hl := congrArg List.length h.tokens_eq
  have hp := List.length_pos_iff.mpr ht
  simp only [tokens, List.length_append, List.length_cons] at hl
  omega

/-- What is passed without a token of the end, up to one, is what stands before the end. -/
theorem Passes.beforeEnd_eq (h : c.Passes ts d) (ht : ∀ t ∈ ts, t.kind ≠ .eof)
    (hd : d.isAt .eof = true) : beforeEnd c.tokens = ts := by
  have hall : ∀ t ∈ ts, (t.kind != .eof) = true := fun t hm => bne_iff_ne.mpr (ht t hm)
  have hstop : (d.current.kind != .eof) = false := by
    simpa [isAt, bne_eq_false_iff_eq] using hd
  rw [beforeEnd, h.tokens_eq, List.takeWhile_append_of_pos hall, tokens,
    List.takeWhile_cons_of_neg (by simp [hstop]), List.append_nil]

theorem exists_passes_beforeEnd (h : EndsInEnd c.tokens) :
    ∃ d, c.Passes (beforeEnd c.tokens) d ∧ d.isAt .eof = true := by
  have happ := List.takeWhile_append_dropWhile (p := fun t : Token => t.kind != .eof)
    (l := c.tokens)
  cases hr : c.tokens.dropWhile (fun t => t.kind != .eof) with
  | nil =>
    have hlast : ∀ t ∈ c.tokens, t.kind ≠ .eof := by
      intro t ht
      simpa using List.dropWhile_eq_nil_iff.mp hr t ht
    obtain ⟨t, ht, hk⟩ := Option.map_eq_some_iff.mp h
    exact absurd hk (hlast t (List.mem_of_getLast? ht))
  | cons t rest =>
    have hstop : t.kind = .eof := by
      have hhead := List.head_dropWhile_not (fun t : Token => t.kind != .eof) (l := c.tokens)
        (by simp [hr])
      simpa [hr] using hhead
    rw [hr] at happ
    exact ⟨⟨c.index + (beforeEnd c.tokens).length, t, rest⟩, ⟨happ.symm, rfl⟩,
      by simp [isAt, hstop]⟩

end Cursor

end StepMachine
