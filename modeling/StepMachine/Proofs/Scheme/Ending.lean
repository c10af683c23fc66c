import Mathlib.Logic.Relation
import StepMachine.Proofs.Token.Passage
import StepMachine.Scheme.Grammar

/-! # How readings end

What a reading guarantees is said of its end: one thing if it is done with a result, another if it
is abandoned, and which breaches occur, if any do. The laws below turn such a statement on a reading
into one on the parts it is put together from, so that a routine is judged by its text. A loop is
judged by an invariant that every round keeps while it gets on.
-/
namespace StepMachine

/-- Reading starts on the first token with an empty draft. -/
theorem exists_start {tokens : List Token} (hend : EndsInEnd tokens) :
    ∃ c : Cursor, ParseState.ofTokens tokens = .ok ⟨c, .empty⟩ ∧ c.tokens = tokens ∧
      c.index = 0 := by
  refine ⟨.atIndex tokens 0 hend.length_pos, ?_, by simp, rfl⟩
  rw [ParseState.ofTokens, Cursor.ofTokens?_eq hend]

/-- Behind what stands before the end there is a token of the end, and perhaps more. -/
theorem EndsInEnd.exists_rest {tokens : List Token} (hend : EndsInEnd tokens) :
    ∃ t rest, t.kind = .eof ∧ tokens = beforeEnd tokens ++ t :: rest := by
  obtain ⟨c, -, rfl, -⟩ := exists_start hend
  obtain ⟨e, p, he⟩ := Cursor.exists_passes_beforeEnd hend
  exact ⟨e.current, e.ahead, Cursor.kind_of_isAt he, p.tokens_eq⟩

theorem ofTokens_eq_of_scheme {tokens : List Token} {s t : ParseState}
    (hstart : ParseState.ofTokens tokens = .ok s) (hread : Parse.scheme s = (.done (), t)) :
    Draft.ofTokens tokens = .ok t.draft := by
  rw [Draft.ofTokens, hstart]
  simp only [hread]

/-- The state after a report at the current token. -/
def ParseState.failed (s : ParseState) (cause : Cause) : ParseState :=
  { s with draft := s.draft.error ⟨cause, s.cursor.current.position⟩ }

namespace Parse

variable {α β : Type}

/-- From `s` the reading is done as `Done` says or abandoned as `Abandoned` says, or it is broken
off by one of the breaches of `Broken`. By default there are none of these. -/
def Ends (m : Parse α) (s : ParseState) (Done : α → ParseState → Prop)
    (Abandoned : ParseState → Prop) (Broken : Breach → Prop := fun _ => False) : Prop :=
  match m s with
  | (.done a, t) => Done a t
  | (.abandoned, t) => Abandoned t
  | (.broken b, _) => Broken b

variable {s t : ParseState} {m : Parse α} {next : α → Parse β}
variable {D : α → ParseState → Prop} {E : β → ParseState → Prop} {A B : ParseState → Prop}
variable {U : Unit → ParseState → Prop} {X Y : Breach → Prop}

theorem Ends.mono (h : m.Ends s D A X) {F : α → ParseState → Prop}
    (hD : ∀ a t, D a t → F a t) (hA : ∀ t, A t → B t) : m.Ends s F B X := by
  unfold Ends at h ⊢
  split <;> simp_all

theorem Ends.mono_broken (h : m.Ends s D A X) (hX : ∀ b, X b → Y b) : m.Ends s D A Y := by
  unfold Ends at h ⊢
  split <;> simp_all

/-- What is never broken off may as well be taken for what could be. -/
theorem Ends.orBroken (h : m.Ends s D A) (X : Breach → Prop) : m.Ends s D A X :=
  h.mono_broken fun _ hfalse => hfalse.elim

/-- A reading that is known to be done is judged by its result. -/
theorem ends_of_done {a : α} (h : m s = (.done a, t)) : m.Ends s D A X ↔ D a t := by
  rw [Ends, h]

theorem eq_done_iff {a : α} :
    m s = (.done a, t) ↔ m.Ends s (fun b u => b = a ∧ u = t) (fun _ => False) := by
  unfold Ends
  rcases m s with ⟨_ | _ | _, _⟩ <;> simp

theorem Ends.cases (h : m.Ends s D A X) :
    (∃ a t, m s = (.done a, t) ∧ D a t) ∨ (∃ t, m s = (.abandoned, t) ∧ A t) ∨
      ∃ b t, m s = (.broken b, t) ∧ X b := by
  unfold Ends at h
  split at h
  · next a t hm => exact .inl ⟨a, t, hm, h⟩
  · next t hm => exact .inr (.inl ⟨t, hm, h⟩)
  · next b t hm => exact .inr (.inr ⟨b, t, hm, h⟩)

theorem Ends.exists_or (h : m.Ends s D A) :
    (∃ a t, m s = (.done a, t) ∧ D a t) ∨ ∃ t, m s = (.abandoned, t) ∧ A t := by
  obtain hdone | habandoned | ⟨_, _, _, hfalse⟩ := h.cases
  · exact .inl hdone
  · exact .inr habandoned
  · exact hfalse.elim

theorem Ends.and {D' : α → ParseState → Prop} {A' : ParseState → Prop} (h : m.Ends s D A X)
    (h' : m.Ends s D' A' X) :
    m.Ends s (fun a t => D a t ∧ D' a t) (fun t => A t ∧ A' t) X := by
  unfold Ends at h h' ⊢
  split <;> simp_all

/-- Whatever is said of its end, the reading has not been broken off. -/
theorem Ends.ne_broken (h : m.Ends s D A) (b : Breach) (t : ParseState) : m s ≠ (.broken b, t) := by
  intro hbroken
  rw [Ends, hbroken] at h
  exact h

theorem exists_broken_iff :
    (∃ b t, m s = (.broken b, t)) ↔ ¬m.Ends s (fun _ _ => True) (fun _ => True) := by
  constructor
  · rintro ⟨b, t, hbroken⟩ h
    exact h.ne_broken b t hbroken
  · intro h
    unfold Ends at h
    split at h
    · exact absurd trivial h
    · exact absurd trivial h
    · next b t hbroken => exact ⟨b, t, hbroken⟩

/-- The breach that a reading is broken off by is one of those that may occur. -/
theorem Ends.broken {b : Breach} (h : m.Ends s D A X) (hm : m s = (.broken b, t)) : X b := by
  rwa [Ends, hm] at h

/-- A reading ends as it does. -/
theorem Ends.and_eq (h : m.Ends s D A X) :
    m.Ends s (fun a t => D a t ∧ m s = (.done a, t)) (fun t => A t ∧ m s = (.abandoned, t)) X := by
  obtain ⟨a, t, hm, ht⟩ | ⟨t, hm, ht⟩ | ⟨b, t, hm, hb⟩ := h.cases
  · exact (ends_of_done hm).mpr ⟨ht, hm⟩
  · simpa [Ends, hm] using ht
  · simpa [Ends, hm] using hb

@[simp] theorem ends_pure {a : α} : (pure a : Parse α).Ends s D A X ↔ D a s := Iff.rfl

@[simp] theorem ends_bind :
    (m >>= next).Ends s E A X ↔ m.Ends s (fun a t => (next a).Ends t E A X) A X := by
  unfold Ends
  rw [bind_apply]
  rcases m s with ⟨_ | _ | _, _⟩ <;> rfl

@[simp] theorem ends_cursor {D : Cursor → ParseState → Prop} :
    cursor.Ends s D A X ↔ D s.cursor s := Iff.rfl

@[simp] theorem ends_draft {D : Draft → ParseState → Prop} :
    draft.Ends s D A X ↔ D s.draft s := Iff.rfl

@[simp] theorem ends_change {f : Draft → Draft} :
    (change f).Ends s U A X ↔ U () { s with draft := f s.draft } := Iff.rfl

@[simp] theorem ends_ask {f : Draft → α × Draft} :
    (ask f).Ends s D A X ↔ D (f s.draft).1 { s with draft := (f s.draft).2 } := Iff.rfl

@[simp] theorem ends_abandon : (abandon : Parse α).Ends s D A X ↔ A s := Iff.rfl

@[simp] theorem ends_breach {b : Breach} : (breach b : Parse α).Ends s D A X ↔ X b := Iff.rfl

@[simp] theorem ends_position {D : Position → ParseState → Prop} :
    position.Ends s D A X ↔ D s.cursor.current.position s := Iff.rfl

@[simp] theorem ends_bump {D : Token → ParseState → Prop} :
    bump.Ends s D A X ↔ D s.cursor.current { s with cursor := s.cursor.next } := by
  rw [← Cursor.bump_fst]
  exact Iff.rfl

@[simp] theorem ends_eat {kind : TokenKind} {D : Bool → ParseState → Prop} :
    (eat kind).Ends s D A X ↔
      if s.cursor.isAt kind then D true { s with cursor := s.cursor.next } else D false s := by
  unfold Ends eat Cursor.eat
  cases s.cursor.isAt kind <;> rfl

@[simp] theorem ends_report {cause : Cause} {p : Position} :
    (report cause p).Ends s U A X ↔ U () { s with draft := s.draft.error ⟨cause, p⟩ } := Iff.rfl

@[simp] theorem ends_insistOnWording {cause : Cause} :
    (insistOnWording cause).Ends s U A X ↔ match cause.message with
      | .ok _ => U () s
      | .error long => X (.longNumber long) := by
  unfold insistOnWording
  cases cause.message <;> rfl

@[simp] theorem ends_giveUp {cause : Cause} :
    (giveUp cause : Parse α).Ends s D A X ↔ A (s.failed cause) := Iff.rfl

@[simp] theorem ends_expect {kind : TokenKind} {what : Expected} :
    (expect kind what).Ends s U A X ↔
      if s.cursor.isAt kind then U () { s with cursor := s.cursor.next }
      else A (s.failed (.expected what)) := by
  simp [expect]

@[simp] theorem ends_require {holds : Cursor → Bool} {cause : Cause} :
    (require holds cause).Ends s U A X ↔
      if holds s.cursor then U () s else A (s.failed cause) := by
  unfold require
  rw [ends_bind, ends_cursor]
  split <;> rfl

@[simp] theorem ends_ofOption {o : Option α} :
    (ofOption o).Ends s D A X ↔ (∃ a, o = some a ∧ D a s) ∨ o = none ∧ A s := by
  cases o <;> simp [ofOption]

@[simp] theorem ends_asFarAsItGoes :
    (asFarAsItGoes m).Ends s U A X ↔ m.Ends s (fun _ t => U () t) (fun t => U () t) X := by
  unfold Ends asFarAsItGoes
  rcases m s with ⟨_ | _ | _, _⟩ <;> rfl

@[simp] theorem ends_ite {p : Prop} [Decidable p] {n : Parse α} :
    (if p then m else n).Ends s D A X ↔ if p then m.Ends s D A X else n.Ends s D A X := by
  split <;> rfl

/-! ### Loops -/

variable {starts : Cursor → Bool} {item : Parse α} {p : Progress}

theorem many_of_stop (hs : starts s.cursor = false) : many starts item p s = (.done [], s) := by
  rw [many, if_neg (by simp [hs])]

theorem many_of_stall (hs : starts s.cursor = true) (hp : p.passes s.cursor = false) :
    many starts item p s = (.broken (.ofStall s.cursor), s) := by
  rw [many, if_pos hs, dif_neg (by simp [hp])]

/-- A loop that goes on reads an item and is then as far as its mark. -/
theorem many_eq_bind (hs : starts s.cursor = true) (hp : p.passes s.cursor = true) :
    many starts item p s = (do
      let a ← item
      let as ← many starts item (.mark s.cursor)
      pure (a :: as)) s := by
  rw [many, if_pos hs, dif_pos hp, bind_apply]
  rcases item s with ⟨a | _ | _, t⟩
  · dsimp only
    rw [bind_apply]
    rcases many starts item (.mark s.cursor) t with ⟨_ | _ | _, u⟩ <;> rfl
  · rfl
  · rfl

/-- What holds of a loop at its end and at a stall, and before a round if it holds wherever that
round leaves off, holds of the loop. -/
theorem many_induction (starts : Cursor → Bool) {motive : Progress → ParseState → Prop}
    (stop : ∀ p s, starts s.cursor = false → motive p s)
    (stall : ∀ p s, starts s.cursor = true → p.passes s.cursor = false → motive p s)
    (round : ∀ p s, starts s.cursor = true → p.passes s.cursor = true →
      (∀ t, motive (.mark s.cursor) t) → motive p s) (p : Progress) (s : ParseState) :
    motive p s := by
  -- on what is left by the last check, or on the tokens ahead if none was made
  induction hn : p.left.getD (s.cursor.ahead.length + 1) using Nat.strong_induction_on
    generalizing p s with
  | _ n ih =>
    cases hs : starts s.cursor with
    | false => exact stop p s hs
    | true =>
      cases hp : p.passes s.cursor with
      | false => exact stall p s hs hp
      | true =>
        have hless : s.cursor.ahead.length < n := by
          cases hl : p.left with
          | none => simp [← hn, hl]
          | some left => simpa [Progress.passes, hl, ← hn] using hp
        exact round p s hs hp fun t => ih _ hless (.mark s.cursor) t rfl

/-- One round of a loop: an item can start and is read. -/
def Round (starts : Cursor → Bool) (item : Parse α) (s t : ParseState) : Prop :=
  starts s.cursor = true ∧ ∃ a, item s = (.done a, t)

/-- A loop that has come to an end: rounds that are done, each leaving fewer tokens ahead. -/
inductive Rounds (starts : Cursor → Bool) (item : Parse α) :
    ParseState → List α → ParseState → Prop
  | stop {s : ParseState} (h : starts s.cursor = false) : Rounds starts item s [] s
  | round {s t u : ParseState} {a : α} {as : List α} (hs : starts s.cursor = true)
      (hi : item s = (.done a, t)) (hlt : t.cursor.ahead.length < s.cursor.ahead.length)
      (rest : Rounds starts item t as u) : Rounds starts item s (a :: as) u

theorem Rounds.many_eq {as : List α} (h : Rounds starts item s as t)
    (hp : p.passes s.cursor = true) : many starts item p s = (.done as, t) := by
  induction h generalizing p with
  | stop hs => rw [many, if_neg (by simp [hs])]
  | round hs hi hlt _ ih =>
    have hrest := ih (p := .mark _) (by simpa [Progress.passes, Progress.mark] using hlt)
    rw [many, if_pos hs, dif_pos hp, hi]
    simp only [hrest]

/-- A loop that has come to an end, with the tokens that each of its rounds passed. -/
inductive Blocks (starts : Cursor → Bool) (item : Parse α) :
    ParseState → List (List Token) → ParseState → Prop
  | stop {s : ParseState} (h : starts s.cursor = false) : Blocks starts item s [] s
  | round {s t u : ParseState} {a : α} {block : List Token} {blocks : List (List Token)}
      (hs : starts s.cursor = true) (hi : item s = (.done a, t))
      (hp : s.cursor.Passes block t.cursor) (rest : Blocks starts item t blocks u) :
      Blocks starts item s (block :: blocks) u

namespace Blocks

variable {blocks blocks' : List (List Token)} {t' : ParseState}

theorem exists_rounds (h : Blocks starts item s blocks t) (hne : ∀ block ∈ blocks, block ≠ []) :
    ∃ as, Rounds starts item s as t := by
  induction h with
  | stop h => exact ⟨[], .stop h⟩
  | round hs hi hp _ ih =>
    obtain ⟨hblock, hrest⟩ := List.forall_mem_cons.mp hne
    obtain ⟨as, hr⟩ := ih hrest
    exact ⟨_, .round hs hi (hp.ahead_lt hblock) hr⟩

theorem passes (h : Blocks starts item s blocks t) :
    s.cursor.Passes blocks.flatten t.cursor := by
  induction h with
  | stop => exact .refl _
  | round _ _ hp _ ih => exact hp.trans ih

/-- A loop has one way to go. -/
theorem unique (h : Blocks starts item s blocks t) (h' : Blocks starts item s blocks' t') :
    blocks' = blocks ∧ t' = t := by
  induction h generalizing blocks' with
  | stop hs =>
    cases h' with
    | stop => exact ⟨rfl, rfl⟩
    | round hs' => simp [hs] at hs'
  | round hs hi hp _ ih =>
    cases h' with
    | stop hs' => simp [hs] at hs'
    | round _ hi' hp' rest' =>
      obtain rfl := (Prod.mk.inj (hi.symm.trans hi')).2
      obtain ⟨rfl, rfl⟩ := ih rest'
      have hblock := List.append_cancel_right (hp'.tokens_eq.symm.trans hp.tokens_eq)
      exact ⟨by rw [hblock], rfl⟩

/-- A loop comes to each of its items in rounds over those before it. -/
theorem exists_item {bs cs : List (List Token)} {b : List Token}
    (h : Blocks starts item s (bs ++ b :: cs) t) : ∃ m n : ParseState,
      Relation.ReflTransGen (Round starts item) s m ∧ s.cursor.Passes bs.flatten m.cursor ∧
      starts m.cursor = true ∧ m.cursor.Passes b n.cursor ∧ Blocks starts item n cs t := by
  induction bs generalizing s with
  | nil =>
    cases h with
    | round hs _ hp rest => exact ⟨s, _, .refl, .refl _, hs, hp, rest⟩
  | cons b' bs ih =>
    cases h with
    | round hs hi hp rest =>
      obtain ⟨m, n, hr, hbs, hm⟩ := ih rest
      exact ⟨m, n, .head ⟨hs, _, hi⟩ hr, hp.trans hbs, hm⟩

end Blocks

/-- A loop keeps what its rounds keep, and ends where no item can start or where an item was
abandoned or broken off. -/
theorem ends_many {I : List α → ParseState → Prop} (hp : p.passes s.cursor = true)
    (hstart : I [] s)
    (hround : ∀ as s, I as s → starts s.cursor = true → item.Ends s
      (fun a t => I (as ++ [a]) t ∧ t.cursor.ahead.length < s.cursor.ahead.length) A X) :
    (many starts item p).Ends s (fun as t => I as t ∧ starts t.cursor = false) A X := by
  -- the results so far are carried along
  suffices h : ∀ pre, p.passes s.cursor = true → I pre s → (many starts item p).Ends s
      (fun as t => I (pre ++ as) t ∧ starts t.cursor = false) A X by
    simpa using h [] hp hstart
  clear hp hstart
  induction p, s using many_induction starts with
  | stop p s hs =>
    intro pre _ hI
    rw [ends_of_done (many_of_stop hs), List.append_nil]
    exact ⟨hI, hs⟩
  | stall p s hs hstall =>
    intro pre hpass
    exact absurd hpass (by simp [hstall])
  | round p s hs hpass ih =>
    intro pre _ hI
    unfold Ends
    rw [many_eq_bind hs hpass]
    change (item >>= _).Ends s _ A X
    rw [ends_bind]
    refine (hround pre s hI hs).mono ?_ (fun _ h => h)
    rintro a t ⟨ht, hlt⟩
    have hmark : (Progress.mark s.cursor).passes t.cursor = true := by
      simpa [Progress.passes, Progress.mark] using hlt
    rw [ends_bind]
    refine (ih t (pre ++ [a]) hmark ht).mono ?_ (fun _ h => h)
    intro as u hu
    simpa using hu

end Parse

end StepMachine
