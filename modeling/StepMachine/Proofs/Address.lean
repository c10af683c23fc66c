import Mathlib.Data.List.TakeWhile
import Mathlib.Data.Prod.Lex
import StepMachine.Proofs.Position

/-! # Addresses of characters

Line and column together are the address of a character. Along a text the address goes up with every
character, on to the next column or down to the next line, so it orders the characters as their
indices do and no two of them share one.
-/
namespace StepMachine.Position

variable {p q : Position}

/-! ### Places that can be built -/

/-- A triple of numbers is taken as a place exactly if it is the counts of a valid one. -/
theorem ofInts_eq_ok_iff {line column index : Int} : ofInts line column index = .ok p ↔
    p.IsValid ∧ line = p.line ∧ column = p.column ∧ index = p.index := by
  unfold ofInts IsValid
  split
  · next hi =>
    simp only [reduceCtorEq, false_iff, not_and]
    omega
  · next hi =>
    split
    · next hlc =>
      simp only [reduceCtorEq, false_iff, not_and]
      omega
    · next hlc =>
      obtain ⟨l, c, i⟩ := p
      simp only [Except.ok.injEq, mk.injEq]
      omega

/-! ### Counting over a text -/

theorem lastLine_of_not_mem {cs : List Char} (h : '\n' ∉ cs) : lastLine cs = cs := by
  have hall : ∀ c ∈ cs.reverse, (c != '\n') = true := by
    intro c hc
    rw [bne_iff_ne]
    rintro rfl
    exact h (List.mem_reverse.mp hc)
  rw [lastLine, List.takeWhile_eq_self_iff.mpr hall, List.reverse_reverse]

theorem lastLine_append_cons {before rest : List Char} (h : '\n' ∉ rest) :
    lastLine (before ++ '\n' :: rest) = rest := by
  induction rest using List.reverseRecOn with
  | nil => rw [lastLine_concat, if_pos rfl]
  | append_singleton rest c ih =>
    simp only [List.mem_append, List.mem_singleton, not_or] at h
    rw [← List.cons_append, ← List.append_assoc, lastLine_concat, if_neg (Ne.symm h.2), ih h.1]

/-- The place `q` that follows the characters, of which the first stands at `p`, told by counting
characters and line feeds. -/
structure IsCountedTo (p : Position) (cs : List Char) (q : Position) : Prop where
  isValid : q.IsValid
  ofInts_eq : ofInts q.line q.column q.index = .ok q
  index_eq : q.index = p.index + cs.length
  line_eq : q.line = p.line + cs.count '\n'
  column_of_oneLine : '\n' ∉ cs → q.column = p.column + cs.length
  column_of_lastLine : ∀ before rest, cs = before ++ '\n' :: rest → '\n' ∉ rest →
    q.column = 1 + rest.length

theorem isCountedTo_advanceOver (hp : p.IsValid) (cs : List Char) :
    p.IsCountedTo cs (p.advanceOver cs) where
  isValid := p.isValid_advanceOver hp cs
  ofInts_eq := ofInts_eq_ok_iff.mpr ⟨p.isValid_advanceOver hp cs, rfl, rfl, rfl⟩
  index_eq := p.index_advanceOver cs
  line_eq := p.line_advanceOver cs
  column_of_oneLine h := by rw [column_advanceOver, if_neg h, lastLine_of_not_mem h]
  column_of_lastLine := by
    rintro before rest rfl h
    rw [column_advanceOver, if_pos (by simp), lastLine_append_cons h]

/-! ### The order along a text -/

/-- Line and column. The line counts first. -/
def address (p : Position) : ℕ ×ₗ ℕ := toLex (p.line, p.column)

theorem address_lt_iff :
    p.address < q.address ↔ p.line < q.line ∨ p.line = q.line ∧ p.column < q.column :=
  Prod.Lex.toLex_lt_toLex

theorem address_lt_advance (p : Position) (c : Char) : p.address < (p.advance c).address := by
  rw [address_lt_iff, advance]
  split
  · exact .inl (Nat.lt_succ_self p.line)
  · exact .inr ⟨rfl, Nat.lt_succ_self p.column⟩

theorem address_lt_advanceOver {cs : List Char} (h : cs ≠ []) :
    p.address < (p.advanceOver cs).address := by
  -- From the end, as each step leads past all places before it, also where the column goes down.
  induction cs using List.reverseRecOn with
  | nil => exact absurd rfl h
  | append_singleton cs c ih =>
    rw [advanceOver_concat]
    rcases eq_or_ne cs [] with rfl | hcs
    · exact p.address_lt_advance c
    · exact (ih hcs).trans (address_lt_advance _ c)

theorem lt_advanceOver {cs : List Char} (h : cs ≠ []) : p < p.advanceOver cs := by
  refine .inl ?_
  have hpos := List.length_pos_iff.mpr h
  rw [index_advanceOver]
  omega

/-- The place of the character with this index in a text that starts at `p`. -/
def placeAt (p : Position) (cs : List Char) (i : Nat) : Position := p.advanceOver (cs.take i)

section

variable {cs : List Char} {i j : Nat}

theorem exists_advanceOver_placeAt (p : Position) (hij : i < j) (hj : j ≤ cs.length) :
    ∃ ds, ds ≠ [] ∧ p.placeAt cs j = (p.placeAt cs i).advanceOver ds := by
  refine ⟨(cs.drop i).take (j - i), ?_, ?_⟩
  · apply List.ne_nil_of_length_pos
    rw [List.length_take, List.length_drop]
    omega
  · rw [placeAt, placeAt, ← advanceOver_append, ← List.take_add,
      Nat.add_sub_cancel' (Nat.le_of_lt hij)]

/-- In a text, what comes later has the greater place and the greater address. -/
theorem placeAt_lt_placeAt (p : Position) (hij : i < j) (hj : j ≤ cs.length) :
    p.placeAt cs i < p.placeAt cs j ∧ (p.placeAt cs i).address < (p.placeAt cs j).address := by
  obtain ⟨ds, hds, heq⟩ := p.exists_advanceOver_placeAt hij hj
  rw [heq]
  exact ⟨lt_advanceOver hds, address_lt_advanceOver hds⟩

theorem eq_of_address_eq (hi : i ≤ cs.length) (hj : j ≤ cs.length)
    (h : (p.placeAt cs i).address = (p.placeAt cs j).address) : i = j := by
  rcases Nat.lt_trichotomy i j with hij | hij | hij
  · exact absurd h (p.placeAt_lt_placeAt hij hj).2.ne
  · exact hij
  · exact absurd h.symm (p.placeAt_lt_placeAt hij hi).2.ne

end

/-- From a valid place on, a text is counted through valid places. They go up with the index, and so
do their addresses, no two of which are the same. -/
theorem places_ordered_by_address (hp : p.IsValid) (cs : List Char) :
    p.IsCountedTo cs (p.advanceOver cs) ∧
    (∀ i ≤ cs.length, p.IsCountedTo (cs.take i) (p.placeAt cs i)) ∧
    (∀ i j, i < j → j ≤ cs.length → p.placeAt cs i < p.placeAt cs j ∧
      (p.placeAt cs i).address < (p.placeAt cs j).address) ∧
    ∀ i ≤ cs.length, ∀ j ≤ cs.length,
      (p.placeAt cs i).address = (p.placeAt cs j).address → i = j :=
  ⟨isCountedTo_advanceOver hp cs, fun i _ => isCountedTo_advanceOver hp (cs.take i),
    fun _ _ => p.placeAt_lt_placeAt, fun _ hi _ hj => eq_of_address_eq hi hj⟩

/-- A line feed leads from the tenth column to the first one, which still comes later. -/
theorem lineFeed_lowers_column : (⟨2, 9, 30⟩ : Position).IsValid ∧
    (placeAt ⟨2, 9, 30⟩ ['a', '\n', 'b'] 1).column = 10 ∧
    (placeAt ⟨2, 9, 30⟩ ['a', '\n', 'b'] 2).column = 1 ∧
    (placeAt ⟨2, 9, 30⟩ ['a', '\n', 'b'] 1).address <
      (placeAt ⟨2, 9, 30⟩ ['a', '\n', 'b'] 2).address := by
  have hvalid : (⟨2, 9, 30⟩ : Position).IsValid := by decide
  obtain ⟨-, -, hordered, -⟩ := places_ordered_by_address hvalid ['a', '\n', 'b']
  exact ⟨hvalid, rfl, rfl, (hordered 1 2 (by decide) (by decide)).2⟩

end StepMachine.Position
