import Mathlib.Data.List.Induction
import StepMachine.Position

/-! # Counting lines and columns

A place that advances over a text moves on by one index for each character and by one line for
each line feed. Its column counts the characters since the last line feed, or goes on from the
column before if there was none. If a text starts elsewhere, all its places move with its start, but
only those on its first line move sideways.
-/
namespace StepMachine.Position

variable (p : Position)

theorem advanceOver_concat (cs : List Char) (c : Char) :
    p.advanceOver (cs ++ [c]) = (p.advanceOver cs).advance c := by
  rw [advanceOver_append]
  rfl

@[simp] theorem index_advanceOver (cs : List Char) :
    (p.advanceOver cs).index = p.index + cs.length := by
  induction cs using List.reverseRecOn with
  | nil => rfl
  | append_singleton cs c ih =>
    rw [advanceOver_concat, index_advance, ih, List.length_append, List.length_singleton,
      Nat.add_assoc]

theorem index_advanceOver_start (cs : List Char) : (start.advanceOver cs).index = cs.length := by
  rw [index_advanceOver]
  exact Nat.zero_add _

@[simp] theorem line_advanceOver (cs : List Char) :
    (p.advanceOver cs).line = p.line + cs.count '\n' := by
  induction cs using List.reverseRecOn with
  | nil => rfl
  | append_singleton cs c ih =>
    rw [advanceOver_concat, advance, List.count_append, ← Nat.add_assoc, ← ih]
    split
    · next hc => simp [hc]
    · next hc => simp [hc]

/-- The characters after the last line feed. -/
def lastLine (cs : List Char) : List Char := (cs.reverse.takeWhile (· != '\n')).reverse

theorem lastLine_concat (cs : List Char) (c : Char) :
    lastLine (cs ++ [c]) = if c = '\n' then [] else lastLine cs ++ [c] := by
  unfold lastLine
  rw [List.reverse_append, List.reverse_singleton, List.singleton_append]
  split
  · next hc => simp [hc]
  · next hc => simp [hc]

theorem column_advanceOver (cs : List Char) : (p.advanceOver cs).column =
    (if '\n' ∈ cs then 1 else p.column) + (lastLine cs).length := by
  induction cs using List.reverseRecOn with
  | nil => rfl
  | append_singleton cs c ih =>
    rw [advanceOver_concat, advance, lastLine_concat]
    split
    · next hc => simp [hc]
    · next hc =>
      have hmem : '\n' ∈ cs ++ [c] ↔ '\n' ∈ cs := by simp [Ne.symm hc]
      simp only [ih, hmem, List.length_append, List.length_singleton, Nat.add_assoc]

/-- From the start of a text the column is one more than what precedes it on its line. -/
theorem column_advanceOver_start (cs : List Char) :
    (start.advanceOver cs).column = 1 + (lastLine cs).length := by
  rw [column_advanceOver]
  split <;> rfl

/-! ### Texts that start elsewhere -/

/-- Where the place comes to be if its text starts at `base`. -/
def rebase (p base : Position) : Position where
  line := base.line + (p.line - 1)
  column := if p.line = 1 then base.column + (p.column - 1) else p.column
  index := base.index + p.index

@[simp] theorem rebase_start : start.rebase p = p := rfl

theorem isValid_advance (h : p.IsValid) (c : Char) : (p.advance c).IsValid := by
  unfold advance
  split
  · exact ⟨Nat.le_succ_of_le h.1, Nat.le_refl 1⟩
  · exact ⟨h.1, Nat.le_succ_of_le h.2⟩

theorem rebase_advance (h : p.IsValid) (base : Position) (c : Char) :
    (p.advance c).rebase base = (p.rebase base).advance c := by
  obtain ⟨hline, hcolumn⟩ := h
  unfold advance
  split
  · have hnext : p.line + 1 ≠ 1 := by omega
    simp only [rebase, if_neg hnext, mk.injEq, true_and]
    omega
  · simp only [rebase, mk.injEq, true_and]
    split <;> omega

theorem isValid_advanceOver (h : p.IsValid) (cs : List Char) : (p.advanceOver cs).IsValid := by
  induction cs generalizing p with
  | nil => exact h
  | cons c cs ih => exact ih _ (p.isValid_advance h c)

theorem rebase_advanceOver (h : p.IsValid) (base : Position) (cs : List Char) :
    (p.advanceOver cs).rebase base = (p.rebase base).advanceOver cs := by
  induction cs generalizing p with
  | nil => rfl
  | cons c cs ih =>
    rw [advanceOver_cons, advanceOver_cons, ih _ (p.isValid_advance h c), p.rebase_advance h]

end StepMachine.Position
