/-! # Places in a text

A place is counted three ways: by line and column, both from one, and by the number of
characters before it. Only a line feed starts a new line. Places are ordered by index, then by
line, then by column.
-/
namespace StepMachine

/-- A place in a text. -/
structure Position where
  line : Nat
  column : Nat
  index : Nat
deriving DecidableEq

namespace Position

/-- Lines and columns count from one. -/
def IsValid (p : Position) : Prop := 1 ≤ p.line ∧ 1 ≤ p.column

instance (p : Position) : Decidable p.IsValid := inferInstanceAs (Decidable (_ ∧ _))

/-- The place of the first character of every text. -/
def start : Position := ⟨1, 1, 0⟩

/-- What is wrong with a triple of numbers that is no place. -/
inductive Misplaced where
  | negativeIndex
  | notFromOne
deriving DecidableEq

/-- The report on a triple that is no place. -/
def Misplaced.message : Misplaced → String
  | .negativeIndex => "TextPosition index cannot be negative"
  | .notFromOne => "TextPosition line and column are 1-based"

/-- The place with this line, column and index. The index is checked first. -/
def ofInts (line column index : Int) : Except Misplaced Position :=
  if index < 0 then .error .negativeIndex
  else if line < 1 ∨ column < 1 then .error .notFromOne
  else .ok ⟨line.toNat, column.toNat, index.toNat⟩

/-- The place after the character `c` that stands at `p`. -/
def advance (p : Position) (c : Char) : Position :=
  if c = '\n' then ⟨p.line + 1, 1, p.index + 1⟩ else ⟨p.line, p.column + 1, p.index + 1⟩

/-- The place after all the characters, the first of which stands at `p`. -/
def advanceOver (p : Position) (cs : List Char) : Position :=
  cs.foldl advance p

variable (p : Position)

@[simp] theorem advanceOver_nil : p.advanceOver [] = p := rfl

@[simp] theorem advanceOver_cons (c : Char) (cs : List Char) :
    p.advanceOver (c :: cs) = (p.advance c).advanceOver cs := rfl

theorem advanceOver_append (cs ds : List Char) :
    p.advanceOver (cs ++ ds) = (p.advanceOver cs).advanceOver ds := List.foldl_append

@[simp] theorem index_advance (c : Char) : (p.advance c).index = p.index + 1 := by
  unfold advance; split <;> rfl

/-- By index, then by line, then by column. -/
def Precedes (p q : Position) : Prop :=
  p.index < q.index ∨
    p.index = q.index ∧ (p.line < q.line ∨ p.line = q.line ∧ p.column < q.column)

instance : LT Position := ⟨Precedes⟩
instance : LE Position := ⟨fun p q => p < q ∨ p = q⟩

instance (p q : Position) : Decidable (p < q) := inferInstanceAs (Decidable (_ ∨ _))
instance (p q : Position) : Decidable (p ≤ q) := inferInstanceAs (Decidable (_ ∨ _))

/-- Line and column in words. -/
def describe (p : Position) : String :=
  "line " ++ toString p.line ++ ", column " ++ toString p.column

/-- All three counts in one word. -/
def locator (p : Position) : String :=
  "TextPosition(" ++ toString p.line ++ ":" ++ toString p.column ++ "@" ++
    toString p.index ++ ")"

end Position

end StepMachine
