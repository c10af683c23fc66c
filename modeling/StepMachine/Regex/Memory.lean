/-! # What matching remembers

A term is matched by trying one way after another. All the while a memory keeps where the groups
last began and ended and which offset was reached last. An attempt hands on its memory when it
fails as well, so the next attempt can still see what was left there.
-/
namespace StepMachine.Regex

/-- The marks of the groups and the last offset of interest. -/
structure Memory where
  /-- Where the first group last began and ended, then the second group, and so on. -/
  marks : Array (Option Nat)
  /-- The offset at which something was last tried or completed. -/
  reached : Nat

namespace Memory

/-- Before anything is tried. -/
def initial (offset : Nat) : Memory := ⟨#[], offset⟩

/-- With the mark set; missing marks before it are none. -/
def mark (m : Memory) (index offset : Nat) : Memory :=
  let missing := Array.replicate (index + 1 - m.marks.size) none
  { m with marks := (m.marks ++ missing).setIfInBounds index (some offset) }

/-- The group begins at the offset. -/
def enter (m : Memory) (group offset : Nat) : Memory := m.mark (2 * (group - 1)) offset

/-- The group ends at the offset. -/
def leave (m : Memory) (group offset : Nat) : Memory := m.mark (2 * (group - 1) + 1) offset

/-- What the group has read: from where to where. A group that has begun after its last end has
read nothing yet. -/
def group? (m : Memory) (group : Nat) : Option (Nat × Nat) := do
  let first ← m.marks[2 * (group - 1)]?.join
  let last ← m.marks[2 * (group - 1) + 1]?.join
  if last < first then none else some (first, last)

/-- With the offset as the last one of interest. -/
def reaching (m : Memory) (offset : Nat) : Memory := { m with reached := offset }

/-- After going back to an earlier choice. All marks are as they were then if the choice is
`sealed`. Otherwise marks that are new since then are dropped, and marks that were moved stay
where they are. -/
def backTo (now earlier : Memory) (sealed : Bool) : Memory :=
  { now with marks := if sealed then earlier.marks else now.marks.take earlier.marks.size }

end Memory

/-- How an attempt ends, with what is remembered then. -/
inductive Verdict where
  | matched (memory : Memory)
  | failed (memory : Memory)

namespace Verdict

/-- The attempt has succeeded. -/
def isMatch : Verdict → Bool
  | matched _ => true
  | failed _ => false

/-- After a failure, something else is tried. -/
@[inline] def orElse (v : Verdict) (next : Memory → Verdict) : Verdict :=
  match v with
  | matched m => matched m
  | failed m => next m

end Verdict

/-- What is to be matched from an offset on, after something else. -/
abbrev Rest := Nat → Memory → Verdict

/-- Matching from an offset on, with what follows. -/
abbrev Attempt := Nat → Memory → Rest → Verdict

/-- Nothing follows. -/
def atEnd : Rest := fun offset memory => .matched (memory.reaching offset)

end StepMachine.Regex
