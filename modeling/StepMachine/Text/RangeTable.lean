/-! # Tables of code ranges

A set of character codes is a list of disjoint closed ranges in rising order, so a search
may stop at the first range that starts above the code.
-/
namespace StepMachine.Text

/-- Closed ranges in rising order. -/
abbrev RangeTable := List (Nat × Nat)

/-- The start of the range that holds the code. -/
def rangeStart? : RangeTable → Nat → Option Nat
  | [], _ => none
  | (first, last) :: rest, code =>
    if code < first then none
    else if code ≤ last then some first
    else rangeStart? rest code

/-- Some range holds the code. -/
def inRanges (table : RangeTable) (code : Nat) : Bool :=
  (rangeStart? table code).isSome

end StepMachine.Text
