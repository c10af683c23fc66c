import StepMachine.Regex.CharTest

/-! # Terms

The structure of a pattern body after reading. Groups are numbered from one. A term knows how
many characters it can read, as a least number and a greatest one if there is one.
-/
namespace StepMachine.Regex

/-- How many characters a term can read; no `most` means any number. -/
structure Width where
  least : Nat
  most : Option Nat
deriving DecidableEq

namespace Width

/-- Exactly so many characters. -/
def exactly (n : Nat) : Width := ⟨n, some n⟩

/-- One term after another. -/
def after (a b : Width) : Width where
  least := a.least + b.least
  most := match a.most, b.most with
    | some x, some y => some (x + y)
    | _, _ => none

/-- One term or another. -/
def either (a b : Width) : Width where
  least := min a.least b.least
  most := match a.most, b.most with
    | some x, some y => some (max x y)
    | _, _ => none

/-- A term some number of times; no `max` means any number. -/
def times (a : Width) (min : Nat) (max : Option Nat) : Width where
  least := a.least * min
  most := match a.most, max with
    | some 0, _ => some 0
    | some x, some n => some (x * n)
    | none, some 0 => some 0
    | _, _ => none

/-- The same number of characters whatever is read. -/
def isFixed (a : Width) : Bool := a.most == some a.least

end Width

/-- Conditions on the place between two characters. -/
inductive Anchor where
  /-- The start of the text or, in a multiline mode, of a line. -/
  | lineStart
  /-- The end of the text or of its last line; in a multiline mode, the end of a line. -/
  | lineEnd
  | textStart
  | textEnd
  | wordEdge
  | noWordEdge
deriving DecidableEq

/-- In which order the numbers of repetitions are tried. -/
inductive Greed where
  /-- As many as possible first. -/
  | greedy
  /-- As few as possible first. -/
  | lazy
  /-- As many as possible, and no others. -/
  | possessive
deriving DecidableEq

/-- The structure of a pattern body. -/
inductive Term where
  | empty
  | char (test : CharTest)
  | anchor (anchor : Anchor)
  | seq (first second : Term)
  | either (first second : Term)
  /-- The body at least `min` times, and at most `max` times if there is a `max`. -/
  | repeated (greed : Greed) (min : Nat) (max : Option Nat) (body : Term)
  /-- The body; what it reads is kept under the number of the group. -/
  | capture (group : Nat) (body : Term)
  /-- The body in an adjusted mode. -/
  | switched (on off : List Switch) (body : Term)
  /-- The body's first way of matching, and no other. -/
  | atomic (body : Term)
  /-- What the group has read, again; the width is that of the group's body. -/
  | backref (group : Nat) (width : Width)
  /-- The body matches from here on, or with `negated` does not; nothing is read. -/
  | ahead (negated : Bool) (body : Term)
  /-- The body matches just before here, or with `negated` does not; nothing is read. -/
  | behind (negated : Bool) (width : Width) (body : Term)
  /-- The first body if the group has read something, else the second. -/
  | conditional (group : Nat) (present absent : Term)
deriving DecidableEq

namespace Term

/-- How many characters the term can read. -/
def width : Term → Width
  | empty | anchor _ | ahead .. | behind .. => .exactly 0
  | char _ => .exactly 1
  | seq a b => a.width.after b.width
  | either a b => a.width.either b.width
  | repeated _ min max body => body.width.times min max
  | capture _ body | switched _ _ body | atomic body => body.width
  | backref _ w => w
  | conditional _ yes no => yes.width.either no.width

/-- The terms one after another. -/
def ofItems : List Term → Term
  | [] => empty
  | [t] => t
  | t :: rest => seq t (ofItems rest)

/-- The items of a sequence; groups that neither capture nor switch anything are opened. -/
def items : Term → List Term
  | empty => []
  | seq a b => a.items ++ b.items
  | switched [] [] body => body.items
  | t => [t]

/-- The item reads one character or compares, without any body. -/
def isPlain : Term → Bool
  | char _ | anchor _ | backref .. => true
  | _ => false

/-- The items that all branches start with, and the branches without them. -/
def commonStart : List Term → List (List Term) → List Term × List (List Term)
  | t :: rest, branches =>
    if t.isPlain && branches.all (fun b => b.head? == some t) then
      let (shared, tails) := commonStart rest (branches.map List.tail)
      (t :: shared, tails)
    else ([], (t :: rest) :: branches)
  | [], branches => ([], [] :: branches)

/-- The class entries of a branch that reads one character of a class and nothing else. -/
def asMembers? : List Term → Option (List Member)
  | [char (.only code)] => some [.code code]
  | [char (.oneOf false members)] => some members
  | _ => none

/-- The last branch of a choice. One that is a choice itself is kept apart from the branches
before it. -/
def lastBranch : List Term → Term
  | [either a b] => seq (either a b) empty
  | items => ofItems items

/-- One of the branches, tried in order. What all branches start with is read once, and
branches that each read one character of a class make one class. -/
def ofBranches : List (List Term) → Term
  | [] => empty
  | [items] => ofItems items
  | first :: others =>
    let (shared, tails) := commonStart first others
    match tails.mapM asMembers? with
    | some members => ofItems (shared ++ [char (.oneOf false members.flatten.eraseDups)])
    | none =>
      let choice := match tails.reverse with
        | [] => empty
        | last :: before => before.foldl (fun t b => either (ofItems b) t) (lastBranch last)
      ofItems (shared ++ [choice])

end Term

end StepMachine.Regex
