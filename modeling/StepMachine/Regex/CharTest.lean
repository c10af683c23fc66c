import StepMachine.Regex.Mode
import StepMachine.Text.Blank
import StepMachine.Text.Digit

/-! # Tests of one character

The part of a pattern that reads exactly one character: a literal, the dot, or a class of
single characters, ranges and kinds. Literals are codes, since a pattern may name a code that
is no character; such a literal matches nothing.
-/
namespace StepMachine.Regex

/-- Kinds of characters that have an escape letter. -/
inductive Kind where
  | digit
  | blank
  | word
deriving DecidableEq

/-- The character belongs to the kind. -/
def Kind.holds (m : Mode) : Kind → Nat → Bool
  | .digit, code => if m.ascii then Text.isAsciiDigit code else Text.isDigit code
  | .blank, code => if m.ascii then Text.isAsciiBlank code else Text.isBlankCode code
  | .word, code => if m.ascii then Text.isAsciiWord code else Text.isWord code

/-- An entry of a class. -/
inductive Member where
  | code (code : Nat)
  | range (first last : Nat)
  | kind (kind : Kind) (negated : Bool)
deriving DecidableEq

namespace Member

/-- The character is in the entry as it is written. -/
def holds (m : Mode) : Member → Nat → Bool
  | .code a, c => a == c
  | .range first last, c => first ≤ c && c ≤ last
  | .kind k negated, c => k.holds m c != negated

/-- The entry holds a letter that has another case. Beyond U+FFFF every entry counts. -/
def isCased (m : Mode) : Member → Bool
  | .code a => 0x10000 ≤ a || m.isCased a
  | .range first last => 0x10000 ≤ last || m.isCasedRange first last
  | .kind .. => false

/-- The small form `c` is in the entry when case is ignored. Up to U+FFFF an entry stands for
the small forms of its members and their siblings. Beyond, a single code stands for itself and
a range for the characters that lie in it or whose capital does. -/
def holdsFolded (m : Mode) : Member → Nat → Bool
  | .code a, c =>
    if 0x10000 ≤ a then a == c else m.small a == c || (m.siblings (m.small a)).contains c
  | .range first last, c =>
    ((c :: m.siblings c).flatMap m.sources).any
        (fun a => first ≤ a && a ≤ last && a < 0x10000) ||
      (0x10000 ≤ last && ((first ≤ c && c ≤ last) ||
        (first ≤ Text.capital c && Text.capital c ≤ last)))
  | .kind k negated, c => k.holds m c != negated

end Member

/-- A test of one character. -/
inductive CharTest where
  /-- Every character, the line feed only if the mode says so. -/
  | any
  /-- One character. -/
  | only (code : Nat)
  /-- Every character but one. -/
  | allBut (code : Nat)
  /-- The characters of a class, or with `negated` all others. -/
  | oneOf (negated : Bool) (members : List Member)
deriving DecidableEq

namespace CharTest

/-- The character is the literal. -/
def matchesCode (m : Mode) (a c : Nat) : Bool :=
  if m.ignoreCase && m.isCased a then
    m.small a == m.small c || (m.siblings (m.small a)).contains (m.small c)
  else a == c

/-- The character passes the test. -/
def holds (m : Mode) : CharTest → Nat → Bool
  | .any, c => m.dotAll || c != 0xa
  | .only a, c => matchesCode m a c
  | .allBut a, c => !matchesCode m a c
  | .oneOf negated members, c =>
    let inside :=
      if m.ignoreCase && members.any (Member.isCased m) then
        members.any (Member.holdsFolded m · (m.small c))
      else members.any (Member.holds m · c)
    inside != negated

end CharTest

end StepMachine.Regex
