import StepMachine.Text.LetterCase

/-! # Switches and matching modes

A pattern turns switches on and off, for the whole body or for one group. What a switch
changes while a text is matched is gathered in a mode; the other switches only change how the
body is read.
-/
namespace StepMachine.Regex

/-- What a letter of an inline flag group switches. -/
inductive Switch where
  | ascii
  | ignoreCase
  | locale
  | multiline
  | dotAll
  | template
  | unicode
  | verbose
deriving DecidableEq

namespace Switch

/-- The switch of a flag letter. -/
def ofLetter? : Char → Option Switch
  | 'a' => some ascii
  | 'i' => some ignoreCase
  | 'L' => some locale
  | 'm' => some multiline
  | 's' => some dotAll
  | 't' => some template
  | 'u' => some unicode
  | 'x' => some verbose
  | _ => none

/-- The switches that choose which characters belong to a kind; at most one may be on. -/
def choosesAlphabet : Switch → Bool
  | ascii | locale | unicode => true
  | _ => false

end Switch

/-- How a text is matched. -/
structure Mode where
  /-- Letters match letters that differ in case only. -/
  ignoreCase : Bool
  /-- The line anchors hold at every line. -/
  multiline : Bool
  /-- The dot matches the line feed. -/
  dotAll : Bool
  /-- Kinds of characters and letter case know English letters only. -/
  ascii : Bool
deriving DecidableEq

namespace Mode

/-- The mode that a set of switches asks for. -/
def ofSwitches (on : List Switch) : Mode where
  ignoreCase := on.contains .ignoreCase
  multiline := on.contains .multiline
  dotAll := on.contains .dotAll
  ascii := on.contains .ascii

/-- The mode inside a group that turns some switches on and others off. -/
def adjust (m : Mode) (on off : List Switch) : Mode where
  ignoreCase := (m.ignoreCase || on.contains .ignoreCase) && !off.contains .ignoreCase
  multiline := (m.multiline || on.contains .multiline) && !off.contains .multiline
  dotAll := (m.dotAll || on.contains .dotAll) && !off.contains .dotAll
  ascii := on.contains .ascii || (m.ascii && !on.contains .unicode)

/-- The form under which characters are compared when case is ignored. -/
def small (m : Mode) (code : Nat) : Nat :=
  if m.ascii then Text.asciiSmall code else Text.small code

/-- Other small forms that count as the same letter. -/
def siblings (m : Mode) (code : Nat) : List Nat :=
  if m.ascii then [] else Text.caseSiblings code

/-- The character has forms that differ in case. -/
def isCased (m : Mode) (code : Nat) : Bool :=
  if m.ascii then Text.isAsciiLetter code else Text.isCased code

/-- Some character of the range has forms that differ in case. -/
def isCasedRange (m : Mode) (first last : Nat) : Bool :=
  if m.ascii then (first ≤ 0x5a && 0x41 ≤ last) || (first ≤ 0x7a && 0x61 ≤ last)
  else Text.hasCased first last

/-- The characters whose small form is `code`. -/
def sources (m : Mode) (code : Nat) : List Nat :=
  if m.ascii then
    if 0x61 ≤ code && code ≤ 0x7a then [code, code - 0x20] else [code]
  else Text.capitalsOf code

end Mode

end StepMachine.Regex
