import StepMachine.Text.RangeTable

/-! # Blanks

The characters that separate tokens: white space of Unicode 14, with the line, file, group,
record and unit separators. Zero-width characters are no blanks.
-/
namespace StepMachine.Text

/-- Ranges of the blanks. -/
def blankRanges : RangeTable :=
  [ (0x9, 0xd), (0x1c, 0x20), (0x85, 0x85), (0xa0, 0xa0), (0x1680, 0x1680), (0x2000, 0x200a),
    (0x2028, 0x2029), (0x202f, 0x202f), (0x205f, 0x205f), (0x3000, 0x3000) ]

/-- The code belongs to a blank. -/
def isBlankCode (code : Nat) : Bool :=
  inRanges blankRanges code

/-- The character is a blank. -/
def isBlank (c : Char) : Bool :=
  isBlankCode c.toNat

/-- Tab, line feed, vertical tab, form feed, carriage return and space. -/
def isAsciiBlank (code : Nat) : Bool :=
  (0x9 ≤ code && code ≤ 0xd) || code == 0x20

end StepMachine.Text
