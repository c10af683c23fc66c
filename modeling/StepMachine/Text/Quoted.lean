import StepMachine.Text.Printable

/-! # Quoted text

Text in quotes, on one line and in visible characters. Single quotes are the rule; text that
holds a single quote and no double quote takes double ones. The quote that was chosen and the
backslash are escaped, and so is every character that is not printable.
-/
namespace StepMachine.Text

/-- The quote around a text. -/
def quoteMark (cs : List Char) : Char :=
  if cs.contains '\x27' && !cs.contains '"' then '"' else '\x27'

/-- Hexadecimal digits in small letters, filled with zeros up to the width. -/
def hexDigits (width code : Nat) : List Char :=
  let digits := Nat.toDigits 16 code
  List.replicate (width - digits.length) '0' ++ digits

/-- One character as it stands between the quotes. -/
def quotedChar (mark c : Char) : List Char :=
  if c = mark || c = '\\' then ['\\', c]
  else if c = '\t' then ['\\', 't']
  else if c = '\n' then ['\\', 'n']
  else if c = '\r' then ['\\', 'r']
  else if isPrintable c.toNat then [c]
  else if c.toNat < 0x100 then '\\' :: 'x' :: hexDigits 2 c.toNat
  else if c.toNat < 0x10000 then '\\' :: 'u' :: hexDigits 4 c.toNat
  else '\\' :: 'U' :: hexDigits 8 c.toNat

/-- The text in quotes. -/
def quoted (s : String) : String :=
  let mark := quoteMark s.toList
  String.ofList (mark :: s.toList.flatMap (quotedChar mark) ++ [mark])

end StepMachine.Text
