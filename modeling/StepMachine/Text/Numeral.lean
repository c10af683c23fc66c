/-! # Numerals

A run of decimal digits stands for a natural number. Runs of more than 4300 digits, leading
zeros counted, are refused, and so are numbers that could only be written with more.
-/
namespace StepMachine.Text

/-- The longest run of digits that is read or written. -/
def numeralLimit : Nat := 4300

/-- A run of digits that is longer than the limit. -/
structure LongNumeral where
  digits : Nat
deriving DecidableEq

/-- The report on a numeral that is too long. -/
def LongNumeral.message (long : LongNumeral) : String :=
  "Exceeds the limit (" ++ toString numeralLimit ++
    " digits) for integer string conversion: value has " ++ toString long.digits ++
    " digits; use sys.set_int_max_str_digits() to increase the limit"

/-- The number that digits from `0` to `9` stand for, most significant first. -/
def digitsValue (cs : List Char) : Nat :=
  cs.foldl (fun n c => 10 * n + (c.toNat - '0'.toNat)) 0

/-- The number that a run of digits stands for. -/
def readNumeral (cs : List Char) : Except LongNumeral Nat :=
  if cs.length ≤ numeralLimit then .ok (digitsValue cs) else .error ⟨cs.length⟩

/-- A number that takes more digits than the limit. -/
structure LongNumber where
  value : Int
deriving DecidableEq

/-- The report on a number that takes too many digits. -/
def LongNumber.message (_ : LongNumber) : String :=
  "Exceeds the limit (" ++ toString numeralLimit ++
    " digits) for integer string conversion; use sys.set_int_max_str_digits() to increase the limit"

/-- The number in digits, with a sign if it is negative. -/
def writeNumber (n : Int) : Except LongNumber String :=
  if (Nat.toDigits 10 n.natAbs).length ≤ numeralLimit then .ok (toString n) else .error ⟨n⟩

end StepMachine.Text
