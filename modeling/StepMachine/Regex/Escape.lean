import StepMachine.Regex.Reader
import StepMachine.Text.Letter

/-! # Escapes and classes

A backslash before a letter or digit names a character, a kind of characters, a place or a
group; before anything else it names the character itself. Inside a class the same escapes name
class entries, and places and groups cannot be named.
-/
namespace StepMachine.Regex

/-- Digits below eight. -/
def isOctalDigit (c : Char) : Bool := '0' ≤ c && c ≤ '7'

/-- Hexadecimal digits in small or capital letters. -/
def isHexDigit (c : Char) : Bool :=
  Text.isAsciiDigit c.toNat || ('a' ≤ c && c ≤ 'f') || ('A' ≤ c && c ≤ 'F')

/-- The value of a hexadecimal digit. -/
def hexDigitValue (c : Char) : Nat :=
  if Text.isAsciiDigit c.toNat then c.toNat - '0'.toNat
  else if 'a' ≤ c then c.toNat - 'a'.toNat + 10
  else c.toNat - 'A'.toNat + 10

/-- The number that digits stand for in a base. -/
def valueInBase (base : Nat) (digits : List Char) : Nat :=
  digits.foldl (fun n c => base * n + hexDigitValue c) 0

/-- Control characters with an escape letter. -/
def controlCode? : Char → Option Nat
  | 'a' => some 0x7
  | 'b' => some 0x8
  | 't' => some 0x9
  | 'n' => some 0xa
  | 'v' => some 0xb
  | 'f' => some 0xc
  | 'r' => some 0xd
  | '\\' => some 0x5c
  | _ => none

/-- Kinds with an escape letter; the capital letter negates. -/
def kindMember? : Char → Option Member
  | 'd' => some (.kind .digit false)
  | 'D' => some (.kind .digit true)
  | 's' => some (.kind .blank false)
  | 'S' => some (.kind .blank true)
  | 'w' => some (.kind .word false)
  | 'W' => some (.kind .word true)
  | _ => none

/-- Places with an escape letter. -/
def anchor? : Char → Option Anchor
  | 'A' => some .textStart
  | 'Z' => some .textEnd
  | 'b' => some .wordEdge
  | 'B' => some .noWordEdge
  | _ => none

namespace Reading

/-- Refuse an escape that has just been read. -/
def failEscape {α : Type} (reason : String → Reason) (text : List Char) : Reading α :=
  fail (reason (String.ofList text)) text.length

/-- The code after an escape letter, in exactly so many hexadecimal digits. -/
def hexEscape (letter : Char) (size : Nat) : Reading Nat := do
  let digits ← takeRun isHexDigit size
  let text := '\\' :: letter :: digits
  if digits.length ≠ size then failEscape .shortEscape text
  else
    let code := valueInBase 16 digits
    if 0x110000 ≤ code then failEscape .badEscape text else return code

/-- The code of an octal escape, which must fit eight bits. -/
def octalEscape (digits : List Char) : Reading Nat := do
  let code := valueInBase 8 digits
  if 0o377 < code then failEscape .octalTooLarge ('\\' :: digits) else return code

/-- A character called by its name. -/
def namedEscape : Reading Nat := do
  if ← accept '\x7b' then
    let name ← takeName '\x7d' "character name"
    match (← get).named? (String.ofList name) with
    | some code => return code
    | none => fail (.noSuchCharacter (String.ofList name)) (name.length + 4)
  else fail .unnamedCharacter 0

/-- The code that an escape with one of the letters for codes names. -/
def codeEscape? (c : Char) : Reading (Option Nat) := do
  match c with
  | 'x' => return some (← hexEscape c 2)
  | 'u' => return some (← hexEscape c 4)
  | 'U' => return some (← hexEscape c 8)
  | 'N' => return some (← namedEscape)
  | _ => return none

/-- What a backslash before `c` means inside a class. -/
def classEscape (c : Char) : Reading Member := do
  if let some code := controlCode? c then return .code code
  if let some member := kindMember? c then return member
  if let some code ← codeEscape? c then return .code code
  if isOctalDigit c then
    let digits ← takeRun isOctalDigit 2
    return .code (← octalEscape (c :: digits))
  if Text.isAsciiDigit c.toNat || Text.isAsciiLetter c.toNat then
    failEscape .badEscape ['\\', c]
  return .code c.toNat

/-- A reference to a group that has been closed. The digits have been read. -/
def groupEscape (digits : List Char) : Reading Term := do
  let group := valueInBase 10 digits
  if group < (← groupCount) then
    match ← closedWidth? group with
    | none => fail .openGroup (digits.length + 1)
    | some width =>
      checkBarrier group
      return .backref group width
  else fail (.noSuchGroup group) digits.length

/-- What a backslash before a digit other than zero means: three octal digits name a character,
one or two decimal digits name a group. -/
def digitEscape (c : Char) : Reading Term := do
  match ← takeRun (Text.isAsciiDigit ·.toNat) 1 with
  | [d] =>
    if isOctalDigit c && isOctalDigit d then
      match ← takeRun isOctalDigit 1 with
      | [e] => return .char (.only (← octalEscape [c, d, e]))
      | _ => groupEscape [c, d]
    else groupEscape [c, d]
  | _ => groupEscape [c]

/-- What a backslash before `c` means outside classes. -/
def escape (c : Char) : Reading Term := do
  if let some anchor := anchor? c then return .anchor anchor
  if let some member := kindMember? c then return .char (.oneOf false [member])
  if let some code := controlCode? c then return .char (.only code)
  if let some code ← codeEscape? c then return .char (.only code)
  if c = '0' then
    let digits ← takeRun isOctalDigit 2
    return .char (.only (← octalEscape (c :: digits)))
  if Text.isAsciiDigit c.toNat then return ← digitEscape c
  if Text.isAsciiLetter c.toNat then failEscape .badEscape ['\\', c]
  return .char (.only c.toNat)

/-- The class entry that starts with the piece. -/
def classMember : Piece → Reading Member
  | .escaped c => classEscape c
  | .plain c => return .code c.toNat
  | .dangling => fail .endsInEscape 1

/-- The range between two entries, which must be characters in order. The pieces that start
them are quoted if not. -/
def rangeMember (first last : Piece) (lower upper : Member) : Reading Member :=
  let refuse := fail (.badRange (String.ofList first.text) (String.ofList last.text))
    (first.text.length + 1 + last.text.length)
  match lower, upper with
  | .code a, .code b => if b < a then refuse else return .range a b
  | _, _ => refuse

/-- The entries of a class up to its closing bracket, which as the first entry is a character.
The class was opened at `start`; `steps` bounds the number of entries. -/
def classMembers (start : Nat) : Nat → List Member → Reading (List Member)
  | 0, members => return members
  | steps + 1, members => do
    match ← take with
    | none => failAt start .unclosedClass
    | some p =>
      if p = .plain ']' && !members.isEmpty then return members
      let first ← classMember p
      if ← accept '-' then
        match ← take with
        | none => failAt start .unclosedClass
        | some q =>
          if q = .plain ']' then return members ++ [first, .code '-'.toNat]
          let last ← classMember q
          let range ← rangeMember p q first last
          classMembers start steps (members ++ [range])
      else classMembers start steps (members ++ [first])

/-- The class whose opening bracket has just been read. -/
def charClass : Reading CharTest := do
  let start := (← offset) - 1
  let negated ← accept '^'
  let members ← classMembers start ((← get).pieces.length + 1) []
  match members.eraseDups, negated with
  | [.code a], false => return .only a
  | [.code a], true => return .allBut a
  | members, _ => return .oneOf negated members

end Reading

end StepMachine.Regex
