import StepMachine.Diagnostic
import StepMachine.Text.Blank
import StepMachine.Text.Letter

/-! # The scanner

The scanner is a machine of ten states. In each state a character is either taken, going on to
some state or completing a token, or handed back after the token before it has been emitted. A
character that is handed back is looked at again between tokens, where every character is taken;
so a source is scanned by one pass over its characters. What is pending at the end of the source
is emitted as it stands, and damaged if it is a literal that was not closed.
-/
namespace StepMachine

/-- What the scanner is reading. -/
inductive ScanState where
  /-- Nothing; the next character starts a token or is a blank. -/
  | dispatch
  | name
  | number
  | patternBody
  | patternEscape
  | patternFlags
  | doubleString
  | doubleStringEscape
  | singleString
  | singleStringEscape
deriving DecidableEq

/-- What the scanner does with a character. -/
inductive ScanMove where
  /-- Take the character and keep nothing of it. -/
  | skip
  /-- Take the character into the pending token. -/
  | take (next : ScanState)
  /-- Take the character as the last one of a token. -/
  | finish (kind : TokenKind)
  /-- Take the character as a token that stands for nothing. -/
  | refuse
  /-- Emit the pending token and leave the character. -/
  | handBack (kind : TokenKind)
deriving DecidableEq

namespace ScanState

/-- The word for a state. -/
def label : ScanState → String
  | dispatch => "DISPATCH"
  | name => "IDENTIFIER"
  | number => "NUMBER"
  | patternBody => "REGEX_BODY"
  | patternEscape => "REGEX_ESCAPE"
  | patternFlags => "REGEX_FLAGS"
  | doubleString => "DOUBLE_STRING"
  | doubleStringEscape => "DOUBLE_STRING_ESCAPE"
  | singleString => "SINGLE_STRING"
  | singleStringEscape => "SINGLE_STRING_ESCAPE"

/-- What a character does between tokens. -/
def dispatchMove (c : Char) : ScanMove :=
  match punctuation.lookup c with
  | some kind => .finish kind
  | none =>
    if Text.isBlank c then .skip
    else if Text.isAsciiLetter c.toNat then .take .name
    else if Text.isAsciiDigit c.toNat then .take .number
    else if c = '/' then .take .patternBody
    else if c = '"' then .take .doubleString
    else if c = '\x27' then .take .singleString
    else .refuse

/-- What a character does inside a string literal. -/
def stringMove (quote : Char) (body escape : ScanState) (c : Char) : ScanMove :=
  if c = '\\' then .take escape
  else if c = quote then .finish .string
  else .take body

/-- What a character does. -/
def move : ScanState → Char → ScanMove
  | dispatch, c => dispatchMove c
  | name, c => if Text.isAsciiLetter c.toNat then .take .name else .handBack .name
  | number, c => if Text.isAsciiDigit c.toNat then .take .number else .handBack .number
  | patternBody, c =>
    if c = '\\' then .take .patternEscape
    else if c = '/' then .take .patternFlags
    else .take .patternBody
  | patternEscape, _ => .take .patternBody
  | patternFlags, c =>
    if Pattern.flagLetters.contains c then .take .patternFlags else .handBack .pattern
  | doubleString, c => stringMove '"' .doubleString .doubleStringEscape c
  | doubleStringEscape, _ => .take .doubleString
  | singleString, c => stringMove '\x27' .singleString .singleStringEscape c
  | singleStringEscape, _ => .take .singleString

/-- The token that is emitted when the source ends in a state, and the report on it. -/
def pending? : ScanState → Option (TokenKind × Option Code)
  | dispatch => none
  | name => some (.name, none)
  | number => some (.number, none)
  | patternFlags => some (.pattern, none)
  | patternBody | patternEscape => some (.pattern, some .unterminatedPattern)
  | doubleString | doubleStringEscape | singleString | singleStringEscape =>
    some (.string, some .unterminatedString)

/-- The character is handed back. -/
def handsBack (s : ScanState) (c : Char) : Bool :=
  match s.move c with
  | .handBack _ => true
  | _ => false

end ScanState

/-- The machine: its state, where the token that it reads began, the place of the next
character, the characters of the pending token, and what has been emitted and reported. -/
structure Scanner where
  state : ScanState
  tokenStart : Position
  position : Position
  held : Array Char
  tokens : Array Token
  diagnostics : Array Diagnostic
deriving DecidableEq

namespace Scanner

/-- Before the first character. -/
def start : Scanner := ⟨.dispatch, .start, .start, #[], #[], #[]⟩

/-- Take a character into the pending token. -/
def bump (s : Scanner) (c : Char) : Scanner :=
  { s with position := s.position.advance c, held := s.held.push c }

/-- Emit the pending token. -/
def emit (s : Scanner) (kind : TokenKind) (invalid : Bool) : Scanner :=
  { s with
    state := .dispatch
    held := #[]
    tokens := s.tokens.push ⟨kind, String.ofList s.held.toList, s.tokenStart, none, invalid⟩ }

/-- Report at the start of the token that was read last. -/
def report (s : Scanner) (cause : Cause) : Scanner :=
  { s with diagnostics := s.diagnostics.push ⟨cause, s.tokenStart⟩ }

/-- Between tokens, the next character starts one. -/
def mark (s : Scanner) : Scanner :=
  if s.state = .dispatch then { s with tokenStart := s.position } else s

/-- One look at a character, which is taken or handed back. -/
def handle (s : Scanner) (c : Char) : Scanner :=
  match s.state.move c with
  | .skip => { s.mark with position := s.position.advance c }
  | .take next => { s.mark.bump c with state := next }
  | .finish kind => (s.mark.bump c).emit kind false
  | .refuse => ((s.mark.bump c).emit .unknown true).report (.unknownCharacter c)
  | .handBack kind => s.emit kind false

/-- Take a character, looking at it again if it was handed back. -/
def feed (s : Scanner) (c : Char) : Scanner :=
  if s.state.handsBack c then (s.handle c).handle c else s.handle c

/-- Take characters one after another. -/
def feedAll (s : Scanner) (cs : List Char) : Scanner :=
  cs.foldl feed s

variable (s : Scanner)

@[simp] theorem feedAll_nil : s.feedAll [] = s := rfl

@[simp] theorem feedAll_cons (c : Char) (cs : List Char) :
    s.feedAll (c :: cs) = (s.feed c).feedAll cs := rfl

/-- A source may be scanned in parts. -/
theorem feedAll_append (cs ds : List Char) :
    s.feedAll (cs ++ ds) = (s.feedAll cs).feedAll ds := List.foldl_append

/-- Emit what is pending at the end of the source. -/
def close (s : Scanner) : Scanner :=
  match s.state.pending? with
  | none => s
  | some (kind, none) => s.emit kind false
  | some (kind, some code) => (s.emit kind true).report (.general code)

/-- The token of the end of the source. -/
def endToken (s : Scanner) : Token := ⟨.eof, "", s.position, none, false⟩

end Scanner

end StepMachine
