import StepMachine.Engine
import StepMachine.Regex.Term
import StepMachine.Text.Numeral
import StepMachine.Text.Quoted

/-! # Why a pattern body is refused

A body that cannot be read is refused with a reason and the place it points at. A body that
can be read may still ask for something that cannot be matched. Repetition counts have limits
of their own.
-/
namespace StepMachine.Regex

/-- What is wrong with the text of a body. -/
inductive Reason where
  | unclosedClass
  | badRange (first last : String)
  | unclosedGroup
  | strayClose
  | nothingToRepeat
  | repeatedTwice
  | leastAboveMost
  | endsInEscape
  | badEscape (text : String)
  | shortEscape (text : String)
  | octalTooLarge (text : String)
  | unnamedCharacter
  | noSuchCharacter (name : String)
  | noSuchGroup (group : Nat)
  | openGroup
  | groupOfSameLookbehind
  | unexpectedEnd
  | unknownExtension (text : String)
  | missingName (what : String)
  | unclosedName (closer : Char)
  | badName (name : String)
  | unknownName (name : String)
  | nameTaken (name : String) (group earlier : Nat)
  | unclosedComment
  | groupZero
  | thirdBranch
  | lateFlags
  | unendedFlags
  | missingFlag
  | missingColon
  | unknownFlag
  | localeFlag
  | clashingFlags
  | fixedFlag
  | flagOnAndOff
  | globalFlagOn
  | globalFlagOff
deriving DecidableEq

/-- The wording of a reason. -/
def Reason.message : Reason → String
  | unclosedClass => "unterminated character set"
  | badRange first last => "bad character range " ++ first ++ "-" ++ last
  | unclosedGroup => "missing ), unterminated subpattern"
  | strayClose => "unbalanced parenthesis"
  | nothingToRepeat => "nothing to repeat"
  | repeatedTwice => "multiple repeat"
  | leastAboveMost => "min repeat greater than max repeat"
  | endsInEscape => "bad escape (end of pattern)"
  | badEscape text => "bad escape " ++ text
  | shortEscape text => "incomplete escape " ++ text
  | octalTooLarge text => "octal escape value " ++ text ++ " outside of range 0-0o377"
  | unnamedCharacter => "missing \x7b"
  | noSuchCharacter name => "undefined character name " ++ Text.quoted name
  | noSuchGroup group => "invalid group reference " ++ toString group
  | openGroup => "cannot refer to an open group"
  | groupOfSameLookbehind =>
    "cannot refer to group defined in the same lookbehind subpattern"
  | unexpectedEnd => "unexpected end of pattern"
  | unknownExtension text => "unknown extension ?" ++ text
  | missingName what => "missing " ++ what
  | unclosedName closer => "missing " ++ String.singleton closer ++ ", unterminated name"
  | badName name => "bad character in group name " ++ Text.quoted name
  | unknownName name => "unknown group name " ++ Text.quoted name
  | nameTaken name group earlier =>
    "redefinition of group name " ++ Text.quoted name ++ " as group " ++ toString group ++
      "; was group " ++ toString earlier
  | unclosedComment => "missing ), unterminated comment"
  | groupZero => "bad group number"
  | thirdBranch => "conditional backref with more than two branches"
  | lateFlags => "global flags not at the start of the expression"
  | unendedFlags => "missing -, : or )"
  | missingFlag => "missing flag"
  | missingColon => "missing :"
  | unknownFlag => "unknown flag"
  | localeFlag => "bad inline flags: cannot use \x27L\x27 flag with a str pattern"
  | clashingFlags =>
    "bad inline flags: flags \x27a\x27, \x27u\x27 and \x27L\x27 are incompatible"
  | fixedFlag =>
    "bad inline flags: cannot turn off flags \x27a\x27, \x27u\x27 and \x27L\x27"
  | flagOnAndOff => "bad inline flags: flag turned on and off"
  | globalFlagOn => "bad inline flags: cannot turn on global flag"
  | globalFlagOff => "bad inline flags: cannot turn off global flag"

/-- A reason with the offset that it points at in a body. -/
structure Fault where
  reason : Reason
  offset : Nat
  body : String
deriving DecidableEq

/-- The reason and the offset; in a body of several lines, the line and column as well. -/
def Fault.message (f : Fault) : String :=
  let cs := f.body.toList
  let before := cs.take f.offset
  let place :=
    if cs.contains '\n' then
      let lines := before.count '\n'
      let column := (before.reverse.takeWhile (· != '\n')).length + 1
      " (line " ++ toString (lines + 1) ++ ", column " ++ toString column ++ ")"
    else ""
  f.reason.message ++ " at position " ++ toString f.offset ++ place

/-- Why a body is refused. -/
inductive Failure where
  /-- The text of the body is wrong. -/
  | fault (fault : Fault)
  /-- A lookbehind reads texts of different lengths. -/
  | variableLookbehind
  /-- A lookbehind reads more characters than can be counted. -/
  | endlessLookbehind
  /-- A template repeats something. -/
  | repeatInTemplate (greed : Greed)
  /-- The whole body is switched to two alphabets. -/
  | clashingAlphabets
  /-- A repetition count has too many digits. -/
  | longCount (long : Text.LongNumeral)
  /-- A repetition count is too large. -/
  | largeCount
deriving DecidableEq

/-- The wording of a failure. -/
def Failure.message : Failure → String
  | fault f => f.message
  | variableLookbehind => "look-behind requires fixed-width pattern"
  | endlessLookbehind => "looks too much behind"
  | repeatInTemplate .greedy => "internal: unsupported template operator MAX_REPEAT"
  | repeatInTemplate .lazy => "internal: unsupported template operator MIN_REPEAT"
  | repeatInTemplate .possessive =>
    "internal: unsupported template operator POSSESSIVE_REPEAT"
  | clashingAlphabets => "ASCII and UNICODE flags are incompatible"
  | longCount long => long.message
  | largeCount => "the repetition number is too large"

/-- What sort of trouble a failure is. -/
def Failure.trouble : Failure → Engine.Trouble
  | largeCount => .overflow
  | longCount _ | clashingAlphabets => .value
  | _ => .fault

end StepMachine.Regex
