import StepMachine.Token

/-! # Diagnostics

A diagnostic is a cause with a place. Every cause belongs to one of fourteen codes, and the code
fixes the severity, the category, the hint and a general wording. Causes that know what they are
about word it themselves; the wording fails if it has to show a number that is too long.
-/
namespace StepMachine

/-- How bad a diagnostic is. -/
inductive Severity where
  | error
  | warning
deriving DecidableEq

/-- The word for a severity. -/
def Severity.label : Severity → String
  | error => "error"
  | warning => "warning"

/-- The codes of all diagnostics. -/
inductive Code where
  | unterminatedString
  | unterminatedPattern
  | invalidPattern
  | unknownCharacter
  | expectedToken
  | expectedValue
  | expectedTarget
  | expectedEnd
  | takenVariable
  | takenStep
  | unknownVariable
  | unusedVariable
  | unusedStep
  | undeclaredStep
deriving DecidableEq

namespace Code

/-- All codes. -/
def all : List Code :=
  [unterminatedString, unterminatedPattern, invalidPattern, unknownCharacter, expectedToken,
    expectedValue, expectedTarget, expectedEnd, takenVariable, takenStep, unknownVariable,
    unusedVariable, unusedStep, undeclaredStep]

/-- The word for a code. -/
def label : Code → String
  | unterminatedString => "LEXER_UNTERMINATED_STRING"
  | unterminatedPattern => "LEXER_UNTERMINATED_PATTERN"
  | invalidPattern => "LEXER_INVALID_PATTERN"
  | unknownCharacter => "LEXER_UNKNOWN_CHARACTER"
  | expectedToken => "PARSER_EXPECTED_TOKEN"
  | expectedValue => "PARSER_EXPECTED_VARIABLE_VALUE"
  | expectedTarget => "PARSER_EXPECTED_TARGET"
  | expectedEnd => "PARSER_EXPECTED_EOF"
  | takenVariable => "PARSER_DUPLICATE_VARIABLE"
  | takenStep => "PARSER_DUPLICATE_STEP"
  | unknownVariable => "PARSER_UNDEFINED_VARIABLE"
  | unusedVariable => "VALIDATE_UNUSED_VARIABLE"
  | unusedStep => "VALIDATE_UNUSED_STEP"
  | undeclaredStep => "VALIDATE_UNDECLARED_STEP"

/-- The code with this label. -/
def ofLabel? (word : String) : Option Code :=
  all.find? (·.label == word)

/-- The general wording. -/
def message : Code → String
  | unterminatedString => "Unterminated string literal."
  | unterminatedPattern => "Unterminated pattern literal."
  | invalidPattern => "Invalid pattern literal."
  | unknownCharacter => "Unknown character."
  | expectedToken => "Expected token"
  | expectedValue => "Expected variable to be string or pattern"
  | expectedTarget => "Expected (step) or [token]"
  | expectedEnd => "Expected end of file"
  | takenVariable => "Variable is already defined"
  | takenStep => "Step is already defined"
  | unknownVariable => "Variable is not defined"
  | unusedVariable => "Variable is declared but never used"
  | unusedStep => "Step is declared but never used"
  | undeclaredStep => "Step is referenced but never declared"

/-- What to do about it. -/
def hint : Code → Option String
  | unterminatedString => some "Close the string with the same quote it was opened with."
  | unterminatedPattern => some "Close the pattern with an unescaped `/`."
  | expectedValue => some "Declare variables like `digit: /[0-9]/` or `dot: \".\"`."
  | expectedEnd => some "Variables must be declared before the first step."
  | takenVariable | takenStep => some "Only the first declaration is kept."
  | _ => none

/-- Findings about references are warnings, all else are errors. -/
def severity : Code → Severity
  | unusedVariable | unusedStep | undeclaredStep => .warning
  | _ => .error

/-- Which part of the work the code belongs to. -/
def category : Code → String
  | unterminatedString | unterminatedPattern | invalidPattern | unknownCharacter => "lexer"
  | unusedVariable | unusedStep | undeclaredStep => "validate"
  | _ => "parser"

end Code

/-- What stands in place of a missing token. -/
inductive Expected where
  | colon
  | question
  | closeParen
  | openBracket
  | closeBracket
  | stepNumber
  | tokenName
deriving DecidableEq

/-- The word for an expectation. -/
def Expected.label : Expected → String
  | colon => "\x27:\x27"
  | question => "\x27?\x27"
  | closeParen => "\x27)\x27"
  | openBracket => "\x27[\x27"
  | closeBracket => "\x27]\x27"
  | stepNumber => "step number"
  | tokenName => "token string"

/-- What a diagnostic is about. -/
inductive Cause where
  /-- A code in its general wording. -/
  | general (code : Code)
  /-- A code in other words. -/
  | worded (code : Code) (message : String)
  | unknownCharacter (c : Char)
  | invalidPattern (text : String) (failure : Pattern.Failure)
  | expected (what : Expected)
  | expectedValue (name : String)
  | takenVariable (name : String)
  | takenStep (id : Literal)
  | unknownVariable (name : String)
  | unusedVariable (name : String)
  | unusedStep (id : Literal)
  | undeclaredStep (id : Literal)
deriving DecidableEq

namespace Cause

/-- The code that the cause belongs to. -/
def code : Cause → Code
  | general code | worded code _ => code
  | unknownCharacter _ => .unknownCharacter
  | invalidPattern .. => .invalidPattern
  | expected _ => .expectedToken
  | expectedValue _ => .expectedValue
  | takenVariable _ => .takenVariable
  | takenStep _ => .takenStep
  | unknownVariable _ => .unknownVariable
  | unusedVariable _ => .unusedVariable
  | unusedStep _ => .unusedStep
  | undeclaredStep _ => .undeclaredStep

/-- A name between quotes. -/
def quotedName (name : String) : String := "\x27" ++ name ++ "\x27"

/-- What is said of a step. -/
def aboutStep (id : Literal) (what : String) : Except Text.LongNumber String :=
  id.write.map fun shown => "Step " ++ shown ++ what

/-- The wording of a cause. -/
def message : Cause → Except Text.LongNumber String
  | general code => .ok code.message
  | worded _ message => .ok message
  | unknownCharacter c => .ok ("Unknown character " ++ Text.quoted (String.singleton c))
  | invalidPattern text failure =>
    .ok ("Invalid pattern literal " ++ text ++ ": " ++ failure.message)
  | expected what => .ok ("Expected " ++ what.label)
  | expectedValue name =>
    .ok ("Expected variable " ++ quotedName name ++ " to be string or pattern")
  | takenVariable name => .ok ("Variable " ++ quotedName name ++ " is already defined")
  | takenStep id => aboutStep id " is already defined"
  | unknownVariable name => .ok ("Variable " ++ quotedName name ++ " is not defined")
  | unusedVariable name => .ok ("Variable " ++ quotedName name ++ " is declared but never used")
  | unusedStep id => aboutStep id " is declared but never used"
  | undeclaredStep id => aboutStep id " is referenced but never declared"

end Cause

/-- A cause with the place it is reported at. -/
structure Diagnostic where
  cause : Cause
  position : Position
deriving DecidableEq

namespace Diagnostic

/-- The diagnostic of a code; without a message it is worded in general. -/
def ofCode (code : Code) (position : Position) : Option String → Diagnostic
  | none => ⟨.general code, position⟩
  | some message => ⟨.worded code message, position⟩

def code (d : Diagnostic) : Code := d.cause.code
def message (d : Diagnostic) : Except Text.LongNumber String := d.cause.message
def severity (d : Diagnostic) : Severity := d.code.severity

/-- The diagnostic is an error and not a warning. -/
def isError (d : Diagnostic) : Bool := d.severity == .error

/-- The diagnostic on one line. -/
def describe (d : Diagnostic) : Except Text.LongNumber String :=
  d.message.map fun message =>
    d.severity.label ++ ": " ++ message ++ " (" ++ d.position.describe ++ ")"

end Diagnostic

/-- Some diagnostic is an error. -/
def hasErrors (ds : List Diagnostic) : Bool :=
  ds.any Diagnostic.isError

end StepMachine
