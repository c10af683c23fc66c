import StepMachine.Scheme.Parse

/-! # The grammar of schemes

    scheme    := variable* step* end
    variable  := name ':' (string | pattern)
    step      := stepId ':' action* target
    stepId    := '(' number ')'
    action    := condition '?' target
    condition := name | string | pattern | '*'
    target    := stepId | '!'? '[' (string | name) ']'

The last target of a step is its fallback. It may be left out after an action on `*`, whose target
then serves as the fallback; a number in parentheses with a colon after it is not read as a
fallback there, since it opens the next step. An element that breaks off ends the list it is in.
-/
namespace StepMachine

namespace Parse

/-- The kinds that start a token as a target. -/
def tokenTargetStarts : List TokenKind := [.bang, .openBracket]

/-- The cursor is where a condition can start. -/
def atCondition (c : Cursor) : Bool :=
  c.isAt .name || c.isAt .star || c.atValid .string || c.atValid .pattern

/-- The cursor is where a step starts, judging by four tokens. -/
def atStepHeader (c : Cursor) : Bool :=
  c.nth 0 == .openParen && c.nth 1 == .number && c.nth 2 == .closeParen && c.nth 3 == .colon

/-- The cursor is on a fallback, and not on the next step. -/
def atFallback (c : Cursor) : Bool :=
  c.atAny tokenTargetStarts || (c.isAt .openParen && !atStepHeader c)

/-- A step's number in parentheses, the first of which is passed unseen. Whatever value the token
of a number has is taken. -/
def stepId : Parse Literal := do
  let _ ← bump
  require (·.atValid .number) (.expected .stepNumber)
  let number ← bump
  expect .closeParen .closeParen
  ofOption number.value

/-- The name of a token, as a string or as a bare name. -/
def tokenName : Parse (Option Literal) := do
  if (← cursor).atValid .string then return (← bump).value
  else if (← cursor).isAt .name then return some (.text (← bump).text)
  else giveUp (.expected .tokenName)

/-- A token as a target. -/
def tokenTarget : Parse Target := do
  let position ← position
  let isError ← eat .bang
  expect .openBracket .openBracket
  let name ← tokenName
  expect .closeBracket .closeBracket
  return .token name isError position

/-- A step as a target. Its use is noted. -/
def stepTarget : Parse Target := do
  let position ← position
  let id ← stepId
  change (·.useStep id position)
  return .step id position

/-- A step or a token as a target. -/
def target : Parse Target := do
  if (← cursor).isAt .openParen then stepTarget
  else if (← cursor).atAny tokenTargetStarts then tokenTarget
  else giveUp (.general .expectedTarget)

/-- The condition that a name stands for. The use of a declared variable is noted, and a name
that is not declared is reported. -/
def variableCondition (name : String) (position : Position) : Parse Condition := do
  match (← draft).variableNamed name with
  | none =>
    report (.unknownVariable name) position
    return .named name none position
  | some v =>
    change (·.useVariable name position)
    return .named name (some v) position

/-- The condition that the current token stands for. -/
def condition : Parse Condition := do
  let token ← bump
  match token.kind with
  | .name => variableCondition token.text token.position
  | .string => return .text token.value token.position
  | .pattern => return .pattern token.value token.position
  | .star => return .wildcard token.position
  | kind => breach (.noCondition kind)

/-- An action. -/
def action : Parse Action := do
  let condition ← condition
  expect .question .question
  let target ← target
  return ⟨condition, target⟩

/-- Actions as long as conditions follow. -/
def actionList : Parse (List Action) := many atCondition action .start

/-- The fallback after the actions, which may be that of a last action on `*`. -/
def fallback (actions : List Action) : Parse Target := do
  match actions.getLast? with
  | none => target
  | some last =>
    if last.condition.isWildcard && !atFallback (← cursor) then return last.target else target

/-- A step. -/
def step : Parse Step := do
  let position ← position
  let id ← stepId
  expect .colon .colon
  let actions ← actionList
  let fallback ← fallback actions
  return ⟨id, actions, fallback, position⟩

/-- A step, declared. A number that was taken is reported, which a long one does not allow. -/
def stepDeclaration : Parse Unit := do
  let s ← step
  if ← ask (·.declareStep s) then pure ()
  else
    insistOnWording (.takenStep s.id)
    report (.takenStep s.id) s.position

/-- Steps as long as parentheses open, up to the first that breaks off. -/
def stepList : Parse Unit :=
  asFarAsItGoes (many (·.isAt .openParen) stepDeclaration .start)

/-- A variable's name and value. -/
def variableBinding : Parse Variable := do
  let name ← bump
  expect .colon .colon
  require (fun c => c.atValid .string || c.atValid .pattern) (.expectedValue name.text)
  let value ← bump
  return ⟨name.text, value.value, name.position⟩

/-- A variable, declared. A name that was taken is reported. -/
def variableDeclaration : Parse Unit := do
  let v ← variableBinding
  if ← ask (·.declareVariable v) then pure () else report (.takenVariable v.name) v.position

/-- Variables as long as names follow, up to the first that breaks off. -/
def variableList : Parse Unit :=
  asFarAsItGoes (many (·.isAt .name) variableDeclaration .start)

/-- A whole scheme. Tokens that are left are reported. -/
def scheme : Parse Unit := do
  variableList
  stepList
  if (← cursor).isAt .eof then pure () else report (.general .expectedEnd) (← position)

end Parse

/-- Why no draft can be had from tokens. -/
inductive ParseFailure where
  /-- The last token is not one of the end. -/
  | noEnd
  | breach (breach : Breach)
deriving DecidableEq

/-- The wording of a failure. -/
def ParseFailure.message : ParseFailure → String
  | noEnd => "Token sequence must end with an EOF token"
  | breach b => b.message

/-- Before a scheme is read from the tokens. -/
def ParseState.ofTokens (tokens : List Token) : Except ParseFailure ParseState :=
  match Cursor.ofTokens? tokens with
  | none => .error .noEnd
  | some cursor => .ok ⟨cursor, .empty⟩

/-- The draft of the scheme that the tokens spell. -/
def Draft.ofTokens (tokens : List Token) : Except ParseFailure Draft :=
  match ParseState.ofTokens tokens with
  | .error failure => .error failure
  | .ok s =>
    match Parse.scheme s with
    | (.broken b, _) => .error (.breach b)
    | (_, t) => .ok t.draft

end StepMachine
