import StepMachine.Token

/-! # Schemes

A scheme describes a machine that reads characters. Each step has a list of actions, which are
tried in order, and a fallback. An action leads to its target if its condition matches; a target
is another step, or a token that the machine produces. Variables name the texts and patterns that
conditions test for.
-/
namespace StepMachine

/-- The literal matches. A text matches itself alone, a pattern what it is found in, and a number
nothing. -/
def Literal.accepts (E : Engine) : Literal → String → Bool
  | number _, _ => false
  | text s, ch => ch == s
  | pattern p, ch => p.accepts E ch

/-- A named value. The value is missing only if the token that spelled it had none. -/
structure Variable where
  name : String
  value : Option Literal
  position : Position
deriving DecidableEq

/-- The variable's value matches. -/
def Variable.accepts (E : Engine) (v : Variable) (ch : String) : Bool :=
  v.value.any (·.accepts E ch)

/-- The first use of a name or number. -/
structure Reference (κ : Type) where
  id : κ
  position : Position
deriving DecidableEq

/-- Where an action leads. -/
inductive Target where
  /-- On to a step. -/
  | step (id : Literal) (position : Position)
  /-- Out with a token, which may stand for an error. The name is missing only if the token that
  spelled it had no value. -/
  | token (name : Option Literal) (isError : Bool) (position : Position)
deriving DecidableEq

namespace Target

def position : Target → Position
  | step _ p | token _ _ p => p

/-- The number of the step that the target leads to. -/
def stepId? : Target → Option Literal
  | step id _ => some id
  | token .. => none

end Target

/-- When an action applies. Conditions that were spelled by a string or a pattern have the value
of that token, whatever it is. -/
inductive Condition where
  /-- The variable matches. A name that was not declared has no variable and matches nothing. -/
  | named (name : String) (binding : Option Variable) (position : Position)
  | text (value : Option Literal) (position : Position)
  | pattern (value : Option Literal) (position : Position)
  /-- Always. -/
  | wildcard (position : Position)
deriving DecidableEq

/-- A value that was to be matched as a pattern and is none. -/
structure NoPattern where
  found : Option Literal
deriving DecidableEq

/-- The report on a value that is no pattern. -/
def NoPattern.message (n : NoPattern) : String :=
  "\x27" ++ Literal.sort n.found ++ "\x27 object has no attribute \x27matches\x27"

namespace Condition

def position : Condition → Position
  | named _ _ p | text _ p | pattern _ p | wildcard p => p

/-- The condition holds for the character, which may be any text. -/
def accepts (E : Engine) : Condition → String → Except NoPattern Bool
  | named _ v _, ch => .ok (v.any (·.accepts E ch))
  | text value _, ch => .ok (value == some (.text ch))
  | pattern (some (.pattern p)) _, ch => .ok (p.accepts E ch)
  | pattern value _, _ => .error ⟨value⟩
  | wildcard _, _ => .ok true

def isWildcard : Condition → Bool
  | wildcard _ => true
  | _ => false

end Condition

/-- A condition and where it leads. -/
structure Action where
  condition : Condition
  target : Target
deriving DecidableEq

def Action.accepts (E : Engine) (a : Action) (ch : String) : Except NoPattern Bool :=
  a.condition.accepts E ch

/-- The first action that matches, if one does. The actions after it are not tested. -/
def firstAccepting (E : Engine) (ch : String) : List Action → Except NoPattern (Option Action)
  | [] => .ok none
  | a :: rest =>
    match a.accepts E ch with
    | .error missing => .error missing
    | .ok true => .ok (some a)
    | .ok false => firstAccepting E ch rest

/-- A step of the machine. -/
structure Step where
  id : Literal
  actions : List Action
  fallback : Target
  position : Position
deriving DecidableEq

namespace Step

/-- The targets of the actions in order, and then the fallback. -/
def targets (s : Step) : List Target :=
  s.actions.map (·.target) ++ [s.fallback]

/-- The target of the first action that matches, or else the fallback. -/
def transition (E : Engine) (s : Step) (ch : String) : Except NoPattern Target :=
  match firstAccepting E ch s.actions with
  | .error missing => .error missing
  | .ok (some action) => .ok action.target
  | .ok none => .ok s.fallback

end Step

end StepMachine
