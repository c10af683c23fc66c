/-! # Pattern engines

The body of a pattern is compiled and searched for by an engine. What the library does with
patterns depends on two things only: how the engine refuses a body under the options for all of
it, and in which texts it finds a body that it does not refuse. The library is written for any
engine.
-/
namespace StepMachine

namespace Engine

/-- Options for a whole body. -/
structure Options where
  ignoreCase : Bool
  multiline : Bool
deriving DecidableEq

/-- What sort of trouble an engine has with a body. -/
inductive Trouble where
  /-- The body is no pattern. -/
  | fault
  /-- The body is a pattern, and asks for something that makes no sense. -/
  | value
  /-- A number in the body is out of range. -/
  | overflow
  /-- Any other trouble, by name. -/
  | other (name : String)
deriving DecidableEq

/-- An engine's answer to a body that it does not take. -/
structure Refusal where
  trouble : Trouble
  message : String
deriving DecidableEq

/-- The refusal is a remark on the body. Any other one ends the work on the whole source. -/
def Refusal.isRemark (r : Refusal) : Bool :=
  r.trouble == .fault || r.trouble == .value

end Engine

/-- An engine. -/
structure Engine where
  /-- Why the body is refused, if it is. -/
  refusal? : String → Engine.Options → Option Engine.Refusal
  /-- The body is found somewhere in the text. -/
  finds : String → Engine.Options → String → Bool

end StepMachine
