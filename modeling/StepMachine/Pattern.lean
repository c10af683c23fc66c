import StepMachine.Engine
import StepMachine.Text.Quoted

/-! # Pattern literals

A pattern is written `/body/flags`. Five flag letters are known, and each may stand once; the
letters `i` and `m` are options of the body, the others change nothing. The flags are checked
before the body is handed to the engine, from left to right.
-/
namespace StepMachine

/-- A pattern literal. What is written settles what the engine makes of it. -/
structure Pattern where
  source : String
  flags : String
deriving DecidableEq

namespace Pattern

/-- The known flag letters. -/
def flagLetters : List Char := ['g', 'i', 'm', 'u', 'y']

/-- Why a pattern literal is refused. -/
inductive Failure where
  | unknownFlag (flag : Char)
  | repeatedFlag (flag : Char)
  /-- The engine refuses the body. -/
  | body (refusal : Engine.Refusal)
  /-- The text of the literal has no slash. -/
  | noSlash
deriving DecidableEq

/-- The wording of a failure. -/
def Failure.message : Failure → String
  | unknownFlag c => "Unknown pattern flag " ++ Text.quoted (String.singleton c)
  | repeatedFlag c => "Repeated pattern flag " ++ Text.quoted (String.singleton c)
  | body refusal => refusal.message
  | noSlash => "substring not found"

/-- The refusal behind a failure, unless the failure is a remark on the literal. -/
def Failure.escaping? : Failure → Option Engine.Refusal
  | body refusal => if refusal.isRemark then none else some refusal
  | _ => none

/-- Flags must be known, and none may be among those seen before it. -/
def checkFlags : List Char → List Char → Except Failure Unit
  | _, [] => .ok ()
  | seen, c :: rest =>
    if !flagLetters.contains c then .error (.unknownFlag c)
    else if seen.contains c then .error (.repeatedFlag c)
    else checkFlags (c :: seen) rest

/-- The options that flags stand for. -/
def options (flags : List Char) : Engine.Options where
  ignoreCase := flags.contains 'i'
  multiline := flags.contains 'm'

/-- The pattern with this body and these flags. -/
def ofParts (E : Engine) (source flags : String) : Except Failure Pattern :=
  match checkFlags [] flags.toList with
  | .error failure => .error failure
  | .ok () =>
    match E.refusal? source (options flags.toList) with
    | some refusal => .error (.body refusal)
    | none => .ok ⟨source, flags⟩

/-- The body and the flags of a literal: what stands between its first character and its last
slash, and what stands after that. -/
def split? (text : List Char) : Option (List Char × List Char) :=
  let fromEnd := text.reverse
  match fromEnd.dropWhile (· != '/') with
  | [] => none
  | _ :: before => some (before.reverse.drop 1, (fromEnd.takeWhile (· != '/')).reverse)

/-- The body and the flags of a literal, as texts. -/
def splitText (text : String) : Except Failure (String × String) :=
  match split? text.toList with
  | none => .error .noSlash
  | some (source, flags) => .ok (String.ofList source, String.ofList flags)

/-- The pattern that a literal stands for. -/
def ofText (E : Engine) (text : String) : Except Failure Pattern :=
  match splitText text with
  | .error failure => .error failure
  | .ok (source, flags) => ofParts E source flags

/-- The pattern is found somewhere in the text. -/
def accepts (E : Engine) (p : Pattern) (text : String) : Bool :=
  E.finds p.source (options p.flags.toList) text

/-- The literal between slashes. -/
def literal (p : Pattern) : String :=
  "/" ++ p.source ++ "/" ++ p.flags

/-- The literal with its parts named. -/
def describe (p : Pattern) : String :=
  "PatternLiteral(source=" ++ Text.quoted p.source ++ ", flags=" ++ Text.quoted p.flags ++ ")"

end Pattern

end StepMachine
