import StepMachine.Regex.Body
import StepMachine.Regex.Matcher

/-! # Compiled bodies

A body is compiled with two options of its own, and the result can be searched for in texts. The
engine comes in editions, which differ in the characters that they know by name and in what a
possessive repetition leaves behind.
-/
namespace StepMachine

/-- A body that has been read, and the mode to match it in. -/
structure Regex where
  term : Regex.Term
  mode : Regex.Mode
deriving DecidableEq

namespace Regex

/-- What differs between editions. -/
structure Edition where
  /-- The codes of the characters that are known by name. -/
  named? : String → Option Nat
  /-- A possessive repetition takes its last round back altogether when it fails. -/
  mended : Bool

/-- The edition that knows no names. -/
def Edition.plain (mended : Bool) : Edition := ⟨fun _ => none, mended⟩

/-- The switches that the options turn on. -/
def switchesOf (o : Engine.Options) : List Switch :=
  (if o.ignoreCase then [.ignoreCase] else []) ++ (if o.multiline then [.multiline] else [])

/-- Before the first piece of a body. -/
def Reader.ofBody (edition : Edition) (body : String) (o : Engine.Options) : Reader where
  body := body
  pieces := Piece.ofBody body.toList
  offset := 0
  switches := switchesOf o
  groups := [none]
  names := []
  barrier := none
  asked := []
  named? := edition.named?

/-- The compiled form of a body. -/
def compile (edition : Edition) (body : String) (o : Engine.Options) : Except Failure Regex := do
  let (term, reader) ← Reading.wholeBody.run (Reader.ofBody edition body o)
  term.check (reader.switches.contains .template)
  return ⟨term, .ofSwitches reader.switches⟩

/-- The body matches somewhere in the text. -/
def search (edition : Edition) (r : Regex) (text : String) : Bool :=
  r.term.isFoundIn r.mode edition.mended (text.toList.map (·.toNat)).toArray

/-- The engine of an edition. -/
def engine (edition : Edition) : Engine where
  refusal? body o :=
    match compile edition body o with
    | .ok _ => none
    | .error failure => some ⟨failure.trouble, failure.message⟩
  finds body o text :=
    match compile edition body o with
    | .ok regex => regex.search edition text
    | .error _ => false

end Regex

end StepMachine
