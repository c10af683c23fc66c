import StepMachine.Regex.Failure

/-! # Reading a body piece by piece

A body is cut into pieces: single characters, and backslashes with the character that they
escape. The reader keeps the pieces ahead, their offset, and what it has learned about groups.
A backslash at the end of the body is an error as soon as it is the next piece.
-/
namespace StepMachine.Regex

/-- What is read in one go. -/
inductive Piece where
  | plain (c : Char)
  | escaped (c : Char)
  /-- A backslash with nothing after it. -/
  | dangling
deriving DecidableEq

namespace Piece

/-- The characters of the piece. -/
def text : Piece → List Char
  | plain c => [c]
  | escaped c => ['\\', c]
  | dangling => ['\\']

/-- The pieces of a body. -/
def ofBody : List Char → List Piece
  | [] => []
  | ['\\'] => [dangling]
  | '\\' :: c :: rest => escaped c :: ofBody rest
  | c :: rest => plain c :: ofBody rest

end Piece

/-- The state of reading a body. -/
structure Reader where
  body : String
  /-- The pieces ahead. -/
  pieces : List Piece
  /-- The offset of the next piece. -/
  offset : Nat
  /-- Switches that hold for the whole body. -/
  switches : List Switch
  /-- The widths of the groups from number zero on; none while a group is open. -/
  groups : List (Option Width)
  /-- Named groups with their numbers. -/
  names : List (String × Nat)
  /-- The first group that the lookbehind around here may not refer to. -/
  barrier : Option Nat
  /-- Numbers of groups that conditions asked for, with the offset of the first use. -/
  asked : List (Nat × Nat)
  /-- The codes of characters that are called by name. -/
  named? : String → Option Nat

/-- Steps of reading that may refuse the body. -/
abbrev Reading := StateT Reader (Except Failure)

namespace Reading

/-- Refuse the body, pointing at an offset. -/
def failAt {α : Type} (offset : Nat) (reason : Reason) : Reading α := do
  throw (.fault ⟨reason, offset, (← get).body⟩)

/-- Refuse the body, pointing `back` characters before the next piece. -/
def fail {α : Type} (reason : Reason) (back : Nat) : Reading α := do
  failAt ((← get).offset - back) reason

/-- The offset of the next piece. -/
def offset : Reading Nat := return (← get).offset

/-- The next piece. -/
def peek : Reading (Option Piece) := return (← get).pieces.head?

/-- A dangling backslash must not become the next piece. -/
def checkNext : Reading Unit := do
  if (← peek) = some .dangling then fail .endsInEscape 0

/-- Read the next piece. -/
def take : Reading (Option Piece) := do
  match (← get).pieces with
  | [] => return none
  | p :: rest =>
    modify fun r => { r with pieces := rest, offset := r.offset + p.text.length }
    checkNext
    return some p

/-- Read the next piece if it is this character. -/
def accept (c : Char) : Reading Bool := do
  if (← peek) = some (.plain c) then
    let _ ← take
    return true
  else return false

/-- Read characters of a kind, at most so many. -/
def takeRun (inRun : Char → Bool) : Nat → Reading (List Char)
  | 0 => return []
  | n + 1 => do
    match ← peek with
    | some (.plain c) =>
      if inRun c then
        let _ ← take
        return c :: (← takeRun inRun n)
      else return []
    | _ => return []

/-- Read all characters of a kind that come next. -/
def takeAll (inRun : Char → Bool) : Reading (List Char) := do
  takeRun inRun (← get).pieces.length

/-- Read up to the closing character; `steps` bounds the number of pieces. -/
def takeNameAfter (closer : Char) (what : String) : Nat → List Char → Reading (List Char)
  | 0, name => return name
  | steps + 1, name => do
    match ← take with
    | none =>
      if name.isEmpty then fail (.missingName what) 0
      else fail (.unclosedName closer) name.length
    | some p =>
      if p = .plain closer then
        if name.isEmpty then fail (.missingName what) 1 else return name
      else takeNameAfter closer what steps (name ++ p.text)

/-- Read a name up to the character that closes it, and that character. -/
def takeName (closer : Char) (what : String) : Reading (List Char) := do
  takeNameAfter closer what ((← get).pieces.length + 1) []

/-- Skip up to the next piece that is this character, and that piece. -/
def skipPast (c : Char) : Nat → Reading Bool
  | 0 => return false
  | steps + 1 => do
    match ← take with
    | none => return false
    | some p => if p = .plain c then return true else skipPast c steps

/-- The number of groups, the whole body counted as group zero. -/
def groupCount : Reading Nat := return (← get).groups.length

/-- The width of a group that is closed. -/
def closedWidth? (group : Nat) : Reading (Option Width) :=
  return ((← get).groups[group]?).join

/-- Inside a lookbehind only groups closed before it may be referred to. -/
def checkBarrier (group : Nat) : Reading Unit := do
  match (← get).barrier with
  | none => return
  | some barrier =>
    if (← closedWidth? group).isNone then fail .openGroup 0
    if barrier ≤ group then fail .groupOfSameLookbehind 0

/-- Open the next group. -/
def openGroup (name? : Option (List Char)) : Reading Nat := do
  let group ← groupCount
  modify fun r => { r with groups := r.groups ++ [none] }
  match name? with
  | none => return group
  | some name =>
    let name' := String.ofList name
    match (← get).names.lookup name' with
    | some earlier => fail (.nameTaken name' group earlier) (name.length + 1)
    | none =>
      modify fun r => { r with names := (name', group) :: r.names }
      return group

/-- Close a group. -/
def closeGroup (group : Nat) (width : Width) : Reading Unit :=
  modify fun r => { r with groups := r.groups.set group (some width) }

end Reading

end StepMachine.Regex
