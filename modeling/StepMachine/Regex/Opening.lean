import StepMachine.Regex.Escape
import StepMachine.Text.Name

/-! # What an opening parenthesis opens

After the parenthesis a question mark may announce a comment, flags, a name, a condition, a
lookaround or an atomic group. All that stands before the content of the group is read here.
-/
namespace StepMachine.Regex

/-- What the text after an opening parenthesis announces. -/
inductive Opening where
  /-- A comment, read to its end. -/
  | comment
  /-- Switches for the whole body, read to their end. -/
  | globalSwitches
  /-- A reference to a named group, read to its end. -/
  | backref (group : Nat) (width : Width)
  | capture (group : Nat)
  | switched (on off : List Switch)
  | atomic
  | ahead (negated : Bool)
  | behind (negated : Bool)
  | conditional (group : Nat)

/-- Numbers of groups stay below this bound. -/
def groupLimit : Nat := 1073741823

/-- Digits of any script with single underscores between them, as values. -/
def numeralDigits? : List Char → Option (List Nat)
  | [] => none
  | [c] => (Text.digitValue? c.toNat).map ([·])
  | c :: '_' :: rest => do
    let d ← Text.digitValue? c.toNat
    return d :: (← numeralDigits? rest)
  | c :: rest => do
    let d ← Text.digitValue? c.toNat
    return d :: (← numeralDigits? rest)

/-- A whole number with an optional sign, blanks around it, digits of any script and single
underscores between digits. Minus zero is zero; negative numbers and numerals over the limit
are none. -/
def looseNumber? (cs : List Char) : Option Nat :=
  let blank (c : Char) : Bool :=
    if cs.all (·.toNat < 0x80) then Text.isAsciiBlank c.toNat else Text.isBlank c
  let core := ((cs.dropWhile blank).reverse.dropWhile blank).reverse
  let (negative, digits) := match core with
    | '-' :: rest => (true, rest)
    | '+' :: rest => (false, rest)
    | _ => (false, core)
  match numeralDigits? digits with
  | none => none
  | some values =>
    let n := values.foldl (fun n d => 10 * n + d) 0
    if Text.numeralLimit < values.length || (negative && n != 0) then none else some n

namespace Reading

/-- The switch that a piece names. -/
def switchOf? : Option Piece → Option Switch
  | some (.plain c) => Switch.ofLetter? c
  | _ => none

/-- Refuse a piece where a flag letter was expected: other letters are unknown flags. -/
def failFlag {α : Type} (otherwise : Reason) : Option Piece → Reading α
  | none => fail otherwise 0
  | some p =>
    let isLetter := match p with
      | .plain c => Text.isLetter c.toNat
      | _ => false
    fail (if isLetter then .unknownFlag else otherwise) p.text.length

/-- Flags to turn on, from a letter that has been read, to the character that ends them. -/
def flagsOn : Nat → Switch → List Switch → Reading (List Switch × Char)
  | 0, _, on => return (on, ':')
  | steps + 1, s, on => do
    if s = .locale then fail .localeFlag 0
    let on := if on.contains s then on else on ++ [s]
    if s.choosesAlphabet && on.any (fun t => t.choosesAlphabet && t != s) then
      fail .clashingFlags 0
    let next ← take
    if next = some (.plain ')') then return (on, ')')
    if next = some (.plain '-') then return (on, '-')
    if next = some (.plain ':') then return (on, ':')
    match switchOf? next with
    | some t => flagsOn steps t on
    | none => failFlag .unendedFlags next

/-- Flags to turn off, from a letter that has been read, to the colon that ends them. -/
def flagsOff : Nat → Switch → List Switch → Reading (List Switch)
  | 0, _, off => return off
  | steps + 1, s, off => do
    if s.choosesAlphabet then fail .fixedFlag 0
    let off := if off.contains s then off else off ++ [s]
    let next ← take
    if next = some (.plain ':') then return off
    match switchOf? next with
    | some t => flagsOff steps t off
    | none => failFlag .missingColon next

/-- Flags of a group after those to turn on, up to the content. -/
def scopedFlags (on : List Switch) (ending : Char) : Reading Opening := do
  if on.contains .template then fail .globalFlagOn 1
  let off ← if ending = '-' then do
      let next ← take
      match switchOf? next with
      | some s => flagsOff ((← get).pieces.length + 1) s []
      | none => failFlag .missingFlag next
    else pure []
  if off.contains .template then fail .globalFlagOff 1
  if on.any off.contains then fail .flagOnAndOff 1
  return .switched on off

/-- Flags, from their first letter or the minus sign, which has been read. -/
def flags : Option Switch → Reading Opening
  | none => scopedFlags [] '-'
  | some s => do
    let (on, ending) ← flagsOn ((← get).pieces.length + 1) s []
    if ending = ')' then
      modify fun r => { r with switches := r.switches ++ on }
      return .globalSwitches
    else scopedFlags on ending

/-- The name of a group. -/
def groupName (closer : Char) : Reading (List Char) := do
  let name ← takeName closer "group name"
  if Text.isName name then return name
  else fail (.badName (String.ofList name)) (name.length + 1)

/-- The number of the group with this name, which has just been read. -/
def namedGroup (name : List Char) : Reading Nat := do
  match (← get).names.lookup (String.ofList name) with
  | some group => return group
  | none => fail (.unknownName (String.ofList name)) (name.length + 1)

/-- What follows `(?P`. -/
def namedOpening : Reading Opening := do
  if ← accept '<' then
    let name ← groupName '>'
    return .capture (← openGroup (some name))
  else if ← accept '=' then
    let name ← groupName ')'
    let group ← namedGroup name
    match ← closedWidth? group with
    | none => fail .openGroup (name.length + 1)
    | some width =>
      checkBarrier group
      return .backref group width
  else
    match ← take with
    | none => fail .unexpectedEnd 0
    | some p => fail (.unknownExtension (String.ofList ('P' :: p.text))) (p.text.length + 2)

/-- The group that a condition asks for, by name or by number. -/
def condition : Reading Opening := do
  let name ← takeName ')' "group name"
  let group ← if Text.isName name then namedGroup name
    else match looseNumber? name with
      | none => fail (.badName (String.ofList name)) (name.length + 1)
      | some group =>
        if group = 0 then fail .groupZero (name.length + 1)
        else if groupLimit ≤ group then fail (.noSuchGroup group) (name.length + 1)
        else do
          let start := (← offset) - name.length - 1
          if ((← get).asked.lookup group).isNone then
            modify fun r => { r with asked := r.asked ++ [(group, start)] }
          pure group
  checkBarrier group
  return .conditional group

/-- What follows `(?<`. -/
def behindOpening : Reading Opening := do
  match ← take with
  | none => fail .unexpectedEnd 0
  | some (.plain '=') => return .behind false
  | some (.plain '!') => return .behind true
  | some p => fail (.unknownExtension (String.ofList ('<' :: p.text))) (p.text.length + 2)

/-- What stands between the parenthesis at `start` and the content of its group. -/
def opening (start : Nat) : Reading Opening := do
  if !(← accept '?') then return .capture (← openGroup none)
  match ← take with
  | none => fail .unexpectedEnd 0
  | some p =>
    match p with
    | .plain 'P' => namedOpening
    | .plain ':' => return .switched [] []
    | .plain '#' =>
      if ← skipPast ')' ((← get).pieces.length + 1) then return .comment
      else failAt start .unclosedComment
    | .plain '=' => return .ahead false
    | .plain '!' => return .ahead true
    | .plain '<' => behindOpening
    | .plain '(' => condition
    | .plain '>' => return .atomic
    | .plain '-' => flags none
    | _ =>
      match switchOf? (some p) with
      | some s => flags (some s)
      | none => fail (.unknownExtension (String.ofList p.text)) (p.text.length + 1)

end Reading

end StepMachine.Regex
