import StepMachine.Regex.Opening

/-! # Reading a whole body

A body is a choice of branches, a branch a sequence of items, an item may be repeated, and a
group holds a body again. The calls are counted down as `steps`. An item takes one call and at
least one piece, and a group takes two more calls; so three steps for each piece are enough.
-/
namespace StepMachine.Regex

/-- Repetition counts stay below this bound. -/
def countLimit : Nat := 4294967295

/-- Blanks that a verbose body skips. -/
def isVerboseBlank (c : Char) : Bool := Text.isAsciiBlank c.toNat

namespace Reading

/-- A repetition count in digits. -/
def count (digits : List Char) : Reading Nat := do
  match Text.readNumeral digits with
  | .error long => throw (.longCount long)
  | .ok n => if countLimit ≤ n then throw .largeCount else return n

/-- The bounds in braces, of which the opening one has been read. What is no pair of bounds is
left unread, and the brace stands for itself. -/
def braces : Reading (Option (Nat × Option Nat)) := do
  let before ← get
  if before.pieces.head? = some (.plain '\x7d') then return none
  let digits := takeAll (Text.isAsciiDigit ·.toNat)
  let lower ← digits
  let upper ← if ← accept ',' then digits else pure lower
  if !(← accept '\x7d') then
    set before
    return none
  let min ← if lower.isEmpty then pure 0 else count lower
  if upper.isEmpty then return some (min, none)
  let max ← count upper
  if max < min then failAt before.offset .leastAboveMost
  return some (min, some max)

/-- The bounds that a quantifier character, which has been read, stands for. -/
def bounds? : Char → Reading (Option (Nat × Option Nat))
  | '?' => return some (0, some 1)
  | '*' => return some (0, none)
  | '+' => return some (1, none)
  | _ => braces

/-- The greed that a mark after a quantifier asks for. There is one mark at most. -/
def greedMark : Reading Greed := do
  if ← accept '?' then return .lazy
  if ← accept '+' then return .possessive
  return .greedy

/-- The last item, repeated. The quantifier was read at `start`. -/
def repeatLast (start min : Nat) (max : Option Nat) : List Term → Reading (List Term)
  | [] => failAt start .nothingToRepeat
  | .anchor _ :: _ => failAt start .nothingToRepeat
  | .repeated .. :: _ => failAt start .repeatedTwice
  | item :: before => do
    let greed ← greedMark
    return .repeated greed min max item :: before

/-- What follows a character that may quantify the items before it, latest item first. -/
def quantified (start : Nat) (c : Char) (items : List Term) : Reading (List Term) := do
  match ← bounds? c with
  | none => return .char (.only c.toNat) :: items
  | some (min, max) => repeatLast start min max items

/-- The closing parenthesis of the group that was opened at `start`. -/
def close (start : Nat) : Reading Unit := do
  if !(← accept ')') then failAt start .unclosedGroup

/-- The item that a single character makes, if it makes one by itself. -/
def simpleItem (c : Char) : Reading Term := do
  match c with
  | '.' => return .char .any
  | '^' => return .anchor .lineStart
  | '$' => return .anchor .lineEnd
  | '[' => return .char (← charClass)
  | _ => return .char (.only c.toNat)

/-- Groups that neither capture nor switch anything are opened, and the order is restored. -/
def finishItems (items : List Term) : List Term :=
  items.reverse.flatMap Term.items

mutual

/-- The branches of a body, from the first on; `verbose` and `top` say how to read them. -/
def branches (verbose top : Bool) : Nat → Bool → Reading (List (List Term))
  | 0, _ => return []
  | steps + 1, leading => do
    let items ← sequence top leading steps verbose []
    if ← accept '|' then
      let verbose ← if top then pure ((← get).switches.contains .verbose) else pure verbose
      return items :: (← branches verbose top steps false)
    else return [items]

/-- The items of a branch, after those already read, latest first. A branch that is `leading`
may start with switches for the whole body. -/
def sequence (top leading : Bool) : Nat → Bool → List Term → Reading (List Term)
  | 0, _, items => return finishItems items
  | steps + 1, verbose, items => do
    match ← peek with
    | none => return finishItems items
    | some (.plain '|') => return finishItems items
    | some (.plain ')') => return finishItems items
    | some p =>
      let start ← offset
      let _ ← take
      match p with
      | .dangling => return finishItems items
      | .escaped c => sequence top leading steps verbose ((← escape c) :: items)
      | .plain c =>
        if verbose && isVerboseBlank c then sequence top leading steps verbose items
        else if verbose && c = '#' then
          let _ ← skipPast '\n' ((← get).pieces.length + 1)
          sequence top leading steps verbose items
        else if c = '*' || c = '+' || c = '?' || c = '\x7b' then
          sequence top leading steps verbose (← quantified start c items)
        else if c = '(' then
          match ← opening start with
          | .globalSwitches =>
            if leading && items.isEmpty then
              let verbose := (← get).switches.contains .verbose
              sequence top leading steps verbose items
            else failAt start .lateFlags
          | .comment => sequence top leading steps verbose items
          | .backref group width =>
            sequence top leading steps verbose (.backref group width :: items)
          | opened =>
            sequence top leading steps verbose ((← group start verbose steps opened) :: items)
        else sequence top leading steps verbose ((← simpleItem c) :: items)

/-- The content of the group that was opened at `start`, and its closing parenthesis. -/
def group (start : Nat) (verbose : Bool) : Nat → Opening → Reading Term
  | 0, _ => return .empty
  | steps + 1, .capture group => do
    let body := Term.ofBranches (← branches verbose false steps false)
    close start
    closeGroup group body.width
    return .capture group body
  | steps + 1, .switched on off => do
    let verbose := (verbose || on.contains .verbose) && !off.contains .verbose
    let body := Term.ofBranches (← branches verbose false steps false)
    close start
    return .switched on off body
  | steps + 1, .atomic => do
    let body := Term.ofBranches (← branches verbose false steps false)
    close start
    return .atomic body
  | steps + 1, .ahead negated => do
    let body := Term.ofBranches (← branches verbose false steps false)
    close start
    return .ahead negated body
  | steps + 1, .behind negated => do
    let outer := (← get).barrier
    let barrier := outer.getD (← groupCount)
    modify fun r => { r with barrier := some barrier }
    let body := Term.ofBranches (← branches verbose false steps false)
    modify fun r => { r with barrier := outer }
    close start
    return .behind negated body.width body
  | steps + 1, .conditional group => do
    let present ← sequence false false steps verbose []
    let absent ← if ← accept '|' then
        let items ← sequence false false steps verbose []
        if (← peek) = some (.plain '|') then fail .thirdBranch 0
        pure items
      else pure []
    close start
    return .conditional group (Term.ofItems present) (Term.ofItems absent)
  | _, _ => return .empty

end

/-- The whole body. -/
def wholeBody : Reading Term := do
  let steps := 3 * (← get).pieces.length + 3
  let switches := (← get).switches
  checkNext
  let term := Term.ofBranches (← branches (switches.contains .verbose) true steps true)
  let switches := (← get).switches
  if switches.contains .ascii && switches.contains .unicode then throw .clashingAlphabets
  if (← peek).isSome then fail .strayClose 0
  let count ← groupCount
  match (← get).asked.find? (fun use => count ≤ use.1) with
  | some (group, start) => failAt start (.noSuchGroup group)
  | none => return term

end Reading

/-- Whether a term that has been read can be matched; in a template nothing may be repeated. -/
def Term.check (template : Bool) : Term → Except Failure Unit
  | empty | char _ | anchor _ | backref .. => .ok ()
  | seq a b | either a b | conditional _ a b => do a.check template; b.check template
  | repeated greed _ _ body =>
    if template then .error (.repeatInTemplate greed) else body.check template
  | capture _ body | switched _ _ body | atomic body | ahead _ body => body.check template
  | behind _ width body =>
    if countLimit < width.least then .error .endlessLookbehind
    else if width.isFixed then body.check template
    else .error .variableLookbehind

end StepMachine.Regex
