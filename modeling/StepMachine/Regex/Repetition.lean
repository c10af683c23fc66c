import StepMachine.Regex.Lead
import StepMachine.Regex.Memory

/-! # Repetition

Repetitions of one character test run along the text. Repetitions of anything else match their
body round after round. In both, the rounds that are required come first, and what follows is
tried after as many or as few of the others as the greed says.
-/
namespace StepMachine.Regex

/-- Where in a body a term stands, and the text that is matched. -/
structure Setting where
  text : Array Nat
  mode : Mode
  /-- A repetition of more than a character test encloses the term, and gives marks back. -/
  repeating : Bool
  /-- The exact literal that comes after the term, if one does. -/
  next? : Option Nat
  /-- A possessive repetition takes its last round back altogether when it fails. -/
  mended : Bool

namespace Setting

/-- The same place, but followed by something that is no literal. -/
def closed (s : Setting) : Setting := { s with next? := none }

/-- Goes on from the offset; after a failure the marks go back. -/
def venture (s : Setting) (offset : Nat) (memory : Memory) (go : Rest) : Verdict :=
  (go offset (memory.reaching offset)).orElse fun after =>
    .failed (after.backTo memory s.repeating)

/-- Goes on from the offset, unless another literal must come next. -/
def resume (s : Setting) (offset : Nat) (memory : Memory) (rest : Rest) : Verdict :=
  if s.next?.all (s.text[offset]? == some ·) then s.venture offset memory rest
  else .failed memory

/-- Matches a branch, unless its beginning rules it out. -/
def branch (s : Setting) (lead : Lead) (body : Attempt) : Attempt := fun offset memory rest =>
  if lead.allows s.text offset then s.venture offset memory fun i m => body i m rest
  else .failed memory

end Setting

/-- Where the run of characters that pass the test ends, `room` characters on at most. -/
def runEnd (text : Array Nat) (passes : Nat → Bool) : Nat → Nat → Nat
  | 0, offset => offset
  | room + 1, offset =>
    if (text[offset]?).any passes then runEnd text passes room (offset + 1) else offset

/-- What follows is tried `extra` characters after `least`, then after fewer. -/
def retreat (s : Setting) (rest : Rest) (least : Nat) : Nat → Memory → Verdict
  | 0, memory => s.resume least memory rest
  | extra + 1, memory =>
    (s.resume (least + extra + 1) memory rest).orElse fun after =>
      retreat s rest least extra after

/-- What follows is tried at the offset, then up to `room` characters later, as long as the
characters between pass the test. -/
def advance (s : Setting) (m : Mode) (test : CharTest) (rest : Rest) :
    Nat → Nat → Memory → Verdict
  | room, offset, memory =>
    (s.venture offset memory rest).orElse fun after =>
      if (s.text[offset]?).any (test.holds m) then
        match room with
        | 0 => .failed (after.reaching (if test.isFolded m then offset + 1 else offset))
        | room + 1 => advance s m test rest room (offset + 1) after
      else .failed (after.reaching offset)

/-- Repeats a test of one character. -/
def Setting.repeatTest (s : Setting) (greed : Greed) (min : Nat) (max : Option Nat)
    (m : Mode) (test : CharTest) : Attempt := fun offset memory rest =>
  let room := s.text.size - offset
  let most := (max.getD room).min room
  if room < min then .failed memory
  else
    let stop := runEnd s.text (test.holds m) (if greed = .lazy then min else most) offset
    let memory := memory.reaching (if test.isFolded m then stop else offset)
    if stop < offset + min then .failed memory
    else match greed with
      | .greedy => retreat s rest (offset + min) (stop - (offset + min)) memory
      | .lazy => advance s m test rest (most - min) stop memory
      | .possessive => rest stop memory

/-- Another round is allowed after so many. -/
def maySpend (max : Option Nat) (count : Nat) : Bool :=
  match max with
  | none => true
  | some most => count < most

/-- As many rounds as possible first, from `count` on. The last round that was not required
began at `last`; one that would begin there again reads nothing and is not tried. So `steps`
need not exceed the required rounds and the characters of the text. -/
def greedy (body : Attempt) (min : Nat) (max : Option Nat) : Nat → Nat → Option Nat → Attempt
  | 0, _, _, offset, memory, rest => rest offset memory
  | steps + 1, count, last, offset, memory, rest =>
    let memory := memory.reaching offset
    if count < min then
      (body offset memory fun i m => greedy body min max steps (count + 1) last i m rest).orElse
        fun after => .failed (after.reaching offset)
    else
      let before :=
        if maySpend max count && last != some offset then
          (body offset memory fun i m =>
            greedy body min max steps (count + 1) (some offset) i m rest).orElse
          fun after => .failed ((after.backTo memory true).reaching offset)
        else .failed memory
      before.orElse fun memory =>
        (rest offset memory).orElse fun after => .failed (after.reaching offset)

/-- As few rounds as possible first, from `count` on. -/
def lazily (s : Setting) (body : Attempt) (min : Nat) (max : Option Nat) :
    Nat → Nat → Option Nat → Attempt
  | 0, _, _, offset, memory, rest => rest offset memory
  | steps + 1, count, last, offset, memory, rest =>
    let memory := memory.reaching offset
    if count < min then
      (body offset memory fun i m => lazily s body min max steps (count + 1) last i m rest).orElse
        fun after => .failed (after.reaching offset)
    else
      (s.venture offset memory rest).orElse fun after =>
        let after := after.reaching offset
        if maySpend max count && last != some offset then
          (body offset after fun i m =>
            lazily s body min max steps (count + 1) (some offset) i m rest).orElse
          fun after => .failed (after.reaching offset)
        else .failed after

/-- As many rounds as there are, each the first way it matches. Every round begins at the
offset that was reached last, and so does what follows. When the round that ends the repetition
has failed, that is where it began if the engine is `mended`, and else where it had come. -/
def possessively (mended : Bool) (body : Attempt) (min : Nat) (max : Option Nat) (start : Nat) :
    Nat → Nat → Option Nat → Memory → Verdict
  | 0, _, _, memory => .matched memory
  | steps + 1, count, last, memory =>
    let offset := memory.reached
    if count < min then
      match body offset memory atEnd with
      | .matched after => possessively mended body min max start steps (count + 1) last after
      | .failed after => .failed (after.reaching start)
    else if maySpend max count && last != some offset then
      match body offset memory atEnd with
      | .matched after =>
        possessively mended body min max start steps (count + 1) (some offset) after
      | .failed after =>
        let back := after.backTo memory true
        .matched (if mended then back.reaching offset else back)
    else .matched memory

/-- Repeats a body. -/
def Setting.repeatBody (s : Setting) (greed : Greed) (min : Nat) (max : Option Nat)
    (body : Attempt) : Attempt := fun offset memory rest =>
  let steps := min + s.text.size + 3
  match greed with
  | .greedy => greedy body min max steps 0 none offset memory rest
  | .lazy => lazily s body min max steps 0 none offset memory rest
  | .possessive =>
    match possessively s.mended body min max offset steps 0 none (memory.reaching offset) with
    | .matched after => rest after.reached after
    | .failed after => .failed after

end StepMachine.Regex
