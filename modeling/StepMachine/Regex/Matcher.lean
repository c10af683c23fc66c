import StepMachine.Regex.Repetition

/-! # Matching

A term matches from an offset of a text and hands the offset it reaches to what follows. The
ways of matching are tried in order, and the first after which the rest matches is taken.
-/
namespace StepMachine.Regex

/-- There is a word character at the offset. -/
def wordAt (m : Mode) (text : Array Nat) (offset : Nat) : Bool :=
  (text[offset]?).any (Kind.word.holds m)

/-- Exactly one side of the offset is a word character. -/
def atWordEdge (m : Mode) (text : Array Nat) (offset : Nat) : Bool :=
  (0 < offset && wordAt m text (offset - 1)) != wordAt m text offset

/-- The place at the offset satisfies the anchor. An empty text has no word edges and no places
that are none. -/
def Anchor.holds (m : Mode) (text : Array Nat) (offset : Nat) : Anchor → Bool
  | .lineStart => offset == 0 || (m.multiline && text[offset - 1]? == some 0xa)
  | .lineEnd =>
    offset == text.size ||
      ((m.multiline || offset + 1 == text.size) && text[offset]? == some 0xa)
  | .textStart => offset == 0
  | .textEnd => offset == text.size
  | .wordEdge => text.size != 0 && atWordEdge m text offset
  | .noWordEdge => text.size != 0 && !atWordEdge m text offset

/-- The characters from `offset` on are those from `first` to before `last`. -/
def sameText (m : Mode) (text : Array Nat) (first last offset : Nat) : Bool :=
  let form (code : Nat) : Nat := if m.ignoreCase then m.small code else code
  (List.range (last - first)).all fun i =>
    match text[first + i]?, text[offset + i]? with
    | some a, some b => form a == form b
    | _, _ => false

namespace Setting

/-- Matches the body on its own from `back` characters before the offset. What follows goes on
from the offset if the body matches, or with `negated` if it does not. -/
def look (s : Setting) (negated : Bool) (back : Nat) (body : Attempt) : Attempt :=
  fun offset memory rest =>
    if offset < back then
      if negated then rest offset memory else .failed memory
    else
      match body (offset - back) (memory.reaching (offset - back)) atEnd, negated with
      | .matched after, false => rest offset after
      | .matched after, true => .failed after
      | .failed after, false => .failed after
      | .failed after, true => rest offset (after.backTo memory s.repeating)

end Setting

/-- Matches a term. -/
def Term.run : Term → Setting → Attempt
  | empty, _, offset, memory, rest => rest offset memory
  | char test, s, offset, memory, rest =>
    if (s.text[offset]?).any (test.holds s.mode) then rest (offset + 1) memory
    else .failed memory
  | anchor a, s, offset, memory, rest =>
    if a.holds s.mode s.text offset then rest offset memory else .failed memory
  | seq a b, s, offset, memory, rest =>
    let first := { s with next? := (b.lead s.mode).literal? s.next? }
    a.run first offset memory fun i m => b.run s i m rest
  | either a b, s, offset, memory, rest =>
    (s.branch (a.lead s.mode) (a.run s.closed) offset memory rest).orElse fun after =>
      if b.isChoice then b.run s offset after rest
      else s.branch (b.lead s.mode) (b.run s.closed) offset after rest
  | repeated greed min max body, s, offset, memory, rest =>
    match body.asTest? s.mode with
    | some (m, test) => s.repeatTest greed min max m test offset memory rest
    | none =>
      let inner := { s.closed with repeating := s.repeating || greed != .possessive || s.mended }
      s.repeatBody greed min max (body.run inner) offset memory rest
  | capture group body, s, offset, memory, rest =>
    body.run s.closed offset (memory.enter group offset) fun i m => rest i (m.leave group i)
  | switched on off body, s, offset, memory, rest =>
    body.run { s with mode := s.mode.adjust on off } offset memory rest
  | atomic body, s, offset, memory, rest =>
    match body.run s.closed offset (memory.reaching offset) atEnd with
    | .matched after => rest after.reached after
    | .failed after => .failed (after.reaching offset)
  | backref group _, s, offset, memory, rest =>
    match memory.group? group with
    | some (first, last) =>
      if sameText s.mode s.text first last offset then rest (offset + (last - first)) memory
      else .failed memory
    | none => .failed memory
  | ahead negated body, s, offset, memory, rest =>
    s.look negated 0 (body.run s.closed) offset memory rest
  | behind negated width body, s, offset, memory, rest =>
    s.look negated width.least (body.run s.closed) offset memory rest
  | conditional group present absent, s, offset, memory, rest =>
    if (memory.group? group).isSome then
      present.run (if absent = empty then s else s.closed) offset memory rest
    else absent.run s offset memory rest

/-- The term matches from the offset on. -/
def Term.isFoundAt (term : Term) (m : Mode) (mended : Bool) (text : Array Nat) (offset : Nat) :
    Bool :=
  (term.run ⟨text, m, false, none, mended⟩ offset (.initial offset) atEnd).isMatch

/-- The term matches somewhere in the text. A text with fewer characters than the term asks for
is not searched. A search for a term with a known first test starts where that test holds as
written in the mode of the whole body; any other search stops where too few characters are
left. -/
def Term.isFoundIn (term : Term) (m : Mode) (mended : Bool) (text : Array Nat) : Bool :=
  let least := term.width.least
  if text.size < least then false
  else
    match term.firstTest? m with
    | some test =>
      (List.range text.size).any fun offset =>
        (text[offset]?).any (test.holds { m with ignoreCase := false }) &&
          term.isFoundAt m mended text offset
    | none =>
      (List.range (text.size - (least - 1) + 1)).any (term.isFoundAt m mended text)

end StepMachine.Regex
