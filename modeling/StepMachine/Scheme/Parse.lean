import StepMachine.Scheme.Draft
import StepMachine.Token.Cursor

/-! # Reading from tokens

A reading moves a cursor and fills a draft. It is done with a result, or abandoned after a report
of what was missing, or broken off by a breach. Nothing is taken back in any case.
-/
namespace StepMachine

/-- How a reading ends. -/
inductive Outcome (α : Type) where
  | done (result : α)
  | abandoned
  | broken (breach : Breach)

/-- What a reading works on. -/
structure ParseState where
  cursor : Cursor
  draft : Draft
deriving DecidableEq

/-- A reading. -/
def Parse (α : Type) : Type := ParseState → Outcome α × ParseState

namespace Parse

variable {α β : Type}

/-- One reading after another, while they are done. -/
def andThen (m : Parse α) (next : α → Parse β) : Parse β := fun s =>
  match m s with
  | (.done a, t) => next a t
  | (.abandoned, t) => (.abandoned, t)
  | (.broken breach, t) => (.broken breach, t)

instance : Monad Parse where
  pure a := fun s => (.done a, s)
  bind := andThen

/-- The second reading starts where the first one ends, if that is done. -/
theorem bind_apply (m : Parse α) (next : α → Parse β) (s : ParseState) :
    (m >>= next) s = match m s with
      | (.done a, t) => next a t
      | (.abandoned, t) => (.abandoned, t)
      | (.broken breach, t) => (.broken breach, t) := rfl

/-- The cursor. -/
def cursor : Parse Cursor := fun s => (.done s.cursor, s)

/-- The draft. -/
def draft : Parse Draft := fun s => (.done s.draft, s)

/-- Change the draft. -/
def change (f : Draft → Draft) : Parse Unit := fun s => (.done (), { s with draft := f s.draft })

/-- Change the draft and get an answer. -/
def ask (f : Draft → α × Draft) : Parse α := fun s =>
  (.done (f s.draft).1, { s with draft := (f s.draft).2 })

/-- End without a result. -/
def abandon : Parse α := fun s => (.abandoned, s)

/-- End with a breach. -/
def breach (b : Breach) : Parse α := fun s => (.broken b, s)

/-- The place of the current token. -/
def position : Parse Position := return (← cursor).current.position

/-- The current token, going past it. -/
def bump : Parse Token := fun s =>
  (.done s.cursor.bump.1, { s with cursor := s.cursor.bump.2 })

/-- Go past the current token if it is of the kind. -/
def eat (kind : TokenKind) : Parse Bool := fun s =>
  (.done (s.cursor.eat kind).1, { s with cursor := (s.cursor.eat kind).2 })

/-- Report an error. -/
def report (cause : Cause) (position : Position) : Parse Unit :=
  change (·.error ⟨cause, position⟩)

/-- Make sure that the cause can be worded. Only causes that show a step may fail to be. -/
def insistOnWording (cause : Cause) : Parse Unit :=
  match cause.message with
  | .ok _ => pure ()
  | .error long => breach (.longNumber long)

/-- Report an error at the current token and end without a result. -/
def giveUp (cause : Cause) : Parse α := do
  report cause (← position)
  abandon

/-- Go past a token of the kind, which has to be there. -/
def expect (kind : TokenKind) (what : Expected) : Parse Unit := do
  if ← eat kind then pure () else giveUp (.expected what)

/-- The cursor has to be in a certain place, or else the cause is reported. -/
def require (holds : Cursor → Bool) (cause : Cause) : Parse Unit := do
  if holds (← cursor) then pure () else giveUp cause

/-- The result that is there, or no result. -/
def ofOption : Option α → Parse α
  | some a => pure a
  | none => abandon

/-- The reading, with an abandoned one taken as done. -/
def asFarAsItGoes (m : Parse α) : Parse Unit := fun s =>
  match m s with
  | (.done _, t) | (.abandoned, t) => (.done (), t)
  | (.broken breach, t) => (.broken breach, t)

/-- Items as long as the cursor is where one can start. Every round must begin further on than
the one before; since that leaves fewer tokens ahead, the rounds come to an end. -/
def many (starts : Cursor → Bool) (item : Parse α) (progress : Progress) : Parse (List α) :=
  fun s =>
    if starts s.cursor then
      if _ : progress.passes s.cursor then
        match item s with
        | (.done a, t) =>
          match many starts item (.mark s.cursor) t with
          | (.done as, u) => (.done (a :: as), u)
          | (.abandoned, u) => (.abandoned, u)
          | (.broken breach, u) => (.broken breach, u)
        | (.abandoned, t) => (.abandoned, t)
        | (.broken breach, t) => (.broken breach, t)
      else (.broken (.ofStall s.cursor), s)
    else (.done [], s)
termination_by s => progress.left.getD (s.cursor.ahead.length + 1)
decreasing_by
  have passed := ‹progress.passes _ = true›
  cases h : progress.left with
  | none => simp [Progress.mark]
  | some n => simpa [Progress.mark, Progress.passes, h] using passed

end Parse

end StepMachine
