import StepMachine.Token

/-! # Cursors

A cursor stands on a token and sees the tokens ahead. It goes forward one token at a time and
never leaves a token of the end. Progress is measured by the tokens ahead: a check passes if
fewer of them are left than at the check before.
-/
namespace StepMachine

/-- A place in a sequence of tokens. -/
structure Cursor where
  /-- How many tokens have been passed. -/
  index : Nat
  current : Token
  /-- The tokens after the current one. -/
  ahead : List Token
deriving DecidableEq

namespace Cursor

/-- On the first token of a sequence that ends with a token of the end. -/
def ofTokens? : List Token → Option Cursor
  | [] => none
  | t :: rest => if ((t :: rest).getLast?.map (·.kind)) = some .eof then some ⟨0, t, rest⟩ else none

/-- The current token is of the kind. -/
def isAt (c : Cursor) (kind : TokenKind) : Bool := c.current.kind == kind

/-- The current token is of one of the kinds. -/
def atAny (c : Cursor) (kinds : List TokenKind) : Bool := kinds.contains c.current.kind

/-- The current token is of the kind and not damaged. -/
def atValid (c : Cursor) (kind : TokenKind) : Bool := c.current.isValid kind

/-- The kind of the token `n` places on, or of the last token if there are fewer. -/
def nth (c : Cursor) (n : Nat) : TokenKind :=
  let tokens := c.current :: c.ahead
  (tokens.getD (min n c.ahead.length) c.current).kind

/-- The current token, and the cursor on the next one unless this is a token of the end. -/
def bump (c : Cursor) : Token × Cursor :=
  if c.isAt .eof then (c.current, c)
  else match c.ahead with
    | [] => (c.current, c)
    | t :: rest => (c.current, ⟨c.index + 1, t, rest⟩)

/-- Go past the current token if it is of the kind. -/
def eat (c : Cursor) (kind : TokenKind) : Bool × Cursor :=
  if c.isAt kind then (true, c.bump.2) else (false, c)

end Cursor

/-- How many tokens were ahead at the last check; none before the first one. -/
structure Progress where
  left : Option Nat
deriving DecidableEq

namespace Progress

/-- No check has been made. -/
def start : Progress := ⟨none⟩

/-- After a check at the cursor. -/
def mark (c : Cursor) : Progress := ⟨some c.ahead.length⟩

/-- There was no check yet, or fewer tokens are ahead than then. -/
def passes (p : Progress) (c : Cursor) : Bool := p.left.all (c.ahead.length < ·)

/-- A check: whether it passes, and the mark that it leaves either way. -/
def check (p : Progress) (c : Cursor) : Bool × Progress := (p.passes c, mark c)

end Progress

/-- What breaks the reading of a scheme off. -/
inductive Breach where
  /-- A loop came round again on the same token. -/
  | stalled (kind : TokenKind) (position : Position)
  /-- A condition was asked for at a token that starts none. -/
  | noCondition (kind : TokenKind)
  /-- A report cannot be worded. -/
  | longNumber (long : Text.LongNumber)
deriving DecidableEq

/-- The wording of a breach. -/
def Breach.message : Breach → String
  | stalled kind position =>
    "Parser stopped making progress at " ++ kind.label ++ " " ++ position.locator
  | noCondition kind => "Token " ++ kind.label ++ " cannot start a condition"
  | longNumber long => long.message

/-- The breach of a cursor that did not get on. -/
def Breach.ofStall (c : Cursor) : Breach := .stalled c.current.kind c.current.position

/-- A check that must pass. The mark is left in either case. -/
def Progress.insist (p : Progress) (c : Cursor) : Except Breach Unit × Progress :=
  (if p.passes c then .ok () else .error (.ofStall c), mark c)

end StepMachine
