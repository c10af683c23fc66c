import StepMachine.Pattern
import StepMachine.Position
import StepMachine.Text.Numeral

/-! # Tokens

A source text is a sequence of tokens with blanks between them. A token keeps its text and its
place; the token of a literal also carries the literal's value once that has been decoded.
-/
namespace StepMachine

/-- What a token is. -/
inductive TokenKind where
  /-- The end of the source. -/
  | eof
  /-- A character that starts no token. -/
  | unknown
  | name
  | number
  | string
  | pattern
  | colon
  | question
  | bang
  | star
  | openParen
  | closeParen
  | openBracket
  | closeBracket
deriving DecidableEq

namespace TokenKind

/-- All kinds. -/
def all : List TokenKind :=
  [eof, unknown, name, number, string, pattern, colon, question, bang, star, openParen,
    closeParen, openBracket, closeBracket]

/-- The word for a kind in listings and reports. -/
def label : TokenKind → String
  | eof => "EOF"
  | unknown => "UNKNOWN"
  | name => "LOOKUP"
  | number => "NUMBER"
  | string => "STRING"
  | pattern => "REGEX"
  | colon => "COLON"
  | question => "QUESTION"
  | bang => "BANG"
  | star => "STAR"
  | openParen => "LPAREN"
  | closeParen => "RPAREN"
  | openBracket => "LBRACKET"
  | closeBracket => "RBRACKET"

/-- The number of a kind. Kinds of one sort share their tens. -/
def ordinal : TokenKind → Nat
  | eof => 1
  | unknown => 2
  | name => 20
  | number => 21
  | string => 22
  | pattern => 23
  | colon => 40
  | question => 41
  | bang => 42
  | star => 43
  | openParen => 50
  | closeParen => 51
  | openBracket => 52
  | closeBracket => 53

/-- The kind with this label. -/
def ofLabel? (word : String) : Option TokenKind :=
  all.find? (·.label == word)

end TokenKind

/-- The characters that are tokens by themselves. -/
def punctuation : List (Char × TokenKind) :=
  [(':', .colon), ('?', .question), ('!', .bang), ('(', .openParen), (')', .closeParen),
    ('[', .openBracket), (']', .closeBracket), ('*', .star)]

/-- The value of a literal. -/
inductive Literal where
  | number (value : Int)
  | text (value : String)
  | pattern (value : Pattern)
deriving DecidableEq

namespace Literal

/-- The literal in a report. Long numbers cannot be written. -/
def write : Literal → Except Text.LongNumber String
  | number n => Text.writeNumber n
  | text s => .ok s
  | pattern p => .ok p.literal

/-- The word for what sort of value there is. -/
def sort : Option Literal → String
  | none => "NoneType"
  | some (number _) => "int"
  | some (text _) => "str"
  | some (pattern _) => "PatternLiteral"

end Literal

/-- A token. Decoded tokens that are not invalid and hold a literal have its value; tokens that
were put together by hand may lack it. -/
structure Token where
  kind : TokenKind
  text : String
  position : Position
  value : Option Literal
  /-- The token was damaged, or its literal stands for nothing. -/
  invalid : Bool
deriving DecidableEq

/-- The token is of the kind and not damaged. -/
def Token.isValid (t : Token) (kind : TokenKind) : Bool :=
  t.kind == kind && !t.invalid

end StepMachine
