import StepMachine.Token.Scanner

/-! # Tokens of a source text

After the scanner has passed over a source, the tokens are decoded one by one in order: numerals,
string literals and pattern literals get their values. A pattern that is refused makes its token
invalid and is reported. A numeral that is too long stops the work, and so does an engine's refusal
that is no remark on the body; the first such token decides.
-/
namespace StepMachine

/-- Why the tokens of a source cannot be had. -/
inductive ScanFailure where
  | longNumeral (long : Text.LongNumeral)
  /-- The engine has trouble with a pattern. -/
  | refused (refusal : Engine.Refusal)
deriving DecidableEq

/-- The wording of a failure. -/
def ScanFailure.message : ScanFailure → String
  | longNumeral long => long.message
  | refused refusal => refusal.message

namespace Token

/-- The token with the value of its literal. A refused pattern makes it invalid. -/
def decode (E : Engine) (t : Token) : Except ScanFailure (Token × List Diagnostic) :=
  if t.invalid then .ok (t, [])
  else match t.kind with
    | .number =>
      match Text.readNumeral t.text.toList with
      | .error long => .error (.longNumeral long)
      | .ok n => .ok ({ t with value := some (.number n) }, [])
    | .string =>
      .ok ({ t with value := some (.text (String.ofList (t.text.toList.drop 1).dropLast)) }, [])
    | .pattern =>
      match Pattern.ofText E t.text with
      | .ok p => .ok ({ t with value := some (.pattern p) }, [])
      | .error failure =>
        match failure.escaping? with
        | some refusal => .error (.refused refusal)
        | none => .ok ({ t with invalid := true }, [⟨.invalidPattern t.text failure, t.position⟩])
    | _ => .ok (t, [])

/-- All tokens decoded, and the reports in order. -/
def decodeAll (E : Engine) : List Token → Except ScanFailure (List Token × List Diagnostic)
  | [] => .ok ([], [])
  | t :: rest =>
    match t.decode E with
    | .error failure => .error failure
    | .ok (u, ds) =>
      match decodeAll E rest with
      | .error failure => .error failure
      | .ok (us, es) => .ok (u :: us, ds ++ es)

end Token

/-- A source text on its way to tokens: the scanner, and once they are known the tokens and all
diagnostics. -/
structure Source where
  text : String
  scanner : Scanner
  found : Option (List Token)
  diagnostics : List Diagnostic
deriving DecidableEq

namespace Source

/-- A source that nothing has been read of. -/
def ofText (text : String) : Source := ⟨text, .start, none, []⟩

/-- The place of the next character. -/
def position (s : Source) : Position := s.scanner.position

/-- All characters have been read. -/
def isAtEnd (s : Source) : Bool := s.text.toList.length ≤ s.position.index

/-- The tokens, which end with the only token of the end of the source. They are kept, so
asking again gives the same ones and reports nothing new. -/
def lex (E : Engine) (s : Source) : Except ScanFailure (List Token × Source) :=
  match s.found with
  | some tokens => .ok (tokens, s)
  | none =>
    let scanner := (s.scanner.feedAll (s.text.toList.drop s.position.index)).close
    match Token.decodeAll E (scanner.tokens.toList ++ [scanner.endToken]) with
    | .error failure => .error failure
    | .ok (tokens, refused) =>
      .ok (tokens, ⟨s.text, scanner, some tokens, scanner.diagnostics.toList ++ refused⟩)

end Source

/-- The tokens of a text and the diagnostics on them. -/
def scanAll (E : Engine) (text : String) : Except ScanFailure (List Token × List Diagnostic) :=
  match (Source.ofText text).lex E with
  | .error failure => .error failure
  | .ok (tokens, source) => .ok (tokens, source.diagnostics)

/-- The tokens of a text. -/
def scan (E : Engine) (text : String) : Except ScanFailure (List Token) :=
  match scanAll E text with
  | .error failure => .error failure
  | .ok (tokens, _) => .ok tokens

end StepMachine
