import StepMachine.Token.Source

/-! # Listings

A listing shows one token on a line, with its number, kind, place, text and value, and then the
diagnostics if they are wanted.
-/
namespace StepMachine

/-- The text filled up to the width on the right. -/
def padRight (width : Nat) (s : String) : String :=
  s ++ String.ofList (List.replicate (width - s.toList.length) ' ')

/-- The number filled up to the width with zeros. -/
def padNumber (width n : Nat) : String :=
  let s := toString n
  String.ofList (List.replicate (width - s.toList.length) '0') ++ s

/-- A place as a triple. -/
def Position.triple (p : Position) : String :=
  "(" ++ toString p.line ++ ", " ++ toString p.column ++ ", " ++ toString p.index ++ ")"

/-- The value of a literal as it is listed. -/
def Literal.describe : Option Literal → Except Text.LongNumber String
  | none => .ok "None"
  | some (number n) => Text.writeNumber n
  | some (text s) => .ok (Text.quoted s)
  | some (pattern p) => .ok p.describe

/-- The line of the token with this number. -/
def Token.line (number : Nat) (t : Token) : Except Text.LongNumber String :=
  (Literal.describe t.value).map fun value =>
    padNumber 3 number ++ " " ++ padRight 10 t.kind.label ++ " at=" ++ t.position.triple ++
      (if t.invalid then " invalid" else "") ++ " text=" ++ Text.quoted t.text ++
      " value=" ++ value ++ "\n"

/-- The word for a severity in capital letters. -/
def Severity.loudLabel : Severity → String
  | error => "ERROR"
  | warning => "WARNING"

/-- The line of a diagnostic. -/
def Diagnostic.line (d : Diagnostic) : Except Text.LongNumber String :=
  d.message.map fun message =>
    "- " ++ d.severity.loudLabel ++ " " ++ d.code.label ++ " at=" ++ d.position.triple ++
      " message=" ++ message ++ "\n"

/-- The listing of tokens, and of diagnostics under a heading. -/
def listing (tokens : List Token) (diagnostics : Option (List Diagnostic)) :
    Except Text.LongNumber String := do
  let lines ← (tokens.mapIdx Token.line).mapM id
  match diagnostics with
  | none => return String.join lines
  | some ds =>
    let reports ← ds.mapM Diagnostic.line
    return String.join lines ++ "\nDiagnostics:\n" ++ String.join reports

end StepMachine
