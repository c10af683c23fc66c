import StepMachine.Scheme.Grammar
import StepMachine.Scheme.References
import StepMachine.Token.Source

/-! # Compiled schemes

A source text is scanned, read and checked in one go. Whatever is wrong with the text is reported
in the result; only a numeral beyond the limit, or trouble of the engine with a pattern, leaves no
result.
-/
namespace StepMachine

/-- The result of compiling a source text. -/
structure CompiledScheme where
  sourceText : String
  tokens : List Token
  variableDecls : List Variable
  stepDecls : List Step
  variableRefs : List (Reference String)
  stepRefs : List (Reference Literal)
  errors : List Diagnostic
  warnings : List Diagnostic
deriving DecidableEq

/-- Why there is no result. -/
inductive CompileFailure where
  /-- Both options and a profile were given. -/
  | optionsAndProfile
  | scan (failure : ScanFailure)
  | parse (failure : ParseFailure)
  /-- A warning cannot be worded. -/
  | check (long : Text.LongNumber)
deriving DecidableEq

/-- The wording of a failure. -/
def CompileFailure.message : CompileFailure → String
  | optionsAndProfile => "Pass either options or mode, not both"
  | scan failure => failure.message
  | parse failure => failure.message
  | check long => long.message

/-- Values that have no order between them. -/
structure Unordered where
  left : Literal
  right : Literal
deriving DecidableEq

/-- The report on values that have no order. -/
def Unordered.message (u : Unordered) : String :=
  "\x27<\x27 not supported between instances of \x27" ++ Literal.sort (some u.left) ++
    "\x27 and \x27" ++ Literal.sort (some u.right) ++ "\x27"

/-- The text comes before the other one, by the codes of their characters. -/
def Text.comesBefore : List Char → List Char → Bool
  | _, [] => false
  | [], _ :: _ => true
  | c :: cs, d :: ds => c.toNat < d.toNat || (c == d && comesBefore cs ds)

/-- Numbers come in order, and so do texts. -/
def Literal.isBelow : Literal → Literal → Except Unordered Bool
  | number m, number n => .ok (m < n)
  | text s, text t => .ok (Text.comesBefore s.toList t.toList)
  | a, b => .error ⟨a, b⟩

/-- The least of the values, of which the first one is the least so far. -/
def leastFrom (least : Literal) : List Literal → Except Unordered Literal
  | [] => .ok least
  | a :: rest =>
    match a.isBelow least with
    | .error unordered => .error unordered
    | .ok true => leastFrom a rest
    | .ok false => leastFrom least rest

namespace CheckOptions

/-- The options that were given, or those of the profile, or all warnings. -/
def resolve : Option CheckOptions → Option Profile → Except CompileFailure CheckOptions
  | some _, some _ => .error .optionsAndProfile
  | some o, none => .ok o
  | none, some p => .ok (ofProfile p)
  | none, none => .ok default

end CheckOptions

/-- The draft of the scheme that the tokens spell, after the check. -/
def Draft.checked (tokens : List Token) (o : CheckOptions) : Except CompileFailure Draft :=
  match Draft.ofTokens tokens with
  | .error failure => .error (.parse failure)
  | .ok draft =>
    match draft.checkReferences o with
    | (.error long, _) => .error (.check long)
    | (.ok (), checked) => .ok checked

namespace CompiledScheme

/-- The result for a finished draft. The scanner's reports come before the draft's. -/
def ofDraft (text : String) (tokens : List Token) (scanned : List Diagnostic) (d : Draft) :
    CompiledScheme where
  sourceText := text
  tokens := tokens
  variableDecls := d.variableDecls
  stepDecls := d.stepDecls
  variableRefs := d.variableRefs
  stepRefs := d.stepRefs
  errors := scanned ++ d.errors
  warnings := d.warnings

/-- Compile a text with options that are settled. -/
def compileWith (E : Engine) (text : String) (o : CheckOptions) :
    Except CompileFailure CompiledScheme :=
  match scanAll E text with
  | .error failure => .error (.scan failure)
  | .ok (tokens, scanned) =>
    match Draft.checked tokens o with
    | .error failure => .error failure
    | .ok checked => .ok (ofDraft text tokens scanned checked)

/-- Compile a text with options or a profile, or with neither. -/
def compile (E : Engine) (text : String) (o : Option CheckOptions) (p : Option Profile) :
    Except CompileFailure CompiledScheme :=
  match CheckOptions.resolve o p with
  | .error failure => .error failure
  | .ok resolved => compileWith E text resolved

/-- Some error was reported. -/
def hasErrors (c : CompiledScheme) : Bool := StepMachine.hasErrors c.errors

/-- Errors and then warnings. -/
def diagnostics (c : CompiledScheme) : List Diagnostic := c.errors ++ c.warnings

/-- The variable with this name. -/
def variableNamed (c : CompiledScheme) (name : String) : Option Variable :=
  c.variableDecls.find? (·.name == name)

/-- The step with this number. -/
def stepNumbered (c : CompiledScheme) (id : Literal) : Option Step :=
  c.stepDecls.find? (·.id == id)

/-- The step under the least number, where the machine starts. -/
def entryStep (c : CompiledScheme) : Except Unordered (Option Step) :=
  match c.stepDecls.map (·.id) with
  | [] => .ok none
  | id :: rest => (leastFrom id rest).map c.stepNumbered

/-- One line about the result. -/
def summary (c : CompiledScheme) : String :=
  "Compiled scheme: " ++ toString c.tokens.length ++ " tokens, " ++
    toString c.variableDecls.length ++ " variables, " ++
    toString c.stepDecls.length ++ " steps, " ++
    toString c.errors.length ++ " errors, " ++ toString c.warnings.length ++ " warnings"

end CompiledScheme

end StepMachine
