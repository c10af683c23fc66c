import StepMachine.Scheme.Draft

/-! # Checks of references

Declarations that nothing refers to and references to steps that are not declared are worth a
warning. Each sort of warning can be switched off; the profile that the options were chosen for
changes nothing by itself. The warnings are issued one by one, and one that cannot be worded ends
the check.
-/
namespace StepMachine

/-- A choice of checks by name. -/
inductive Profile where
  | strict
  | relaxed
deriving DecidableEq

namespace Profile

/-- The word for a profile. -/
def label : Profile → String
  | strict => "strict"
  | relaxed => "relaxed"

/-- A word that is no profile. -/
structure Unknown where
  word : String
deriving DecidableEq

/-- The report on a word that is no profile. -/
def Unknown.message (u : Unknown) : String :=
  Text.quoted u.word ++ " is not a valid ValidationMode"

/-- The profile with this label. -/
def ofLabel (word : String) : Except Unknown Profile :=
  if word = strict.label then .ok strict
  else if word = relaxed.label then .ok relaxed
  else .error ⟨word⟩

end Profile

/-- Which warnings are wanted. -/
structure CheckOptions where
  profile : Profile
  unusedVariables : Bool
  unusedSteps : Bool
  undeclaredSteps : Bool
deriving DecidableEq

namespace CheckOptions

/-- All warnings. -/
def default : CheckOptions := ⟨.strict, true, true, true⟩

/-- The warnings of a profile; the relaxed one leaves unused declarations alone. -/
def ofProfile : Profile → CheckOptions
  | .relaxed => ⟨.relaxed, false, false, true⟩
  | .strict => ⟨.strict, true, true, true⟩

end CheckOptions

namespace Draft

/-- A warning for each variable that is not used, in order of declaration. -/
def unusedVariables (d : Draft) : List Diagnostic :=
  (d.variableDecls.filter (!d.usesVariable ·.name)).map fun v =>
    ⟨.unusedVariable v.name, v.position⟩

/-- A warning for each step that is not used, in order of declaration. -/
def unusedSteps (d : Draft) : List Diagnostic :=
  (d.stepDecls.filter (!d.usesStep ·.id)).map fun s => ⟨.unusedStep s.id, s.position⟩

/-- A warning for each step that is used and not declared, in order of first use. -/
def undeclaredSteps (d : Draft) : List Diagnostic :=
  (d.stepRefs.filter fun r => !d.stepDecls.any (·.id == r.id)).map fun r =>
    ⟨.undeclaredStep r.id, r.position⟩

/-- The warnings that are wanted, grouped by sort. -/
def findings (d : Draft) (o : CheckOptions) : List Diagnostic :=
  (if o.unusedVariables then d.unusedVariables else []) ++
    (if o.unusedSteps then d.unusedSteps else []) ++
    (if o.undeclaredSteps then d.undeclaredSteps else [])

/-- The draft with the warnings, up to the first that cannot be worded. -/
def warnAll : List Diagnostic → Draft → Except Text.LongNumber Unit × Draft
  | [], d => (.ok (), d)
  | warning :: rest, d =>
    match warning.message with
    | .error long => (.error long, d)
    | .ok _ => warnAll rest (d.warn warning)

/-- The draft with the warnings that are wanted, as far as they can be worded. -/
def checkReferences (d : Draft) (o : CheckOptions) : Except Text.LongNumber Unit × Draft :=
  warnAll (d.findings o) d

end Draft

end StepMachine
