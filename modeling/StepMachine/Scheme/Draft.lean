import StepMachine.Diagnostic
import StepMachine.Scheme

/-! # Drafts

A draft is a scheme in the making: its declarations, the first use of every name and number, and
what has been reported. Each table keeps the first record under a key, in the order in which the
keys came up.
-/
namespace StepMachine

/-- The table with the record at its end, unless it has one under that key. -/
def addNew {α κ : Type} [BEq κ] (key : α → κ) (a : α) (table : List α) : List α :=
  if table.any (key · == key a) then table else table ++ [a]

/-- A scheme in the making. -/
structure Draft where
  variableDecls : List Variable
  stepDecls : List Step
  variableRefs : List (Reference String)
  stepRefs : List (Reference Literal)
  errors : List Diagnostic
  warnings : List Diagnostic
deriving DecidableEq

namespace Draft

/-- Nothing declared, used or reported. -/
def empty : Draft := ⟨[], [], [], [], [], []⟩

/-- The variable with this name. -/
def variableNamed (d : Draft) (name : String) : Option Variable :=
  d.variableDecls.find? (·.name == name)

/-- The step with this number. -/
def stepNumbered (d : Draft) (id : Literal) : Option Step :=
  d.stepDecls.find? (·.id == id)

def usesVariable (d : Draft) (name : String) : Bool :=
  d.variableRefs.any (·.id == name)

def usesStep (d : Draft) (id : Literal) : Bool :=
  d.stepRefs.any (·.id == id)

/-- Declare a variable. The answer is whether its name was free. -/
def declareVariable (d : Draft) (v : Variable) : Bool × Draft :=
  (!d.variableDecls.any (·.name == v.name),
    { d with variableDecls := addNew Variable.name v d.variableDecls })

/-- Declare a step. The answer is whether its number was free. -/
def declareStep (d : Draft) (s : Step) : Bool × Draft :=
  (!d.stepDecls.any (·.id == s.id),
    { d with stepDecls := addNew Step.id s d.stepDecls })

/-- Note the use of a variable. -/
def useVariable (d : Draft) (name : String) (position : Position) : Draft :=
  { d with variableRefs := addNew Reference.id ⟨name, position⟩ d.variableRefs }

/-- Note the use of a step. -/
def useStep (d : Draft) (id : Literal) (position : Position) : Draft :=
  { d with stepRefs := addNew Reference.id ⟨id, position⟩ d.stepRefs }

/-- Report an error. -/
def error (d : Draft) (diagnostic : Diagnostic) : Draft :=
  { d with errors := d.errors ++ [diagnostic] }

/-- Report a warning. -/
def warn (d : Draft) (diagnostic : Diagnostic) : Draft :=
  { d with warnings := d.warnings ++ [diagnostic] }

end Draft

end StepMachine
