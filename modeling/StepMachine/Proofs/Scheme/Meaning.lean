import StepMachine.Proofs.Scheme.Derivation
import StepMachine.Proofs.Scheme.Tables

/-! # What a derivation stands for

The draft of a derivation is read off it table by table: the first declaration of every name and
number, the first use of every declared name and of every number, and one error for every
declaration that comes too late and for every name that is not declared. The same draft arises
when the phrases act on an empty draft one after another, each as soon as it has been read.
-/
namespace StepMachine

/-! ### Phrases -/

def StepIdPhrase.position (g : StepIdPhrase) : Position := g.opening.token.position

/-- What the number between the parentheses was decoded to. -/
def StepIdPhrase.value (g : StepIdPhrase) : Literal := g.number.token.value.getD (.number 0)

def TokenNamePhrase.value : TokenNamePhrase → Option Literal
  | text literal => literal.token.value
  | name word => some (.text word.token.text)

def TargetPhrase.target : TargetPhrase → Target
  | step id => .step id.value id.position
  | token none opening name _ => .token name.value false opening.token.position
  | token (some bang) _ name _ => .token name.value true bang.token.position

/-- The step that the target leads to, at its parenthesis. -/
def TargetPhrase.stepUses : TargetPhrase → List (Reference Literal)
  | step id => [⟨id.value, id.position⟩]
  | token .. => []

/-- The condition, with the variable that its name has among those declared. -/
def ConditionPhrase.condition (vars : List Variable) : ConditionPhrase → Condition
  | name word =>
    .named word.token.text (vars.find? (·.name == word.token.text)) word.token.position
  | text literal => .text literal.token.value literal.token.position
  | pattern literal => .pattern literal.token.value literal.token.position
  | wildcard star => .wildcard star.token.position

/-- The name that the condition is given by, if any. -/
def ConditionPhrase.nameUses : ConditionPhrase → List (Reference String)
  | name word => [⟨word.token.text, word.token.position⟩]
  | _ => []

def ActionPhrase.action (vars : List Variable) (g : ActionPhrase) : Action :=
  ⟨g.condition.condition vars, g.target.target⟩

def ActionPhrase.nameUses (g : ActionPhrase) : List (Reference String) := g.condition.nameUses

def ActionPhrase.stepUses (g : ActionPhrase) : List (Reference Literal) := g.target.stepUses

/-- The fallback, or the target of the action that serves as one. -/
def StepEnd.target : StepEnd → TargetPhrase
  | fallback target => target
  | wildcard _ _ target => target

/-- The uses in a fallback that is written. -/
def StepEnd.stepUses : StepEnd → List (Reference Literal)
  | fallback target => target.stepUses
  | wildcard .. => []

def StepPhrase.step (vars : List Variable) (g : StepPhrase) : Step where
  id := g.id.value
  actions := g.allActions.map (·.action vars)
  fallback := g.ending.target.target
  position := g.id.position

def StepPhrase.nameUses (g : StepPhrase) : List (Reference String) :=
  g.allActions.flatMap ActionPhrase.nameUses

def StepPhrase.stepUses (g : StepPhrase) : List (Reference Literal) :=
  g.allActions.flatMap ActionPhrase.stepUses ++ g.ending.stepUses

def VariablePhrase.record (g : VariablePhrase) : Variable where
  name := g.name.token.text
  value := g.value.token.value
  position := g.name.token.position

/-! ### Drafts -/

/-- One of the variables has the name. -/
def isDeclared (vars : List Variable) (use : Reference String) : Bool :=
  vars.any (·.name == use.id)

/-- An error for each name that none of the variables has. -/
def unknownNames (vars : List Variable) (uses : List (Reference String)) : List Diagnostic :=
  (uses.filter (!isDeclared vars ·)).map fun use => ⟨.unknownVariable use.id, use.position⟩

namespace SchemePhrase

/-- The first declaration of each name. -/
def variableDecls (g : SchemePhrase) : List Variable :=
  firstOnly Variable.name (g.bindings.map VariablePhrase.record)

/-- An error for each declaration of a name that was declared before. -/
def variableErrors (g : SchemePhrase) : List Diagnostic :=
  (withTaken Variable.name (g.bindings.map VariablePhrase.record)).flatMap fun (v, taken) =>
    if taken then [⟨.takenVariable v.name, v.position⟩] else []

/-- Step by step, an error for each name that is not declared, and then one if the number was
declared before. -/
def stepErrors (g : SchemePhrase) : List Diagnostic :=
  (withTaken (·.id.value) g.steps).flatMap fun (s, taken) =>
    unknownNames g.variableDecls s.nameUses ++
      if taken then [⟨.takenStep s.id.value, s.id.position⟩] else []

/-- The draft that the derivation stands for. -/
def draft (g : SchemePhrase) : Draft where
  variableDecls := g.variableDecls
  stepDecls := firstOnly Step.id (g.steps.map (·.step g.variableDecls))
  variableRefs := firstOnly Reference.id
    ((g.steps.flatMap StepPhrase.nameUses).filter (isDeclared g.variableDecls))
  stepRefs := firstOnly Reference.id (g.steps.flatMap StepPhrase.stepUses)
  errors := g.variableErrors ++ g.stepErrors
  warnings := []

end SchemePhrase

/-! ### One phrase after another -/

namespace Draft

/-- The draft with the names and numbers noted that part of a step uses. -/
def note (d : Draft) (names : List (Reference String)) (steps : List (Reference Literal)) : Draft :=
  { d with
    variableRefs :=
      addAll Reference.id (names.filter (isDeclared d.variableDecls)) d.variableRefs
    stepRefs := addAll Reference.id steps d.stepRefs
    errors := d.errors ++ unknownNames d.variableDecls names }

/-- The draft with the variable declared, or with an error if its name was taken. -/
def addVariable (d : Draft) (v : Variable) : Draft :=
  { d with
    variableDecls := addNew Variable.name v d.variableDecls
    errors := d.errors ++
      if d.variableDecls.any (·.name == v.name) then [⟨.takenVariable v.name, v.position⟩]
      else [] }

/-- The draft with the step declared, or with an error if its number was taken. -/
def addStep (d : Draft) (s : Step) : Draft :=
  { d with
    stepDecls := addNew Step.id s d.stepDecls
    errors := d.errors ++
      if d.stepDecls.any (·.id == s.id) then [⟨.takenStep s.id, s.position⟩] else [] }

variable (d : Draft)

@[simp] theorem note_nil : d.note [] [] = d := by simp [note, unknownNames]

theorem note_note (names names' : List (Reference String)) (steps steps' : List (Reference Literal)) :
    (d.note names steps).note names' steps' = d.note (names ++ names') (steps ++ steps') := by
  simp [note, unknownNames, addAll_append]

@[simp] theorem variableDecls_note (names : List (Reference String))
    (steps : List (Reference Literal)) : (d.note names steps).variableDecls = d.variableDecls := rfl

end Draft

def VariablePhrase.addTo (d : Draft) (g : VariablePhrase) : Draft := d.addVariable g.record

/-- The draft after the step has been read and declared. -/
def StepPhrase.addTo (d : Draft) (g : StepPhrase) : Draft :=
  (d.note g.nameUses g.stepUses).addStep (g.step d.variableDecls)

namespace SchemePhrase

theorem foldl_addVariable (vs : List Variable) : vs.foldl Draft.addVariable .empty =
    { Draft.empty with
      variableDecls := firstOnly Variable.name vs
      errors := (withTaken Variable.name vs).flatMap fun (v, taken) =>
        if taken then [⟨.takenVariable v.name, v.position⟩] else [] } := by
  induction vs using List.reverseRecOn with
  | nil => rfl
  | append_singleton vs v ih =>
    rw [List.foldl_append, ih, withTaken_concat, firstOnly_concat]
    simp [Draft.addVariable, Draft.empty, any_firstOnly]

/-- From a draft in which no step is declared or used, the steps fill each table on its own. -/
theorem foldl_addTo (d : Draft) (hd : d.stepDecls = []) (hv : d.variableRefs = [])
    (hs : d.stepRefs = []) (gs : List StepPhrase) : gs.foldl StepPhrase.addTo d =
    { d with
      stepDecls := firstOnly Step.id (gs.map (·.step d.variableDecls))
      variableRefs := firstOnly Reference.id
        ((gs.flatMap StepPhrase.nameUses).filter (isDeclared d.variableDecls))
      stepRefs := firstOnly Reference.id (gs.flatMap StepPhrase.stepUses)
      errors := d.errors ++ (withTaken (·.id.value) gs).flatMap fun (s, taken) =>
        unknownNames d.variableDecls s.nameUses ++
          if taken then [⟨.takenStep s.id.value, s.id.position⟩] else [] } := by
  induction gs using List.reverseRecOn with
  | nil =>
    cases d
    simp_all [withTaken]
  | append_singleton gs g ih =>
    have htaken : (firstOnly Step.id (gs.map (·.step d.variableDecls))).any
        (·.id == g.id.value) = gs.any (·.id.value == g.id.value) := by
      rw [any_firstOnly, List.any_map]
      rfl
    have hstep : (g.step d.variableDecls).id = g.id.value := rfl
    rw [List.foldl_append, ih, withTaken_concat]
    simp only [List.foldl_cons, List.foldl_nil, StepPhrase.addTo, Draft.note, Draft.addStep,
      List.map_append, List.map_cons, List.map_nil, firstOnly_concat, List.flatMap_append,
      List.flatMap_cons, List.flatMap_nil, List.append_nil, List.filter_append, hstep, htaken,
      List.append_assoc]
    rw [← addAll_nil Reference.id (_ ++ _), addAll_append, addAll_nil,
      ← addAll_nil Reference.id (_ ++ _), addAll_append, addAll_nil]
    rfl

/-- The draft of a derivation arises phrase by phrase. -/
theorem draft_eq_foldl (g : SchemePhrase) :
    g.steps.foldl StepPhrase.addTo (g.bindings.foldl VariablePhrase.addTo .empty) = g.draft := by
  have hbindings : g.bindings.foldl VariablePhrase.addTo .empty =
      (g.bindings.map VariablePhrase.record).foldl Draft.addVariable .empty := by
    rw [List.foldl_map]
    rfl
  rw [hbindings, foldl_addVariable, foldl_addTo _ rfl rfl rfl]
  rfl

end SchemePhrase

end StepMachine
