import Mathlib.Logic.Function.Basic
import StepMachine.Proofs.Scheme.Findings
import StepMachine.Proofs.Scheme.Tables
import StepMachine.Scheme.Compiled

/-! # New places, names and numbers

Places only say where something stands, and of names and numbers it only matters which are equal.
All data that hold such things can be relabelled, and what is done to the tables of a draft can as
well be done after relabelling. Only whether a number can be written may change.
-/
namespace StepMachine

/-- New places, names and numbers for old ones. Names and numbers that differ go on to differ, while
places may fall together. -/
structure Relabelling where
  place : Position → Position
  name : String → String
  number : Int → Int
  name_injective : Function.Injective name
  number_injective : Function.Injective number

namespace Relabelling

/-- All names and numbers stay as they are. -/
def moving (place : Position → Position) : Relabelling :=
  ⟨place, id, id, Function.injective_id, Function.injective_id⟩

/-- All places are forgotten. -/
def placeless : Relabelling := moving fun _ => .start

end Relabelling

variable (ρ : Relabelling)

/-! ### Data -/

def Literal.relabel : Literal → Literal
  | number n => .number (ρ.number n)
  | text s => .text (ρ.name s)
  | pattern p => .pattern p

/-- Of the texts of tokens, only those of names are relabelled. -/
def Token.relabel (t : Token) : Token where
  kind := t.kind
  text := if t.kind = .name then ρ.name t.text else t.text
  position := ρ.place t.position
  value := t.value.map (·.relabel ρ)
  invalid := t.invalid

def Variable.relabel (v : Variable) : Variable where
  name := ρ.name v.name
  value := v.value.map (·.relabel ρ)
  position := ρ.place v.position

/-- The reference with another key, at its new place. -/
def Reference.relabel {κ : Type} (key : κ → κ) (r : Reference κ) : Reference κ :=
  ⟨key r.id, ρ.place r.position⟩

def Target.relabel : Target → Target
  | step id p => .step (id.relabel ρ) (ρ.place p)
  | token name isError p => .token (name.map (·.relabel ρ)) isError (ρ.place p)

def Condition.relabel : Condition → Condition
  | named name binding p => .named (ρ.name name) (binding.map (·.relabel ρ)) (ρ.place p)
  | text value p => .text (value.map (·.relabel ρ)) (ρ.place p)
  | pattern value p => .pattern (value.map (·.relabel ρ)) (ρ.place p)
  | wildcard p => .wildcard (ρ.place p)

def Action.relabel (a : Action) : Action := ⟨a.condition.relabel ρ, a.target.relabel ρ⟩

def Step.relabel (s : Step) : Step where
  id := s.id.relabel ρ
  actions := s.actions.map (·.relabel ρ)
  fallback := s.fallback.relabel ρ
  position := ρ.place s.position

def Cause.relabel : Cause → Cause
  | expectedValue name => .expectedValue (ρ.name name)
  | takenVariable name => .takenVariable (ρ.name name)
  | takenStep id => .takenStep (id.relabel ρ)
  | unknownVariable name => .unknownVariable (ρ.name name)
  | unusedVariable name => .unusedVariable (ρ.name name)
  | unusedStep id => .unusedStep (id.relabel ρ)
  | undeclaredStep id => .undeclaredStep (id.relabel ρ)
  | cause => cause

def Diagnostic.relabel (d : Diagnostic) : Diagnostic := ⟨d.cause.relabel ρ, ρ.place d.position⟩

def Draft.relabel (d : Draft) : Draft where
  variableDecls := d.variableDecls.map (·.relabel ρ)
  stepDecls := d.stepDecls.map (·.relabel ρ)
  variableRefs := d.variableRefs.map (·.relabel ρ ρ.name)
  stepRefs := d.stepRefs.map (·.relabel ρ (·.relabel ρ))
  errors := d.errors.map (·.relabel ρ)
  warnings := d.warnings.map (·.relabel ρ)

def Cursor.relabel (c : Cursor) : Cursor :=
  ⟨c.index, c.current.relabel ρ, c.ahead.map (·.relabel ρ)⟩

def ParseState.relabel (s : ParseState) : ParseState := ⟨s.cursor.relabel ρ, s.draft.relabel ρ⟩

def Breach.relabel : Breach → Breach
  | stalled kind p => .stalled kind (ρ.place p)
  | noCondition kind => .noCondition kind
  | longNumber long => .longNumber ⟨ρ.number long.value⟩

/-- The source text is kept. -/
def CompiledScheme.relabel (c : CompiledScheme) : CompiledScheme where
  sourceText := c.sourceText
  tokens := c.tokens.map (·.relabel ρ)
  variableDecls := c.variableDecls.map (·.relabel ρ)
  stepDecls := c.stepDecls.map (·.relabel ρ)
  variableRefs := c.variableRefs.map (·.relabel ρ ρ.name)
  stepRefs := c.stepRefs.map (·.relabel ρ (·.relabel ρ))
  errors := c.errors.map (·.relabel ρ)
  warnings := c.warnings.map (·.relabel ρ)

/-! ### Literals and tokens -/

theorem Literal.relabel_injective : Function.Injective (Literal.relabel ρ) := by
  rintro (m | s | p) (n | t | q) heq
  · exact congrArg number (ρ.number_injective (number.inj heq))
  · cases heq
  · cases heq
  · cases heq
  · exact congrArg text (ρ.name_injective (text.inj heq))
  · cases heq
  · cases heq
  · cases heq
  · exact heq

namespace Token

variable (t : Token)

@[simp] theorem kind_relabel : (t.relabel ρ).kind = t.kind := rfl

@[simp] theorem position_relabel : (t.relabel ρ).position = ρ.place t.position := rfl

@[simp] theorem value_relabel : (t.relabel ρ).value = t.value.map (·.relabel ρ) := rfl

@[simp] theorem isValid_relabel (kind : TokenKind) : (t.relabel ρ).isValid kind = t.isValid kind :=
  rfl

theorem text_relabel (h : t.kind = .name) : (t.relabel ρ).text = ρ.name t.text := if_pos h

end Token

/-! ### New places alone -/

section

variable (f : Position → Position)

theorem Literal.relabel_moving (l : Literal) : l.relabel (.moving f) = l := by
  cases l <;> rfl

theorem Token.relabel_moving (t : Token) :
    t.relabel (.moving f) = { t with position := f t.position } := by
  have htext : (if t.kind = .name then (Relabelling.moving f).name t.text else t.text) = t.text :=
    ite_self _
  have hvalue : t.value.map (·.relabel (.moving f)) = t.value := by
    cases t.value with
    | none => rfl
    | some l => exact congrArg some (l.relabel_moving f)
  rw [relabel, hvalue, htext]
  rfl

theorem Cause.relabel_moving (c : Cause) : c.relabel (.moving f) = c := by
  cases c with
  | takenStep id | unusedStep id | undeclaredStep id => rw [relabel, id.relabel_moving]
  | _ => rfl

theorem Diagnostic.relabel_moving (d : Diagnostic) :
    d.relabel (.moving f) = ⟨d.cause, f d.position⟩ := by
  rw [relabel, Cause.relabel_moving]
  rfl

end

/-! ### Cursors -/

namespace Cursor

variable (c : Cursor)

@[simp] theorem current_relabel : (c.relabel ρ).current = c.current.relabel ρ := rfl

@[simp] theorem isAt_relabel (kind : TokenKind) : (c.relabel ρ).isAt kind = c.isAt kind := rfl

@[simp] theorem atAny_relabel (kinds : List TokenKind) :
    (c.relabel ρ).atAny kinds = c.atAny kinds := rfl

@[simp] theorem atValid_relabel (kind : TokenKind) :
    (c.relabel ρ).atValid kind = c.atValid kind := rfl

@[simp] theorem length_ahead_relabel : (c.relabel ρ).ahead.length = c.ahead.length :=
  List.length_map _

@[simp] theorem nth_relabel (n : Nat) : (c.relabel ρ).nth n = c.nth n := by
  have hmap : (c.relabel ρ).current :: (c.relabel ρ).ahead =
      (c.current :: c.ahead).map (·.relabel ρ) := rfl
  dsimp only [nth]
  rw [hmap, length_ahead_relabel, current_relabel, List.getD_eq_getElem?_getD,
    List.getD_eq_getElem?_getD, List.getElem?_map]
  cases (c.current :: c.ahead)[min n c.ahead.length]? <;> rfl

theorem bump_relabel : (c.relabel ρ).bump = (c.bump.1.relabel ρ, c.bump.2.relabel ρ) := by
  unfold bump
  rw [isAt_relabel]
  split
  · rfl
  · obtain ⟨index, current, ahead⟩ := c
    cases ahead <;> rfl

theorem eat_relabel (kind : TokenKind) :
    (c.relabel ρ).eat kind = ((c.eat kind).1, (c.eat kind).2.relabel ρ) := by
  unfold eat
  rw [isAt_relabel, bump_relabel]
  split <;> rfl

theorem ofTokens?_relabel (ts : List Token) :
    ofTokens? (ts.map (·.relabel ρ)) = (ofTokens? ts).map (·.relabel ρ) := by
  cases ts with
  | nil => rfl
  | cons t rest =>
    have hlast : ((t :: rest).map (·.relabel ρ)).getLast?.map (·.kind) =
        (t :: rest).getLast?.map (·.kind) := by
      rw [List.getLast?_map, Option.map_map]
      rfl
    rw [List.map_cons] at hlast ⊢
    simp only [ofTokens?, hlast]
    split <;> rfl

end Cursor

/-! ### Tables of a draft -/

namespace Relabelling

theorem name_beq (a b : String) : (ρ.name a == ρ.name b) = (a == b) := by
  rw [Bool.eq_iff_iff, beq_iff_eq, beq_iff_eq]
  exact ρ.name_injective.eq_iff

theorem literal_beq (a b : Literal) : (a.relabel ρ == b.relabel ρ) = (a == b) := by
  rw [Bool.eq_iff_iff, beq_iff_eq, beq_iff_eq]
  exact (Literal.relabel_injective ρ).eq_iff

end Relabelling

namespace Draft

variable (d : Draft)

theorem variableNamed_relabel (name : String) :
    (d.relabel ρ).variableNamed (ρ.name name) = (d.variableNamed name).map (·.relabel ρ) := by
  rw [variableNamed, relabel, List.find?_map]
  congr 2
  funext v
  exact ρ.name_beq v.name name

theorem declareVariable_relabel (v : Variable) : (d.relabel ρ).declareVariable (v.relabel ρ) =
    ((d.declareVariable v).1, (d.declareVariable v).2.relabel ρ) := by
  have hkey : ∀ a b : Variable, ((a.relabel ρ).name == (b.relabel ρ).name) = (a.name == b.name) :=
    fun a b => ρ.name_beq a.name b.name
  simp only [declareVariable, relabel, any_map hkey, addNew_map hkey]

theorem declareStep_relabel (s : Step) : (d.relabel ρ).declareStep (s.relabel ρ) =
    ((d.declareStep s).1, (d.declareStep s).2.relabel ρ) := by
  have hkey : ∀ a b : Step, ((a.relabel ρ).id == (b.relabel ρ).id) = (a.id == b.id) :=
    fun a b => ρ.literal_beq a.id b.id
  simp only [declareStep, relabel, any_map hkey, addNew_map hkey]

theorem useVariable_relabel (name : String) (p : Position) :
    (d.relabel ρ).useVariable (ρ.name name) (ρ.place p) = (d.useVariable name p).relabel ρ := by
  have hkey : ∀ a b : Reference String,
      ((a.relabel ρ ρ.name).id == (b.relabel ρ ρ.name).id) = (a.id == b.id) :=
    fun a b => ρ.name_beq a.id b.id
  have hadd := addNew_map hkey ⟨name, p⟩ d.variableRefs
  simp only [useVariable, relabel, ← hadd]
  rfl

theorem useStep_relabel (id : Literal) (p : Position) :
    (d.relabel ρ).useStep (id.relabel ρ) (ρ.place p) = (d.useStep id p).relabel ρ := by
  have hkey : ∀ a b : Reference Literal, ((a.relabel ρ (·.relabel ρ)).id ==
      (b.relabel ρ (·.relabel ρ)).id) = (a.id == b.id) :=
    fun a b => ρ.literal_beq a.id b.id
  have hadd := addNew_map hkey ⟨id, p⟩ d.stepRefs
  simp only [useStep, relabel, ← hadd]
  rfl

theorem error_relabel (x : Diagnostic) :
    (d.relabel ρ).error (x.relabel ρ) = (d.error x).relabel ρ := by
  simp [error, relabel]

theorem usesVariable_relabel (name : String) :
    (d.relabel ρ).usesVariable (ρ.name name) = d.usesVariable name := by
  simp only [usesVariable, relabel, List.any_map]
  congr 1
  funext r
  exact ρ.name_beq r.id name

theorem usesStep_relabel (id : Literal) :
    (d.relabel ρ).usesStep (id.relabel ρ) = d.usesStep id := by
  simp only [usesStep, relabel, List.any_map]
  congr 1
  funext r
  exact ρ.literal_beq r.id id

theorem any_stepDecls_relabel (id : Literal) :
    (d.relabel ρ).stepDecls.any (·.id == id.relabel ρ) = d.stepDecls.any (·.id == id) := by
  simp only [relabel, List.any_map]
  congr 1
  funext s
  exact ρ.literal_beq s.id id

/-- Warnings on relabelled records are relabelled, if the same records are picked. -/
theorem map_filter_relabel {α : Type} {f : α → α} {p p' : α → Bool} {warning : α → Diagnostic}
    (hpick : ∀ a, p' (f a) = p a) (hwarning : ∀ a, warning (f a) = (warning a).relabel ρ)
    (l : List α) : ((l.map f).filter p').map warning =
      ((l.filter p).map warning).map (·.relabel ρ) := by
  simp only [List.filter_map, List.map_map, Function.comp_def, hpick, hwarning]

theorem findings_relabel (o : CheckOptions) :
    (d.relabel ρ).findings o = (d.findings o).map (·.relabel ρ) := by
  have hvariables : (d.relabel ρ).unusedVariables = d.unusedVariables.map (·.relabel ρ) :=
    map_filter_relabel ρ (fun v : Variable => congrArg not (d.usesVariable_relabel ρ v.name))
      (fun _ => rfl) d.variableDecls
  have hsteps : (d.relabel ρ).unusedSteps = d.unusedSteps.map (·.relabel ρ) :=
    map_filter_relabel ρ (fun s : Step => congrArg not (d.usesStep_relabel ρ s.id))
      (fun _ => rfl) d.stepDecls
  have hundeclared : (d.relabel ρ).undeclaredSteps = d.undeclaredSteps.map (·.relabel ρ) :=
    map_filter_relabel ρ (fun r : Reference Literal => congrArg not (d.any_stepDecls_relabel ρ r.id))
      (fun _ => rfl) d.stepRefs
  simp only [findings, hvariables, hsteps, hundeclared, List.map_append]
  cases o.unusedVariables <;> cases o.unusedSteps <;> cases o.undeclaredSteps <;> rfl

theorem warned_relabel (xs : List Diagnostic) :
    (d.relabel ρ).warned (xs.map (·.relabel ρ)) = (d.warned xs).relabel ρ := by
  simp [warned, relabel]

end Draft

/-! ### Compiled schemes -/

namespace CompiledScheme

theorem relabel_ofDraft (text : String) (tokens : List Token) (scanned : List Diagnostic)
    (d : Draft) : (ofDraft text tokens scanned d).relabel ρ =
      ofDraft text (tokens.map (·.relabel ρ)) (scanned.map (·.relabel ρ)) (d.relabel ρ) := by
  simp [ofDraft, relabel, Draft.relabel]

/-- Which step has the least number is not a matter of places. -/
theorem entryStep_relabel_moving (f : Position → Position) (c : CompiledScheme) :
    (c.relabel (.moving f)).entryStep = c.entryStep.map (·.map (·.relabel (.moving f))) := by
  have hids : (c.relabel (.moving f)).stepDecls.map (·.id) = c.stepDecls.map (·.id) := by
    rw [relabel, List.map_map]
    exact List.map_congr_left fun s _ => s.id.relabel_moving f
  have hnumbered : ∀ id, (c.relabel (.moving f)).stepNumbered id =
      (c.stepNumbered id).map (·.relabel (.moving f)) := by
    intro id
    rw [stepNumbered, relabel, List.find?_map]
    congr 2
    funext s
    exact congrArg (· == id) (s.id.relabel_moving f)
  rw [entryStep, entryStep, hids]
  cases c.stepDecls.map (·.id) with
  | nil => rfl
  | cons id rest =>
    cases hleast : leastFrom id rest with
    | error unordered => simp [hleast, Except.map]
    | ok least => simp [hleast, Except.map, hnumbered]

end CompiledScheme

end StepMachine
