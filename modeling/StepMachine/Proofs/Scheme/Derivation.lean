import Mathlib.Data.List.Basic
import Mathlib.Logic.Function.Basic
import StepMachine.Token

/-! # Derivations of schemes

A derivation in the grammar of schemes is a tree of phrases whose leaves are tokens. A name or a
mark stands in it by its kind alone; a literal must not be damaged. The tokens of the leaves, read
from left to right, are what the derivation spells. No two derivations spell the same tokens: a
number in parentheses after an action on `*` is the next step's if a colon follows it, and the
fallback if none does.
-/
namespace StepMachine

/-- Literals are what a token may fail to stand for by damage. -/
def TokenKind.isLiteral : TokenKind → Bool
  | number | string | pattern => true
  | _ => false

/-- The token may stand where the grammar asks for the kind. -/
def Token.standsFor (t : Token) (kind : TokenKind) : Bool :=
  t.kind == kind && !(kind.isLiteral && t.invalid)

/-- The kinds that the grammar asks for. -/
def TokenKind.isTerminal : TokenKind → Bool
  | eof | unknown => false
  | _ => true

/-- The token may be a leaf of a derivation. -/
def Token.IsLeaf (t : Token) : Prop := t.kind.isTerminal = true ∧ t.standsFor t.kind = true

theorem Token.IsLeaf.kind_ne_eof {t : Token} (h : t.IsLeaf) : t.kind ≠ .eof := by
  intro he
  simpa [he, TokenKind.isTerminal] using h.1

/-- A leaf of a derivation. -/
@[ext] structure Terminal (kind : TokenKind) where
  token : Token
  stands : token.standsFor kind = true

namespace Terminal

variable {kind kind' : TokenKind}

@[simp] theorem kind_eq (t : Terminal kind) : t.token.kind = kind := by
  have h := t.stands
  simp only [Token.standsFor, Bool.and_eq_true, beq_iff_eq] at h
  exact h.1

@[simp] theorem isLeaf_token (t : Terminal kind) : t.token.IsLeaf ↔ kind.isTerminal = true := by
  simp [Token.IsLeaf, t.stands]

theorem isValid (t : Terminal kind) (hl : kind.isLiteral = true) :
    t.token.isValid kind = true := by
  have h := t.stands
  simpa [Token.standsFor, Token.isValid, hl] using h

@[simp] theorem token_inj {t u : Terminal kind} : t.token = u.token ↔ t = u :=
  Terminal.ext_iff.symm

theorem token_ne (t : Terminal kind) (u : Terminal kind') (h : kind ≠ kind') :
    t.token ≠ u.token := by
  intro e
  exact h (t.kind_eq.symm.trans ((congrArg Token.kind e).trans u.kind_eq))

end Terminal

/-! ### Phrases -/

/-- `'(' number ')'` -/
structure StepIdPhrase where
  opening : Terminal .openParen
  number : Terminal .number
  closing : Terminal .closeParen

/-- `string | name` -/
inductive TokenNamePhrase where
  | text (literal : Terminal .string)
  | name (word : Terminal .name)

/-- `stepId | '!'? '[' (string | name) ']'` -/
inductive TargetPhrase where
  | step (id : StepIdPhrase)
  | token (bang : Option (Terminal .bang)) (opening : Terminal .openBracket)
      (name : TokenNamePhrase) (closing : Terminal .closeBracket)

/-- `name | string | pattern | '*'` -/
inductive ConditionPhrase where
  | name (word : Terminal .name)
  | text (literal : Terminal .string)
  | pattern (literal : Terminal .pattern)
  | wildcard (star : Terminal .star)

/-- `condition '?' target` -/
structure ActionPhrase where
  condition : ConditionPhrase
  question : Terminal .question
  target : TargetPhrase

/-- What ends a step: a fallback, or a last action on `*` that serves as one,
`target | '*' '?' target`. -/
inductive StepEnd where
  | fallback (target : TargetPhrase)
  | wildcard (star : Terminal .star) (question : Terminal .question) (target : TargetPhrase)

/-- `stepId ':' action* (target | '*' '?' target)` -/
structure StepPhrase where
  id : StepIdPhrase
  colon : Terminal .colon
  actions : List ActionPhrase
  ending : StepEnd

/-- `string | pattern` -/
inductive ValuePhrase where
  | text (literal : Terminal .string)
  | pattern (literal : Terminal .pattern)

/-- `name ':' (string | pattern)` -/
structure VariablePhrase where
  name : Terminal .name
  colon : Terminal .colon
  value : ValuePhrase

/-- `variable* step*` -/
structure SchemePhrase where
  bindings : List VariablePhrase
  steps : List StepPhrase

/-! ### Tokens -/

def StepIdPhrase.tokens (g : StepIdPhrase) : List Token :=
  [g.opening.token, g.number.token, g.closing.token]

def TokenNamePhrase.token : TokenNamePhrase → Token
  | text literal => literal.token
  | name word => word.token

def TargetPhrase.tokens : TargetPhrase → List Token
  | step id => id.tokens
  | token none opening name closing => [opening.token, name.token, closing.token]
  | token (some bang) opening name closing =>
    [bang.token, opening.token, name.token, closing.token]

def ConditionPhrase.token : ConditionPhrase → Token
  | name word => word.token
  | text literal => literal.token
  | pattern literal => literal.token
  | wildcard star => star.token

def ActionPhrase.tokens (g : ActionPhrase) : List Token :=
  g.condition.token :: g.question.token :: g.target.tokens

/-- The action that a step without a fallback ends in. -/
def StepEnd.lastAction : StepEnd → List ActionPhrase
  | fallback _ => []
  | wildcard star question target => [⟨.wildcard star, question, target⟩]

/-- The tokens of the fallback, if there is one. -/
def StepEnd.tokens : StepEnd → List Token
  | fallback target => target.tokens
  | wildcard .. => []

/-- All actions of the step, with the one that serves as its fallback. -/
def StepPhrase.allActions (g : StepPhrase) : List ActionPhrase :=
  g.actions ++ g.ending.lastAction

def StepPhrase.tokens (g : StepPhrase) : List Token :=
  g.id.tokens ++ g.colon.token ::
    (g.allActions.flatMap ActionPhrase.tokens ++ g.ending.tokens)

def ValuePhrase.token : ValuePhrase → Token
  | text literal => literal.token
  | pattern literal => literal.token

def VariablePhrase.tokens (g : VariablePhrase) : List Token :=
  [g.name.token, g.colon.token, g.value.token]

/-- What the derivation spells. -/
def SchemePhrase.tokens (g : SchemePhrase) : List Token :=
  g.bindings.flatMap VariablePhrase.tokens ++ g.steps.flatMap StepPhrase.tokens

/-! ### Kinds of first tokens -/

def conditionStarts : List TokenKind := [.name, .string, .pattern, .star]

def targetStarts : List TokenKind := [.openParen, .bang, .openBracket]

/-- A list of tokens does not begin with one of these kinds. -/
def NotStartedBy (kinds : List TokenKind) (ts : List Token) : Prop :=
  ∀ t ∈ ts.head?, t.kind ∉ kinds

theorem NotStartedBy.append {kinds : List TokenKind} {ts us : List Token}
    (ht : NotStartedBy kinds ts) (hu : NotStartedBy kinds us) : NotStartedBy kinds (ts ++ us) := by
  cases ts with
  | nil => exact hu
  | cons t ts => exact ht

theorem ConditionPhrase.kind_mem (g : ConditionPhrase) : g.token.kind ∈ conditionStarts := by
  cases g <;> simp [ConditionPhrase.token, conditionStarts]

theorem TargetPhrase.tokens_ne_nil (g : TargetPhrase) : g.tokens ≠ [] := by
  cases g with
  | step id => simp [tokens, StepIdPhrase.tokens]
  | token bang opening name closing => cases bang <;> simp [tokens]

theorem TargetPhrase.kind_mem (g : TargetPhrase) : ∀ t ∈ g.tokens.head?, t.kind ∈ targetStarts := by
  cases g with
  | step id => simp [tokens, StepIdPhrase.tokens, targetStarts]
  | token bang opening name closing => cases bang <;> simp [tokens, targetStarts]

/-- A list of steps is empty or opens a parenthesis with a number and a colon. -/
theorem steps_tokens_cases (gs : List StepPhrase) :
    gs.flatMap StepPhrase.tokens = [] ∨ ∃ (id : StepIdPhrase) (colon : Terminal .colon) (ts : _),
      gs.flatMap StepPhrase.tokens = id.tokens ++ colon.token :: ts := by
  cases gs with
  | nil => exact .inl rfl
  | cons g gs => exact .inr ⟨g.id, g.colon, _, by simp [StepPhrase.tokens]; rfl⟩

/-- No condition begins where the actions of a step end. -/
theorem StepEnd.not_condition (g : StepEnd) (gs : List StepPhrase) :
    NotStartedBy conditionStarts (g.tokens ++ gs.flatMap StepPhrase.tokens) := by
  intro t ht
  cases g with
  | fallback target =>
    have hk : t.kind ∈ targetStarts := target.kind_mem t (by
      rwa [tokens, List.head?_append_of_ne_nil _ target.tokens_ne_nil] at ht)
    simp only [targetStarts, List.mem_cons, List.not_mem_nil, or_false] at hk
    rcases hk with hk | hk | hk <;> simp [hk, conditionStarts]
  | wildcard star question target =>
    rw [tokens, List.nil_append] at ht
    rcases steps_tokens_cases gs with hn | ⟨id, colon, ts, hc⟩
    · simp [hn] at ht
    · rw [hc] at ht
      have ht : id.opening.token = t := by simpa [StepIdPhrase.tokens] using ht
      simp [← ht, conditionStarts]

theorem TargetPhrase.isLeaf (g : TargetPhrase) : ∀ t ∈ g.tokens, t.IsLeaf := by
  cases g with
  | step id => simp [tokens, StepIdPhrase.tokens, TokenKind.isTerminal]
  | token bang opening name closing =>
    cases bang <;> cases name <;> simp [tokens, TokenNamePhrase.token, TokenKind.isTerminal]

theorem ConditionPhrase.isLeaf (g : ConditionPhrase) : g.token.IsLeaf := by
  cases g <;> simp [token, TokenKind.isTerminal]

theorem ActionPhrase.isLeaf (g : ActionPhrase) : ∀ t ∈ g.tokens, t.IsLeaf := by
  simpa [tokens, g.condition.isLeaf, TokenKind.isTerminal] using g.target.isLeaf

theorem StepEnd.isLeaf (g : StepEnd) : ∀ t ∈ g.tokens, t.IsLeaf := by
  cases g with
  | fallback target => exact target.isLeaf
  | wildcard star question target => simp [tokens]

theorem StepPhrase.isLeaf (g : StepPhrase) : ∀ t ∈ g.tokens, t.IsLeaf := by
  intro t ht
  simp only [tokens, StepIdPhrase.tokens, List.mem_append, List.mem_cons, List.mem_flatMap,
    List.not_mem_nil, or_false] at ht
  rcases ht with (rfl | rfl | rfl) | rfl | ⟨a, _, hta⟩ | ht
  · simp [TokenKind.isTerminal]
  · simp [TokenKind.isTerminal]
  · simp [TokenKind.isTerminal]
  · simp [TokenKind.isTerminal]
  · exact a.isLeaf t hta
  · exact g.ending.isLeaf t ht

theorem VariablePhrase.isLeaf (g : VariablePhrase) : ∀ t ∈ g.tokens, t.IsLeaf := by
  cases hv : g.value <;> simp [tokens, hv, ValuePhrase.token, TokenKind.isTerminal]

/-- Every token of a derivation is a leaf, so none is one of the end. -/
theorem SchemePhrase.isLeaf (g : SchemePhrase) : ∀ t ∈ g.tokens, t.IsLeaf := by
  intro t ht
  simp only [tokens, List.mem_append, List.mem_flatMap] at ht
  rcases ht with ⟨v, _, htv⟩ | ⟨s, _, hts⟩
  · exact v.isLeaf t htv
  · exact s.isLeaf t hts

end StepMachine
