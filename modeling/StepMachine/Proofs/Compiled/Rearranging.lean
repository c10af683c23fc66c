import Mathlib.Data.List.Perm.Basic
import StepMachine.Proofs.Compiled.Entry
import StepMachine.Proofs.Compiled.Run

/-! # Declarations in another order

The tokens of a scheme without errors are cut into those of its variables and those of its steps.
When the variables change places among themselves and the steps do, the tokens are cut accordingly:
where a step leaves out its fallback, either the next step or the end comes next wherever it
stands. What is declared and used stays the same, so the checks find the same as before, except
that an undeclared step may be found at another of its uses.
-/
namespace StepMachine

/-! ### Blocks of tokens -/

/-- One variable after another passes the blocks `vs`, and then one step after another `ss`, up to
the end. -/
def IsCut (tokens : List Token) (vs ss : List (List Token)) : Prop :=
  ∃ start middle finish, ParseState.ofTokens tokens = .ok start ∧
    Parse.Blocks (·.isAt .name) Parse.variableDeclaration start vs middle ∧
    Parse.Blocks (·.isAt .openParen) Parse.stepDeclaration middle ss finish ∧
    finish.cursor.isAt .eof = true

variable {tokens : List Token}

theorem IsCut.unique {vs vs' ss ss' : List (List Token)} (h : IsCut tokens vs ss)
    (h' : IsCut tokens vs' ss') : vs' = vs ∧ ss' = ss := by
  obtain ⟨start, middle, finish, hstart, hvs, hss, -⟩ := h
  obtain ⟨start', middle', finish', hstart', hvs', hss', -⟩ := h'
  obtain rfl : start = start' := Except.ok.inj (hstart.symm.trans hstart')
  obtain ⟨rfl, rfl⟩ := hvs.unique hvs'
  exact ⟨rfl, (hss.unique hss').1⟩

namespace SchemePhrase

variable (g : SchemePhrase)

def variableBlocks : List (List Token) := g.bindings.map VariablePhrase.tokens

def stepBlocks : List (List Token) := g.steps.map StepPhrase.tokens

theorem tokens_eq_flatten : g.tokens = g.variableBlocks.flatten ++ g.stepBlocks.flatten := by
  rw [tokens, List.flatMap_def, List.flatMap_def]
  rfl

variable {g}

theorem isCut (hend : EndsInEnd tokens) (hdecoded : ∀ t ∈ tokens, t.IsDecoded)
    (hg : g.tokens = beforeEnd tokens) : IsCut tokens g.variableBlocks g.stepBlocks := by
  obtain ⟨c, e, hstart, -, hc, hp, he, -⟩ := exists_read hend hdecoded hg
  obtain ⟨m, hbindings, hsteps⟩ := hp.split
  have hat : Parse.AtSteps m g.steps := ⟨e, hsteps, he⟩
  have hname : m.isAt .name = false := hat.isAt_eq_false (by decide) (by decide)
  exact ⟨_, _, _, hstart, Parse.variableBlocks_read hc hbindings hname,
    Parse.stepBlocks_read (hc.of_passes hbindings) hsteps he, he⟩

end SchemePhrase

/-! ### Derivations -/

/-- The same variables and the same steps, in whatever order. -/
structure SchemePhrase.Rearranges (g' g : SchemePhrase) : Prop where
  bindings : g'.bindings.Perm g.bindings
  steps : g'.steps.Perm g.steps

theorem exists_map_of_perm_map {α β : Type} {f : α → β} {l : List α} {m : List β}
    (h : m.Perm (l.map f)) : ∃ l' : List α, l'.Perm l ∧ m = l'.map f := by
  have hcomp : Relation.Comp (· = List.map f ·) List.Perm m l := by
    rw [List.eq_map_comp_perm]
    exact h
  obtain ⟨l', hmap, hperm⟩ := hcomp
  exact ⟨l', hperm, hmap⟩

theorem SchemePhrase.exists_rearranged {g : SchemePhrase} {vs ss : List (List Token)}
    (hvs : vs.Perm g.variableBlocks) (hss : ss.Perm g.stepBlocks) :
    ∃ g' : SchemePhrase, g'.Rearranges g ∧ g'.variableBlocks = vs ∧ g'.stepBlocks = ss := by
  obtain ⟨bindings, hbindings, rfl⟩ := exists_map_of_perm_map hvs
  obtain ⟨steps, hsteps, rfl⟩ := exists_map_of_perm_map hss
  exact ⟨⟨bindings, steps⟩, ⟨hbindings, hsteps⟩, rfl, rfl⟩

/-- A step asks the variables for those with certain names only. -/
theorem StepPhrase.step_congr {vars vars' : List Variable}
    (h : ∀ name, vars'.find? (·.name == name) = vars.find? (·.name == name)) (g : StepPhrase) :
    g.step vars' = g.step vars := by
  have hcondition : ∀ f : ConditionPhrase, f.condition vars' = f.condition vars := by
    intro f
    cases f with
    | name word => rw [ConditionPhrase.condition, h, ConditionPhrase.condition]
    | _ => rfl
  have haction : ∀ a : ActionPhrase, a.action vars' = a.action vars := by
    intro a
    rw [ActionPhrase.action, hcondition, ActionPhrase.action]
  simp only [step, haction]

/-! ### What stays the same -/

/-- The same reports in whatever order, except that an undeclared step may be reported at another
place. -/
def SameReports (l l' : List Diagnostic) : Prop :=
  ∃ m, m.Perm l ∧ List.Forall₂ (fun x y => x = y ∨
    ∃ id, x.cause = .undeclaredStep id ∧ y.cause = .undeclaredStep id) m l'

namespace SameReports

variable {l l' m m' : List Diagnostic}

theorem nil : SameReports [] [] := ⟨[], .refl _, .nil⟩

theorem of_perm (h : l'.Perm l) : SameReports l l' :=
  ⟨l', h, List.forall₂_same.mpr fun _ _ => .inl rfl⟩

theorem of_causes (hp : (l'.map (·.cause)).Perm (l.map (·.cause)))
    (hl : ∀ x ∈ l, ∃ id, x.cause = .undeclaredStep id) : SameReports l l' := by
  obtain ⟨m, hm, heq⟩ := exists_map_of_perm_map hp
  have hpairs := forall₂_of_map_eq heq.symm
  have hm' : ∀ x ∈ m, ∃ id, x.cause = .undeclaredStep id := fun x hx => hl x (hm.mem_iff.mp hx)
  refine ⟨m, hm, ((List.forall₂_and_left _ _).mpr ⟨hm', hpairs⟩).imp ?_⟩
  rintro x y ⟨⟨id, hx⟩, hxy⟩
  exact .inr ⟨id, hx, hxy ▸ hx⟩

theorem append (h : SameReports l l') (k : SameReports m m') :
    SameReports (l ++ m) (l' ++ m') := by
  obtain ⟨p, hp, hl⟩ := h
  obtain ⟨q, hq, hm⟩ := k
  exact ⟨p ++ q, hp.append hq, List.rel_append hl hm⟩

theorem ite (h : SameReports l l') (b : Bool) :
    SameReports (if b then l else []) (if b then l' else []) := by
  cases b with
  | false => exact nil
  | true => exact h

end SameReports

/-- Both drafts declare the same and use the same, and the checks find the same in them. -/
structure Draft.AgreesWith (d' d : Draft) : Prop where
  variableDecls : d'.variableDecls.Perm d.variableDecls
  stepDecls : d'.stepDecls.Perm d.stepDecls
  variableNamed : ∀ name, d'.variableNamed name = d.variableNamed name
  stepNumbered : ∀ id, d'.stepNumbered id = d.stepNumbered id
  usesVariable : ∀ name, d'.usesVariable name = d.usesVariable name
  usesStep : ∀ id, d'.usesStep id = d.usesStep id
  entryStep : ∀ (text text' : String) (tokens tokens' : List Token)
    (scanned scanned' : List Diagnostic), ∃ entry,
    (CompiledScheme.ofDraft text' tokens' scanned' d').entryStep = .ok entry ∧
      (CompiledScheme.ofDraft text tokens scanned d).entryStep = .ok entry
  checks : ∀ o, (d.checkReferences o).1 = .ok () ∧ (d'.checkReferences o).1 = .ok ()
  warnings : ∀ o, SameReports (d.checkReferences o).2.warnings (d'.checkReferences o).2.warnings
  undeclared : ∀ o, ∀ x ∈ (d'.checkReferences o).2.warnings, ∀ id,
    x.cause = .undeclaredStep id → ∃ s ∈ d.stepDecls, .step id x.position ∈ s.targets

namespace SchemePhrase

variable {g g' : SchemePhrase}

namespace IsClean

theorem of_rearranges (h : g.IsClean) (hr : g'.Rearranges g) : g'.IsClean := by
  refine ⟨(hr.bindings.map _).nodup_iff.mpr h.names, (hr.steps.map _).nodup_iff.mpr h.numbers, ?_⟩
  intro s hs use huse
  obtain ⟨b, hb, hname⟩ := h.declared s (hr.steps.mem_iff.mp hs) use huse
  exact ⟨b, hr.bindings.mem_iff.mpr hb, hname⟩

variable (h : g.IsClean) (hr : g'.Rearranges g)
include h hr

theorem variableDecls_perm : g'.variableDecls.Perm g.variableDecls := by
  rw [(h.of_rearranges hr).variableDecls_eq, h.variableDecls_eq]
  exact hr.bindings.map _

theorem find?_variableDecls (name : String) :
    g'.variableDecls.find? (·.name == name) = g.variableDecls.find? (·.name == name) := by
  refine find?_eq_of_perm (h.variableDecls_perm hr) ?_ name
  rw [variableDecls]
  exact nodup_firstOnly ..

/-- Wherever a step stands, its conditions are bound to the same variables. -/
theorem stepDecls_perm : g'.draft.stepDecls.Perm g.draft.stepDecls := by
  have hstep : ∀ s : StepPhrase, s.step g'.variableDecls = s.step g.variableDecls :=
    fun s => s.step_congr (h.find?_variableDecls hr)
  rw [(h.of_rearranges hr).stepDecls_eq, h.stepDecls_eq]
  simp only [hstep]
  exact hr.steps.map _

theorem find?_stepDecls (id : Literal) :
    g'.draft.stepDecls.find? (·.id == id) = g.draft.stepDecls.find? (·.id == id) :=
  find?_eq_of_perm (h.stepDecls_perm hr) (nodup_firstOnly ..) id

theorem usesVariable_eq (name : String) :
    g'.draft.usesVariable name = g.draft.usesVariable name := by
  rw [Draft.usesVariable, Draft.usesVariable, (h.of_rearranges hr).variableRefs_eq,
    h.variableRefs_eq, any_firstOnly, any_firstOnly]
  exact (hr.steps.flatMap_right _).any_eq

omit h in
theorem usesStep_eq (id : Literal) : g'.draft.usesStep id = g.draft.usesStep id := by
  rw [Draft.usesStep, Draft.usesStep, draft, draft, any_firstOnly, any_firstOnly]
  exact (hr.steps.flatMap_right _).any_eq

theorem unusedVariables_perm : g'.draft.unusedVariables.Perm g.draft.unusedVariables := by
  have hfree : (fun v : Variable => !g'.draft.usesVariable v.name) =
      fun v => !g.draft.usesVariable v.name := by
    funext v
    rw [h.usesVariable_eq hr]
  rw [Draft.unusedVariables, Draft.unusedVariables, hfree]
  exact ((h.variableDecls_perm hr).filter _).map _

theorem unusedSteps_perm : g'.draft.unusedSteps.Perm g.draft.unusedSteps := by
  have hfree : (fun s : Step => !g'.draft.usesStep s.id) = fun s => !g.draft.usesStep s.id := by
    funext s
    rw [usesStep_eq hr]
  rw [Draft.unusedSteps, Draft.unusedSteps, hfree]
  exact ((h.stepDecls_perm hr).filter _).map _

/-- The same numbers are used and not declared, but the first use of each may be another one. -/
theorem undeclaredSteps_same :
    SameReports g.draft.undeclaredSteps g'.draft.undeclaredSteps := by
  -- a table keeps the first use of each number, so only the places can differ
  have hcauses : ∀ f : SchemePhrase, f.draft.undeclaredSteps.map (·.cause) =
      ((f.draft.stepRefs.map (·.id)).filter fun id => !f.draft.stepDecls.any (·.id == id)).map
        .undeclaredStep := by
    intro f
    rw [Draft.undeclaredSteps, List.map_map, List.filter_map, List.map_map]
    rfl
  have hnone : (fun id => !g'.draft.stepDecls.any (·.id == id)) =
      fun id => !g.draft.stepDecls.any (·.id == id) := by
    funext id
    rw [(h.stepDecls_perm hr).any_eq]
  have hperm : (g'.draft.undeclaredSteps.map (·.cause)).Perm
      (g.draft.undeclaredSteps.map (·.cause)) := by
    rw [hcauses, hcauses, hnone]
    exact ((firstOnly_keys_perm (hr.steps.flatMap_right _)).filter _).map _
  refine .of_causes hperm ?_
  intro x hx
  obtain ⟨r, -, rfl⟩ := List.mem_map.mp hx
  exact ⟨r.id, rfl⟩

theorem findings_same (o : CheckOptions) :
    SameReports (g.draft.findings o) (g'.draft.findings o) := by
  have hvariables := (SameReports.of_perm (h.unusedVariables_perm hr)).ite o.unusedVariables
  have hsteps := (SameReports.of_perm (h.unusedSteps_perm hr)).ite o.unusedSteps
  have hundeclared := (h.undeclaredSteps_same hr).ite o.undeclaredSteps
  exact (hvariables.append hsteps).append hundeclared

/-- An undeclared step is reported where one of the steps leads to it. -/
theorem exists_target {o : CheckOptions} {x : Diagnostic} {id : Literal}
    (hx : x ∈ g'.draft.findings o) (hid : x.cause = .undeclaredStep id) :
    ∃ s ∈ g.draft.stepDecls, .step id x.position ∈ s.targets := by
  rcases Draft.mem_findings_iff.mp hx with
    ⟨-, v, -, -, rfl⟩ | ⟨-, s, -, -, rfl⟩ | ⟨-, r, hr', -, rfl⟩
  · cases hid
  · cases hid
  · cases hid
    obtain ⟨s, hs, huse⟩ := List.mem_flatMap.mp (mem_of_mem_firstOnly _ hr')
    refine ⟨s.step g.variableDecls, ?_, s.mem_targets_of_mem_stepUses _ huse⟩
    rw [h.stepDecls_eq]
    exact List.mem_map_of_mem (hr.steps.mem_iff.mp hs)

theorem agreesWith (hn : g.draft.HasNumbers) (hn' : g'.draft.HasNumbers) :
    g'.draft.AgreesWith g.draft where
  variableDecls := h.variableDecls_perm hr
  stepDecls := h.stepDecls_perm hr
  variableNamed := h.find?_variableDecls hr
  stepNumbered := h.find?_stepDecls hr
  usesVariable := h.usesVariable_eq hr
  usesStep := usesStep_eq hr
  entryStep := by
    intro text text' tokens tokens' scanned scanned'
    refine CompiledScheme.entryStep_congr (h.stepDecls_perm hr) (h.find?_stepDecls hr) ?_
    intro s hs
    obtain ⟨n, hid, -⟩ := hn s.id (.inl (List.mem_map_of_mem hs))
    exact ⟨n, hid⟩
  checks := by
    intro o
    rw [hn.checkReferences_eq, hn'.checkReferences_eq]
    exact ⟨rfl, rfl⟩
  warnings := by
    intro o
    rw [hn.checkReferences_eq, hn'.checkReferences_eq]
    exact h.findings_same hr o
  undeclared := by
    intro o x hx id hid
    rw [hn'.checkReferences_eq] at hx
    exact h.exists_target hr hx hid

end IsClean

end SchemePhrase

/-! ### Schemes -/

theorem Token.isDecoded_of_eof {t : Token} (h : t.kind = .eof) : t.IsDecoded := by
  simp [IsDecoded, isValid, h]

theorem SchemePhrase.Rearranges.mem_tokens {g g' : SchemePhrase} (h : g'.Rearranges g) {t : Token}
    (ht : t ∈ g'.tokens) : t ∈ g.tokens := by
  simp only [tokens, List.mem_append, List.mem_flatMap] at ht ⊢
  rcases ht with ⟨v, hv, ht⟩ | ⟨s, hs, ht⟩
  · exact .inl ⟨v, h.bindings.mem_iff.mp hv, ht⟩
  · exact .inr ⟨s, h.steps.mem_iff.mp hs, ht⟩

/-- Tokens that are read without errors can be cut into variables and steps, in one way, and
whatever order these are brought into, the tokens are read without errors as the same. -/
theorem rearranged_agrees (hdecoded : ∀ t ∈ tokens, t.IsDecoded) {d : Draft}
    (hd : Draft.ofTokens tokens = .ok d) (hnone : d.errors = []) :
    (∃ vs ss, IsCut tokens vs ss) ∧ ∀ vs ss, IsCut tokens vs ss →
      beforeEnd tokens = vs.flatten ++ ss.flatten ∧
      ∀ (vs' ss' : List (List Token)) (t : Token), vs'.Perm vs → ss'.Perm ss → t.kind = .eof →
        ∃ d', Draft.ofTokens (vs'.flatten ++ ss'.flatten ++ [t]) = .ok d' ∧ d'.errors = [] ∧
          IsCut (vs'.flatten ++ ss'.flatten ++ [t]) vs' ss' ∧ d'.AgreesWith d := by
  have hend := endsInEnd_of_ofTokens hd
  obtain ⟨g, hg, rfl, hclean⟩ := exists_clean hend hdecoded hd hnone
  have hcut := g.isCut hend hdecoded hg
  refine ⟨⟨_, _, hcut⟩, ?_⟩
  intro vs ss hvs
  obtain ⟨rfl, rfl⟩ := hcut.unique hvs
  refine ⟨by rw [← hg, g.tokens_eq_flatten], ?_⟩
  intro vs' ss' t hvs' hss' ht
  -- another order of the blocks is the derivation with its phrases in that order
  obtain ⟨g', hr, rfl, rfl⟩ := SchemePhrase.exists_rearranged hvs' hss'
  rw [← g'.tokens_eq_flatten]
  have hend' : EndsInEnd (g'.tokens ++ [t]) := by simp [EndsInEnd, ht]
  have hg' : g'.tokens = beforeEnd (g'.tokens ++ [t]) :=
    (beforeEnd_concat (fun u hu => (g'.isLeaf u hu).kind_ne_eof) ht).symm
  have hdecoded' : ∀ u ∈ g'.tokens ++ [t], u.IsDecoded := by
    intro u hu
    rcases List.mem_append.mp hu with hu | hu
    · have hmem : u ∈ beforeEnd tokens := hg ▸ hr.mem_tokens hu
      exact hdecoded u ((List.takeWhile_prefix _).subset hmem)
    · rw [List.mem_singleton.mp hu]
      exact Token.isDecoded_of_eof ht
  obtain ⟨_, _, hstart, -, -, -, -, hread⟩ := SchemePhrase.exists_read hend' hdecoded' hg'
  have hd' := ofTokens_eq_of_scheme hstart hread
  have hagrees := hclean.agreesWith hr (hasNumbers_of_ofTokens hdecoded hd)
    (hasNumbers_of_ofTokens hdecoded' hd')
  exact ⟨g'.draft, hd', SchemePhrase.errors_eq_nil_iff.mpr (hclean.of_rearranges hr),
    g'.isCut hend' hdecoded' hg', hagrees⟩

/-- `a:"x"b:"y"(2):a?(1)*?[t](1):b?(2)(2)`, where the first step leaves out its fallback. -/
def crossedSteps : SchemePhrase where
  bindings := [
    ⟨.onFirstLine .name "a" 0 none, .onFirstLine .colon ":" 1 none,
      .text (.onFirstLine .string "\"x\"" 2 (some (.text "x")))⟩,
    ⟨.onFirstLine .name "b" 5 none, .onFirstLine .colon ":" 6 none,
      .text (.onFirstLine .string "\"y\"" 7 (some (.text "y")))⟩]
  steps := [
    ⟨.onFirstLine "2" 10 2, .onFirstLine .colon ":" 13 none,
      [⟨.name (.onFirstLine .name "a" 14 none), .onFirstLine .question "?" 15 none,
        .step (.onFirstLine "1" 16 1)⟩],
      .wildcard (.onFirstLine .star "*" 19 none) (.onFirstLine .question "?" 20 none)
        (.token none (.onFirstLine .openBracket "[" 21 none)
          (.name (.onFirstLine .name "t" 22 none)) (.onFirstLine .closeBracket "]" 23 none))⟩,
    ⟨.onFirstLine "1" 24 1, .onFirstLine .colon ":" 27 none,
      [⟨.name (.onFirstLine .name "b" 28 none), .onFirstLine .question "?" 29 none,
        .step (.onFirstLine "2" 30 2)⟩],
      .fallback (.step (.onFirstLine "2" 33 2))⟩]

def crossedEnd : Token := ⟨.eof, "", ⟨1, 37, 36⟩, none, false⟩

theorem crossedSteps_rearranged : ∃ d d',
    Draft.ofTokens (crossedSteps.tokens ++ [crossedEnd]) = .ok d ∧ d.errors = [] ∧
    Draft.ofTokens (crossedSteps.variableBlocks.reverse.flatten ++
      crossedSteps.stepBlocks.reverse.flatten ++ [crossedEnd]) = .ok d' ∧ d'.errors = [] ∧
    d.stepDecls.map (·.id) = [.number 2, .number 1] ∧ d'.AgreesWith d := by
  have hend : EndsInEnd (crossedSteps.tokens ++ [crossedEnd]) := by decide
  have hdecoded : ∀ t ∈ crossedSteps.tokens ++ [crossedEnd], t.IsDecoded := by
    simp [crossedEnd, crossedSteps, SchemePhrase.tokens, VariablePhrase.tokens, ValuePhrase.token,
      StepPhrase.tokens, StepIdPhrase.tokens, StepPhrase.allActions, StepEnd.lastAction,
      StepEnd.tokens, ActionPhrase.tokens, ConditionPhrase.token, TargetPhrase.tokens,
      TokenNamePhrase.token, Terminal.onFirstLine, StepIdPhrase.onFirstLine, Token.IsDecoded,
      Token.isValid, Text.isWritable_of_le (n := 1) (by decide),
      Text.isWritable_of_le (n := 2) (by decide)]
  have hspells : crossedSteps.tokens = beforeEnd (crossedSteps.tokens ++ [crossedEnd]) := by
    decide
  obtain ⟨_, _, hstart, -, -, -, -, hread⟩ := crossedSteps.exists_read hend hdecoded hspells
  have hd : Draft.ofTokens (crossedSteps.tokens ++ [crossedEnd]) = .ok crossedSteps.draft :=
    ofTokens_eq_of_scheme hstart hread
  have hnone : crossedSteps.draft.errors = [] := by decide
  obtain ⟨-, hcut⟩ := rearranged_agrees hdecoded hd hnone
  obtain ⟨d', hd', hnone', -, hagrees⟩ := (hcut _ _ (crossedSteps.isCut hend hdecoded hspells)).2
    _ _ crossedEnd (List.reverse_perm _) (List.reverse_perm _) rfl
  exact ⟨_, d', hd, hnone, hd', hnone', by decide, hagrees⟩

end StepMachine
