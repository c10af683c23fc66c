import StepMachine.Proofs.Compiled.Rearranging
import StepMachine.Proofs.Scheme.Calls

/-! # Omitted fallbacks written out

A step that ends in an action on `*` may leave out its fallback, and then the target of that action
serves as one. If the target is written once more behind the action, it is read as the fallback,
whatever follows: a number in parentheses is told from the next step's header by the colon that it
lacks. The draft stays the same, since the step leads where it led and a number that is used again
has its record already.
-/
namespace StepMachine

/-! ### Steps -/

/-- The target that serves as a fallback and is not written as one. -/
def StepEnd.omitted : StepEnd → List Token
  | fallback _ => []
  | wildcard _ _ target => target.tokens

/-- The step with a fallback that is written. -/
def StepPhrase.filled (g : StepPhrase) : StepPhrase where
  id := g.id
  colon := g.colon
  actions := g.allActions
  ending := .fallback g.ending.target

namespace StepPhrase

variable (g : StepPhrase)

@[simp] theorem allActions_filled : g.filled.allActions = g.allActions := List.append_nil _

theorem tokens_filled : g.filled.tokens = g.tokens ++ g.ending.omitted := by
  have htokens : g.ending.target.tokens = g.ending.tokens ++ g.ending.omitted := by
    cases g.ending with
    | fallback target => exact (List.append_nil _).symm
    | wildcard star question target => rfl
  have hfilled : g.filled.tokens = g.id.tokens ++ g.colon.token ::
      (g.filled.allActions.flatMap ActionPhrase.tokens ++ g.ending.target.tokens) := rfl
  rw [hfilled, allActions_filled, htokens, tokens]
  simp

theorem step_filled (vars : List Variable) : g.filled.step vars = g.step vars := by
  rw [step, allActions_filled, step]
  rfl

theorem nameUses_filled : g.filled.nameUses = g.nameUses := by
  rw [nameUses, allActions_filled, nameUses]

/-- What a fallback uses that was left out is used by the step anyway. -/
theorem stepUses_filled :
    ∃ again, g.filled.stepUses = g.stepUses ++ again ∧ again ⊆ g.stepUses := by
  obtain ⟨again, htargets, hagain⟩ := g.uses_targets []
  refine ⟨again, ?_, hagain⟩
  rw [← htargets, g.filterMap_targets, stepUses, allActions_filled]
  rfl

theorem addTo_filled (d : Draft) : g.filled.addTo d = g.addTo d := by
  obtain ⟨again, huses, hagain⟩ := g.stepUses_filled
  have hnote : d.note g.filled.nameUses g.filled.stepUses = d.note g.nameUses g.stepUses := by
    rw [g.nameUses_filled, huses, Draft.note, addAll_append_of_subset _ hagain, Draft.note]
  rw [addTo, hnote, g.step_filled, addTo]

end StepPhrase

/-! ### Schemes -/

variable {tokens : List Token}

namespace SchemePhrase

variable (g : SchemePhrase) (chosen : Nat → Bool)

/-- The chosen steps with their fallbacks written. -/
def fill : SchemePhrase where
  bindings := g.bindings
  steps := g.steps.mapIdx fun i s => if chosen i then s.filled else s

/-- The tokens of each step, and of the target that a chosen one leaves out. -/
def filledBlocks : List (List Token) :=
  g.steps.mapIdx fun i s => s.tokens ++ if chosen i then s.ending.omitted else []

/-- The tokens of a scheme, with what chosen steps leave out put in behind them. -/
def filledTokens (tokens : List Token) : List Token :=
  g.variableBlocks.flatten ++ (g.filledBlocks chosen).flatten ++ tokens.drop g.tokens.length

theorem stepBlocks_fill : (g.fill chosen).stepBlocks = g.filledBlocks chosen := by
  refine (List.mapIdx_eq_iff.mpr ?_).symm
  intro i
  rw [stepBlocks, fill, List.getElem?_map, List.getElem?_mapIdx, Option.map_map]
  congr 1
  funext s
  dsimp only [Function.comp]
  split
  · exact s.tokens_filled
  · exact (List.append_nil _).symm

theorem foldl_addTo_fill (gs : List StepPhrase) (d : Draft) :
    (gs.mapIdx fun i s => if chosen i then s.filled else s).foldl StepPhrase.addTo d =
      gs.foldl StepPhrase.addTo d := by
  induction gs generalizing chosen d with
  | nil => rfl
  | cons s gs ih =>
    rw [List.mapIdx_cons, List.foldl_cons, List.foldl_cons, ih (fun i => chosen (i + 1))]
    congr 1
    split
    · exact s.addTo_filled d
    · rfl

theorem draft_fill : (g.fill chosen).draft = g.draft := by
  rw [← draft_eq_foldl, ← draft_eq_foldl, fill, foldl_addTo_fill]

theorem filledTokens_eq : g.filledTokens chosen tokens =
    (g.fill chosen).tokens ++ tokens.drop g.tokens.length := by
  rw [tokens_eq_flatten, stepBlocks_fill]
  rfl

end SchemePhrase

/-! ### Fallbacks -/

/-- Behind these tokens the actions of a step have been read, and its fallback is read from the
tokens that come next. -/
def ReadsFallback (tokens before written : List Token) (target : Target) : Prop :=
  ∃ (start a u v : ParseState) (actions : List Action),
    ParseState.ofTokens tokens = .ok start ∧ start.Calls .actionList a ∧
    Parse.actionList a = (.done actions, u) ∧ start.cursor.Passes before u.cursor ∧
    Parse.fallback actions u = (.done target, v) ∧ u.cursor.Passes written v.cursor

/-- The fallback of a step is read behind its actions, after all steps before it. -/
theorem SchemePhrase.readsFallback {g : SchemePhrase} (hend : EndsInEnd tokens)
    (hdecoded : ∀ t ∈ tokens, t.IsDecoded) (hg : g.tokens = beforeEnd tokens) {i : Nat}
    {s : StepPhrase} (hs : g.steps[i]? = some s) :
    ReadsFallback tokens
      (g.variableBlocks.flatten ++ (g.stepBlocks.take i).flatten ++
        (s.id.tokens ++ s.colon.token :: s.allActions.flatMap ActionPhrase.tokens))
      s.ending.tokens s.ending.target.target := by
  obtain ⟨hi, rfl⟩ := List.getElem?_eq_some_iff.mp hs
  obtain ⟨c, -, hstart, -, hc, -⟩ := exists_read hend hdecoded hg
  obtain ⟨start, middle, finish, hstart', hvs, hss, he⟩ := g.isCut hend hdecoded hg
  obtain rfl : start = ⟨c, .empty⟩ := Except.ok.inj (hstart'.symm.trans hstart)
  have hblocks : g.stepBlocks = g.stepBlocks.take i ++ g.steps[i].tokens ::
      (g.steps.drop (i + 1)).map StepPhrase.tokens := by
    rw [← List.map_cons, ← List.drop_eq_getElem_cons hi, List.map_drop]
    exact (List.take_append_drop i _).symm
  rw [hblocks] at hss
  obtain ⟨m, n, hr, hbefore, ho, hp, hrest⟩ := hss.exists_item
  have hlist : Parse.variableList ⟨c, .empty⟩ = (.done (), middle) :=
    Parse.list_reads hvs (by simp [variableBlocks, VariablePhrase.tokens])
  have hat : Parse.AtSteps n.cursor (g.steps.drop (i + 1)) := ⟨finish.cursor, hrest.passes, he⟩
  have hreached := hvs.passes.trans hbefore
  obtain ⟨k, l, hid, hcolon, hactions, hfallback, hhead, hending⟩ :=
    Parse.step_parts (d := m.draft) (hc.of_passes hreached) hp hat
  have hexpect : Parse.expect .colon .colon ⟨k, m.draft⟩ = (.done (), ⟨k.next, m.draft⟩) := by
    rw [Parse.eq_done_iff]
    simp [hcolon]
  exact ⟨_, _, _, _, _, hstart, .actionList (.step (.stepList hlist) hr ho) hid hexpect, hactions,
    hreached.trans hhead, hfallback, hending⟩

/-! ### Tokens -/

theorem StepPhrase.omitted_subset (g : StepPhrase) : g.ending.omitted ⊆ g.tokens := by
  cases he : g.ending with
  | fallback target => exact List.nil_subset _
  | wildcard star question target =>
    have hlast : ⟨.wildcard star, question, target⟩ ∈ g.allActions := by
      simp [allActions, he, StepEnd.lastAction]
    intro t ht
    have haction : t ∈ g.allActions.flatMap ActionPhrase.tokens :=
      List.mem_flatMap.mpr ⟨_, hlast, List.mem_cons_of_mem _ (List.mem_cons_of_mem _ ht)⟩
    simp [tokens, haction]

theorem SchemePhrase.tokens_fill_subset (g : SchemePhrase) (chosen : Nat → Bool) :
    (g.fill chosen).tokens ⊆ g.tokens := by
  intro t ht
  rw [tokens_eq_flatten, stepBlocks_fill] at ht
  rw [tokens_eq_flatten]
  rcases List.mem_append.mp ht with ht | ht
  · exact List.mem_append_left _ ht
  · refine List.mem_append_right _ (List.mem_flatten.mpr ?_)
    obtain ⟨block, hblock, ht⟩ := List.mem_flatten.mp ht
    obtain ⟨i, hi, rfl⟩ := List.mem_mapIdx.mp hblock
    refine ⟨_, List.mem_map_of_mem (List.getElem_mem hi), ?_⟩
    rcases List.mem_append.mp ht with ht | ht
    · exact ht
    · split at ht
      · exact StepPhrase.omitted_subset _ ht
      · cases ht

/-- The derivation with chosen fallbacks written spells the tokens that they have been put into. -/
theorem SchemePhrase.tokens_fill {g : SchemePhrase} (hend : EndsInEnd tokens)
    (hdecoded : ∀ t ∈ tokens, t.IsDecoded) (hg : g.tokens = beforeEnd tokens)
    (chosen : Nat → Bool) : EndsInEnd (g.filledTokens chosen tokens) ∧
      (∀ t ∈ g.filledTokens chosen tokens, t.IsDecoded) ∧
      (g.fill chosen).tokens = beforeEnd (g.filledTokens chosen tokens) := by
  obtain ⟨t, rest, ht, htokens⟩ := hend.exists_rest
  rw [← hg] at htokens
  have hfilled : g.filledTokens chosen tokens = (g.fill chosen).tokens ++ t :: rest := by
    rw [g.filledTokens_eq, htokens, List.drop_left]
  have hleaf : ∀ u ∈ (g.fill chosen).tokens, u.kind ≠ .eof :=
    fun u hu => ((g.fill chosen).isLeaf u hu).kind_ne_eof
  have hrest : EndsInEnd (t :: rest) :=
    EndsInEnd.of_append (htokens ▸ hend) (List.cons_ne_nil t rest)
  rw [hfilled]
  refine ⟨hrest.append _, ?_, (beforeEnd_append hleaf ht).symm⟩
  intro u hu
  apply hdecoded
  rw [htokens]
  rcases List.mem_append.mp hu with hu | hu
  · exact List.mem_append_left _ (g.tokens_fill_subset chosen hu)
  · exact List.mem_append_right _ hu

/-- Writing out the fallback of any steps that omit it changes nothing in the draft. Each step is
read from its own tokens and those that were put in behind them, and the latter are read as its
fallback. -/
theorem ofTokens_filled {g : SchemePhrase} (hend : EndsInEnd tokens)
    (hdecoded : ∀ t ∈ tokens, t.IsDecoded) (hg : g.tokens = beforeEnd tokens)
    (chosen : Nat → Bool) :
    (∃ d, Draft.ofTokens tokens = .ok d ∧ Draft.ofTokens (g.filledTokens chosen tokens) = .ok d) ∧
    IsCut (g.filledTokens chosen tokens) g.variableBlocks (g.filledBlocks chosen) ∧
    ∀ (i : Nat) (s : StepPhrase) (star : Terminal .star) (question : Terminal .question)
      (target : TargetPhrase), g.steps[i]? = some s → s.ending = .wildcard star question target →
      chosen i = true → ReadsFallback (g.filledTokens chosen tokens)
        (g.variableBlocks.flatten ++ ((g.filledBlocks chosen).take i).flatten ++ s.tokens)
        target.tokens target.target := by
  obtain ⟨hend', hdecoded', hg'⟩ := g.tokens_fill hend hdecoded hg chosen
  have hblocks := g.stepBlocks_fill chosen
  refine ⟨?_, hblocks ▸ SchemePhrase.isCut hend' hdecoded' hg', ?_⟩
  · obtain ⟨_, _, hstart, -, -, -, -, hread⟩ := g.exists_read hend hdecoded hg
    obtain ⟨_, _, hstart', -, -, -, -, hread'⟩ := (g.fill chosen).exists_read hend' hdecoded' hg'
    rw [g.draft_fill] at hread'
    exact ⟨g.draft, ofTokens_eq_of_scheme hstart hread, ofTokens_eq_of_scheme hstart' hread'⟩
  · intro i s star question target hs hending hchosen
    have hstep : (g.fill chosen).steps[i]? = some s.filled := by
      simp [SchemePhrase.fill, hs, hchosen]
    have hread := (g.fill chosen).readsFallback hend' hdecoded' hg' hstep
    have hown : s.filled.id.tokens ++ s.filled.colon.token ::
        s.filled.allActions.flatMap ActionPhrase.tokens = s.tokens := by
      rw [s.allActions_filled, StepPhrase.tokens, hending, StepEnd.tokens, List.append_nil]
      rfl
    have htarget : s.filled.ending = .fallback target := by
      rw [StepPhrase.filled, hending]
      rfl
    rwa [hblocks, hown, htarget] at hread

/-- `(1):*?(2)(2):*?(1)`, where both steps leave out their fallbacks. -/
def starSteps : SchemePhrase where
  bindings := []
  steps := [
    ⟨.onFirstLine "1" 0 1, .onFirstLine .colon ":" 3 none, [],
      .wildcard (.onFirstLine .star "*" 4 none) (.onFirstLine .question "?" 5 none)
        (.step (.onFirstLine "2" 6 2))⟩,
    ⟨.onFirstLine "2" 9 2, .onFirstLine .colon ":" 12 none, [],
      .wildcard (.onFirstLine .star "*" 13 none) (.onFirstLine .question "?" 14 none)
        (.step (.onFirstLine "1" 15 1))⟩]

def starTokens : List Token := starSteps.tokens ++ [.onFirstLine .eof "" 18]

theorem starSteps_filled : EndsInEnd starTokens ∧ (∀ t ∈ starTokens, t.IsDecoded) ∧
    starSteps.tokens = beforeEnd starTokens ∧
    starSteps.filledTokens (fun _ => true) starTokens ≠ starTokens ∧
    ∃ d, Draft.ofTokens starTokens = .ok d ∧
      Draft.ofTokens (starSteps.filledTokens (fun _ => true) starTokens) = .ok d := by
  have hend : EndsInEnd starTokens := by decide
  have hdecoded : ∀ t ∈ starTokens, t.IsDecoded := by
    simp [starTokens, starSteps, SchemePhrase.tokens, StepPhrase.tokens, StepIdPhrase.tokens,
      StepPhrase.allActions, StepEnd.lastAction, StepEnd.tokens, ActionPhrase.tokens,
      ConditionPhrase.token, TargetPhrase.tokens, Terminal.onFirstLine, StepIdPhrase.onFirstLine,
      Token.onFirstLine, Token.IsDecoded, Token.isValid,
      Text.isWritable_of_le (n := 1) (by decide), Text.isWritable_of_le (n := 2) (by decide)]
  have hspells : starSteps.tokens = beforeEnd starTokens := by decide
  exact ⟨hend, hdecoded, hspells, by decide,
    (ofTokens_filled hend hdecoded hspells (fun _ => true)).1⟩

example : (Draft.ofTokens (starSteps.filledTokens (fun _ => true) starTokens)).toOption.map
      (fun d => (d.stepDecls.map fun s => (s.id, s.actions.length, s.fallback), d.stepRefs)) =
    some ([(.number 1, 1, .step (.number 2) ⟨1, 7, 6⟩),
      (.number 2, 1, .step (.number 1) ⟨1, 16, 15⟩)],
      [⟨.number 2, ⟨1, 7, 6⟩⟩, ⟨.number 1, ⟨1, 16, 15⟩⟩]) := by decide +kernel

end StepMachine
