import StepMachine.Proofs.Compiled.Damage
import StepMachine.Proofs.Compiled.Entry
import StepMachine.Proofs.Scheme.Transition
import StepMachine.Proofs.Scheme.Uses

/-! # Where a machine can get

A machine starts at the step with the least number and follows one transition after another. The
conditions of a declared step were read from decoded tokens, so it has a transition for every text.
All targets of a declared step were noted as uses when it was read, so if none of the steps in use
is reported as undeclared, every transition leads on. If there are no errors, then only targets of
declared steps are reported, each where its number comes up first.
-/
namespace StepMachine

/-! ### Machines -/

namespace CompiledScheme

variable (c : CompiledScheme)

/-- The target is a token, or a step that is declared. -/
def IsDeclared : Target → Prop
  | .token .. => True
  | .step id _ => ∃ s ∈ c.stepDecls, s.id = id

/-- The targets that the machine takes from a step on as the texts come up, until it takes a token
or a step that is not declared. -/
def walk (E : Engine) (s : Step) : List String → Except NoPattern (List Target)
  | [] => .ok []
  | ch :: rest =>
    match s.transition E ch with
    | .error missing => .error missing
    | .ok t =>
      match t.stepId?.bind c.stepNumbered with
      | none => .ok [t]
      | some next => (walk E next rest).map (t :: ·)

variable {c} {E : Engine}

/-- If every transition of a declared step leads on, so does every walk. -/
theorem exists_walk
    (h : ∀ s ∈ c.stepDecls, ∀ ch, ∃ t, s.transition E ch = .ok t ∧ c.IsDeclared t) {s : Step}
    (hs : s ∈ c.stepDecls) (texts : List String) :
    ∃ ts, c.walk E s texts = .ok ts ∧ ∀ t ∈ ts, c.IsDeclared t := by
  -- on the texts; wherever the walk goes on, it stands on a declared step again
  induction texts generalizing s with
  | nil => exact ⟨[], rfl, by simp⟩
  | cons ch rest ih =>
    obtain ⟨t, ht, hdeclared⟩ := h s hs ch
    rw [walk, ht]
    dsimp only
    cases hnext : t.stepId?.bind c.stepNumbered with
    | none => exact ⟨[t], rfl, by simpa using hdeclared⟩
    | some next =>
      obtain ⟨id, -, hid⟩ := Option.bind_eq_some_iff.mp hnext
      obtain ⟨ts, hts, hall⟩ := ih (mem_of_stepNumbered hid).1
      exact ⟨t :: ts, by simp only [hts, Except.map], List.forall_mem_cons.mpr ⟨hdeclared, hall⟩⟩

end CompiledScheme

theorem Condition.IsReadFrom.isTestable {ts : List Token} {condition : Condition}
    (h : condition.IsReadFrom ts) : condition.IsTestable := by
  cases condition with
  | pattern value place =>
    obtain ⟨t, -, -, p, hp, -⟩ := h
    exact ⟨p, hp⟩
  | _ => trivial

/-! ### Compiled schemes -/

variable {E : Engine} {text : String} {scanned : List Diagnostic} {c : CompiledScheme}

namespace IsRun

variable {o : CheckOptions} {start finish : ParseState} {parts : PartialScheme}
variable (h : IsRun E text o c scanned start finish parts)
include h

theorem mem_undeclared_warnings {d : Diagnostic} (hcode : d.code = .undeclaredStep)
    (hd : d ∈ c.warnings) : ∃ r ∈ c.stepRefs, d = ⟨.undeclaredStep r.id, r.position⟩ := by
  rw [h.warnings_eq] at hd
  rcases Draft.mem_findings_iff.mp hd with
    ⟨-, v, -, -, rfl⟩ | ⟨-, s, -, -, rfl⟩ | ⟨-, r, hr, -, rfl⟩
  · cases hcode
  · cases hcode
  · exact ⟨r, h.draft_stepRefs ▸ hr, rfl⟩

/-- A use of a step that is not declared is reported. -/
theorem undeclared_mem_warnings (ho : o.undeclaredSteps = true) {r : Reference Literal}
    (hr : r ∈ c.stepRefs) (hnone : c.stepDecls.any (·.id == r.id) = false) :
    ⟨.undeclaredStep r.id, r.position⟩ ∈ c.warnings := by
  rw [h.warnings_eq]
  rw [← h.draft_stepRefs] at hr
  rw [← h.draft_stepDecls] at hnone
  exact Draft.mem_findings_iff.mpr (.inr (.inr ⟨ho, r, hr, hnone, rfl⟩))

/-- Every step that a declared step leads to is in the table of uses. -/
theorem any_stepRefs {s : Step} (hs : s ∈ c.stepDecls) {id : Literal} {place : Position}
    (ht : .step id place ∈ s.targets) : c.stepRefs.any (·.id == id) = true := by
  rw [h.stepDecls_eq] at hs
  obtain ⟨g, hg, rfl⟩ := List.mem_map.mp (mem_of_mem_firstOnly _ hs)
  have huse := g.mem_stepUses_of_mem_targets _ ht
  rw [h.stepRefs_eq, any_firstOnly, List.any_eq_true]
  refine ⟨⟨id, place⟩, List.mem_append_left _ ?_, by simp⟩
  exact List.mem_flatMap.mpr ⟨g, hg, huse⟩

/-- The machine has a transition for every text, and it leads on. -/
theorem exists_transition (ho : o.undeclaredSteps = true)
    (hclean : ∀ d ∈ c.warnings, d.code ≠ .undeclaredStep) {s : Step} (hs : s ∈ c.stepDecls)
    (ch : String) : ∃ t, s.transition E ch = .ok t ∧ c.IsDeclared t := by
  have htestable : ∀ a ∈ s.actions, a.condition.IsTestable := fun a ha =>
    ((h.isReadFrom.stepDecls s hs).actions a ha).1.isTestable
  obtain ⟨t, ht, htransition⟩ := s.exists_transition (E := E) htestable ch
  refine ⟨t, htransition, ?_⟩
  cases t with
  | token name isError place => trivial
  | step id place =>
    obtain ⟨r, hr, hid⟩ := List.any_eq_true.mp (h.any_stepRefs hs ht)
    obtain rfl : r.id = id := by simpa using hid
    have hdeclared : c.stepDecls.any (·.id == r.id) = true := by
      by_contra hnone
      exact hclean _ (h.undeclared_mem_warnings ho hr (by simpa using hnone)) rfl
    obtain ⟨s', hs', hid'⟩ := List.any_eq_true.mp hdeclared
    exact ⟨s', hs', by simpa using hid'⟩

/-- The machine starts at the step with the least number. -/
theorem exists_entryStep (hsteps : c.stepDecls ≠ []) :
    ∃ entry n, c.entryStep = .ok (some entry) ∧ entry ∈ c.stepDecls ∧ entry.id = .number n ∧
      ∀ s ∈ c.stepDecls, ∃ m, s.id = .number m ∧ n ≤ m := by
  have hnumbers : ∀ s ∈ c.stepDecls, s.id.IsNumber := fun _ hs => h.exists_number hs
  obtain ⟨hnil, -⟩ | ⟨entry, hentry, hfound, hleast⟩ := CompiledScheme.exists_entryStep hnumbers
  · exact absurd hnil hsteps
  have hmem := (CompiledScheme.mem_of_stepNumbered hfound).1
  obtain ⟨n, hn⟩ := hnumbers entry hmem
  refine ⟨entry, n, hentry, hmem, hn, ?_⟩
  intro s hs
  obtain ⟨m, hm⟩ := hnumbers s hs
  refine ⟨m, hm, ?_⟩
  have hupTo := hleast.isUpTo s.id (List.mem_map_of_mem hs)
  rw [hn, hm, Literal.number.injEq, Literal.number_isUpTo] at hupTo
  rcases hupTo with rfl | hle
  · exact Int.le_refl _
  · exact hle

/-- Without errors, a use is noted where its number first comes up among the targets. -/
theorem find?_targets (hnone : c.errors = []) {r : Reference Literal} (hr : r ∈ c.stepRefs) :
    (c.stepDecls.flatMap Step.targets).find? (·.stepId? == some r.id) =
      some (.step r.id r.position) := by
  obtain ⟨g, hdraft, hclean⟩ := h.exists_clean hnone
  have hsteps : c.stepDecls = g.steps.map (·.step g.variableDecls) := by
    rw [← h.draft_stepDecls, hdraft, hclean.stepDecls_eq]
  have hrefs : c.stepRefs = firstOnly Reference.id (g.steps.flatMap StepPhrase.stepUses) := by
    rw [← h.draft_stepRefs, hdraft]
    rfl
  have huses : ((c.stepDecls.flatMap Step.targets).filterMap Target.use?).find?
      (·.id == r.id) = some r := by
    rw [hrefs] at hr
    rw [← find?_of_mem_firstOnly _ hr, hsteps, List.filterMap_flatMap, List.flatMap_map,
      List.find?_flatMap, List.find?_flatMap]
    congr 1
    funext s
    obtain ⟨again, heq, hagain⟩ := s.uses_targets g.variableDecls
    rw [heq, List.find?_append]
    cases hfound : s.stepUses.find? (·.id == r.id) with
    | some use => rfl
    | none =>
      rw [Option.none_or, List.find?_eq_none]
      exact fun use huse => List.find?_eq_none.mp hfound use (hagain huse)
  rw [List.find?_filterMap] at huses
  obtain ⟨t, ht, huse⟩ := Option.bind_eq_some_iff.mp huses
  rw [← Target.use?_eq_some_iff.mp huse, ← ht]
  congr 1
  funext t
  cases t <;> simp [Target.use?, Target.stepId?]

end IsRun

/-- If uses of undeclared steps are looked for and none is reported, then every declared step has a
transition for every text, and the machine cannot get to an undeclared step, whatever else is wrong
with the text. If there are no errors, each such report is about the first target that leads to the
step. -/
theorem compile_no_dangling {given : Option CheckOptions} {profile : Option Profile}
    (h : CompiledScheme.compile E text given profile = .ok c) :
    (∀ o, CheckOptions.resolve given profile = .ok o → o.undeclaredSteps = true →
      (∀ d ∈ c.warnings, d.code ≠ .undeclaredStep) →
      (∀ s ∈ c.stepDecls, ∀ ch, ∃ t, s.transition E ch = .ok t ∧ c.IsDeclared t) ∧
      (c.stepDecls ≠ [] → ∃ entry n, c.entryStep = .ok (some entry) ∧ entry ∈ c.stepDecls ∧
        entry.id = .number n ∧ (∀ s ∈ c.stepDecls, ∃ m, s.id = .number m ∧ n ≤ m) ∧
        ∀ texts, ∃ ts, c.walk E entry texts = .ok ts ∧ ∀ t ∈ ts, c.IsDeclared t)) ∧
    (c.errors = [] → ∀ d ∈ c.warnings, d.code = .undeclaredStep →
      ∃ id place, d = ⟨.undeclaredStep id, place⟩ ∧
        (c.stepDecls.flatMap Step.targets).find? (·.stepId? == some id) =
          some (.step id place)) := by
  obtain ⟨o, ho, hcompile⟩ := CompiledScheme.exists_resolve h
  obtain ⟨scanned, start, finish, parts, hrun⟩ := exists_isRun hcompile
  constructor
  · intro o' ho' hwanted hclean
    obtain rfl : o = o' := Except.ok.inj (ho.symm.trans ho')
    have hleads : ∀ s ∈ c.stepDecls, ∀ ch, ∃ t, s.transition E ch = .ok t ∧ c.IsDeclared t :=
      fun _ hs ch => hrun.exists_transition hwanted hclean hs ch
    refine ⟨hleads, ?_⟩
    intro hsteps
    obtain ⟨entry, n, hentry, hmem, hn, hleast⟩ := hrun.exists_entryStep hsteps
    exact ⟨entry, n, hentry, hmem, hn, hleast, CompiledScheme.exists_walk hleads hmem⟩
  · intro hnone d hd hcode
    obtain ⟨r, hr, rfl⟩ := hrun.mem_undeclared_warnings hcode hd
    exact ⟨r.id, r.position, rfl, hrun.find?_targets hnone hr⟩

/-- The first text goes on where it should end, but its step leads to itself; in the second one a
step is missing. -/
theorem missingStep_reported :
    let E := Regex.engine (.plain true)
    (∃ c entry, CompiledScheme.compile E "(1): \"a\"?(1) (1) ]" none none = .ok c ∧
      c.errors ≠ [] ∧ c.entryStep = .ok (some entry) ∧
      ∀ texts, ∃ ts, c.walk E entry texts = .ok ts ∧ ∀ t ∈ ts, c.IsDeclared t) ∧
    ∃ c, CompiledScheme.compile E "(1): *?(2)" none none = .ok c ∧
      ∃ id place,
        c.warnings = [⟨.unusedStep (.number 1), ⟨1, 1, 0⟩⟩, ⟨.undeclaredStep id, place⟩] ∧
        (c.stepDecls.flatMap Step.targets).find? (·.stepId? == some id) =
          some (.step id place) := by
  intro E
  constructor
  · have hseen : (CompiledScheme.compile E "(1): \"a\"?(1) (1) ]" none none).toOption.map
        (fun c => (c.errors.map (·.code), c.warnings, c.stepDecls.map (·.id))) =
        some ([.expectedEnd], [], [.number 1]) := by decide +kernel
    obtain ⟨c, hcompile, hc⟩ := exists_of_toOption_map hseen
    simp only [Prod.mk.injEq] at hc
    obtain ⟨herrors, hwarnings, hsteps⟩ := hc
    have hdeclared : c.stepDecls ≠ [] := by
      intro he
      simp [he] at hsteps
    obtain ⟨-, hentry⟩ := (compile_no_dangling hcompile).1 .default rfl rfl (by simp [hwarnings])
    obtain ⟨entry, -, hentry, -, -, -, hwalk⟩ := hentry hdeclared
    refine ⟨c, entry, hcompile, ?_, hentry, hwalk⟩
    intro he
    simp [he] at herrors
  · have hseen : (CompiledScheme.compile E "(1): *?(2)" none none).toOption.map
        (fun c => (c.errors, c.warnings)) =
        some ([], [⟨.unusedStep (.number 1), ⟨1, 1, 0⟩⟩,
          ⟨.undeclaredStep (.number 2), ⟨1, 8, 7⟩⟩]) := by decide +kernel
    obtain ⟨c, hcompile, hc⟩ := exists_of_toOption_map hseen
    obtain ⟨herrors, hwarnings⟩ := Prod.mk.inj hc
    obtain ⟨id, place, heq, hfirst⟩ := (compile_no_dangling hcompile).2 herrors
      ⟨.undeclaredStep (.number 2), ⟨1, 8, 7⟩⟩ (by simp [hwarnings]) rfl
    exact ⟨c, hcompile, id, place, heq ▸ hwarnings, hfirst⟩

end StepMachine
