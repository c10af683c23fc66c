import Mathlib.Data.List.Basic
import Mathlib.Data.List.TakeWhile
import StepMachine.Proofs.Wording
import StepMachine.Scheme.References

/-! # Findings and the warnings on them

What a check finds is put down as warnings one after another. A warning that would have to show a
long number ends this, and those before it stay. Findings show nothing but the numbers of steps
that are declared or used, so all of them can be put down if these can be written.
-/
namespace StepMachine

namespace Draft

variable {d : Draft} {o : CheckOptions} {x : Diagnostic} {long : Text.LongNumber}

/-- A finding is wanted, and it is about a variable that is not used, a step that is not used or
the use of a step that is not declared. -/
theorem mem_findings_iff : x ∈ d.findings o ↔
    (o.unusedVariables = true ∧ ∃ v ∈ d.variableDecls, d.usesVariable v.name = false ∧
      x = ⟨.unusedVariable v.name, v.position⟩) ∨
    (o.unusedSteps = true ∧ ∃ s ∈ d.stepDecls, d.usesStep s.id = false ∧
      x = ⟨.unusedStep s.id, s.position⟩) ∨
    (o.undeclaredSteps = true ∧ ∃ r ∈ d.stepRefs, d.stepDecls.any (·.id == r.id) = false ∧
      x = ⟨.undeclaredStep r.id, r.position⟩) := by
  simp only [findings, unusedVariables, unusedSteps, undeclaredSteps, List.mem_append, or_assoc,
    List.mem_ite_nil_right, List.mem_map, List.mem_filter, Bool.not_eq_true', and_assoc,
    eq_comm (b := x)]

/-- A step that a finding shows is declared or used. -/
theorem mem_ids_of_shown (hx : x ∈ d.findings o) {id : Literal} (hid : x.cause.shown? = some id) :
    id ∈ d.stepDecls.map (·.id) ∨ id ∈ d.stepRefs.map (·.id) := by
  rcases mem_findings_iff.mp hx with
    ⟨-, v, -, -, rfl⟩ | ⟨-, s, hs, -, rfl⟩ | ⟨-, r, hr, -, rfl⟩
  · cases hid
  · cases hid
    exact .inl (List.mem_map_of_mem hs)
  · cases hid
    exact .inr (List.mem_map_of_mem hr)

/-! ### Warnings that are issued -/

/-- The draft with more warnings. -/
def warned (d : Draft) (xs : List Diagnostic) : Draft := { d with warnings := d.warnings ++ xs }

@[simp] theorem warned_nil (d : Draft) : d.warned [] = d := by simp [warned]

theorem warned_warn (d : Draft) (x : Diagnostic) (xs : List Diagnostic) :
    (d.warn x).warned xs = d.warned (x :: xs) := by simp [warned, warn]

/-- All warnings are issued, or those before the first that cannot be worded. -/
theorem warnAll_cases (xs : List Diagnostic) (d : Draft) :
    ((∀ x ∈ xs, x.cause.IsWorded) ∧ warnAll xs d = (.ok (), d.warned xs)) ∨
    ∃ issued x rest long, xs = issued ++ x :: rest ∧ (∀ y ∈ issued, y.cause.IsWorded) ∧
      x.cause.message = .error long ∧ warnAll xs d = (.error long, d.warned issued) := by
  induction xs generalizing d with
  | nil => exact .inl ⟨by simp, by simp [warnAll]⟩
  | cons x xs ih =>
    cases hx : x.cause.message with
    | error long =>
      refine .inr ⟨[], x, xs, long, rfl, by simp, hx, ?_⟩
      simp [warnAll, Diagnostic.message, hx]
    | ok message =>
      have hworded : x.cause.IsWorded := ⟨message, hx⟩
      have hstep : warnAll (x :: xs) d = warnAll xs (d.warn x) := by
        simp [warnAll, Diagnostic.message, hx]
      rw [hstep]
      obtain ⟨hall, heq⟩ | ⟨issued, y, rest, long, rfl, hall, hy, heq⟩ := ih (d.warn x)
      · refine .inl ⟨List.forall_mem_cons.mpr ⟨hworded, hall⟩, ?_⟩
        rw [heq, warned_warn]
      · refine .inr ⟨x :: issued, y, rest, long, rfl,
          List.forall_mem_cons.mpr ⟨hworded, hall⟩, hy, ?_⟩
        rw [heq, warned_warn]

/-- What is found, up to the first that cannot be worded. -/
def issued (d : Draft) (o : CheckOptions) : List Diagnostic :=
  (d.findings o).takeWhile (·.message.isOk)

/-- A check puts down what it finds, and gets through if all of it can be worded. -/
theorem checkReferences_spec (d : Draft) (o : CheckOptions) :
    (d.checkReferences o).2 = d.warned (d.issued o) ∧
    ((d.checkReferences o).1 = .ok () ↔ ∀ x ∈ d.findings o, x.cause.IsWorded) := by
  have hok : ∀ x : Diagnostic, x.cause.IsWorded → x.message.isOk = true := by
    rintro x ⟨message, hmessage⟩
    rw [Diagnostic.message, hmessage]
    rfl
  rw [checkReferences, issued]
  obtain ⟨hall, heq⟩ | ⟨issued, x, rest, long, hxs, hissued, hx, heq⟩ :=
    warnAll_cases (d.findings o) d
  · rw [heq, List.takeWhile_eq_self_iff.mpr fun x hx => hok x (hall x hx)]
    exact ⟨rfl, iff_of_true rfl hall⟩
  · have hstop : x.message.isOk = false := by
      rw [Diagnostic.message, hx]
      rfl
    rw [heq, hxs, List.takeWhile_append_of_pos fun y hy => hok y (hissued y hy),
      List.takeWhile_cons_of_neg (by simp [hstop]), List.append_nil]
    refine ⟨rfl, iff_of_false (by simp) fun hall => ?_⟩
    have hworded := hok x (hall x (by simp))
    rw [hstop] at hworded
    cases hworded

/-- A check that gets through puts down all that it finds. -/
theorem checkReferences_eq_of_ok (h : (d.checkReferences o).1 = .ok ()) :
    d.checkReferences o = (.ok (), d.warned (d.findings o)) := by
  obtain ⟨-, heq⟩ | ⟨_, _, _, _, -, -, -, heq⟩ := warnAll_cases (d.findings o) d
  · exact heq
  · rw [checkReferences, heq] at h
    cases h

theorem checkReferences_of_isWorded (h : ∀ x ∈ d.findings o, x.cause.IsWorded) :
    d.checkReferences o = (.ok (), d.warned (d.findings o)) := by
  obtain ⟨-, heq⟩ | ⟨issued, x, rest, long, hxs, -, hx, -⟩ := warnAll_cases (d.findings o) d
  · exact heq
  · obtain ⟨message, hmessage⟩ := h x (hxs ▸ by simp)
    rw [hx] at hmessage
    cases hmessage

/-- The steps that are declared or used have numbers, none of them too long to be written. -/
def HasNumbers (d : Draft) : Prop :=
  ∀ id, id ∈ d.stepDecls.map (·.id) ∨ id ∈ d.stepRefs.map (·.id) →
    ∃ n, id = .number n ∧ Text.IsWritable n

theorem HasNumbers.checkReferences_eq (h : d.HasNumbers) (o : CheckOptions) :
    d.checkReferences o = (.ok (), d.warned (d.findings o)) := by
  apply checkReferences_of_isWorded
  intro x hx
  rw [Cause.isWorded_iff]
  intro id hid
  obtain ⟨n, rfl, hn⟩ := h id (mem_ids_of_shown hx hid)
  exact hn

/-- A check breaks off at a long number, which is that of a step that is declared or used. -/
theorem mem_ids_of_checkReferences (h : (d.checkReferences o).1 = .error long) :
    ¬Text.IsWritable long.value ∧ (.number long.value ∈ d.stepDecls.map (·.id) ∨
      .number long.value ∈ d.stepRefs.map (·.id)) := by
  obtain ⟨-, heq⟩ | ⟨issued, x, rest, long', hxs, -, hx, heq⟩ := warnAll_cases (d.findings o) d
  · rw [checkReferences, heq] at h
    cases h
  · rw [checkReferences, heq] at h
    cases h
    obtain ⟨hshown, hlong⟩ := Cause.message_eq_error_iff.mp hx
    have hmem : x ∈ d.findings o := by simp [hxs]
    exact ⟨hlong, mem_ids_of_shown hmem hshown⟩

end Draft

end StepMachine
