import StepMachine.Diagnostic
import StepMachine.Proofs.Numeral

/-! # Which causes can be worded

A wording fails only on a number that it has to show and that takes too many digits. Numbers are
shown by the causes that are about a step, and by no others. Every number that was read from digits
can be shown.
-/
namespace StepMachine

/-- The literal can be shown: it is no number, or one that can be written. -/
def Literal.IsWritable : Literal → Prop
  | number n => Text.IsWritable n
  | text _ | pattern _ => True

instance : (l : Literal) → Decidable l.IsWritable
  | .number n => inferInstanceAs (Decidable (Text.IsWritable n))
  | .text _ | .pattern _ => inferInstanceAs (Decidable True)

theorem Literal.write_eq_error_iff {l : Literal} {long : Text.LongNumber} :
    l.write = .error long ↔ l = .number long.value ∧ ¬Text.IsWritable long.value := by
  obtain ⟨value⟩ := long
  cases l with
  | number n =>
    rw [write, number.injEq]
    by_cases hn : Text.IsWritable n
    · rw [hn.writeNumber_eq]
      refine iff_of_false (by simp) ?_
      rintro ⟨rfl, hlong⟩
      exact hlong hn
    · rw [Text.writeNumber_of_not_isWritable hn, Except.error.injEq, Text.LongNumber.mk.injEq]
      refine ⟨?_, And.left⟩
      rintro rfl
      exact ⟨rfl, hn⟩
  | text s => simp [write]
  | pattern p => simp [write]

namespace Cause

/-- The step that the wording shows, if it shows one. -/
def shown? : Cause → Option Literal
  | takenStep id | unusedStep id | undeclaredStep id => some id
  | _ => none

variable {cause : Cause} {long : Text.LongNumber}

/-- Only three codes show a step. -/
theorem code_of_shown? {id : Literal} (h : cause.shown? = some id) :
    cause.code = .takenStep ∨ cause.code = .unusedStep ∨ cause.code = .undeclaredStep := by
  cases cause <;> simp [shown?, code] at h ⊢

theorem aboutStep_eq_error_iff {id : Literal} {what : String} :
    aboutStep id what = .error long ↔ id.write = .error long := by
  unfold aboutStep
  cases id.write <;> simp [Except.map]

theorem message_eq_error_iff : cause.message = .error long ↔
    cause.shown? = some (.number long.value) ∧ ¬Text.IsWritable long.value := by
  cases cause with
  | takenStep id | unusedStep id | undeclaredStep id =>
    rw [message, aboutStep_eq_error_iff, Literal.write_eq_error_iff, shown?, Option.some.injEq]
  | _ => simp [message, shown?]

/-- The cause can be worded. -/
def IsWorded (cause : Cause) : Prop := ∃ message, cause.message = .ok message

theorem isWorded_iff : cause.IsWorded ↔ ∀ id ∈ cause.shown?, id.IsWritable := by
  cases hmessage : cause.message with
  | error long =>
    obtain ⟨hshown, hlong⟩ := message_eq_error_iff.mp hmessage
    refine iff_of_false ?_ fun h => hlong (h _ hshown)
    rintro ⟨message, hok⟩
    exact absurd (hok.symm.trans hmessage) (by simp)
  | ok message =>
    refine iff_of_true ⟨message, hmessage⟩ fun id hid => ?_
    cases id with
    | number n =>
      by_contra hlong
      have herror : cause.message = .error ⟨n⟩ := message_eq_error_iff.mpr ⟨hid, hlong⟩
      exact absurd (herror.symm.trans hmessage) (by simp)
    | text s => trivial
    | pattern p => trivial

end Cause

end StepMachine
