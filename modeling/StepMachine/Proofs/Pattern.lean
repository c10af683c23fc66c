import Mathlib.Data.List.TakeWhile
import StepMachine.Pattern

/-! # Which pattern literals are refused

The flags of a literal stand after its last slash, since no flag letter is a slash. The flags pass
if all are known and none is repeated. A literal with known flags is refused if a flag is repeated
or if the engine refuses the body under the options that the flags stand for.
-/
namespace StepMachine.Pattern

variable {E : Engine} {body flags seen : List Char}

/-- A literal is cut at its last slash. -/
theorem split?_literal (hflags : '/' ∉ flags) :
    split? ('/' :: (body ++ '/' :: flags)) = some (body, flags) := by
  have hreverse : ('/' :: (body ++ '/' :: flags)).reverse =
      flags.reverse ++ '/' :: (body.reverse ++ ['/']) := by simp
  have hpass : ∀ c ∈ flags.reverse, (c != '/') = true := by
    intro c hc
    rw [bne_iff_ne]
    rintro rfl
    exact hflags (List.mem_reverse.mp hc)
  rw [split?, hreverse]
  simp [List.dropWhile_append_of_pos hpass, List.takeWhile_append_of_pos hpass]

theorem checkFlags_eq_ok_iff : checkFlags seen flags = .ok () ↔
    (∀ c ∈ flags, c ∈ flagLetters) ∧ flags.Nodup ∧ ∀ c ∈ flags, c ∉ seen := by
  induction flags generalizing seen with
  | nil => simp [checkFlags]
  | cons c rest ih =>
    rw [checkFlags]
    split
    · next hknown =>
      have hc : c ∉ flagLetters := by simpa using hknown
      simp [hc]
    · next hknown =>
      have hc : c ∈ flagLetters := by simpa using hknown
      split
      · next hseen =>
        have hc' : c ∈ seen := by simpa using hseen
        simp [hc']
      · next hseen =>
        have hc' : c ∉ seen := by simpa using hseen
        rw [ih]
        simp only [List.mem_cons, not_or, List.nodup_cons, forall_eq_or_imp, hc, hc',
          not_false_eq_true, true_and]
        constructor
        · rintro ⟨hk, hn, hs⟩
          exact ⟨hk, ⟨fun hm => (hs c hm).1 rfl, hn⟩, fun d hd => (hs d hd).2⟩
        · rintro ⟨hk, ⟨hm, hn⟩, hs⟩
          refine ⟨hk, hn, fun d hd => ⟨?_, hs d hd⟩⟩
          rintro rfl
          exact hm hd

theorem ofParts_eq_ok {source flags : String} {p : Pattern} (h : ofParts E source flags = .ok p) :
    p.source = source ∧ p.flags = flags ∧ (∀ c ∈ flags.toList, c ∈ flagLetters) ∧
      flags.toList.Nodup := by
  unfold ofParts at h
  split at h
  · cases h
  · next hflags =>
    obtain ⟨hknown, hnodup, -⟩ := checkFlags_eq_ok_iff.mp hflags
    split at h
    · cases h
    · cases h
      exact ⟨rfl, rfl, hknown, hnodup⟩

theorem checkFlags_ne_body (refusal : Engine.Refusal) :
    checkFlags seen flags ≠ .error (.body refusal) := by
  induction flags generalizing seen with
  | nil => simp [checkFlags]
  | cons c rest ih =>
    rw [checkFlags]
    split
    · simp
    · split
      · simp
      · exact ih

section

variable (hflags : ∀ c ∈ flags, c ∈ flagLetters)
include hflags

theorem checkFlags_known : checkFlags [] flags = .ok () ↔ flags.Nodup := by
  rw [checkFlags_eq_ok_iff]
  exact ⟨fun h => h.2.1, fun h => ⟨hflags, h, by simp⟩⟩

theorem ofText_literal : ofText E (String.ofList ('/' :: (body ++ '/' :: flags))) =
    ofParts E (String.ofList body) (String.ofList flags) := by
  have hslash : '/' ∉ flags := fun h => absurd (hflags '/' h) (by decide)
  simp only [ofText, splitText, String.toList_ofList, split?_literal hslash]

/-- Whether a literal is refused is decided by its flags and its body. -/
theorem ofText_eq_error_iff :
    (∃ failure, ofText E (String.ofList ('/' :: (body ++ '/' :: flags))) = .error failure) ↔
      ¬flags.Nodup ∨
        ∃ refusal, E.refusal? (String.ofList body) (options flags) = some refusal := by
  rw [ofText_literal hflags, ofParts, String.toList_ofList]
  cases hc : checkFlags [] flags with
  | error failure =>
    have hn : ¬flags.Nodup := fun hn => by simp [(checkFlags_known hflags).mpr hn] at hc
    simp [hn]
  | ok u =>
    have hn : flags.Nodup := (checkFlags_known hflags).mp hc
    cases E.refusal? (String.ofList body) (options flags) <;> simp [hn]

/-- The engine is not asked about the body if a flag is repeated. -/
theorem ofText_eq_body_error_iff {refusal : Engine.Refusal} :
    ofText E (String.ofList ('/' :: (body ++ '/' :: flags))) = .error (.body refusal) ↔
      flags.Nodup ∧ E.refusal? (String.ofList body) (options flags) = some refusal := by
  rw [ofText_literal hflags, ofParts, String.toList_ofList]
  cases hc : checkFlags [] flags with
  | error flaw =>
    have hn : ¬flags.Nodup := fun hn => by simp [(checkFlags_known hflags).mpr hn] at hc
    have hflaw : flaw ≠ .body refusal := by
      rintro rfl
      exact checkFlags_ne_body refusal hc
    simp [hn, hflaw]
  | ok u =>
    have hn : flags.Nodup := (checkFlags_known hflags).mp hc
    cases E.refusal? (String.ofList body) (options flags) <;> simp [hn]

end

theorem Failure.escaping?_eq_some_iff {failure : Failure} {refusal : Engine.Refusal} :
    failure.escaping? = some refusal ↔
      failure = .body refusal ∧ refusal.isRemark = false := by
  cases failure with
  | body r =>
    cases h : r.isRemark <;> simp only [escaping?, h, body.injEq]
    · simpa using fun hr => hr ▸ h
    · refine iff_of_false (by simp) ?_
      rintro ⟨rfl, hr⟩
      exact absurd (hr.symm.trans h) (by decide)
  | _ => simp [escaping?]

end StepMachine.Pattern
