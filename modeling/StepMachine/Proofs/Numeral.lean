import Mathlib.Data.List.Induction
import Mathlib.Data.Nat.Digits.Defs
import StepMachine.Text.Letter
import StepMachine.Text.Numeral

/-! # Numbers between text and value

What is read from digits has no more digits than were read, so a number that was read can be
written again. The limit on numerals holds in both directions.
-/
namespace StepMachine.Text

theorem digitsValue_concat (cs : List Char) (c : Char) :
    digitsValue (cs ++ [c]) = 10 * digitsValue cs + (c.toNat - '0'.toNat) := by
  rw [digitsValue, List.foldl_append]
  rfl

theorem digitsValue_lt {cs : List Char} (h : ∀ c ∈ cs, isAsciiDigit c.toNat = true) :
    digitsValue cs < 10 ^ cs.length := by
  induction cs using List.reverseRecOn with
  | nil => exact Nat.one_pos
  | append_singleton cs c ih =>
    have hcs := ih fun d hd => h d (List.mem_append_left _ hd)
    have hc : c.toNat ≤ 57 := by
      have hdigit := h c (List.mem_append_right _ (List.mem_singleton_self c))
      simp only [isAsciiDigit, Bool.and_eq_true, decide_eq_true_eq] at hdigit
      exact hdigit.2
    have hzero : '0'.toNat = 48 := rfl
    rw [digitsValue_concat, hzero, List.length_append, List.length_singleton, Nat.pow_succ]
    omega

theorem digitsValue_toDigits (n : Nat) : digitsValue (Nat.toDigits 10 n) = n :=
  Nat.ofDigitChars_toDigits (by decide) (by decide)

theorem digitsValue_replicate_append (zeros : Nat) (cs : List Char) :
    digitsValue (List.replicate zeros '0' ++ cs) = digitsValue cs := by
  induction zeros with
  | zero => rfl
  | succ zeros ih =>
    rw [List.replicate_succ, List.cons_append]
    exact ih

theorem isAsciiDigit_of_mem_toDigits {n : Nat} {c : Char} (h : c ∈ Nat.toDigits 10 n) :
    isAsciiDigit c.toNat = true := by
  have hdigit := Nat.isDigit_of_mem_toDigits (by decide) (by decide) h
  simpa [isAsciiDigit] using Char.isDigit_iff_toNat.mp hdigit

theorem digitChar_of_isAsciiDigit {c : Char} (h : isAsciiDigit c.toNat = true) :
    c.toNat - '0'.toNat < 10 ∧ Nat.digitChar (c.toNat - '0'.toNat) = c := by
  have hzero : '0'.toNat = 48 := rfl
  simp only [isAsciiDigit, Bool.and_eq_true, decide_eq_true_eq] at h
  have hlt : c.toNat - '0'.toNat < 10 := by omega
  refine ⟨hlt, Char.toNat_inj.mp ?_⟩
  rw [Nat.toNat_digitChar_of_lt_ten hlt]
  omega

/-- A run of digits is the number that it stands for, with zeros before it. -/
theorem exists_leadingZeros {cs : List Char} (hne : cs ≠ [])
    (h : ∀ c ∈ cs, isAsciiDigit c.toNat = true) :
    ∃ zeros, cs = List.replicate zeros '0' ++ Nat.toDigits 10 (digitsValue cs) := by
  induction cs using List.reverseRecOn with
  | nil => exact absurd rfl hne
  | append_singleton cs c ih =>
    obtain ⟨hlt, hc⟩ := digitChar_of_isAsciiDigit (h c (by simp))
    have hlast : Nat.toDigits 10 (c.toNat - '0'.toNat) = [c] := by
      rw [Nat.toDigits_of_lt_base hlt, hc]
    rw [digitsValue_concat]
    by_cases hcs : cs = []
    · subst hcs
      exact ⟨0, by simpa [digitsValue] using hlast.symm⟩
    obtain ⟨zeros, hzeros⟩ := ih hcs fun d hd => h d (List.mem_append_left _ hd)
    -- a value of nought is one more zero before the last digit
    by_cases hpos : 0 < digitsValue cs
    · refine ⟨zeros, ?_⟩
      rw [← Nat.toDigits_append_toDigits (by decide) hpos hlt, hlast, ← List.append_assoc,
        ← hzeros]
    · have hnought : digitsValue cs = 0 := by omega
      rw [hnought, Nat.toDigits_zero, ← List.replicate_succ'] at hzeros
      refine ⟨zeros + 1, ?_⟩
      rw [hnought, Nat.mul_zero, Nat.zero_add, hlast, ← hzeros]

/-- The number has no more digits than can be read and written. -/
def IsWritable (n : Int) : Prop := n.natAbs < 10 ^ numeralLimit

instance (n : Int) : Decidable (IsWritable n) := inferInstanceAs (Decidable (_ < _))

theorem isWritable_of_le {n : Int} (h : n.natAbs ≤ numeralLimit) : IsWritable n :=
  h.trans_lt (Nat.lt_pow_self (by decide))

theorem length_toDigits_le_iff {n : Nat} :
    (Nat.toDigits 10 n).length ≤ numeralLimit ↔ n < 10 ^ numeralLimit := by
  constructor
  · intro hlength
    have hlt := digitsValue_lt fun c hc => isAsciiDigit_of_mem_toDigits (n := n) hc
    rw [digitsValue_toDigits] at hlt
    exact hlt.trans_le (Nat.pow_le_pow_right (by decide) hlength)
  · exact Nat.toDigits_length 10 n numeralLimit (by decide)

theorem IsWritable.writeNumber_eq {n : Int} (h : IsWritable n) :
    writeNumber n = .ok (toString n) := by
  rw [writeNumber, if_pos (length_toDigits_le_iff.mpr h)]

theorem writeNumber_of_not_isWritable {n : Int} (h : ¬IsWritable n) :
    writeNumber n = .error ⟨n⟩ := by
  rw [writeNumber, if_neg (mt length_toDigits_le_iff.mp h)]

/-- What has been read can be written. -/
theorem isWritable_of_readNumeral {cs : List Char} {n : Nat}
    (hcs : ∀ c ∈ cs, isAsciiDigit c.toNat = true) (h : readNumeral cs = .ok n) :
    IsWritable n := by
  unfold readNumeral at h
  split at h
  · next hlength =>
    cases h
    have hlt : digitsValue cs < 10 ^ numeralLimit :=
      (digitsValue_lt hcs).trans_le (Nat.pow_le_pow_right (by decide) hlength)
    simpa [IsWritable] using hlt
  · cases h

end StepMachine.Text
