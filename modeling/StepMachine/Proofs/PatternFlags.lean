import Mathlib.Data.List.Induction
import StepMachine.Proofs.Pattern
import StepMachine.Regex.Compile

/-! # Flags of pattern literals

Flags are read from left to right, and the first one that is unknown or that stood before decides
what a literal is refused for, whatever its body is. Flags that pass serve for two options only; the
others change nothing but the text of the literal, by which literals are told apart.
-/
namespace StepMachine.Pattern

variable {E : Engine} {flags flags' seen before : List Char} {source source' : String} {c : Char} {i n : Nat}

/-! ### The first flag at fault -/

/-- The flag with this index is unknown, or it has been seen before. -/
def IsAtFault (flags : List Char) (i : Nat) : Prop :=
  ∃ c ∈ flags[i]?, c ∉ flagLetters ∨ c ∈ flags.take i

instance (flags : List Char) (i : Nat) : Decidable (IsAtFault flags i) :=
  decidable_of_iff (flags[i]?.any (fun c => c ∉ flagLetters ∨ c ∈ flags.take i) = true)
    (by simp [IsAtFault, Option.any_eq_true])

/-- What a flag at fault is refused for. An unknown one is not looked for among those before it. -/
def flagFailure (c : Char) : Failure :=
  if c ∈ flagLetters then .repeatedFlag c else .unknownFlag c

/-- The flags pass. -/
def IsAccepted (flags : List Char) : Prop := ∀ i, ¬IsAtFault flags i

theorem checkFlags_append (h : checkFlags seen before = .ok ()) :
    checkFlags seen (before ++ flags) = checkFlags (before.reverse ++ seen) flags := by
  induction before generalizing seen with
  | nil => rfl
  | cons c before ih =>
    rw [checkFlags] at h
    rw [List.cons_append, checkFlags]
    split at h
    · cases h
    · next hknown =>
      split at h
      · cases h
      · next hseen =>
        rw [if_neg hknown, if_neg hseen, ih h]
        simp

theorem checkFlags_cons_of_fault (h : c ∉ flagLetters ∨ c ∈ seen) :
    checkFlags seen (c :: flags) = .error (flagFailure c) := by
  rw [checkFlags, flagFailure]
  by_cases hknown : c ∈ flagLetters
  · have hseen : c ∈ seen := h.resolve_left (not_not.mpr hknown)
    simp [hknown, hseen]
  · simp [hknown]

theorem checkFlags_take (h : ∀ j < n, ¬IsAtFault flags j) :
    checkFlags [] (flags.take n) = .ok () := by
  induction n with
  | zero => rfl
  | succ n ih =>
    have hbefore := ih fun j hj => h j (Nat.lt_succ_of_lt hj)
    rw [List.take_add_one]
    cases hc : flags[n]? with
    | none => rw [Option.toList_none, List.append_nil, hbefore]
    | some c =>
      have hpass : ¬(c ∉ flagLetters ∨ c ∈ flags.take n) := fun hfault =>
        h n (Nat.lt_succ_self n) ⟨c, hc, hfault⟩
      obtain ⟨hknown, hnew⟩ := not_or.mp hpass
      rw [Option.toList_some, checkFlags_append hbefore]
      simpa [checkFlags, hnew] using hknown

theorem checkFlags_of_isAccepted (h : IsAccepted flags) : checkFlags [] flags = .ok () := by
  rw [← List.take_length (l := flags)]
  exact checkFlags_take fun j _ => h j

theorem checkFlags_of_first (hc : flags[i]? = some c) (hi : IsAtFault flags i)
    (hfirst : ∀ j < i, ¬IsAtFault flags j) : checkFlags [] flags = .error (flagFailure c) := by
  obtain ⟨d, hd, hfault⟩ := hi
  obtain rfl : c = d := Option.some.inj (hc.symm.trans hd)
  obtain ⟨hlt, hget⟩ := List.getElem?_eq_some_iff.mp hc
  -- The flags before it pass and make up what has been seen when it is looked at.
  have hsplit : flags = flags.take i ++ c :: flags.drop (i + 1) := by
    rw [← hget, ← List.drop_eq_getElem_cons hlt, List.take_append_drop]
  rw [hsplit, checkFlags_append (checkFlags_take hfirst)]
  apply checkFlags_cons_of_fault
  simpa using hfault

theorem exists_first_fault (h : IsAtFault flags n) :
    ∃ i c, flags[i]? = some c ∧ IsAtFault flags i ∧ ∀ j < i, ¬IsAtFault flags j := by
  induction n using Nat.strong_induction_on with
  | _ n ih =>
    by_cases hearlier : ∃ j < n, IsAtFault flags j
    · obtain ⟨j, hj, hfault⟩ := hearlier
      exact ih j hj hfault
    · obtain ⟨c, hc, -⟩ := id h
      exact ⟨n, c, hc, h, fun j hj hfault => hearlier ⟨j, hj, hfault⟩⟩

theorem isAccepted_iff : IsAccepted flags ↔ checkFlags [] flags = .ok () := by
  refine ⟨checkFlags_of_isAccepted, fun h n hn => ?_⟩
  obtain ⟨i, c, hc, hi, hfirst⟩ := exists_first_fault hn
  rw [checkFlags_of_first hc hi hfirst] at h
  cases h

/-! ### What the flags stand for -/

/-- The options with that of a flag letter, if it has one. -/
def addOption (o : Engine.Options) (c : Char) : Engine.Options :=
  if c = 'i' then { o with ignoreCase := true }
  else if c = 'm' then { o with multiline := true }
  else o

/-- The options gathered from the flags one after another. -/
def gathered (flags : List Char) : Engine.Options := flags.foldl addOption ⟨false, false⟩

theorem gathered_eq (flags : List Char) : gathered flags = options flags := by
  induction flags using List.reverseRecOn with
  | nil => rfl
  | append_singleton flags c ih =>
    have hlast : gathered (flags ++ [c]) = addOption (gathered flags) c := List.foldl_append
    rw [hlast, ih, addOption, options, options]
    split
    · next hc => simp [hc]
    · next hi =>
      split
      · next hc => simp [hc]
      · next hm => simp [Ne.symm hi, Ne.symm hm]

theorem ignoreCase_gathered : (gathered flags).ignoreCase = true ↔ 'i' ∈ flags := by
  rw [gathered_eq, options, List.contains_iff_mem]

theorem multiline_gathered : (gathered flags).multiline = true ↔ 'm' ∈ flags := by
  rw [gathered_eq, options, List.contains_iff_mem]

/-! ### Whole literals -/

theorem ofParts_of_isAccepted {flags : String} (h : IsAccepted flags.toList) :
    ofParts E source flags = match E.refusal? source (gathered flags.toList) with
      | some refusal => .error (.body refusal)
      | none => .ok ⟨source, flags⟩ := by
  cases hrefusal : E.refusal? source (gathered flags.toList) with
  | none => simp [ofParts, checkFlags_of_isAccepted h, ← gathered_eq, hrefusal]
  | some refusal => simp [ofParts, checkFlags_of_isAccepted h, ← gathered_eq, hrefusal]

/-- What was accepted is found where the engine finds the body. -/
theorem accepts_of_ofParts {flags : String} {p : Pattern} (h : ofParts E source flags = .ok p)
    (text : String) : p.accepts E text = E.finds source (gathered flags.toList) text := by
  obtain ⟨rfl, rfl, -⟩ := ofParts_eq_ok h
  rw [accepts, gathered_eq]

theorem ofParts_of_first {flags : String} (hc : flags.toList[i]? = some c)
    (hi : IsAtFault flags.toList i) (hfirst : ∀ j < i, ¬IsAtFault flags.toList j) :
    ofParts E source flags = .error (flagFailure c) := by
  rw [ofParts, checkFlags_of_first hc hi hfirst]

theorem flagFailure_ne_body (c : Char) (refusal : Engine.Refusal) :
    flagFailure c ≠ .body refusal := by
  unfold flagFailure
  split <;> simp

/-- A flag is what a literal is refused for exactly if one is at fault. -/
theorem refused_for_flag_iff {flags : String} :
    (∃ c, ofParts E source flags = .error (flagFailure c)) ↔ ∃ i, IsAtFault flags.toList i := by
  constructor
  · rintro ⟨c, h⟩
    by_contra hnone
    rw [ofParts_of_isAccepted (not_exists.mp hnone)] at h
    split at h
    · next refusal _ => exact flagFailure_ne_body c refusal (Except.error.inj h).symm
    · cases h
  · rintro ⟨n, hn⟩
    obtain ⟨i, c, hc, hi, hfirst⟩ := exists_first_fault hn
    exact ⟨c, ofParts_of_first hc hi hfirst⟩

/-! ### Literals that are accepted -/

theorem splitText_literal {flags : String} {p : Pattern} (h : ofParts E source flags = .ok p) :
    splitText p.literal = .ok (source, flags) := by
  obtain ⟨rfl, rfl, hknown, -⟩ := ofParts_eq_ok h
  have hslash : '/' ∉ p.flags.toList := fun hmem => absurd (hknown _ hmem) (by decide)
  have htext : p.literal.toList = '/' :: (p.source.toList ++ '/' :: p.flags.toList) := by
    simp [literal]
  simp only [splitText, htext, split?_literal hslash, String.ofList_toList]

/-- A pattern is told by its body and its flags. -/
theorem eq_iff_of_ofParts {flags flags' : String} {p q : Pattern}
    (hp : ofParts E source flags = .ok p) (hq : ofParts E source' flags' = .ok q) :
    p = q ↔ source = source' ∧ flags = flags' := by
  obtain ⟨rfl, rfl, -⟩ := ofParts_eq_ok hp
  obtain ⟨rfl, rfl, -⟩ := ofParts_eq_ok hq
  rw [Pattern.mk.injEq]

theorem options_eq_of_iff (hi : 'i' ∈ flags ↔ 'i' ∈ flags') (hm : 'm' ∈ flags ↔ 'm' ∈ flags') :
    options flags = options flags' := by
  have hcase : flags.contains 'i' = flags'.contains 'i' := by
    rw [Bool.eq_iff_iff, List.contains_iff_mem, List.contains_iff_mem, hi]
  have hlines : flags.contains 'm' = flags'.contains 'm' := by
    rw [Bool.eq_iff_iff, List.contains_iff_mem, List.contains_iff_mem, hm]
  rw [options, options, hcase, hlines]

/-- Two spellings of the flags make the same of a body. -/
structure MakeTheSame (E : Engine) (source flags flags' : String) : Prop where
  ok_iff : (∃ p, ofParts E source flags = .ok p) ↔ ∃ q, ofParts E source flags' = .ok q
  error_iff : ∀ failure, ofParts E source flags = .error failure ↔
    ofParts E source flags' = .error failure
  accepts_eq : ∀ p q, ofParts E source flags = .ok p → ofParts E source flags' = .ok q →
    ∀ text, p.accepts E text = q.accepts E text

theorem makeTheSame {flags flags' : String} (h : IsAccepted flags.toList)
    (h' : IsAccepted flags'.toList) (hi : 'i' ∈ flags.toList ↔ 'i' ∈ flags'.toList)
    (hm : 'm' ∈ flags.toList ↔ 'm' ∈ flags'.toList) (source : String) :
    MakeTheSame E source flags flags' := by
  have hoptions : gathered flags.toList = gathered flags'.toList := by
    rw [gathered_eq, gathered_eq, options_eq_of_iff hi hm]
  have hp : ofParts E source flags = _ := ofParts_of_isAccepted h
  have hq : ofParts E source flags' = _ := ofParts_of_isAccepted h'
  rw [hoptions] at hp
  refine ⟨?_, ?_, fun p q hp' hq' text => ?_⟩
  · rw [hp, hq]
    cases E.refusal? source (gathered flags'.toList) <;> simp
  · intro failure
    rw [hp, hq]
    cases E.refusal? source (gathered flags'.toList) <;> simp
  · rw [accepts_of_ofParts hp', accepts_of_ofParts hq', hoptions]

end StepMachine.Pattern

namespace StepMachine

/-! ### Errors of value -/

/-- The literal is refused as a bad value, as it is for its flags. -/
def Pattern.Failure.isValueError : Pattern.Failure → Bool
  | .unknownFlag _ | .repeatedFlag _ | .noSlash => true
  | .body refusal => refusal.trouble == .value

namespace Pattern

theorem isValueError_flagFailure (c : Char) : (flagFailure c).isValueError = true := by
  unfold flagFailure
  split <;> rfl

theorem exists_valueError_iff (E : Engine) (source flags : String) :
    (∃ failure, ofParts E source flags = .error failure ∧ failure.isValueError = true) ↔
      (∃ i, IsAtFault flags.toList i) ∨ ∃ refusal,
        E.refusal? source (gathered flags.toList) = some refusal ∧ refusal.trouble = .value := by
  by_cases h : IsAccepted flags.toList
  · have hnone : ¬∃ i, IsAtFault flags.toList i := not_exists.mpr h
    rw [ofParts_of_isAccepted h, or_iff_right hnone]
    cases E.refusal? source (gathered flags.toList) <;> simp [Failure.isValueError]
  · have hsome : ∃ i, IsAtFault flags.toList i := by simpa [IsAccepted] using h
    obtain ⟨c, hc⟩ := refused_for_flag_iff.mpr hsome
    exact iff_of_true ⟨_, hc, isValueError_flagFailure c⟩ (.inl hsome)

/-- An engine can refuse a body as a bad value as well, when no flag is at fault. So does one that
is asked for a body that switches itself to two alphabets. -/
theorem valueError_without_fault : ¬∀ source flags : String,
    (∃ failure, ofParts (Regex.engine (.plain true)) source flags = .error failure ∧
      failure.isValueError = true) ↔ ∃ i, IsAtFault flags.toList i := by
  intro h
  have hbody : ofParts (Regex.engine (.plain true)) "(?a)(?u)" "" =
      .error (.body ⟨.value, "ASCII and UNICODE flags are incompatible"⟩) := by decide +kernel
  obtain ⟨i, c, hc, -⟩ := (h "(?a)(?u)" "").mp ⟨_, hbody, rfl⟩
  simp at hc

/-- The first flag at fault decides, whatever the body is, and if there is none then the engine
decides under the two options that flags have. Flags that agree on these make the same of every
body, and a literal that was accepted is told by its text, which is cut into its parts again. -/
theorem flags_decide_first (E : Engine) (source flags : String) :
    (∀ i c, flags.toList[i]? = some c → IsAtFault flags.toList i →
      (∀ j < i, ¬IsAtFault flags.toList j) → ofParts E source flags = .error (flagFailure c)) ∧
    ((∃ c, ofParts E source flags = .error (flagFailure c)) ↔ ∃ i, IsAtFault flags.toList i) ∧
    ((∃ failure, ofParts E source flags = .error failure ∧ failure.isValueError = true) ↔
      (∃ i, IsAtFault flags.toList i) ∨ ∃ refusal,
        E.refusal? source (gathered flags.toList) = some refusal ∧ refusal.trouble = .value) ∧
    (IsAccepted flags.toList →
      ofParts E source flags = match E.refusal? source (gathered flags.toList) with
        | some refusal => .error (.body refusal)
        | none => .ok ⟨source, flags⟩) ∧
    ((gathered flags.toList).ignoreCase = true ↔ 'i' ∈ flags.toList) ∧
    ((gathered flags.toList).multiline = true ↔ 'm' ∈ flags.toList) ∧
    (∀ flags' : String, IsAccepted flags.toList → IsAccepted flags'.toList →
      ('i' ∈ flags.toList ↔ 'i' ∈ flags'.toList) → ('m' ∈ flags.toList ↔ 'm' ∈ flags'.toList) →
      MakeTheSame E source flags flags') ∧
    ∀ p, ofParts E source flags = .ok p →
      (∀ text, p.accepts E text = E.finds source (gathered flags.toList) text) ∧
      splitText p.literal = .ok (source, flags) ∧
      ∀ source' flags' q, ofParts E source' flags' = .ok q →
        (p = q ↔ source = source' ∧ flags = flags') :=
  ⟨fun _ _ => ofParts_of_first, refused_for_flag_iff, exists_valueError_iff E source flags,
    ofParts_of_isAccepted, ignoreCase_gathered, multiline_gathered,
    fun _ h h' hi hm => makeTheSame h h' hi hm source,
    fun _ hp => ⟨accepts_of_ofParts hp, splitText_literal hp, fun _ _ _ => eq_iff_of_ofParts hp⟩⟩

/-- Other letters in another order change nothing, and of two flags at fault the first one decides. -/
theorem reordered_flags_agree :
    let E := Regex.engine (.plain true)
    IsAccepted "mgi".toList ∧ IsAccepted "iumy".toList ∧ MakeTheSame E "a/b" "mgi" "iumy" ∧
      IsAtFault "gizg".toList 2 ∧ ofParts E "(" "gizg" = .error (.unknownFlag 'z') := by
  intro E
  have hfirst : IsAccepted "mgi".toList := isAccepted_iff.mpr (by decide)
  have hsecond : IsAccepted "iumy".toList := isAccepted_iff.mpr (by decide)
  obtain ⟨-, -, -, -, -, -, hagree, -⟩ := flags_decide_first E "a/b" "mgi"
  obtain ⟨hdecides, -⟩ := flags_decide_first E "(" "gizg"
  have hfault : IsAtFault "gizg".toList 2 := by decide
  exact ⟨hfirst, hsecond, hagree _ hfirst hsecond (by decide) (by decide), hfault,
    hdecides 2 'z' (by decide) hfault (by decide)⟩

end Pattern

end StepMachine
