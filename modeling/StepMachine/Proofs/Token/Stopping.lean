import StepMachine.Proofs.Token.Damage

/-! # Where decoding stops

A numeral beyond the limit stops the work, and so does a closed pattern without repeated flags in
whose body the engine finds a number out of range. Nothing else does, as long as the engine has no
trouble of other sorts, and the first such token decides how the work ends.
-/
namespace StepMachine

/-- The engine takes a body, or finds fault with it, with what it asks for or with a number. -/
def Engine.HasUsualTrouble (E : Engine) : Prop :=
  ∀ body o refusal, E.refusal? body o = some refusal →
    refusal.trouble = .fault ∨ refusal.trouble = .value ∨ refusal.trouble = .overflow

/-- What is no remark on the body is then about a number. -/
theorem Engine.HasUsualTrouble.isRemark_eq_false_iff {E : Engine} (hE : E.HasUsualTrouble)
    {body : String} {o : Options} {refusal : Refusal} (h : E.refusal? body o = some refusal) :
    refusal.isRemark = false ↔ refusal.trouble = .overflow := by
  obtain htrouble | htrouble | htrouble := hE body o refusal h <;> simp [Refusal.isRemark, htrouble]

/-- Decoding ends at the token, with this failure. -/
inductive Token.Stops (E : Engine) (t : Token) : ScanFailure → Prop
  | longNumeral (hk : t.kind = .number) (hlong : Text.numeralLimit < t.text.toList.length) :
      t.Stops E (.longNumeral ⟨t.text.toList.length⟩)
  | overflow {body flags : List Char} {refusal : Engine.Refusal} (hk : t.kind = .pattern)
      (hbody : IsBody '/' body) (hflags : ∀ c ∈ flags, c ∈ Pattern.flagLetters)
      (htext : t.text.toList = '/' :: (body ++ '/' :: flags)) (hdistinct : flags.Nodup)
      (hrefused : E.refusal? (String.ofList body) (Pattern.options flags) = some refusal)
      (htrouble : refusal.trouble = .overflow) : t.Stops E (.refused refusal)

/-- The first of the tokens that decoding ends at gives this failure. -/
def IsFirstStop (E : Engine) (ts : List Token) (failure : ScanFailure) : Prop :=
  ∃ before t after, ts = before ++ t :: after ∧ t.Stops E failure ∧
    ∀ u ∈ before, ∀ other, ¬u.Stops E other

/-! ### Decoding -/

variable {E : Engine} {p : Position} {cs : List Char} {raw ts : List Token} {t : Token}
variable {failure : ScanFailure}

theorem Token.not_isUnterminated_of_text {body flags : List Char} (hbody : IsBody '/' body)
    (htext : t.text.toList = '/' :: (body ++ '/' :: flags)) : ¬IsUnterminated t.text.toList := by
  have hclosed : IsClosed '/' ('/' :: (body ++ ['/'])) := ⟨body, hbody, rfl⟩
  refine hclosed.not_isUnterminated ⟨flags, ?_⟩
  simp [htext]

theorem Token.decode_of_stops (hi : t.invalid = true → t.kind = .unknown ∨
    IsUnterminated t.text.toList) (hn : t.kind = .number → t.invalid = false)
    (h : t.Stops E failure) : t.decode E = .error failure := by
  cases h with
  | longNumeral hk hlong =>
    have hread : Text.readNumeral t.text.toList = .error ⟨t.text.toList.length⟩ := by
      rw [Text.readNumeral, if_neg (Nat.not_le.mpr hlong)]
    simp [decode, hn hk, hk, hread]
  | @overflow body flags refusal hk hbody hflags htext hdistinct hrefused htrouble =>
    have hvalid : t.invalid = false := by
      by_contra hne
      rcases hi (by simpa using hne) with hu | hu
      · simp [hk] at hu
      · exact not_isUnterminated_of_text hbody htext hu
    have hofText : Pattern.ofText E t.text = .error (.body refusal) := by
      rw [← String.ofList_toList (s := t.text), htext]
      exact (Pattern.ofText_eq_body_error_iff hflags).mpr ⟨hdistinct, hrefused⟩
    have hremark : refusal.isRemark = false := by simp [Engine.Refusal.isRemark, htrouble]
    simp [decode, hvalid, hk, hofText, Pattern.Failure.escaping?, hremark]

theorem Token.stops_of_decode (hE : E.HasUsualTrouble) (hw : t.IsWellFormed)
    (h : t.decode E = .error failure) : t.Stops E failure := by
  unfold decode at h
  split at h
  · cases h
  · next hi =>
    split at h
    · next hk =>
      split at h
      · next long hlong =>
        cases h
        unfold Text.readNumeral at hlong
        split at hlong
        · cases hlong
        · next hlength =>
          cases hlong
          exact .longNumeral hk (Nat.not_le.mp hlength)
      · cases h
    · cases h
    · next hk =>
      split at h
      · cases h
      · next hofText =>
        split at h
        · next refusal hescaping =>
          cases h
          obtain ⟨rfl, hremark⟩ := Pattern.Failure.escaping?_eq_some_iff.mp hescaping
          obtain ⟨body, flags, hbody, hflags, htext⟩ := hw.pattern hk (by simpa using hi)
          rw [← String.ofList_toList (s := t.text), htext] at hofText
          obtain ⟨hdistinct, hrefused⟩ := (Pattern.ofText_eq_body_error_iff hflags).mp hofText
          exact .overflow hk hbody hflags htext hdistinct hrefused
            ((hE.isRemark_eq_false_iff hrefused).mp hremark)
        · cases h
    · cases h

/-- Decoding fails at a token of a text exactly if the token stops it. -/
theorem Tokenizes.decode_eq_error_iff (hE : E.HasUsualTrouble) (h : Tokenizes p cs raw)
    (ht : t ∈ raw) : t.decode E = .error failure ↔ t.Stops E failure := by
  constructor
  · exact Token.stops_of_decode hE (h.isWellFormed t ht)
  · refine Token.decode_of_stops (h.invalid_iff t ht).mp ?_
    intro hk
    by_contra hi
    have hkind := h.kind_of_invalid t ht (by simpa using hi)
    simp [hk] at hkind

/-- Decoding all tokens fails as the first one does that cannot be decoded. -/
theorem Token.decodeAll_eq_error_iff : decodeAll E ts = .error failure ↔
    ∃ before t after, ts = before ++ t :: after ∧ t.decode E = .error failure ∧
      ∀ u ∈ before, ∀ other, u.decode E ≠ .error other := by
  -- the first token fails itself, or it is decoded and joins those before the one that fails
  induction ts with
  | nil => simp [decodeAll]
  | cons t ts ih =>
    rw [decodeAll]
    constructor
    · intro h
      split at h
      · next f hf =>
        cases h
        exact ⟨[], t, ts, rfl, hf, by simp⟩
      · next u es hu =>
        split at h
        · next f hf =>
          cases h
          obtain ⟨before, v, after, rfl, hv, hbefore⟩ := ih.mp hf
          refine ⟨t :: before, v, after, rfl, hv, ?_⟩
          intro w hw other
          rcases List.mem_cons.mp hw with rfl | hw
          · simp [hu]
          · exact hbefore w hw other
        · cases h
    · rintro ⟨before, v, after, heq, hv, hbefore⟩
      cases before with
      | nil =>
        obtain ⟨rfl, rfl⟩ := List.cons.inj heq
        simp only [hv]
      | cons w before =>
        obtain ⟨rfl, rfl⟩ := List.cons.inj heq
        have hrest := ih.mpr
          ⟨before, v, after, rfl, hv, fun u hu => hbefore u (List.mem_cons_of_mem _ hu)⟩
        cases hw : t.decode E with
        | error other => exact absurd hw (hbefore t (List.mem_cons_self ..) other)
        | ok decoded => simp only [hrest]

theorem Tokenizes.decodeAll_eq_error_iff (hE : E.HasUsualTrouble) (h : Tokenizes p cs raw) :
    Token.decodeAll E raw = .error failure ↔ IsFirstStop E raw failure := by
  rw [Token.decodeAll_eq_error_iff]
  constructor
  · rintro ⟨before, t, after, rfl, ht, hbefore⟩
    refine ⟨before, t, after, rfl, (h.decode_eq_error_iff hE (by simp)).mp ht, ?_⟩
    intro u hu other hstop
    exact hbefore u hu other ((h.decode_eq_error_iff hE (by simp [hu])).mpr hstop)
  · rintro ⟨before, t, after, rfl, ht, hbefore⟩
    refine ⟨before, t, after, rfl, (h.decode_eq_error_iff hE (by simp)).mpr ht, ?_⟩
    intro u hu other hfail
    exact hbefore u hu other ((h.decode_eq_error_iff hE (by simp [hu])).mp hfail)

/-! ### Scanning -/

theorem scan_eq_error_iff (hE : E.HasUsualTrouble) {text : String}
    (h : Tokenizes .start text.toList raw) :
    scan E text = .error failure ↔ IsFirstStop E raw failure := by
  rw [scan_eq, scanAll_eq h, ← h.decodeAll_eq_error_iff hE]
  cases Token.decodeAll E raw <;> simp [Except.map]

/-- Where some token stops the work, one is the first to do so. -/
theorem exists_isFirstStop (E : Engine) (ts : List Token) :
    (∃ failure, IsFirstStop E ts failure) ↔ ∃ t ∈ ts, ∃ failure, t.Stops E failure := by
  constructor
  · rintro ⟨failure, before, t, after, rfl, ht, -⟩
    exact ⟨t, by simp, failure, ht⟩
  · intro h
    induction ts with
    | nil => simp at h
    | cons t ts ih =>
      by_cases ht : ∃ failure, t.Stops E failure
      · obtain ⟨failure, ht⟩ := ht
        exact ⟨failure, [], t, ts, rfl, ht, by simp⟩
      · have hrest : ∃ u ∈ ts, ∃ failure, u.Stops E failure := by
          simpa [ht] using h
        obtain ⟨failure, before, u, after, rfl, hu, hbefore⟩ := ih hrest
        refine ⟨failure, t :: before, u, after, rfl, hu, ?_⟩
        intro v hv other hstop
        rcases List.mem_cons.mp hv with rfl | hv
        · exact ht ⟨other, hstop⟩
        · exact hbefore v hv other hstop

end StepMachine
