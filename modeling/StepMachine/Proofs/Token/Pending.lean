import StepMachine.Proofs.Token.Scanning

/-! # Pending texts

In each state the scanner has taken a certain part of a token: a run, an opened literal, an opened
literal with a backslash that waits for its character, or a closed pattern with flags. Every
character that is taken leads from such a part to one of the next state, and every part can be
completed.
-/
namespace StepMachine

theorem IsBody.append {q : Char} {cs ds : List Char} (h : IsBody q cs) (k : IsBody q ds) :
    IsBody q (cs ++ ds) := by
  induction h with
  | nil => exact k
  | escape c _ ih => exact .escape c ih
  | plain hq hb _ ih => exact .plain hq hb ih

/-- A quote and a body after it. -/
def IsOpened (q : Char) (cs : List Char) : Prop := ∃ body, IsBody q body ∧ cs = q :: body

/-- A quote and a body after it, and a backslash that escapes the character to come. -/
def IsEscaping (q : Char) (cs : List Char) : Prop :=
  ∃ body, IsBody q body ∧ cs = q :: (body ++ ['\\'])

section

variable {q c : Char} {cs : List Char}

theorem isOpened_singleton (q : Char) : IsOpened q [q] := ⟨[], .nil, rfl⟩

theorem IsOpened.plain (h : IsOpened q cs) (hq : c ≠ q) (hb : c ≠ '\\') :
    IsOpened q (cs ++ [c]) := by
  obtain ⟨body, hbody, rfl⟩ := h
  exact ⟨body ++ [c], hbody.append (.plain hq hb .nil), rfl⟩

theorem IsOpened.escape (h : IsOpened q cs) : IsEscaping q (cs ++ ['\\']) := by
  obtain ⟨body, hbody, rfl⟩ := h
  exact ⟨body, hbody, rfl⟩

theorem IsEscaping.escaped (h : IsEscaping q cs) (c : Char) : IsOpened q (cs ++ [c]) := by
  obtain ⟨body, hbody, rfl⟩ := h
  exact ⟨body ++ ['\\', c], hbody.append (.escape c .nil), by simp⟩

theorem IsOpened.isShortestClosed (h : IsOpened q cs) (hq : q ≠ '\\') (rest : List Char) :
    IsShortestClosed q (cs ++ [q]) (cs ++ [q] ++ rest) := by
  obtain ⟨body, hbody, rfl⟩ := h
  simpa using isShortestClosed_of_isBody hq hbody rest

end

namespace ScanState

/-- What is pending in a state. -/
def IsPendingText : ScanState → List Char → Prop
  | dispatch, cs => cs = []
  | name, cs => cs ≠ [] ∧ ∀ c ∈ cs, isNameLetter c = true
  | number, cs => cs ≠ [] ∧ ∀ c ∈ cs, isNumberDigit c = true
  | patternBody, cs => IsOpened '/' cs
  | patternEscape, cs => IsEscaping '/' cs
  | patternFlags, cs => ∃ opened flags, IsOpened '/' opened ∧
    (∀ c ∈ flags, Pattern.flagLetters.contains c = true) ∧ cs = opened ++ '/' :: flags
  | doubleString, cs => IsOpened '"' cs
  | doubleStringEscape, cs => IsEscaping '"' cs
  | singleString, cs => IsOpened '\x27' cs
  | singleStringEscape, cs => IsEscaping '\x27' cs

variable {st next : ScanState} {c q : Char} {cs : List Char} {body escape : ScanState}

/-! ### Moves -/

theorem isPendingText_of_dispatchMove (h : dispatchMove c = .take next) :
    next.IsPendingText [c] := by
  unfold dispatchMove at h
  split at h
  · cases h
  · split_ifs at h with hblank hletter hdigit hslash hdouble hsingle
    · cases h
      exact ⟨List.cons_ne_nil _ _, by simpa [isNameLetter] using hletter⟩
    · cases h
      exact ⟨List.cons_ne_nil _ _, by simpa [isNumberDigit] using hdigit⟩
    · cases h
      exact hslash ▸ isOpened_singleton '/'
    · cases h
      exact hdouble ▸ isOpened_singleton '"'
    · cases h
      exact hsingle ▸ isOpened_singleton '\x27'

theorem eq_of_run {p : Char → Bool} {kind : TokenKind}
    (h : (if p c then ScanMove.take st else .handBack kind) = .take next) :
    p c = true ∧ next = st := by
  split at h
  · next hc =>
    cases h
    exact ⟨hc, rfl⟩
  · cases h

/-- Inside a string a character that is taken is part of an escape or a plain one. -/
theorem cases_of_stringMove (h : stringMove q body escape c = .take next) :
    (c = '\\' ∧ next = escape) ∨ (c ≠ q ∧ c ≠ '\\' ∧ next = body) := by
  unfold stringMove at h
  split_ifs at h with hb hq
  · cases h
    exact .inl ⟨hb, rfl⟩
  · cases h
    exact .inr ⟨hq, hb, rfl⟩

/-- A character that is taken goes on with what is pending. -/
theorem IsPendingText.take (h : st.IsPendingText cs) (hm : st.move c = .take next) :
    next.IsPendingText (cs ++ [c]) := by
  cases st with
  | dispatch =>
    obtain rfl : cs = [] := h
    exact isPendingText_of_dispatchMove hm
  | name =>
    obtain ⟨hc, rfl⟩ := eq_of_run (p := isNameLetter) hm
    exact ⟨by simp, List.forall_mem_append.mpr ⟨h.2, List.forall_mem_singleton.mpr hc⟩⟩
  | number =>
    obtain ⟨hc, rfl⟩ := eq_of_run (p := isNumberDigit) hm
    exact ⟨by simp, List.forall_mem_append.mpr ⟨h.2, List.forall_mem_singleton.mpr hc⟩⟩
  | patternBody =>
    simp only [move] at hm
    split_ifs at hm with hb hs
    · cases hm
      exact hb ▸ IsOpened.escape h
    · cases hm
      exact ⟨cs, [], h, by simp, by rw [hs]⟩
    · cases hm
      exact IsOpened.plain h hs hb
  | patternEscape =>
    cases hm
    exact IsEscaping.escaped h c
  | patternFlags =>
    obtain ⟨hc, rfl⟩ := eq_of_run (p := Pattern.flagLetters.contains) hm
    obtain ⟨opened, flags, hopened, hflags, rfl⟩ := h
    exact ⟨opened, flags ++ [c], hopened,
      List.forall_mem_append.mpr ⟨hflags, List.forall_mem_singleton.mpr hc⟩, by simp⟩
  | doubleString =>
    obtain ⟨rfl, rfl⟩ | ⟨hq, hb, rfl⟩ := cases_of_stringMove hm
    · exact IsOpened.escape h
    · exact IsOpened.plain h hq hb
  | doubleStringEscape =>
    cases hm
    exact IsEscaping.escaped h c
  | singleString =>
    obtain ⟨rfl, rfl⟩ | ⟨hq, hb, rfl⟩ := cases_of_stringMove hm
    · exact IsOpened.escape h
    · exact IsOpened.plain h hq hb
  | singleStringEscape =>
    cases hm
    exact IsEscaping.escaped h c

/-! ### What is pending can be completed -/

theorem IsPendingText.ne_nil (h : st.IsPendingText cs) (hst : st ≠ .dispatch) : cs ≠ [] := by
  have hopened : ∀ q, IsOpened q cs → cs ≠ [] := by
    rintro q ⟨body, -, rfl⟩
    exact List.cons_ne_nil _ _
  have hescaping : ∀ q, IsEscaping q cs → cs ≠ [] := by
    rintro q ⟨body, -, rfl⟩
    exact List.cons_ne_nil _ _
  cases st with
  | dispatch => exact absurd rfl hst
  | name | number => exact h.1
  | patternFlags =>
    obtain ⟨opened, flags, -, -, rfl⟩ := h
    simp
  | patternBody | doubleString | singleString => exact hopened _ h
  | patternEscape | doubleStringEscape | singleStringEscape => exact hescaping _ h

theorem isMaximalRun_nil {p : Char → Bool} (h : ∀ c ∈ cs, p c = true) : IsMaximalRun p cs [] :=
  ⟨h, by simp⟩

theorem lexeme_of_opened_string (hq : q ∈ stringQuotes) (h : IsOpened q cs) :
    Lexeme (cs ++ [q]) [] .string false := by
  have hne : q ≠ '\\' := by
    rintro rfl
    exact absurd hq (by decide)
  exact .string hq (h.isShortestClosed hne [])

theorem lexeme_of_opened_pattern (h : IsOpened '/' cs) (flags : List Char)
    (hflags : ∀ c ∈ flags, Pattern.flagLetters.contains c = true) :
    Lexeme (cs ++ '/' :: flags) [] .pattern false := by
  have hlexeme : Lexeme (cs ++ ['/'] ++ flags) [] .pattern false :=
    .pattern (h.isShortestClosed (by decide) _) (isMaximalRun_nil hflags)
  rwa [List.append_assoc, List.singleton_append] at hlexeme

/-- Whatever is pending, some undamaged token of the kind that is then emitted begins with it. -/
theorem IsPendingText.exists_lexeme {kind : TokenKind} {report : Option Code}
    (h : st.IsPendingText cs) (hst : st.pending? = some (kind, report)) :
    ∃ more, Lexeme (cs ++ more) [] kind false := by
  have hstring : ∀ q ∈ stringQuotes, IsOpened q cs → ∃ more, Lexeme (cs ++ more) [] .string false :=
    fun q hq hopened => ⟨_, lexeme_of_opened_string hq hopened⟩
  have hstringEscape : ∀ q ∈ stringQuotes, IsEscaping q cs →
      ∃ more, Lexeme (cs ++ more) [] .string false := by
    -- The backslash takes the first quote, the second one closes the string.
    intro q hq hescaping
    refine ⟨[q, q], ?_⟩
    rw [List.append_cons]
    exact lexeme_of_opened_string hq (hescaping.escaped q)
  cases st with
  | dispatch => cases hst
  | name =>
    cases hst
    exact ⟨[], by simpa using Lexeme.name h.1 (isMaximalRun_nil h.2)⟩
  | number =>
    cases hst
    exact ⟨[], by simpa using Lexeme.number h.1 (isMaximalRun_nil h.2)⟩
  | patternBody =>
    cases hst
    exact ⟨_, lexeme_of_opened_pattern h [] (by simp)⟩
  | patternEscape =>
    cases hst
    refine ⟨['/', '/'], ?_⟩
    rw [List.append_cons]
    exact lexeme_of_opened_pattern (IsEscaping.escaped h '/') [] (by simp)
  | patternFlags =>
    cases hst
    obtain ⟨opened, flags, hopened, hflags, rfl⟩ := h
    exact ⟨[], by simpa using lexeme_of_opened_pattern hopened flags hflags⟩
  | doubleString =>
    cases hst
    exact hstring '"' (by decide) h
  | doubleStringEscape =>
    cases hst
    exact hstringEscape '"' (by decide) h
  | singleString =>
    cases hst
    exact hstring '\x27' (by decide) h
  | singleStringEscape =>
    cases hst
    exact hstringEscape '\x27' (by decide) h

end ScanState

end StepMachine
