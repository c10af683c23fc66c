import Mathlib.Data.List.Basic
import Mathlib.Data.List.TakeWhile
import StepMachine.Text.Blank
import StepMachine.Text.Letter
import StepMachine.Token

/-! # The lexical grammar

What the tokens of a text are, told without a machine. Names and numbers are maximal runs. A
literal is the shortest one that is closed, where a backslash and the character after it count as
one and close nothing; if there is none, the literal takes all that is left and is damaged. Every
text is cut into tokens in this way.
-/
namespace StepMachine

/-! ### Blanks -/

theorem Text.isBlankCode_range {code : Nat} (h : isBlankCode code = true) :
    code ≤ 0x20 ∨ 0x80 ≤ code := by
  by_contra hn
  have hcode : 0x20 < code ∧ code < 0x80 := by omega
  simp only [isBlankCode, inRanges, blankRanges, rangeStart?] at h
  grind

theorem Text.isBlank_of_isAsciiDigit {c : Char} (h : isAsciiDigit c.toNat = true) :
    isBlank c = false := by
  simp only [isAsciiDigit, Bool.and_eq_true, decide_eq_true_eq] at h
  by_contra hblank
  have hrange := isBlankCode_range (Bool.of_not_eq_false hblank)
  omega

/-! ### Runs -/

/-- All the characters are so, and the rest does not go on with another one. -/
structure IsMaximalRun (p : Char → Bool) (cs rest : List Char) : Prop where
  all : ∀ c ∈ cs, p c = true
  stops : ∀ c ∈ rest.head?, p c = false

theorem isMaximalRun_takeWhile (p : Char → Bool) (cs : List Char) :
    IsMaximalRun p (cs.takeWhile p) (cs.dropWhile p) where
  all := fun c hc => List.mem_takeWhile_imp hc
  stops := by
    intro c hc
    have hne : cs.dropWhile p ≠ [] := by
      intro he
      simp [he] at hc
    have hhead := List.head_dropWhile_not p hne
    rwa [List.head_of_mem_head? hc] at hhead

/-! ### Literals between quotes -/

/-- The inside of a literal: a backslash with any one character, or any character but the quote
and the backslash, again and again. -/
inductive IsBody (q : Char) : List Char → Prop
  | nil : IsBody q []
  | escape (c : Char) {cs : List Char} (h : IsBody q cs) : IsBody q ('\\' :: c :: cs)
  | plain {c : Char} {cs : List Char} (hq : c ≠ q) (hb : c ≠ '\\') (h : IsBody q cs) :
      IsBody q (c :: cs)

/-- The text is a body between two quotes. -/
def IsClosed (q : Char) (cs : List Char) : Prop :=
  ∃ body, IsBody q body ∧ cs = q :: (body ++ [q])

/-- Of all closed literals that the text begins with this is the shortest. -/
structure IsShortestClosed (q : Char) (literal text : List Char) : Prop where
  closed : IsClosed q literal
  begins : literal <+: text
  shortest : ∀ l, l <+: text → IsClosed q l → literal.length ≤ l.length

/-- The text does not begin with a closed literal. -/
def NeverCloses (q : Char) (text : List Char) : Prop := ∀ l, l <+: text → ¬IsClosed q l

variable {q : Char}

/-- The first quote that is not part of an escape ends the body. -/
theorem IsBody.append_inj (hq : q ≠ '\\') {b b' t t' : List Char} (hb : IsBody q b)
    (hb' : IsBody q b') (h : b ++ q :: t = b' ++ q :: t') : b = b' := by
  induction hb generalizing b' with
  | nil =>
    cases hb' with
    | nil => rfl
    | escape c _ => exact absurd (List.cons.inj h).1 hq
    | plain hne _ _ => exact absurd (List.cons.inj h).1.symm hne
  | escape c _ ih =>
    cases hb' with
    | nil => exact absurd (List.cons.inj h).1.symm hq
    | escape d k =>
      simp only [List.cons_append, List.cons.injEq, true_and] at h
      rw [h.1, ih k h.2]
    | plain _ hne _ => exact absurd (List.cons.inj h).1.symm hne
  | plain hne hne' _ ih =>
    cases hb' with
    | nil => exact absurd (List.cons.inj h).1 hne
    | escape d _ => exact absurd (List.cons.inj h).1 hne'
    | plain _ _ k =>
      simp only [List.cons_append, List.cons.injEq] at h
      rw [h.1, ih k h.2]

/-- Either a text has a body with a quote after it, or all of it is a body, but for a backslash
that may stand last. -/
theorem body_cases (q : Char) (cs : List Char) :
    (∃ body rest, IsBody q body ∧ cs = body ++ q :: rest) ∨
      ∃ body, IsBody q body ∧ (cs = body ∨ cs = body ++ ['\\']) := by
  induction hn : cs.length using Nat.strong_induction_on generalizing cs with
  | _ n ih =>
    cases cs with
    | nil => exact .inr ⟨[], .nil, .inl rfl⟩
    | cons c cs =>
      rw [List.length_cons] at hn
      by_cases hq : c = q
      · exact .inl ⟨[], cs, .nil, by simp [hq]⟩
      by_cases hb : c = '\\'
      · subst hb
        cases cs with
        | nil => exact .inr ⟨[], .nil, .inr rfl⟩
        | cons d cs =>
          rw [List.length_cons] at hn
          obtain ⟨body, rest, h, rfl⟩ | ⟨body, h, hcs⟩ := ih cs.length (by omega) cs rfl
          · exact .inl ⟨_, rest, h.escape d, rfl⟩
          · exact .inr ⟨_, h.escape d, hcs.imp (by rintro rfl; rfl) (by rintro rfl; rfl)⟩
      · obtain ⟨body, rest, h, rfl⟩ | ⟨body, h, hcs⟩ := ih cs.length (by omega) cs rfl
        · exact .inl ⟨_, rest, h.plain hq hb, rfl⟩
        · exact .inr ⟨_, h.plain hq hb, hcs.imp (by rintro rfl; rfl) (by rintro rfl; rfl)⟩

/-- There is only one closed literal to begin with, so it is the shortest. -/
theorem isShortestClosed_of_isBody (hq : q ≠ '\\') {body : List Char} (h : IsBody q body)
    (rest : List Char) : IsShortestClosed q (q :: (body ++ [q])) (q :: (body ++ q :: rest)) where
  closed := ⟨body, h, rfl⟩
  begins := ⟨rest, by simp⟩
  shortest := by
    rintro l ⟨t, ht⟩ ⟨body', h', rfl⟩
    have heq : body' ++ q :: t = body ++ q :: rest := by simpa using ht
    rw [h'.append_inj hq h heq]

/-! ### Lexemes -/

def isNameLetter (c : Char) : Bool := Text.isAsciiLetter c.toNat

def isNumberDigit (c : Char) : Bool := Text.isAsciiDigit c.toNat

def stringQuotes : List Char := ['"', '\x27']

/-- No token but one for itself starts with the character. -/
structure StartsNothing (c : Char) : Prop where
  not_mark : punctuation.lookup c = none
  not_letter : isNameLetter c = false
  not_digit : isNumberDigit c = false
  not_quote : c ∉ stringQuotes
  not_slash : c ≠ '/'

/-- At the start of a text, the first part is a token of this kind and the second is the rest. The
last argument says whether the token is damaged. -/
inductive Lexeme : List Char → List Char → TokenKind → Bool → Prop
  | mark {c : Char} {rest : List Char} {kind : TokenKind}
      (h : punctuation.lookup c = some kind) : Lexeme [c] rest kind false
  | name {cs rest : List Char} (hne : cs ≠ []) (h : IsMaximalRun isNameLetter cs rest) :
      Lexeme cs rest .name false
  | number {cs rest : List Char} (hne : cs ≠ []) (h : IsMaximalRun isNumberDigit cs rest) :
      Lexeme cs rest .number false
  | string {q : Char} {literal rest : List Char} (hq : q ∈ stringQuotes)
      (h : IsShortestClosed q literal (literal ++ rest)) : Lexeme literal rest .string false
  | openString {q : Char} {cs : List Char} (hq : q ∈ stringQuotes)
      (h : NeverCloses q (q :: cs)) : Lexeme (q :: cs) [] .string true
  | pattern {literal flags rest : List Char}
      (h : IsShortestClosed '/' literal (literal ++ (flags ++ rest)))
      (hf : IsMaximalRun Pattern.flagLetters.contains flags rest) :
      Lexeme (literal ++ flags) rest .pattern false
  | openPattern {cs : List Char} (h : NeverCloses '/' ('/' :: cs)) :
      Lexeme ('/' :: cs) [] .pattern true
  | unknown {c : Char} {rest : List Char} (h : StartsNothing c) : Lexeme [c] rest .unknown true

theorem Lexeme.ne_nil {text rest : List Char} {kind : TokenKind} {damaged : Bool}
    (h : Lexeme text rest kind damaged) : text ≠ [] := by
  cases h with
  | name hne _ => exact hne
  | number hne _ => exact hne
  | string _ h =>
    obtain ⟨body, -, rfl⟩ := h.closed
    exact List.cons_ne_nil _ _
  | pattern h _ =>
    obtain ⟨body, -, rfl⟩ := h.closed
    exact List.cons_ne_nil _ _
  | _ => exact List.cons_ne_nil _ _

theorem mem_punctuation {c : Char} {kind : TokenKind} (h : punctuation.lookup c = some kind) :
    (c, kind) ∈ punctuation := by
  obtain ⟨before, after, hmarks, -⟩ := List.lookup_eq_some_iff.mp h
  simp [hmarks]

theorem kind_of_mark {c : Char} {kind : TokenKind} (h : punctuation.lookup c = some kind) :
    kind ≠ .pattern ∧ kind ≠ .eof := by
  have hkinds : ∀ m ∈ punctuation, m.2 ≠ .pattern ∧ m.2 ≠ .eof := by decide
  exact hkinds _ (mem_punctuation h)

theorem Lexeme.kind_ne_eof {text rest : List Char} {kind : TokenKind} {damaged : Bool}
    (h : Lexeme text rest kind damaged) : kind ≠ .eof := by
  cases h with
  | mark hmark => exact (kind_of_mark hmark).2
  | _ => decide

theorem closed_or_neverCloses (hq : q ≠ '\\') (cs : List Char) :
    (∃ literal rest, q :: cs = literal ++ rest ∧ IsShortestClosed q literal (q :: cs)) ∨
      NeverCloses q (q :: cs) := by
  by_cases h : NeverCloses q (q :: cs)
  · exact .inr h
  · obtain ⟨l, hl⟩ := not_forall.mp h
    obtain ⟨⟨rest, hrest⟩, hclosed⟩ := Classical.not_imp.mp hl
    obtain ⟨body, hbody, rfl⟩ := not_not.mp hclosed
    have htext : q :: cs = q :: (body ++ q :: rest) := by simpa using hrest.symm
    exact .inl ⟨_, rest, by simpa using htext, htext ▸ isShortestClosed_of_isBody hq hbody rest⟩

theorem exists_lexeme (c : Char) (cs : List Char) :
    ∃ text rest kind damaged, c :: cs = text ++ rest ∧ Lexeme text rest kind damaged := by
  have hrun : ∀ p : Char → Bool, p c = true → ∃ text rest, c :: cs = text ++ rest ∧ text ≠ [] ∧
      IsMaximalRun p text rest := by
    intro p hp
    refine ⟨(c :: cs).takeWhile p, (c :: cs).dropWhile p,
      List.takeWhile_append_dropWhile.symm, ?_, isMaximalRun_takeWhile p _⟩
    rw [List.takeWhile_cons_of_pos hp]
    exact List.cons_ne_nil _ _
  cases hmark : punctuation.lookup c with
  | some kind => exact ⟨[c], cs, kind, false, rfl, .mark hmark⟩
  | none =>
    by_cases hletter : isNameLetter c = true
    · obtain ⟨text, rest, heq, hne, h⟩ := hrun isNameLetter hletter
      exact ⟨text, rest, _, _, heq, .name hne h⟩
    by_cases hdigit : isNumberDigit c = true
    · obtain ⟨text, rest, heq, hne, h⟩ := hrun isNumberDigit hdigit
      exact ⟨text, rest, _, _, heq, .number hne h⟩
    by_cases hquote : c ∈ stringQuotes
    · have hc : c ≠ '\\' := by
        rintro rfl
        exact absurd hquote (by decide)
      obtain ⟨literal, rest, heq, h⟩ | h := closed_or_neverCloses hc cs
      · exact ⟨literal, rest, _, _, heq, .string hquote (heq ▸ h)⟩
      · exact ⟨c :: cs, [], _, _, (List.append_nil _).symm, .openString hquote h⟩
    -- the flags of a pattern are the run of flag letters after its closing slash
    by_cases hslash : c = '/'
    · subst hslash
      obtain ⟨literal, after, heq, h⟩ | h := closed_or_neverCloses (q := '/') (by decide) cs
      · have hsplit := List.takeWhile_append_dropWhile
          (p := Pattern.flagLetters.contains) (l := after)
        refine ⟨literal ++ _, _, _, _, ?_, .pattern ?_ (isMaximalRun_takeWhile _ after)⟩
        · rw [heq, List.append_assoc, hsplit]
        · rw [hsplit, ← heq]
          exact h
      · exact ⟨'/' :: cs, [], _, _, (List.append_nil _).symm, .openPattern h⟩
    · exact ⟨[c], cs, _, _, rfl, .unknown
        ⟨hmark, by simpa using hletter, by simpa using hdigit, hquote, hslash⟩⟩

/-! ### Tokens of a text -/

/-- From the place `p` on, the text is cut into these tokens, which are not yet decoded. -/
inductive Tokenizes : Position → List Char → List Token → Prop
  | ending (p : Position) : Tokenizes p [] [⟨.eof, "", p, none, false⟩]
  | blank {p : Position} {c : Char} {cs : List Char} {ts : List Token}
      (hc : Text.isBlank c = true) (h : Tokenizes (p.advance c) cs ts) : Tokenizes p (c :: cs) ts
  | token {p : Position} {text rest : List Char} {kind : TokenKind} {damaged : Bool}
      {ts : List Token} (hb : ∀ c ∈ text.head?, Text.isBlank c = false)
      (hl : Lexeme text rest kind damaged) (h : Tokenizes (p.advanceOver text) rest ts) :
      Tokenizes p (text ++ rest) (⟨kind, String.ofList text, p, none, damaged⟩ :: ts)

/-- A token of a text is a lexeme of it, or the one of the end. -/
theorem Tokenizes.lexeme_or_end {p : Position} {cs : List Char} {ts : List Token}
    (h : Tokenizes p cs ts) : ∀ t ∈ ts, (∃ rest, Lexeme t.text.toList rest t.kind t.invalid) ∨
      t.kind = .eof ∧ t.text = "" ∧ t.invalid = false := by
  induction h with
  | ending p =>
    intro t ht
    rw [List.mem_singleton.mp ht]
    exact .inr ⟨rfl, rfl, rfl⟩
  | blank _ _ ih => exact ih
  | @token _ text rest kind damaged _ _ hl _ ih =>
    intro t ht
    rcases List.mem_cons.mp ht with rfl | ht
    · refine .inl ⟨rest, ?_⟩
      rwa [String.toList_ofList]
    · exact ih t ht

theorem Tokenizes.eq_of_nil {p : Position} {cs : List Char} {ts : List Token}
    (h : Tokenizes p cs ts) (hcs : cs = []) : ts = [⟨.eof, "", p, none, false⟩] := by
  cases h with
  | ending p => rfl
  | blank _ _ => cases hcs
  | token _ hl _ => exact absurd (List.append_eq_nil_iff.mp hcs).1 hl.ne_nil

theorem exists_tokenizes (p : Position) (cs : List Char) : ∃ ts, Tokenizes p cs ts := by
  induction hn : cs.length using Nat.strong_induction_on generalizing p cs with
  | _ n ih =>
    cases cs with
    | nil => exact ⟨_, .ending p⟩
    | cons c cs =>
      by_cases hc : Text.isBlank c = true
      · obtain ⟨ts, h⟩ := ih cs.length (by simp [← hn]) (p.advance c) cs rfl
        exact ⟨ts, .blank hc h⟩
      · obtain ⟨text, rest, kind, damaged, heq, hl⟩ := exists_lexeme c cs
        have hpos := List.length_pos_iff.mpr hl.ne_nil
        have hlen := congrArg List.length heq
        rw [List.length_append] at hlen
        obtain ⟨ts, h⟩ := ih rest.length (by omega) (p.advanceOver text) rest rfl
        rw [heq]
        refine ⟨_, .token ?_ hl h⟩
        intro d hd
        have hhead : (c :: cs).head? = some d := by
          rw [heq, List.head?_append_of_ne_nil _ hl.ne_nil]
          exact hd
        obtain rfl : c = d := Option.some.inj hhead
        simpa using hc

end StepMachine
