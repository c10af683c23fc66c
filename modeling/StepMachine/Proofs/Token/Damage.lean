import StepMachine.Proofs.Token.Decoding

/-! # Damaged tokens and the reports on them

The scanner damages a character that starts nothing and a literal that is never closed, and
decoding makes a refused pattern invalid. Each report is on an invalid token, and only
strings, patterns and unknown characters are ever invalid.
-/
namespace StepMachine

/-- The text opens a literal and does not close it. -/
def IsUnterminated (text : List Char) : Prop :=
  ∃ q cs, q ∈ '/' :: stringQuotes ∧ text = q :: cs ∧ NeverCloses q text

theorem IsClosed.not_isUnterminated {q : Char} {literal text : List Char}
    (h : IsClosed q literal) (hpre : literal <+: text) : ¬IsUnterminated text := by
  rintro ⟨q', cs, -, htext, hnever⟩
  obtain ⟨body, hbody, hliteral⟩ := h
  obtain ⟨rest, hrest⟩ := id hpre
  have hq : q = q' := by
    have heq : q :: (body ++ [q] ++ rest) = q' :: cs := by
      rw [← htext, ← hrest, hliteral, List.cons_append]
    exact (List.cons.inj heq).1
  exact hnever literal hpre ⟨body, hq ▸ hbody, hq ▸ hliteral⟩

theorem not_isUnterminated_nil : ¬IsUnterminated [] := by
  rintro ⟨q, cs, -, heq, -⟩
  cases heq

theorem not_isUnterminated_of_head {c : Char} {cs : List Char} (hc : c ∉ '/' :: stringQuotes) :
    ¬IsUnterminated (c :: cs) := by
  rintro ⟨q, ds, hq, heq, -⟩
  obtain ⟨rfl, -⟩ := List.cons.inj heq
  exact hc hq

theorem not_mem_quotes {p : Char → Bool} {c : Char}
    (hp : ('/' :: stringQuotes).any p = false) (hc : p c = true) : c ∉ '/' :: stringQuotes :=
  fun hq => List.any_eq_false.mp hp c hq hc

theorem not_isUnterminated_of_run {p : Char → Bool} {cs : List Char}
    (hp : ('/' :: stringQuotes).any p = false) (hne : cs ≠ []) (hall : ∀ c ∈ cs, p c = true) :
    ¬IsUnterminated cs := by
  obtain ⟨c, ds, rfl⟩ := List.exists_cons_of_ne_nil hne
  exact not_isUnterminated_of_head (not_mem_quotes hp (hall c (List.mem_cons_self ..)))

variable {text rest : List Char} {kind : TokenKind} {damaged : Bool}

/-- Damaged is what starts nothing and what is not closed. -/
theorem Lexeme.damaged_iff (h : Lexeme text rest kind damaged) :
    damaged = true ↔ kind = .unknown ∨ IsUnterminated text := by
  cases h with
  | @mark c _ _ hmark =>
    have hkinds : ∀ m ∈ punctuation, m.2 ≠ .unknown := by decide
    have hkind : kind ≠ .unknown := hkinds _ (mem_punctuation hmark)
    have hquote : c ∉ '/' :: stringQuotes := by
      intro hc
      have hnone := ScanState.lookup_punctuation_eq_none
        (p := ('/' :: stringQuotes).contains) (by decide) (List.contains_iff_mem.mpr hc)
      rw [hnone] at hmark
      cases hmark
    simp [hkind, not_isUnterminated_of_head hquote]
  | name hne hrun =>
    simp [not_isUnterminated_of_run (p := isNameLetter) (by decide) hne hrun.all]
  | number hne hrun =>
    simp [not_isUnterminated_of_run (p := isNumberDigit) (by decide) hne hrun.all]
  | string _ hclosed => simp [hclosed.closed.not_isUnterminated (List.prefix_refl _)]
  | @openString q cs hq hnever =>
    have hopen : IsUnterminated (q :: cs) := ⟨q, cs, List.mem_cons_of_mem _ hq, rfl, hnever⟩
    simp [hopen]
  | pattern hclosed _ => simp [hclosed.closed.not_isUnterminated (List.prefix_append _ _)]
  | @openPattern cs hnever =>
    have hopen : IsUnterminated ('/' :: cs) := ⟨'/', cs, List.mem_cons_self .., rfl, hnever⟩
    simp [hopen]
  | unknown _ => simp

theorem Lexeme.kind_of_damaged (h : Lexeme text rest kind damaged) (hd : damaged = true) :
    kind = .string ∨ kind = .pattern ∨ kind = .unknown := by
  cases h <;> simp_all

theorem StartsNothing.not_isUnterminated {c : Char} (h : StartsNothing c) :
    ¬IsUnterminated [c] := by
  apply not_isUnterminated_of_head
  intro hq
  rcases List.mem_cons.mp hq with rfl | hq
  · exact h.not_slash rfl
  · exact h.not_quote hq

/-- A literal that is not closed takes all that is left. -/
theorem Lexeme.rest_eq_nil (h : Lexeme text rest kind damaged) (ht : IsUnterminated text) :
    rest = [] := by
  have hd := h.damaged_iff.mpr (.inr ht)
  cases h with
  | unknown hc => exact absurd ht hc.not_isUnterminated
  | openString => rfl
  | openPattern => rfl
  | _ => simp at hd

theorem Lexeme.kind_of_isUnterminated (h : Lexeme text rest kind damaged)
    (ht : IsUnterminated text) : kind = .string ∨ kind = .pattern := by
  have hd := h.damaged_iff.mpr (.inr ht)
  cases h with
  | unknown hc => exact absurd ht hc.not_isUnterminated
  | openString => exact .inl rfl
  | openPattern => exact .inr rfl
  | _ => simp at hd

section

variable {p : Position} {cs : List Char} {raw : List Token}

theorem Tokenizes.invalid_iff (h : Tokenizes p cs raw) : ∀ t ∈ raw,
    t.invalid = true ↔ t.kind = .unknown ∨ IsUnterminated t.text.toList := by
  intro t ht
  rcases h.lexeme_or_end t ht with ⟨rest, hl⟩ | ⟨hk, htext, hi⟩
  · exact hl.damaged_iff
  · simp [hk, htext, hi, not_isUnterminated_nil]

theorem Tokenizes.kind_of_invalid (h : Tokenizes p cs raw) : ∀ t ∈ raw, t.invalid = true →
    t.kind = .string ∨ t.kind = .pattern ∨ t.kind = .unknown := by
  intro t ht hinvalid
  rcases h.lexeme_or_end t ht with ⟨rest, hl⟩ | ⟨-, -, hi⟩
  · exact hl.kind_of_damaged hinvalid
  · simp [hi] at hinvalid

end

/-! ### Reports on damage -/

namespace Token

variable {t : Token} {d : Diagnostic}

theorem mem_damage (hd : d ∈ t.damage) : t.invalid = true ∧ d.position = t.position ∧
    d.code ∈ [.unknownCharacter, .unterminatedString, .unterminatedPattern] := by
  unfold damage at hd
  split at hd
  · next hi =>
    refine ⟨hi, ?_⟩
    split at hd
    · obtain ⟨c, -, rfl⟩ := List.mem_map.mp hd
      exact ⟨rfl, by simp [Diagnostic.code, Cause.code]⟩
    · rw [List.mem_singleton.mp hd]
      exact ⟨rfl, by simp [Diagnostic.code, Cause.code]⟩
    · rw [List.mem_singleton.mp hd]
      exact ⟨rfl, by simp [Diagnostic.code, Cause.code]⟩
    · simp at hd
  · simp at hd

end Token

/-! ### The tokens of a source text -/

variable {E : Engine} {source : String} {tokens raw : List Token} {scanned : List Diagnostic}

/-- The tokens that a text is cut into are decoded, and the reports on the damaged ones come before
those on the refused patterns. -/
theorem scanAll_eq (h : Tokenizes .start source.toList raw) :
    scanAll E source = (Token.decodeAll E raw).map fun decoded =>
      (decoded.1, raw.flatMap Token.damage ++ decoded.2) := by
  obtain ⟨-, hdamage⟩ := h.runOut_spec .start ⟨rfl, rfl⟩ rfl
  have hempty : Scanner.start.diagnostics.toList = [] := rfl
  rw [hempty, List.nil_append] at hdamage
  rw [scanAll, lex_ofText, ← tokenizes_iff.mp h]
  cases Token.decodeAll E raw with
  | error failure => rfl
  | ok decoded =>
    simp only [Except.map, hdamage]

theorem scan_eq (E : Engine) (source : String) : scan E source = (scanAll E source).map Prod.fst := by
  rw [scan]
  cases scanAll E source <;> rfl

theorem scan_of_scanAll (h : scanAll E source = .ok (tokens, scanned)) :
    scan E source = .ok tokens := by
  rw [scan_eq, h]
  rfl

theorem exists_decodeAll_of_scanAll (h : scanAll E source = .ok (tokens, scanned)) :
    ∃ raw refused, Tokenizes .start source.toList raw ∧
      Token.decodeAll E raw = .ok (tokens, refused) ∧
      scanned = raw.flatMap Token.damage ++ refused := by
  have hraw : Tokenizes .start source.toList (rawTokens source.toList) := tokenizes_iff.mpr rfl
  rw [scanAll_eq hraw] at h
  cases hd : Token.decodeAll E (rawTokens source.toList) with
  | error failure =>
    rw [hd] at h
    cases h
  | ok decoded =>
    rw [hd] at h
    cases h
    exact ⟨_, decoded.2, hraw, hd, rfl⟩

/-- Every report of the scanner is on an invalid token. -/
theorem scanAll_reports (h : scanAll E source = .ok (tokens, scanned)) : ∀ d ∈ scanned,
    d.code.category = "lexer" ∧ ∃ t ∈ tokens, t.invalid = true ∧ t.position = d.position := by
  obtain ⟨raw, refused, hraw, hdecode, rfl⟩ := exists_decodeAll_of_scanAll h
  intro d hd
  rcases List.mem_append.mp hd with hd | hd
  · obtain ⟨t, ht, hdamage⟩ := List.mem_flatMap.mp hd
    obtain ⟨hi, hp, hcode⟩ := Token.mem_damage hdamage
    obtain ⟨u, hu, es, hok⟩ := Token.exists_decoded hdecode ht
    have hposition := (Token.decode_fields hok).2.2
    have hlexer : ∀ c ∈ [Code.unknownCharacter, .unterminatedString, .unterminatedPattern],
        c.category = "lexer" := by decide
    refine ⟨hlexer _ hcode, u, hu, ?_, hposition.trans hp.symm⟩
    rcases Token.decode_reports hok with ⟨hi', -⟩ | ⟨-, hi', -⟩
    · exact hi'.trans hi
    · exact hi'
  · obtain ⟨t, -, u, hu, es, hok, hmem⟩ := Token.exists_refused hdecode hd
    rcases Token.decode_reports hok with ⟨-, rfl⟩ | ⟨-, hi, failure, rfl⟩
    · simp at hmem
    · rw [List.mem_singleton.mp hmem]
      exact ⟨rfl, u, hu, hi, (Token.decode_fields hok).2.2⟩

/-- Names, numbers and marks are never invalid. -/
theorem kind_of_invalid (h : scanAll E source = .ok (tokens, scanned)) {t : Token}
    (ht : t ∈ tokens) (hi : t.invalid = true) :
    t.kind = .string ∨ t.kind = .pattern ∨ t.kind = .unknown := by
  obtain ⟨raw, refused, hraw, hdecode, -⟩ := exists_decodeAll_of_scanAll h
  obtain ⟨s, hs, es, hok⟩ := Token.exists_undecoded hdecode ht
  rw [(Token.decode_fields hok).1]
  rcases Token.decode_reports hok with ⟨hi', -⟩ | ⟨hk, -⟩
  · exact hraw.kind_of_invalid s hs (hi'.symm.trans hi)
  · exact .inr (.inl hk)

end StepMachine
