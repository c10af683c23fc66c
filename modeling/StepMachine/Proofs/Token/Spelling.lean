import StepMachine.Proofs.Numeral
import StepMachine.Proofs.Position
import StepMachine.Proofs.Token.Damage

/-! # How literals are spelled

A value that is spelled as a literal is read back by the scanner, provided that the inside of the
literal escapes its quotes and backslashes. Since decoding removes no backslash, the value of a
string is what stands between its quotes, and a pattern keeps its body and flags, so the literals
found in a text can be spelled again from their values.
-/
namespace StepMachine

variable {E : Engine} {text : String} {tokens : List Token} {t u : Token} {kind : TokenKind}

/-! ### Undamaged tokens -/

/-- An undamaged token is a lexeme of the text, read by a machine that is idle where it starts. -/
theorem exists_lexeme_of_scan (h : scan E text = .ok tokens) (ht : t ∈ tokens)
    (hi : t.invalid = false) (hk : t.kind ≠ .eof) : t.IsValued E ∧
      ∃ (pre rest : List Char) (u : Scanner), text.toList = pre ++ (t.text.toList ++ rest) ∧
        t.position.index = pre.length ∧ Lexeme t.text.toList rest t.kind false ∧ u.IsIdle ∧
        ∀ ds, ds ≠ [] → ds <+: t.text.toList ++ rest →
          Scanner.start.feedAll (pre ++ ds) = u.feedAll ds := by
  obtain ⟨refused, hdecode⟩ := exists_decodeAll h
  have hraw : Tokenizes .start text.toList (rawTokens text.toList) := tokenizes_iff.mpr rfl
  obtain ⟨s, hs, es, hok⟩ := Token.exists_undecoded hdecode ht
  obtain ⟨hkind, htext, hposition⟩ := Token.decode_fields hok
  have hsi : s.invalid = false := by
    rcases Token.decode_reports hok with ⟨hsame, -⟩ | ⟨-, hrefused, -⟩
    · exact hsame.symm.trans hi
    · simp [hi] at hrefused
  obtain ⟨pre, rest, u, hpre, hplace, hl, hu, hfeed⟩ :=
    hraw.exists_idle hs (hkind ▸ hk) .start ⟨rfl, rfl⟩ rfl
  rw [← hposition] at hplace
  rw [← htext] at hpre hl hfeed
  rw [← hkind, hsi] at hl
  have hindex : t.position.index = pre.length := by
    rw [hplace, Position.index_advanceOver_start]
  exact ⟨Token.isValued_of_decode hok, pre, rest, u, hpre, hindex, hl, hu, hfeed⟩

/-! ### Texts of one token -/

/-- The text is scanned as one undamaged literal of this kind and value, and the end. -/
def ScansAs (E : Engine) (text : String) (kind : TokenKind) (value : Literal) : Prop :=
  ∃ t e, scan E text = .ok [t, e] ∧ t.isValid kind = true ∧ t.value = some value ∧ e.kind = .eof

theorem scansAs_of_lexeme {cs : List Char} {value : Literal} (hl : Lexeme cs [] kind false)
    (hb : ∀ c ∈ cs.head?, Text.isBlank c = false)
    (hd : (⟨kind, String.ofList cs, .start, none, false⟩ : Token).decode E =
      .ok (⟨kind, String.ofList cs, .start, some value, false⟩, [])) :
    ScansAs E (String.ofList cs) kind value := by
  have htoken : Tokenizes .start (String.ofList cs).toList
      [⟨kind, String.ofList cs, .start, none, false⟩,
        ⟨.eof, "", Position.start.advanceOver cs, none, false⟩] := by
    have h := Tokenizes.token hb hl (.ending (Position.start.advanceOver cs))
    rw [String.toList_ofList]
    rwa [List.append_nil] at h
  refine ⟨⟨kind, String.ofList cs, .start, some value, false⟩,
    ⟨.eof, "", Position.start.advanceOver cs, none, false⟩, ?_, ?_, rfl, rfl⟩
  · rw [scan_eq, scanAll_eq htoken]
    simp only [Token.decodeAll, hd]
    rfl
  · simp [Token.isValid]

theorem Tokenizes.ne_nil {p : Position} {cs : List Char} {ts : List Token}
    (h : Tokenizes p cs ts) : ts ≠ [] := by
  induction h with
  | blank _ _ ih => exact ih
  | _ => simp

/-- Before the token of the end there is nothing but blanks. -/
theorem Tokenizes.isBlank_of_singleton {p : Position} {cs : List Char} {ts : List Token}
    (h : Tokenizes p cs ts) (hts : ts.length = 1) : ∀ c ∈ cs, Text.isBlank c = true := by
  induction h with
  | ending => simp
  | blank hc _ ih =>
    intro d hd
    rcases List.mem_cons.mp hd with rfl | hd
    · exact hc
    · exact ih hts d hd
  | token _ _ h _ => simp [h.ne_nil] at hts

/-- The token takes the text whole if that neither begins nor ends with a blank. -/
theorem Tokenizes.lexeme_of_pair {p : Position} {cs : List Char} {ts : List Token} {e : Token}
    (h : Tokenizes p cs ts) (hts : ts = [t, e]) (hfirst : ∀ c ∈ cs.head?, Text.isBlank c = false)
    (hlast : ∀ c ∈ cs.getLast?, Text.isBlank c = false) : Lexeme cs [] t.kind t.invalid := by
  cases h with
  | ending => simp at hts
  | blank hc _ => simp [hc] at hfirst
  | @token _ text rest kind damaged raw _ hl hrest =>
    obtain ⟨rfl, rfl⟩ := List.cons.inj hts
    have hblank := hrest.isBlank_of_singleton rfl
    rcases List.eq_nil_or_concat' rest with rfl | ⟨before, c, rfl⟩
    · rwa [List.append_nil]
    · have hc := hblank c (by simp)
      simp [hc] at hlast

theorem lexeme_of_scansAs {value : Literal} (h : ScansAs E text kind value)
    (hfirst : ∀ c ∈ text.toList.head?, Text.isBlank c = false)
    (hlast : ∀ c ∈ text.toList.getLast?, Text.isBlank c = false) :
    Lexeme text.toList [] kind false := by
  obtain ⟨t, e, hscan, hvalid, -, -⟩ := h
  have hraw : Tokenizes .start text.toList (rawTokens text.toList) := tokenizes_iff.mpr rfl
  have hdecoded := (scan_spec hscan).1
  obtain ⟨t', rest, ht, hrest, heq⟩ := List.forall₂_cons_right_iff.mp hdecoded
  obtain ⟨e', rest', -, hrest', rfl⟩ := List.forall₂_cons_right_iff.mp hrest
  rw [List.forall₂_nil_right_iff.mp hrest'] at heq
  simp only [Token.isValid, Bool.and_eq_true, beq_iff_eq, Bool.not_eq_true'] at hvalid
  have hi : t'.invalid = false := by
    have hnot := mt ht.invalid_iff.mpr
    simp only [hvalid.2, Bool.false_eq_true, not_false_eq_true, forall_const, not_or] at hnot
    simpa using hnot.1
  have hl := hraw.lexeme_of_pair heq hfirst hlast
  rwa [← ht.kind_eq, hvalid.1, hi] at hl

theorem not_isBlank_of_mem {cs : List Char} (h : cs.any Text.isBlank = false) {c : Char}
    (hc : c ∈ cs) : Text.isBlank c = false := by
  simpa using List.any_eq_false.mp h c hc

/-! ### Strings -/

theorem Lexeme.exists_inside {cs rest : List Char} {damaged : Bool}
    (h : Lexeme cs rest kind damaged) (hk : kind = .string) (hd : damaged = false) :
    ∃ q ∈ stringQuotes, ∃ body, IsBody q body ∧ cs = q :: (body ++ [q]) := by
  cases h with
  | mark hmark =>
    have hkinds : ∀ m ∈ punctuation, m.2 ≠ .string := by decide
    exact absurd hk (hkinds _ (mem_punctuation hmark))
  | string hq hclosed =>
    obtain ⟨body, hbody, rfl⟩ := hclosed.closed
    exact ⟨_, hq, body, hbody, rfl⟩
  | openString _ _ => exact absurd hd (by decide)
  | _ => exact absurd hk (by decide)

theorem quoted_eq (q : Char) (v : String) :
    String.singleton q ++ v ++ String.singleton q = String.ofList (q :: (v.toList ++ [q])) := by
  rw [← String.toList_inj]
  simp

/-- A text between quotes is its own value, unless a quote or a backslash in it stands alone. -/
theorem scansAs_string_iff {q : Char} (hq : q ∈ stringQuotes) (v : String) :
    ScansAs E (String.singleton q ++ v ++ String.singleton q) .string (.text v) ↔
      IsBody q v.toList := by
  have hblank : Text.isBlank q = false := not_isBlank_of_mem (by decide) hq
  obtain ⟨_, _, hread⟩ := ScanState.readsLiteral_string hq
  rw [quoted_eq]
  constructor
  · intro h
    have hlast : ∀ c ∈ (q :: (v.toList ++ [q])).getLast?, Text.isBlank c = false := by
      rw [← List.cons_append, List.getLast?_concat]
      simpa using hblank
    have hl := lexeme_of_scansAs h (by simpa using hblank) (by simpa using hlast)
    obtain ⟨q', -, body, hbody, heq⟩ := hl.exists_inside rfl rfl
    rw [String.toList_ofList] at heq
    obtain ⟨rfl, hinside⟩ := List.cons.inj heq
    rwa [List.append_cancel_right hinside]
  · intro h
    have hshortest := isShortestClosed_of_isBody hread.quote_ne h []
    refine scansAs_of_lexeme (.string hq ?_) (by simpa using hblank) ?_
    · rwa [List.append_nil]
    · simp [Token.decode]

/-! ### Patterns -/

theorem literal_eq (b f : String) :
    "/" ++ b ++ "/" ++ f = String.ofList ('/' :: (b.toList ++ '/' :: f.toList)) := by
  rw [← String.toList_inj]
  simp

/-- A pattern between slashes is read with the body and the flags that it has, unless a slash or a
backslash in the body stands alone. -/
theorem scansAs_pattern_iff {b f : String} {p : Pattern} (hp : Pattern.ofParts E b f = .ok p) :
    (∃ p', ScansAs E ("/" ++ b ++ "/" ++ f) .pattern (.pattern p') ∧ p'.source = b ∧ p'.flags = f) ↔
      IsBody '/' b.toList := by
  obtain ⟨hsource, hpflags, hknown, -⟩ := Pattern.ofParts_eq_ok hp
  have hslash : '/' ∉ f.toList := fun hmem => absurd (hknown _ hmem) (by decide)
  rw [literal_eq]
  constructor
  · rintro ⟨p', h, -, -⟩
    have hletters : ('/' :: Pattern.flagLetters).any Text.isBlank = false := by decide
    have hfirst : Text.isBlank '/' = false := not_isBlank_of_mem hletters (List.mem_cons_self ..)
    have hlast : ∀ c ∈ ('/' :: (b.toList ++ '/' :: f.toList)).getLast?,
        Text.isBlank c = false := by
      intro c hc
      have hend : c ∈ '/' :: f.toList := by
        rw [← List.cons_append, List.getLast?_append_of_ne_nil _ (List.cons_ne_nil _ _)] at hc
        exact List.mem_of_getLast? hc
      rcases List.mem_cons.mp hend with rfl | hflag
      · exact hfirst
      · exact not_isBlank_of_mem hletters (List.mem_cons_of_mem _ (hknown c hflag))
    have hl := lexeme_of_scansAs h (by simpa using hfirst) (by simpa using hlast)
    obtain ⟨body, flags, hbody, hflags, heq⟩ := hl.exists_body rfl rfl
    have hslash' : '/' ∉ flags := fun hmem => absurd (hflags _ hmem) (by decide)
    have hsplit : Pattern.split? ('/' :: (body ++ '/' :: flags)) = some (body, flags) :=
      Pattern.split?_literal hslash'
    -- neither flags hold a slash, so both cuts are at the last one
    rw [← heq, String.toList_ofList, Pattern.split?_literal hslash] at hsplit
    obtain ⟨rfl, -⟩ := Prod.mk.inj (Option.some.inj hsplit)
    exact hbody
  · intro h
    refine ⟨p, ?_, hsource, hpflags⟩
    have hrun : IsMaximalRun Pattern.flagLetters.contains f.toList [] :=
      ⟨fun c hc => by simpa using hknown c hc, by simp⟩
    have hshortest := isShortestClosed_of_isBody (by decide) h f.toList
    have hl : Lexeme ('/' :: (b.toList ++ ['/']) ++ f.toList) [] .pattern false :=
      .pattern (by simpa using hshortest) hrun
    have hcs : '/' :: (b.toList ++ ['/']) ++ f.toList = '/' :: (b.toList ++ '/' :: f.toList) := by
      simp
    rw [hcs] at hl
    have hfirst : Text.isBlank '/' = false := by decide
    refine scansAs_of_lexeme hl (by simpa using hfirst) ?_
    have hofText : Pattern.ofText E (String.ofList ('/' :: (b.toList ++ '/' :: f.toList))) =
        .ok p := by
      rw [Pattern.ofText_literal hknown, String.ofList_toList, String.ofList_toList, hp]
    simp only [Token.decode, hofText]
    rfl

/-! ### Numbers -/

theorem scansAs_number {n zeros : Nat}
    (h : zeros + (Nat.toDigits 10 n).length ≤ Text.numeralLimit) :
    ScansAs E (String.ofList (List.replicate zeros '0' ++ Nat.toDigits 10 n)) .number
      (.number n) := by
  have hall : ∀ c ∈ List.replicate zeros '0' ++ Nat.toDigits 10 n, isNumberDigit c = true := by
    intro c hc
    rcases List.mem_append.mp hc with hc | hc
    · rw [List.eq_of_mem_replicate hc]
      decide
    · exact Text.isAsciiDigit_of_mem_toDigits hc
  have hne : List.replicate zeros '0' ++ Nat.toDigits 10 n ≠ [] := by
    have hpos : 0 < (Nat.toDigits 10 n).length := Nat.length_toDigits_pos
    exact List.append_ne_nil_of_right_ne_nil _ (List.length_pos_iff.mp hpos)
  have hread : Text.readNumeral (List.replicate zeros '0' ++ Nat.toDigits 10 n) = .ok n := by
    rw [Text.readNumeral, if_pos (by simpa using h), Text.digitsValue_replicate_append,
      Text.digitsValue_toDigits]
  refine scansAs_of_lexeme (.number hne ⟨hall, by simp⟩) ?_ ?_
  · intro c hc
    exact Text.isBlank_of_isAsciiDigit (hall c (List.mem_of_mem_head? hc))
  · simp [Token.decode, hread]

/-! ### Literals found in a text -/

/-- The pattern is what the token of the text spells. It is cut from the token's text at the slash
on which the scanner, reading the whole text, leaves the body for the flags. -/
structure Pattern.IsSpelledBy (E : Engine) (text : String) (t : Token) (p : Pattern) : Prop where
  literal_eq : t.text = p.literal
  splitText_eq : Pattern.splitText t.text = .ok (p.source, p.flags)
  ofParts_eq : Pattern.ofParts E p.source p.flags = .ok p
  state_body : (Scanner.start.feedAll
    (text.toList.take (t.position.index + 1 + p.source.length))).state = .patternBody
  state_flags : (Scanner.start.feedAll
    (text.toList.take (t.position.index + 1 + p.source.length + 1))).state = .patternFlags
  known : ∀ c ∈ p.flags.toList, c ∈ Pattern.flagLetters
  nodup : p.flags.toList.Nodup

section

variable (h : scan E text = .ok tokens) (ht : t ∈ tokens)
include h ht

theorem exists_text_of_scan (hv : t.isValid .string = true) : ∃ q ∈ stringQuotes, ∃ v : String,
    t.value = some (.text v) ∧ t.text = String.singleton q ++ v ++ String.singleton q := by
  obtain ⟨hk, hi⟩ : t.kind = .string ∧ t.invalid = false := by simpa [Token.isValid] using hv
  obtain ⟨hvalued, pre, rest, u, -, -, hl, -⟩ := exists_lexeme_of_scan h ht hi (by simp [hk])
  obtain ⟨q, hq, body, -, htext⟩ := hl.exists_inside hk rfl
  refine ⟨q, hq, String.ofList body, ?_, ?_⟩
  · rw [hvalued.string hv, htext]
    simp
  · rw [quoted_eq, String.toList_ofList, ← htext, String.ofList_toList]

theorem exists_number_of_scan (hv : t.isValid .number = true) : ∃ n zeros : Nat,
    t.value = some (.number n) ∧
    t.text = String.ofList (List.replicate zeros '0' ++ Nat.toDigits 10 n) := by
  obtain ⟨hk, hi⟩ : t.kind = .number ∧ t.invalid = false := by simpa [Token.isValid] using hv
  obtain ⟨hvalued, pre, rest, u, -, -, hl, -⟩ := exists_lexeme_of_scan h ht hi (by simp [hk])
  obtain ⟨n, hread, hvalue⟩ := hvalued.number hv
  have hdigits : ∀ c ∈ t.text.toList, Text.isAsciiDigit c.toNat = true := hl.all_isNumberDigit hk
  obtain ⟨zeros, hzeros⟩ := Text.exists_leadingZeros hl.ne_nil hdigits
  have hn : Text.digitsValue t.text.toList = n := by
    unfold Text.readNumeral at hread
    split at hread
    · exact Except.ok.inj hread
    · cases hread
  refine ⟨n, zeros, hvalue, ?_⟩
  rw [← hn, ← hzeros, String.ofList_toList]

theorem exists_pattern_of_scan (hv : t.isValid .pattern = true) : ∃ p : Pattern,
    t.value = some (.pattern p) ∧ p.IsSpelledBy E text t := by
  obtain ⟨hk, hi⟩ : t.kind = .pattern ∧ t.invalid = false := by simpa [Token.isValid] using hv
  obtain ⟨hvalued, pre, rest, u, hpre, hindex, hl, hu, hfeed⟩ :=
    exists_lexeme_of_scan h ht hi (by simp [hk])
  obtain ⟨p, hofText, hvalue⟩ := hvalued.pattern hv
  obtain ⟨body, flags, hbody, hknown, htext⟩ := hl.exists_body hk rfl
  have htext' : t.text = String.ofList ('/' :: (body ++ '/' :: flags)) := by
    rw [← htext, String.ofList_toList]
  rw [htext', Pattern.ofText_literal hknown] at hofText
  obtain ⟨hsource, hflags, -, hnodup⟩ := Pattern.ofParts_eq_ok hofText
  have hslash : '/' ∉ flags := fun hmem => absurd (hknown _ hmem) (by decide)
  have hlength : p.source.length = body.length := by rw [hsource, String.length_ofList]
  -- up to the closing slash and past it, the scanner does what the idle machine does
  have hread := ScanState.readsLiteral_pattern
  have hinside := Scanner.feedAll_body hread hu hbody
  have hinside_ne := ScanState.ne_dispatch hread.pending_body
  have hstate : ∀ ds, ds ≠ [] → ds <+: t.text.toList →
      Scanner.start.feedAll (text.toList.take (t.position.index + ds.length)) = u.feedAll ds := by
    intro ds hne hds
    have hds' : ds <+: t.text.toList ++ rest := hds.trans (List.prefix_append _ _)
    rw [← hfeed ds hne hds', hpre, hindex, List.take_length_add_append,
      ← List.prefix_iff_eq_take.mp hds']
  have hbefore := hstate ('/' :: body) (List.cons_ne_nil _ _) (by simp [htext])
  have hafter := hstate ('/' :: body ++ ['/']) (by simp) (by simp [htext])
  refine ⟨p, hvalue, ?_, ?_, ?_, ?_, ?_, ?_, ?_⟩
  · rw [htext', Pattern.literal, literal_eq, hsource, hflags, String.toList_ofList,
      String.toList_ofList]
  · rw [Pattern.splitText, htext, Pattern.split?_literal hslash, hsource, hflags]
  · rw [hsource, hflags, hofText]
  · have hplace : t.position.index + 1 + p.source.length =
        t.position.index + ('/' :: body).length := by
      rw [hlength, List.length_cons]
      omega
    rw [hplace, hbefore, hinside]
    rfl
  · have hplace : t.position.index + 1 + p.source.length + 1 =
        t.position.index + ('/' :: body ++ ['/']).length := by
      rw [hlength, List.length_append, List.length_cons, List.length_singleton]
      omega
    rw [hplace, hafter, Scanner.feedAll_append, hinside, Scanner.feedAll_cons, Scanner.feedAll_nil,
      Scanner.feed_of_take_inside rfl hinside_ne hread.closes]
    rfl
  · rw [hflags, String.toList_ofList]
    exact hknown
  · exact hflags ▸ hnodup

end

/-- Literals are read as the values that they are spelled from, and found literals are spelled from
the values that they were read as. -/
theorem literals_round_trip (E : Engine) :
    (∀ q ∈ stringQuotes, ∀ v : String,
      ScansAs E (String.singleton q ++ v ++ String.singleton q) .string (.text v) ↔
        IsBody q v.toList) ∧
    (∀ (b f : String) (p : Pattern), Pattern.ofParts E b f = .ok p →
      ((∃ p', ScansAs E ("/" ++ b ++ "/" ++ f) .pattern (.pattern p') ∧
        p'.source = b ∧ p'.flags = f) ↔ IsBody '/' b.toList)) ∧
    (∀ n zeros : Nat, zeros + (Nat.toDigits 10 n).length ≤ Text.numeralLimit →
      ScansAs E (String.ofList (List.replicate zeros '0' ++ Nat.toDigits 10 n)) .number
        (.number n)) ∧
    ∀ (text : String) (tokens : List Token), scan E text = .ok tokens → ∀ t ∈ tokens,
      (t.isValid .string = true → ∃ q ∈ stringQuotes, ∃ v : String, t.value = some (.text v) ∧
        t.text = String.singleton q ++ v ++ String.singleton q) ∧
      (t.isValid .pattern = true → ∃ p : Pattern, t.value = some (.pattern p) ∧
        p.IsSpelledBy E text t) ∧
      (t.isValid .number = true → ∃ n zeros : Nat, t.value = some (.number n) ∧
        t.text = String.ofList (List.replicate zeros '0' ++ Nat.toDigits 10 n)) := by
  refine ⟨fun q hq v => scansAs_string_iff hq v, fun b f p hp => scansAs_pattern_iff hp,
    fun n zeros hlimit => scansAs_number hlimit, ?_⟩
  intro text tokens h t ht
  exact ⟨exists_text_of_scan h ht, exists_pattern_of_scan h ht, exists_number_of_scan h ht⟩

theorem spelled_literals :
    let E := Regex.engine (.plain true)
    ScansAs E "\"a\\\"\"" .string (.text "a\\\"") ∧
    ¬ScansAs E "\"a\"b\"" .string (.text "a\"b") ∧
    (∃ p, ScansAs E "/a\\//gi" .pattern (.pattern p) ∧ p.source = "a\\/" ∧ p.flags = "gi") ∧
    ScansAs E "007" .number (.number 7) ∧
    ∃ tokens t p, scan E "x:/[a-c]/i" = .ok tokens ∧ tokens[2]? = some t ∧
      t.value = some (.pattern p) ∧ p.IsSpelledBy E "x:/[a-c]/i" t := by
  intro E
  obtain ⟨hstring, hpattern, hnumber, hfound⟩ := literals_round_trip E
  refine ⟨?_, ?_, ?_, hnumber 7 2 (by decide), ?_⟩
  · exact (hstring '"' (by decide) "a\\\"").mpr (.plain (by decide) (by decide) (.escape _ .nil))
  · intro h
    have hbody := (hstring '"' (by decide) "a\"b").mp h
    cases hbody with
    | plain _ _ hrest =>
      cases hrest with
      | plain hquote _ _ => exact hquote rfl
  · have hcompiles : Pattern.ofParts E "a\\/" "gi" = .ok ⟨"a\\/", "gi"⟩ := by decide +kernel
    exact (hpattern _ _ _ hcompiles).mpr (.plain (by decide) (by decide) (.escape _ .nil))
  · have hseen : (scan E "x:/[a-c]/i").toOption.map (·[2]?.map (·.isValid .pattern)) =
        some (some true) := by decide +kernel
    obtain ⟨tokens, hscan, ht⟩ := exists_of_toOption_map hseen
    obtain ⟨t, ht, hvalid⟩ := Option.map_eq_some_iff.mp ht
    obtain ⟨p, hp, hspelled⟩ := (hfound _ _ hscan t (List.mem_of_getElem? ht)).2.1 hvalid
    exact ⟨tokens, t, p, hscan, ht, hp, hspelled⟩

end StepMachine
