import StepMachine.Proofs.Relabelling
import StepMachine.Proofs.Token.Damage

/-! # Tokens with other blanks between them

A token is found again before any rest that it would not go on with, and none goes on with a blank.
So the tokens of a text can be set further apart or closer together, as long as blanks remain between
any two and none is put into a literal that is not closed. They stay the same but for their
places, which decoding does not look at.
-/
namespace StepMachine

/-! ### Tokens before another rest -/

/-- A token of the kind takes the character if it comes next. -/
def TokenKind.goesOn : TokenKind → Char → Bool
  | name, c => isNameLetter c
  | number, c => isNumberDigit c
  | pattern, c => Pattern.flagLetters.contains c
  | _, _ => false

theorem Lexeme.change_rest {text rest rest' : List Char} {kind : TokenKind} {damaged : Bool}
    (h : Lexeme text rest kind damaged) (hstop : ∀ c ∈ rest'.head?, kind.goesOn c = false)
    (hopen : IsUnterminated text → rest' = []) : Lexeme text rest' kind damaged := by
  have hdamaged := h.damaged_iff
  cases h with
  | mark hmark => exact .mark hmark
  | name hne hrun => exact .name hne ⟨hrun.all, hstop⟩
  | number hne hrun => exact .number hne ⟨hrun.all, hstop⟩
  | @string q _ _ hq hclosed =>
    obtain ⟨body, hbody, rfl⟩ := hclosed.closed
    refine .string hq ?_
    have hquote : q ≠ '\\' := by
      rintro rfl
      exact absurd hq (by decide)
    simpa using isShortestClosed_of_isBody hquote hbody rest'
  | openString hq hnever =>
    rw [hopen (by simpa using hdamaged)]
    exact .openString hq hnever
  | @pattern _ flags _ hclosed hflags =>
    obtain ⟨body, hbody, rfl⟩ := hclosed.closed
    refine .pattern ?_ ⟨hflags.all, hstop⟩
    have hclosed' := isShortestClosed_of_isBody (q := '/') (by decide) hbody (flags ++ rest')
    simpa using hclosed'
  | openPattern hnever =>
    rw [hopen (by simpa using hdamaged)]
    exact .openPattern hnever
  | unknown hc => exact .unknown hc

theorem TokenKind.goesOn_of_isBlank (kind : TokenKind) {c : Char} (h : Text.isBlank c = true) :
    kind.goesOn c = false := by
  have hrange := Text.isBlankCode_range h
  cases kind with
  | name =>
    simp only [goesOn, isNameLetter, Text.isAsciiLetter, Bool.or_eq_false_iff,
      Bool.and_eq_false_iff, decide_eq_false_iff_not]
    omega
  | number =>
    simp only [goesOn, isNumberDigit, Text.isAsciiDigit, Bool.and_eq_false_iff,
      decide_eq_false_iff_not]
    omega
  | pattern =>
    have hflags : Pattern.flagLetters.any Text.isBlank = false := by decide
    simp only [goesOn, List.contains_eq_mem, decide_eq_false_iff_not]
    exact fun hc => List.any_eq_false.mp hflags c hc h
  | _ => rfl

/-! ### Blanks between tokens -/

/-- The texts in a row, the first after one gap and each before another. -/
def respace : List String → String → List String → String
  | text :: texts, first, gap :: gaps => first ++ text ++ respace texts gap gaps
  | _, first, _ => first

/-- There is one gap after each text, of blanks only. Only the last gap may be empty, and it has to be
if a literal that is not closed stands before it. -/
structure IsSpacing (texts : List String) (first : String) (gaps : List String) : Prop where
  blank : ∀ gap ∈ first :: gaps, ∀ c ∈ gap.toList, Text.isBlank c = true
  length_eq : gaps.length = texts.length
  apart : ∀ gap ∈ gaps.dropLast, gap ≠ ""
  unterminated : ∀ text ∈ texts.getLast?, IsUnterminated text.toList → gaps.getLast? = some ""

variable {texts gaps : List String} {first text : String}

theorem IsSpacing.exists_gap (h : IsSpacing (text :: texts) first gaps) : ∃ gap rest,
    gaps = gap :: rest ∧ IsSpacing texts gap rest ∧ (gap = "" → texts = []) ∧
      (texts = [] → IsUnterminated text.toList → gap = "") := by
  obtain ⟨hblank, hlength, hapart, hopen⟩ := h
  cases gaps with
  | nil => simp at hlength
  | cons gap rest =>
    have hlength' : rest.length = texts.length := by simpa using hlength
    refine ⟨gap, rest, rfl, ⟨fun g hg => hblank g (List.mem_cons_of_mem _ hg), hlength', ?_, ?_⟩,
      ?_, ?_⟩
    · intro g hg
      cases rest with
      | nil => simp at hg
      | cons next rest => exact hapart g (by simp [hg])
    · intro u hu hopen'
      cases texts with
      | nil => simp at hu
      | cons next texts =>
        obtain ⟨next', rest, rfl⟩ := List.exists_cons_of_length_pos (l := rest) (by simp [hlength'])
        simpa using hopen u (by simpa using hu) hopen'
    · intro hgap
      by_contra htexts
      have hrest : rest ≠ [] := by
        rintro rfl
        exact htexts (List.length_eq_zero_iff.mp hlength'.symm)
      exact hapart gap (by rw [List.dropLast_cons_of_ne_nil hrest]; simp) hgap
    · rintro rfl hopen'
      obtain rfl := List.length_eq_zero_iff.mp hlength'
      simpa using hopen text rfl hopen'

theorem IsSpacing.isBlank_first (h : IsSpacing texts first gaps) :
    ∀ c ∈ first.toList, Text.isBlank c = true := h.blank first (List.mem_cons_self ..)

/-- What follows a text begins with a blank, if anything follows. -/
theorem IsSpacing.isBlank_head (h : IsSpacing texts first gaps) (hne : first = "" → texts = []) :
    ∀ c ∈ (respace texts first gaps).toList.head?, Text.isBlank c = true := by
  intro c hc
  have hempty : first.toList = [] → respace texts first gaps = "" := by
    intro hfirst
    have hfirst' : first = "" := String.toList_eq_nil_iff.mp hfirst
    rw [hne hfirst', respace, hfirst']
    simp
  have hbegins : first.toList <+: (respace texts first gaps).toList := by
    unfold respace
    split
    · rw [String.toList_append, String.toList_append, List.append_assoc]
      exact List.prefix_append _ _
    · exact List.prefix_refl _
  obtain ⟨rest, hrest⟩ := hbegins
  cases hfirst : first.toList with
  | nil => simp [hempty hfirst] at hc
  | cons d ds =>
    rw [← hrest, hfirst] at hc
    obtain rfl : d = c := by simpa using hc
    exact h.isBlank_first d (by simp [hfirst])

/-! ### Tokens of a text with other gaps -/

variable {p : Position} {cs : List Char} {ts raw : List Token}

theorem beforeEnd_cons {t : Token} (h : t.kind ≠ .eof) :
    beforeEnd (t :: ts) = t :: beforeEnd ts :=
  List.takeWhile_cons_of_pos (bne_iff_ne.mpr h)

theorem Tokenizes.after_blanks {ws : List Char} (hw : ∀ c ∈ ws, Text.isBlank c = true)
    (h : Tokenizes (p.advanceOver ws) cs ts) : Tokenizes p (ws ++ cs) ts := by
  induction ws generalizing p with
  | nil => exact h
  | cons c ws ih =>
    have hc := hw c (List.mem_cons_self ..)
    exact .blank hc (ih (fun d hd => hw d (List.mem_cons_of_mem _ hd)) h)

/-- Whatever blanks stand between them, the tokens of a text differ only in their places. -/
theorem Tokenizes.exists_respaced (h : Tokenizes p cs raw)
    (hs : IsSpacing ((beforeEnd raw).map (·.text)) first gaps) (p' : Position) :
    ∃ raw', Tokenizes p' (respace ((beforeEnd raw).map (·.text)) first gaps).toList raw' ∧
      raw'.map (·.relabel .placeless) = raw.map (·.relabel .placeless) := by
  -- on the tokens, with the gap before the next one carried along; the old gaps are passed over
  induction h generalizing first gaps p' with
  | ending p =>
    refine ⟨[⟨.eof, "", p'.advanceOver first.toList, none, false⟩], ?_, rfl⟩
    have htext : respace ((beforeEnd [⟨.eof, "", p, none, false⟩]).map (·.text)) first gaps =
        first := by rfl
    have hend := Tokenizes.after_blanks hs.isBlank_first (.ending (p'.advanceOver first.toList))
    rw [htext]
    simpa using hend
  | blank _ _ ih => exact ih hs p'
  | @token p text rest kind damaged ts hb hl htail ih =>
    rw [beforeEnd_cons hl.kind_ne_eof, List.map_cons] at hs ⊢
    obtain ⟨gap, gaps, rfl, hs', hgap, hlast⟩ := hs.exists_gap
    obtain ⟨raw', hraw', heq⟩ := ih hs' ((p'.advanceOver first.toList).advanceOver text)
    have hl' : Lexeme text (respace ((beforeEnd ts).map (·.text)) gap gaps).toList kind damaged := by
      apply hl.change_rest
      · intro c hc
        exact kind.goesOn_of_isBlank (hs'.isBlank_head hgap c hc)
      · intro hopen
        have hts : (beforeEnd ts).map (·.text) = [] := by
          rw [htail.eq_of_nil (hl.rest_eq_nil hopen)]
          rfl
        rw [hts, hlast hts (by simpa using hopen)]
        rfl
    refine ⟨⟨kind, String.ofList text, p'.advanceOver first.toList, none, damaged⟩ :: raw', ?_, ?_⟩
    · have htoken := Tokenizes.after_blanks hs.isBlank_first (.token hb hl' hraw')
      simpa [respace, List.append_assoc] using htoken
    · rw [List.map_cons, List.map_cons, heq]
      rfl

/-! ### Decoding at other places -/

namespace Token

variable (E : Engine) (f : Position → Position)

theorem decode_moving (t : Token) : (t.relabel (.moving f)).decode E =
    (t.decode E).map fun part => (part.1.relabel (.moving f), part.2.map (·.relabel (.moving f))) := by
  simp only [relabel_moving, Diagnostic.relabel_moving]
  unfold decode
  dsimp only
  split
  · rfl
  · split
    · cases Text.readNumeral t.text.toList <;> rfl
    · rfl
    · rcases Pattern.ofText E t.text with failure | p
      · cases hescaping : failure.escaping? <;> simp [hescaping, Except.map]
      · rfl
    · rfl

theorem decodeAll_moving (ts : List Token) : decodeAll E (ts.map (·.relabel (.moving f))) =
    (decodeAll E ts).map fun decoded =>
      (decoded.1.map (·.relabel (.moving f)), decoded.2.map (·.relabel (.moving f))) := by
  induction ts with
  | nil => rfl
  | cons t ts ih =>
    rw [List.map_cons, decodeAll, decodeAll, decode_moving, ih]
    rcases t.decode E with _ | ⟨u, es⟩
    · rfl
    · rcases decodeAll E ts with _ | ⟨us, ds⟩
      · rfl
      · simp [Except.map]

theorem damage_moving (t : Token) : (t.relabel (.moving f)).damage =
    t.damage.map (·.relabel (.moving f)) := by
  simp only [relabel_moving, Diagnostic.relabel_moving]
  obtain ⟨kind, text, place, value, invalid⟩ := t
  cases invalid with
  | false => rfl
  | true => cases kind <;> simp [damage]

variable {E}

theorem texts_of_decodeAll {us : List Token} {ds : List Diagnostic}
    (h : decodeAll E ts = .ok (us, ds)) :
    (beforeEnd us).map (·.text) = (beforeEnd ts).map (·.text) := by
  induction ts generalizing us ds with
  | nil =>
    cases h
    rfl
  | cons t ts ih =>
    obtain ⟨u, es, us, ds, hu, hus, rfl, rfl⟩ := decodeAll_cons_eq_ok_iff.mp h
    obtain ⟨hkind, htext, -⟩ := decode_fields hu
    by_cases hend : t.kind = .eof
    · simp [beforeEnd, hkind, hend]
    · rw [beforeEnd_cons hend, beforeEnd_cons (by rwa [hkind]), List.map_cons, List.map_cons,
        htext, ih hus]

end Token

variable {E : Engine} {source : String} {tokens : List Token} {scanned : List Diagnostic}

/-- With other blanks between its tokens a text can still be scanned, and only places change. -/
theorem scanAll_respaced (h : scanAll E source = .ok (tokens, scanned))
    (hs : IsSpacing ((beforeEnd tokens).map (·.text)) first gaps) : ∃ tokens' scanned',
    scanAll E (respace ((beforeEnd tokens).map (·.text)) first gaps) = .ok (tokens', scanned') ∧
      tokens'.map (·.relabel .placeless) = tokens.map (·.relabel .placeless) ∧
      scanned'.map (·.relabel .placeless) = scanned.map (·.relabel .placeless) := by
  obtain ⟨raw, refused, hraw, hdecode, rfl⟩ := exists_decodeAll_of_scanAll h
  rw [Token.texts_of_decodeAll hdecode] at hs ⊢
  obtain ⟨raw', hraw', heq⟩ := hraw.exists_respaced hs .start
  have hdamage : ∀ ts : List Token, (ts.flatMap Token.damage).map (·.relabel .placeless) =
      (ts.map (·.relabel .placeless)).flatMap Token.damage := by
    intro ts
    rw [List.map_flatMap, List.flatMap_map]
    congr 1
    funext t
    exact (t.damage_moving _).symm
  have hdecode' := Token.decodeAll_moving E (fun _ => .start) raw'
  have hmoved : Token.decodeAll E (raw'.map (·.relabel .placeless)) =
      .ok (tokens.map (·.relabel .placeless), refused.map (·.relabel .placeless)) := by
    rw [heq]
    exact (Token.decodeAll_moving E (fun _ => .start) raw).trans (by rw [hdecode]; rfl)
  rw [scanAll_eq hraw']
  cases hd : Token.decodeAll E raw' with
  | error failure =>
    rw [hd] at hdecode'
    exact absurd (hmoved.symm.trans hdecode') (by simp [Except.map])
  | ok decoded =>
    rw [hd] at hdecode'
    obtain ⟨htokens, hrefused⟩ := Prod.mk.inj (Except.ok.inj (hdecode'.symm.trans hmoved))
    refine ⟨decoded.1, _, rfl, htokens, ?_⟩
    rw [List.map_append, List.map_append, hdamage, hdamage, heq]
    exact congrArg _ hrefused

end StepMachine
