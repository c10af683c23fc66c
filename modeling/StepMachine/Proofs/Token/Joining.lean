import StepMachine.Proofs.Position
import StepMachine.Proofs.Token.Reports
import StepMachine.Proofs.Token.Respacing

/-! # Texts put together

If one text is put behind another, with blanks between them or without, the tokens of both are found
again. For this the first must not leave a literal open, and its last token must not go on with the
second text. Where the second text stands is all that changes about its tokens. All refused patterns
are still reported after all that the scanner reports itself.
-/
namespace StepMachine

/-- The token in a text that starts elsewhere. -/
def Token.rebase (t : Token) (base : Position) : Token :=
  { t with position := t.position.rebase base }

/-- The report on a text that starts elsewhere. -/
def Diagnostic.rebase (d : Diagnostic) (base : Position) : Diagnostic :=
  { d with position := d.position.rebase base }

/-- The report is on a refused pattern, which is found only after all of the text is scanned. -/
def Diagnostic.isRefusal (d : Diagnostic) : Bool := d.code == .invalidPattern

theorem Token.relabel_rebase (t : Token) (base : Position) :
    t.relabel (.moving (·.rebase base)) = t.rebase base := t.relabel_moving _

theorem Diagnostic.relabel_rebase (d : Diagnostic) (base : Position) :
    d.relabel (.moving (·.rebase base)) = d.rebase base := d.relabel_moving _

/-! ### Tokens of both texts -/

theorem Lexeme.stops {text rest : List Char} {kind : TokenKind} {damaged : Bool}
    (h : Lexeme text rest kind damaged) : ∀ c ∈ rest.head?, kind.goesOn c = false := by
  cases h with
  | mark hmark =>
    have hkinds : ∀ m ∈ punctuation, ∀ c, m.2.goesOn c = false := by
      simp [punctuation, TokenKind.goesOn]
    exact fun c _ => hkinds _ (mem_punctuation hmark) c
  | name _ hrun => exact hrun.stops
  | number _ hrun => exact hrun.stops
  | pattern _ hflags => exact hflags.stops
  | openPattern => simp
  | _ => exact fun _ _ => rfl

section

variable {E : Engine} {p : Position} {cs rest : List Char} {raw raw' : List Token}

/-- Behind a text that leaves no literal open and does not go on, the tokens of another follow. -/
theorem Tokenizes.append (h : Tokenizes p cs raw)
    (hclosed : ∀ t ∈ raw, ¬IsUnterminated t.text.toList)
    (hseam : ∀ t ∈ raw, t.kind ≠ .eof → t.stop = p.index + cs.length →
      ∀ c ∈ rest.head?, t.kind.goesOn c = false)
    (h' : Tokenizes (p.advanceOver cs) rest raw') :
    Tokenizes p (cs ++ rest) (beforeEnd raw ++ raw') := by
  induction h with
  | ending p => exact h'
  | @blank p c cs raw hc _ ih =>
    refine .blank hc (ih hclosed ?_ h')
    rwa [Position.index_advance, Nat.add_assoc, Nat.add_comm 1]
  | @token p text after kind damaged raw hb hl _ ih =>
    rw [beforeEnd_cons hl.kind_ne_eof, List.append_assoc]
    have htext := hclosed _ (List.mem_cons_self ..)
    rw [String.toList_ofList] at htext
    refine .token hb (hl.change_rest ?_ fun hopen => absurd hopen htext) (ih ?_ ?_ ?_)
    · cases after with
      | nil =>
        refine hseam _ (List.mem_cons_self ..) hl.kind_ne_eof ?_
        simp [Token.stop]
      | cons c after => exact hl.stops
    · exact fun t ht => hclosed t (List.mem_cons_of_mem _ ht)
    · intro t ht hk hstop
      refine hseam t (List.mem_cons_of_mem _ ht) hk ?_
      rw [hstop, Position.index_advanceOver, List.length_append, Nat.add_assoc]
    · rwa [← Position.advanceOver_append]

theorem Tokenizes.append_gap {gap : List Char} (h : Tokenizes p cs raw)
    (hgap : ∀ c ∈ gap, Text.isBlank c = true) (hclosed : ∀ t ∈ raw, ¬IsUnterminated t.text.toList)
    (hseam : gap = [] → ∀ t ∈ raw, t.kind ≠ .eof → t.stop = p.index + cs.length →
      ∀ c ∈ rest.head?, t.kind.goesOn c = false)
    (h' : Tokenizes (p.advanceOver (cs ++ gap)) rest raw') :
    Tokenizes p (cs ++ gap ++ rest) (beforeEnd raw ++ raw') := by
  rw [Position.advanceOver_append] at h'
  rw [List.append_assoc]
  refine h.append hclosed ?_ (.after_blanks hgap h')
  cases gap with
  | nil => exact hseam rfl
  | cons b gap =>
    -- no token goes on with a blank, so that its kind does not matter
    intro t _ _ _ c hc
    obtain rfl : b = c := by simpa using hc
    exact t.kind.goesOn_of_isBlank (hgap b (List.mem_cons_self ..))

theorem Tokenizes.rebase (h : Tokenizes p cs raw) (hp : p.IsValid) (base : Position) :
    Tokenizes (p.rebase base) cs (raw.map (·.rebase base)) := by
  induction h with
  | ending p => exact .ending _
  | @blank p c cs raw hc _ ih =>
    have hrest := ih (p.isValid_advance hp c)
    rw [p.rebase_advance hp] at hrest
    exact .blank hc hrest
  | @token p text rest kind damaged raw hb hl _ ih =>
    have hrest := ih (p.isValid_advanceOver hp text)
    rw [p.rebase_advanceOver hp] at hrest
    exact .token hb hl hrest

theorem Tokenizes.exists_report (h : Tokenizes p cs raw) {t : Token} (ht : t ∈ raw)
    (hopen : IsUnterminated t.text.toList) : ∃ d ∈ raw.flatMap Token.damage,
      d.code = .unterminatedString ∨ d.code = .unterminatedPattern := by
  have hinvalid := (h.invalid_iff t ht).mpr (.inr hopen)
  obtain ⟨rest, hl⟩ | ⟨-, -, hvalid⟩ := h.lexeme_or_end t ht
  · rcases hl.kind_of_isUnterminated hopen with hk | hk
    · refine ⟨⟨.general .unterminatedString, t.position⟩, ?_, .inl rfl⟩
      exact List.mem_flatMap.mpr ⟨t, ht, by simp [Token.damage, hinvalid, hk]⟩
    · refine ⟨⟨.general .unterminatedPattern, t.position⟩, ?_, .inr rfl⟩
      exact List.mem_flatMap.mpr ⟨t, ht, by simp [Token.damage, hinvalid, hk]⟩
  · simp [hvalid] at hinvalid

theorem Tokenizes.damage_beforeEnd (h : Tokenizes p cs raw) :
    (beforeEnd raw).flatMap Token.damage = raw.flatMap Token.damage := by
  induction h with
  | ending => rfl
  | blank _ _ ih => exact ih
  | token _ hl _ ih => rw [beforeEnd_cons hl.kind_ne_eof, List.flatMap_cons, List.flatMap_cons, ih]

theorem Tokenizes.decodeAll_beforeEnd (h : Tokenizes p cs raw) {ts : List Token}
    {refused : List Diagnostic} (hd : Token.decodeAll E raw = .ok (ts, refused)) :
    Token.decodeAll E (beforeEnd raw) = .ok (beforeEnd ts, refused) := by
  induction h generalizing ts refused with
  | ending p =>
    cases hd
    rfl
  | blank _ _ ih => exact ih hd
  | token _ hl _ ih =>
    obtain ⟨u, es, ts, refused, hu, hts, rfl, rfl⟩ := Token.decodeAll_cons_eq_ok_iff.mp hd
    have hk := hl.kind_ne_eof
    have hkind := (Token.decode_fields hu).1
    rw [beforeEnd_cons hk, beforeEnd_cons (hkind.trans_ne hk)]
    exact Token.decodeAll_cons_eq_ok_iff.mpr ⟨u, es, _, _, hu, ih hts, rfl, rfl⟩

end

namespace Token

variable {E : Engine} {ts ts' us us' : List Token} {ds ds' : List Diagnostic}

theorem decodeAll_append (h : decodeAll E ts = .ok (us, ds))
    (h' : decodeAll E ts' = .ok (us', ds')) :
    decodeAll E (ts ++ ts') = .ok (us ++ us', ds ++ ds') := by
  obtain ⟨parts, hparts, rfl, rfl⟩ := decodeAll_eq_ok_iff.mp h
  obtain ⟨parts', hparts', rfl, rfl⟩ := decodeAll_eq_ok_iff.mp h'
  refine decodeAll_eq_ok_iff.mpr ⟨parts ++ parts', ?_, ?_, ?_⟩
  · rw [List.map_append, List.map_append, hparts, hparts']
  · rw [List.map_append]
  · rw [List.flatMap_append]

theorem decodeAll_rebase (h : decodeAll E ts = .ok (us, ds)) (base : Position) :
    decodeAll E (ts.map (·.rebase base)) =
      .ok (us.map (·.rebase base), ds.map (·.rebase base)) := by
  have hmoved := decodeAll_moving E (·.rebase base) ts
  simp only [relabel_rebase, Diagnostic.relabel_rebase, h] at hmoved
  exact hmoved

theorem damage_rebase (t : Token) (base : Position) :
    (t.rebase base).damage = t.damage.map (·.rebase base) := by
  have hmoved := t.damage_moving (·.rebase base)
  simp only [relabel_rebase, Diagnostic.relabel_rebase] at hmoved
  exact hmoved

theorem filter_reports (h : decodeAll E ts = .ok (us, ds)) :
    (ts.flatMap damage ++ ds).filter (!·.isRefusal) = ts.flatMap damage ∧
      (ts.flatMap damage ++ ds).filter (·.isRefusal) = ds := by
  -- damage is no refusal, and decoding reports nothing else
  have hdamage : ∀ d ∈ ts.flatMap damage, d.isRefusal = false := by
    intro d hd
    obtain ⟨t, -, hmem⟩ := List.mem_flatMap.mp hd
    have hcodes : ∀ c ∈ [Code.unknownCharacter, .unterminatedString, .unterminatedPattern],
        (c == .invalidPattern) = false := by decide
    exact hcodes _ (mem_damage hmem).2.2
  have hrefused : ∀ d ∈ ds, d.isRefusal = true := by
    intro d hd
    obtain ⟨t, -, u, -, es, hok, hmem⟩ := exists_refused h hd
    exact beq_iff_eq.mpr (code_of_mem_decode hok hmem)
  constructor
  · rw [List.filter_append, List.filter_eq_self.mpr, List.filter_eq_nil_iff.mpr, List.append_nil]
    · simpa using hrefused
    · simpa using hdamage
  · rw [List.filter_append, List.filter_eq_nil_iff.mpr, List.filter_eq_self.mpr, List.nil_append]
    · exact hrefused
    · simpa using hdamage

end Token

/-! ### Scanning both -/

/-- A text with another one behind it, after blanks or at once, is scanned like each of them. The
second is read as if it started where it stands. -/
theorem scanAll_joined {E : Engine} {first gap second : String} {tokens tokens' : List Token}
    {scanned scanned' : List Diagnostic} (hfirst : scanAll E first = .ok (tokens, scanned))
    (hsecond : scanAll E second = .ok (tokens', scanned'))
    (hgap : ∀ c ∈ gap.toList, Text.isBlank c = true)
    (hclosed : ∀ d ∈ scanned, d.code ≠ .unterminatedString ∧ d.code ≠ .unterminatedPattern)
    (hseam : gap = "" → ∀ t ∈ tokens, t.kind ≠ .eof → t.stop = first.length →
      ∀ c ∈ second.toList.head?, t.kind.goesOn c = false) :
    let base := Position.start.advanceOver (first ++ gap).toList
    scanAll E (first ++ gap ++ second) = .ok (beforeEnd tokens ++ tokens'.map (·.rebase base),
      scanned.filter (!·.isRefusal) ++ (scanned'.filter (!·.isRefusal)).map (·.rebase base) ++
      scanned.filter (·.isRefusal) ++ (scanned'.filter (·.isRefusal)).map (·.rebase base)) := by
  intro base
  obtain ⟨raw, refused, hraw, hdecode, rfl⟩ := exists_decodeAll_of_scanAll hfirst
  obtain ⟨raw', refused', hraw', hdecode', rfl⟩ := exists_decodeAll_of_scanAll hsecond
  have hmoved : Tokenizes base second.toList (raw'.map (·.rebase base)) :=
    hraw'.rebase (by decide) base
  have hjoined : Tokenizes .start (first ++ gap ++ second).toList
      (beforeEnd raw ++ raw'.map (·.rebase base)) := by
    rw [String.toList_append, String.toList_append]
    refine hraw.append_gap hgap ?_ ?_ (by rwa [← String.toList_append])
    · intro t ht hopen
      obtain ⟨d, hd, hcode⟩ := hraw.exists_report ht hopen
      have hnot := hclosed d (List.mem_append_left _ hd)
      exact hcode.elim hnot.1 hnot.2
    · -- decoding keeps where the last token ends, and its kind
      intro hempty t ht hk hstop
      obtain ⟨u, hu, es, hok⟩ := Token.exists_decoded hdecode ht
      obtain ⟨hkind, htext, hposition⟩ := Token.decode_fields hok
      rw [← hkind]
      refine hseam (String.toList_eq_nil_iff.mp hempty) u hu (hkind.trans_ne hk) ?_
      rw [String.length_toList] at hstop
      simpa [Token.stop, hposition, htext, Position.start] using hstop
  have hdamage : (raw'.map (·.rebase base)).flatMap Token.damage =
      (raw'.flatMap Token.damage).map (·.rebase base) := by
    simp only [List.flatMap_map, List.map_flatMap, Token.damage_rebase]
  have hboth := Token.decodeAll_append (hraw.decodeAll_beforeEnd hdecode)
    (Token.decodeAll_rebase hdecode' base)
  obtain ⟨hearly, hlate⟩ := Token.filter_reports hdecode
  obtain ⟨hearly', hlate'⟩ := Token.filter_reports hdecode'
  rw [scanAll_eq hjoined, hboth, hearly, hlate, hearly', hlate', Except.map, List.flatMap_append,
    hraw.damage_beforeEnd, hdamage]
  simp only [List.append_assoc]

/-- A pattern with a repeated flag, and on the next line a character that starts nothing and a
number. -/
def refusedText : String := "/y/ii\n@ 3"

def refusedTokens : List Token := [
  ⟨.pattern, "/y/ii", ⟨1, 1, 0⟩, none, true⟩,
  ⟨.unknown, "@", ⟨2, 1, 6⟩, none, true⟩,
  ⟨.number, "3", ⟨2, 3, 8⟩, some (.number 3), false⟩,
  ⟨.eof, "", ⟨2, 4, 9⟩, none, false⟩]

/-- The name follows the number at once. It is moved sideways, and what stands on the second line of
its text is not. -/
theorem refusedText_joined :
    let E := Regex.engine (.plain true)
    scanAll E refusedText = .ok (refusedTokens,
      [⟨.unknownCharacter '@', ⟨2, 1, 6⟩⟩,
      ⟨.invalidPattern "/y/ii" (.repeatedFlag 'i'), ⟨1, 1, 0⟩⟩]) ∧
    scanAll E mixedText = .ok (mixedTokens,
      [⟨.general .unterminatedString, ⟨2, 3, 10⟩⟩,
      ⟨.invalidPattern "/x/gg" (.repeatedFlag 'g'), ⟨1, 3, 2⟩⟩]) ∧
    scanAll E (refusedText ++ "" ++ mixedText) = .ok (beforeEnd refusedTokens ++ [
      ⟨.name, "a", ⟨2, 4, 9⟩, none, false⟩,
      ⟨.colon, ":", ⟨2, 5, 10⟩, none, false⟩,
      ⟨.pattern, "/x/gg", ⟨2, 6, 11⟩, none, true⟩,
      ⟨.number, "12", ⟨3, 1, 17⟩, some (.number 12), false⟩,
      ⟨.string, "\"b", ⟨3, 3, 19⟩, none, true⟩,
      ⟨.eof, "", ⟨3, 5, 21⟩, none, false⟩],
      [⟨.unknownCharacter '@', ⟨2, 1, 6⟩⟩,
      ⟨.general .unterminatedString, ⟨3, 3, 19⟩⟩,
      ⟨.invalidPattern "/y/ii" (.repeatedFlag 'i'), ⟨1, 1, 0⟩⟩,
      ⟨.invalidPattern "/x/gg" (.repeatedFlag 'g'), ⟨2, 6, 11⟩⟩]) := by
  intro E
  have hfirst : scanAll E refusedText = .ok (refusedTokens,
      [⟨.unknownCharacter '@', ⟨2, 1, 6⟩⟩,
      ⟨.invalidPattern "/y/ii" (.repeatedFlag 'i'), ⟨1, 1, 0⟩⟩]) := by rfl
  have hsecond : scanAll E mixedText = .ok (mixedTokens,
      [⟨.general .unterminatedString, ⟨2, 3, 10⟩⟩,
      ⟨.invalidPattern "/x/gg" (.repeatedFlag 'g'), ⟨1, 3, 2⟩⟩]) := by rfl
  refine ⟨hfirst, hsecond, scanAll_joined hfirst hsecond (by simp) (by decide) ?_⟩
  intro _ t ht _ _ c hc
  obtain rfl : 'a' = c := by simpa [mixedText] using hc
  revert t
  decide

end StepMachine
