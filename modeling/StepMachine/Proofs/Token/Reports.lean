import StepMachine.Proofs.Token.Damage
import StepMachine.Proofs.Token.Layout

/-! # One report on each invalid token

The scanner reports what it damages, and decoding reports the patterns that it refuses. No token is
reported twice, since what is damaged is not decoded, and no invalid token is left out. Each of the
two lists of reports goes through the text from left to right. A source keeps its tokens, so that
asking for them again adds no report.
-/
namespace StepMachine

/-- The code of the report on an invalid token, by what is wrong with it. -/
inductive Token.IsReportedAs (E : Engine) (t : Token) : Code → Prop
  | unknown (hk : t.kind = .unknown) : IsReportedAs E t .unknownCharacter
  | openString (hk : t.kind = .string) (h : IsUnterminated t.text.toList) :
      IsReportedAs E t .unterminatedString
  | openPattern (hk : t.kind = .pattern) (h : IsUnterminated t.text.toList) :
      IsReportedAs E t .unterminatedPattern
  | refused (hk : t.kind = .pattern) (h : IsRefusedPattern E t.text.toList) :
      IsReportedAs E t .invalidPattern

/-- Either the token is valid in the end and not reported, or it is invalid and reported once. -/
def Token.IsReportedOnce (E : Engine) (t : Token) (part : Token × List Diagnostic) : Prop :=
  part.1.invalid = false ∧ t.damage = [] ∧ part.2 = [] ∨
    part.1.invalid = true ∧ ∃ d, t.damage ++ part.2 = [d] ∧ d.position = part.1.position ∧
      part.1.IsReportedAs E d.code

/-! ### Single tokens -/

section

variable {text rest : List Char} {kind : TokenKind} {damaged : Bool}

theorem Lexeme.exists_char (h : Lexeme text rest kind damaged) (hk : kind = .unknown) :
    ∃ c, text = [c] := by
  cases h with
  | mark => exact ⟨_, rfl⟩
  | unknown => exact ⟨_, rfl⟩
  | _ => exact absurd hk (by decide)

end

namespace Token

variable {E : Engine} {t u : Token} {es : List Diagnostic}

theorem exists_damage {rest : List Char} (hl : Lexeme t.text.toList rest t.kind t.invalid)
    (hi : t.invalid = true) : ∃ d, t.damage = [d] ∧ d.position = t.position ∧
      t.IsReportedAs E d.code := by
  have hopen : t.kind ≠ .unknown → IsUnterminated t.text.toList :=
    fun hk => (hl.damaged_iff.mp hi).resolve_left hk
  rcases hl.kind_of_damaged hi with hk | hk | hk
  · refine ⟨⟨.general .unterminatedString, t.position⟩, ?_, rfl, ?_⟩
    · simp only [damage, hi, hk, if_true]
    · exact .openString hk (hopen (by simp [hk]))
  · refine ⟨⟨.general .unterminatedPattern, t.position⟩, ?_, rfl, ?_⟩
    · simp only [damage, hi, hk, if_true]
    · exact .openPattern hk (hopen (by simp [hk]))
  · obtain ⟨c, hc⟩ := hl.exists_char hk
    refine ⟨⟨.unknownCharacter c, t.position⟩, ?_, rfl, .unknown hk⟩
    simp only [damage, hi, hk, if_true, hc, List.map_cons, List.map_nil]

theorem isReportedOnce {p : Position} {cs : List Char} {raw : List Token}
    (hraw : Tokenizes p cs raw) (ht : t ∈ raw) (h : t.decode E = .ok (u, es)) :
    t.IsReportedOnce E (u, es) := by
  obtain ⟨hkind, htext, hposition⟩ := decode_fields h
  by_cases hi : t.invalid = true
  · obtain ⟨rest, hl⟩ | ⟨-, -, hvalid⟩ := hraw.lexeme_or_end t ht
    · obtain ⟨d, hd, hplace, hcode⟩ := exists_damage (E := E) hl hi
      rw [decode, if_pos hi] at h
      cases h
      exact .inr ⟨hi, d, by rw [hd, List.append_nil], hplace, hcode⟩
    · simp [hvalid] at hi
  · have hvalid : t.invalid = false := by simpa using hi
    have hundamaged : t.damage = [] := by rw [damage, if_neg hi]
    rcases decode_reports h with ⟨hsame, rfl⟩ | ⟨hk, hinvalid, failure, rfl⟩
    · exact .inl ⟨hsame.trans hvalid, hundamaged, rfl⟩
    · have hdecodes := decodesTo_of_decode (hraw.isWellFormed t ht) h
      have hrefused : IsRefusedPattern E u.text.toList := by
        have hcause := (hdecodes.invalid_iff.mp hinvalid).resolve_left hi
        rw [htext]
        exact hcause.2
      refine .inr ⟨hinvalid, ⟨.invalidPattern t.text failure, t.position⟩, ?_, hposition.symm, ?_⟩
      · rw [hundamaged, List.nil_append]
      · exact .refused (hkind.trans hk) hrefused

theorem code_of_mem_decode (h : t.decode E = .ok (u, es)) {d : Diagnostic} (hd : d ∈ es) :
    d.code = .invalidPattern := by
  rcases decode_reports h with ⟨-, rfl⟩ | ⟨-, -, failure, rfl⟩
  · simp at hd
  · rw [List.mem_singleton.mp hd]
    rfl

theorem IsReportedOnce.positions {part : Token × List Diagnostic} (h : t.IsReportedOnce E part) :
    (t.damage.map (·.position)).Sublist [part.1.position] ∧
      (part.2.map (·.position)).Sublist [part.1.position] := by
  obtain ⟨-, hdamage, hes⟩ | ⟨-, d, hd, hposition, -⟩ := h
  · simp [hdamage, hes]
  · have hall : ((t.damage ++ part.2).map (·.position)) = [part.1.position] := by
      rw [hd, List.map_singleton, hposition]
    rw [List.map_append] at hall
    rw [← hall]
    exact ⟨List.sublist_append_left _ _, List.sublist_append_right _ _⟩

end Token

/-! ### Lists of tokens -/

variable {E : Engine} {raw : List Token} {parts : List (Token × List Diagnostic)}

/-- The reports of both sorts can be brought into the order of the invalid tokens. -/
theorem exists_reports (h : List.Forall₂ (Token.IsReportedOnce E) raw parts) :
    ∃ reports, reports.Perm (raw.flatMap Token.damage ++ parts.flatMap Prod.snd) ∧
      List.Forall₂ (fun t d => d.position = t.position ∧ t.IsReportedAs E d.code)
        ((parts.map Prod.fst).filter (·.invalid)) reports := by
  induction h with
  | nil => exact ⟨[], .refl _, .nil⟩
  | @cons t part raw parts hone _ ih =>
    obtain ⟨reports, hperm, hall⟩ := ih
    obtain ⟨hvalid, hdamage, hes⟩ | ⟨hinvalid, d, hd, hreported⟩ := hone
    · refine ⟨reports, ?_, ?_⟩
      · simpa [hdamage, hes] using hperm
      · simpa [hvalid] using hall
    · refine ⟨d :: reports, ?_, ?_⟩
      · -- the report on the first token stands at the front of either list
        have hfront : (t.damage ++ part.2 ++ (raw.flatMap Token.damage ++
            parts.flatMap Prod.snd)).Perm ((t :: raw).flatMap Token.damage ++
            (part :: parts).flatMap Prod.snd) := by
          simp only [List.flatMap_cons, List.append_assoc]
          exact (List.perm_append_comm_assoc ..).append_left _
        refine .trans ?_ hfront
        rw [hd]
        exact hperm.cons d
      · rw [List.map_cons, List.filter_cons_of_pos hinvalid]
        exact .cons hreported hall

theorem positions_sublist (h : List.Forall₂ (Token.IsReportedOnce E) raw parts) :
    ((raw.flatMap Token.damage).map (·.position)).Sublist
        ((parts.map Prod.fst).map (·.position)) ∧
      ((parts.flatMap Prod.snd).map (·.position)).Sublist
        ((parts.map Prod.fst).map (·.position)) := by
  induction h with
  | nil => exact ⟨.refl _, .refl _⟩
  | cons hone _ ih =>
    obtain ⟨hdamage, hes⟩ := hone.positions
    constructor
    · rw [List.flatMap_cons, List.map_append]
      exact hdamage.append ih.1
    · rw [List.flatMap_cons, List.map_append]
      exact hes.append ih.2

/-- Only the end comes after a literal that is not closed. -/
theorem Tokenizes.ends_after {p : Position} {cs : List Char} (h : Tokenizes p cs raw) {t : Token}
    {before after : List Token} (hraw : raw = before ++ t :: after)
    (ht : IsUnterminated t.text.toList) : ∃ e, after = [e] ∧ e.kind = .eof := by
  induction h generalizing before with
  | ending p =>
    have hmem : t ∈ [(⟨.eof, "", p, none, false⟩ : Token)] := by simp [hraw]
    rw [List.mem_singleton.mp hmem] at ht
    exact absurd ht not_isUnterminated_nil
  | blank _ _ ih => exact ih hraw
  | @token p text rest kind damaged ts hb hl htail ih =>
    cases before with
    | nil =>
      obtain ⟨rfl, rfl⟩ := List.cons.inj hraw
      rw [String.toList_ofList] at ht
      exact ⟨_, htail.eq_of_nil (hl.rest_eq_nil ht), rfl⟩
    | cons u before => exact ih (List.cons.inj hraw).2

/-! ### The reports on a text -/

section

variable {text : String} {tokens : List Token} {scanned : List Diagnostic}
variable (h : scanAll E text = .ok (tokens, scanned))
include h

theorem exists_parts : ∃ raw parts, List.Forall₂ (Token.IsReportedOnce E) raw parts ∧
    (∀ part ∈ parts, ∃ t : Token, t.decode E = .ok part) ∧ tokens = parts.map Prod.fst ∧
    scanned = raw.flatMap Token.damage ++ parts.flatMap Prod.snd := by
  obtain ⟨raw, refused, hraw, hdecode, rfl⟩ := exists_decodeAll_of_scanAll h
  obtain ⟨parts, hparts, rfl, rfl⟩ := Token.decodeAll_eq_ok_iff.mp hdecode
  have hpairs := (List.forall₂_and_left _ _).mpr
    ⟨fun t (ht : t ∈ raw) => ht, forall₂_of_map_eq hparts⟩
  refine ⟨raw, parts, hpairs.imp ?_, ?_, rfl, rfl⟩
  · rintro t ⟨u, es⟩ ⟨ht, hok⟩
    exact Token.isReportedOnce hraw ht hok
  · intro part hpart
    have hmem : .ok part ∈ raw.map (Token.decode E) := hparts ▸ List.mem_map_of_mem hpart
    obtain ⟨t, -, hok⟩ := List.mem_map.mp hmem
    exact ⟨t, hok⟩

theorem scanAll_ordered : ∃ early late, scanned = early ++ late ∧
    (∀ d ∈ early, d.code ∈ [.unknownCharacter, .unterminatedString, .unterminatedPattern]) ∧
    (∀ d ∈ late, d.code = .invalidPattern) ∧
    (early.map (·.position.index)).Pairwise (· < ·) ∧
    (late.map (·.position.index)).Pairwise (· < ·) := by
  have hout := scan_isLaidOut (scan_of_scanAll h)
  obtain ⟨raw, parts, hone, hdecoded, rfl, rfl⟩ := exists_parts h
  obtain ⟨hearly, hlate⟩ := positions_sublist hone
  refine ⟨_, _, rfl, ?_, ?_, hout.pairwise_of_sublist hearly, hout.pairwise_of_sublist hlate⟩
  · intro d hd
    obtain ⟨t, -, hmem⟩ := List.mem_flatMap.mp hd
    exact (Token.mem_damage hmem).2.2
  · intro d hd
    obtain ⟨part, hpart, hmem⟩ := List.mem_flatMap.mp hd
    obtain ⟨t, hok⟩ := hdecoded part hpart
    exact Token.code_of_mem_decode hok hmem

theorem position_ne_of_valid {d : Diagnostic} (hd : d ∈ scanned) {t : Token} (ht : t ∈ tokens)
    (hi : t.invalid = false) : d.position ≠ t.position := by
  obtain ⟨-, u, hu, hinvalid, hposition⟩ := scanAll_reports h d hd
  intro heq
  have hsame := (scan_isLaidOut (scan_of_scanAll h)).eq_of_position_eq hu ht (hposition.trans heq)
  rw [hsame, hi] at hinvalid
  cases hinvalid

theorem scanAll_ends_after {before after : List Token} {t : Token}
    (heq : tokens = before ++ t :: after) (ht : IsUnterminated t.text.toList) :
    ∃ e, after = [e] ∧ e.kind = .eof := by
  have hraw : Tokenizes .start text.toList (rawTokens text.toList) := tokenizes_iff.mpr rfl
  have hdecoded := (scan_spec (scan_of_scanAll h)).1
  rw [heq] at hdecoded
  obtain ⟨t', after', htext, hafter, hdrop⟩ :=
    List.forall₂_cons_right_iff.mp (List.forall₂_drop_append _ _ _ hdecoded)
  -- decoding keeps the texts, so the literal stands at the same place before it
  have hsplit := List.take_append_drop before.length (rawTokens text.toList)
  rw [hdrop] at hsplit
  rw [htext.text_eq] at ht
  obtain ⟨e', rfl, he'⟩ := hraw.ends_after hsplit.symm ht
  obtain ⟨e, rest, he, hrest, rfl⟩ := List.forall₂_cons_left_iff.mp hafter
  rw [List.forall₂_nil_left_iff.mp hrest]
  exact ⟨e, rfl, he.kind_eq.trans he'⟩

end

/-! ### Sources -/

namespace Source

/-- Ask for the tokens so many times. -/
def lexTimes (E : Engine) : Nat → Source → Except ScanFailure (List (List Token) × Source)
  | 0, s => .ok ([], s)
  | n + 1, s =>
    match s.lex E with
    | .error failure => .error failure
    | .ok (tokens, s') =>
      match lexTimes E n s' with
      | .error failure => .error failure
      | .ok (rest, s'') => .ok (tokens :: rest, s'')

variable {E : Engine} {s s' : Source} {tokens : List Token}

theorem lex_again (h : s.lex E = .ok (tokens, s')) : s'.lex E = .ok (tokens, s') := by
  have hfound : s'.found = some tokens := by
    unfold lex at h
    split at h
    · next found hfound =>
      cases h
      exact hfound
    · dsimp only at h
      split at h
      · cases h
      · cases h
        rfl
  rw [lex, hfound]

theorem lexTimes_again (h : s.lex E = .ok (tokens, s')) (n : Nat) :
    s'.lexTimes E n = .ok (List.replicate n tokens, s') := by
  induction n with
  | zero => rfl
  | succ n ih =>
    rw [lexTimes, lex_again h]
    simp only [ih]
    rfl

end Source

/-- The reports on a text go with its invalid tokens one to one. Those of the scanner come first,
those on refused patterns after them, each in the order of the text. Only the last token can be one
that is not closed, and asking for the tokens again changes nothing. -/
theorem lex_reports_invalid {E : Engine} {text : String} {tokens : List Token}
    {source : Source} (h : (Source.ofText text).lex E = .ok (tokens, source)) :
    (∃ reports, reports.Perm source.diagnostics ∧
      List.Forall₂ (fun t d => d.position = t.position ∧ t.IsReportedAs E d.code)
        (tokens.filter (·.invalid)) reports) ∧
    (∀ d ∈ source.diagnostics, ∀ t ∈ tokens, t.invalid = false → d.position ≠ t.position) ∧
    (∀ before t after, tokens = before ++ t :: after → IsUnterminated t.text.toList →
      ∃ e, after = [e] ∧ e.kind = .eof) ∧
    (∃ early late, source.diagnostics = early ++ late ∧
      (∀ d ∈ early, d.code ∈
        [.unknownCharacter, .unterminatedString, .unterminatedPattern]) ∧
      (∀ d ∈ late, d.code = .invalidPattern) ∧
      (early.map (·.position.index)).Pairwise (· < ·) ∧
      (late.map (·.position.index)).Pairwise (· < ·)) ∧
    ∀ n, source.lexTimes E n = .ok (List.replicate n tokens, source) := by
  have hscan : scanAll E text = .ok (tokens, source.diagnostics) := by rw [scanAll, h]
  have hone : ∃ reports, reports.Perm source.diagnostics ∧
      List.Forall₂ (fun t d => d.position = t.position ∧ t.IsReportedAs E d.code)
        (tokens.filter (·.invalid)) reports := by
    obtain ⟨raw, parts, hparts, -, rfl, hdiagnostics⟩ := exists_parts hscan
    rw [hdiagnostics]
    exact exists_reports hparts
  exact ⟨hone, fun d hd t ht hi => position_ne_of_valid hscan hd ht hi,
    fun before t after heq ht => scanAll_ends_after hscan heq ht, scanAll_ordered hscan,
    Source.lexTimes_again h⟩

/-- The refused pattern is reported after the pattern that is not closed. -/
theorem damage_reported :
    let E := Regex.engine (.plain true)
    ∃ tokens source, (Source.ofText "# /x/gg @ /b").lex E = .ok (tokens, source) ∧
      source.diagnostics.map (fun d => (d.code, d.position.index)) =
        [(.unknownCharacter, 0), (.unknownCharacter, 8), (.unterminatedPattern, 10),
          (.invalidPattern, 2)] ∧
      (∃ reports, reports.Perm source.diagnostics ∧
        List.Forall₂ (fun t d => d.position = t.position ∧ t.IsReportedAs E d.code)
          (tokens.filter (·.invalid)) reports) ∧
      source.lexTimes E 2 = .ok ([tokens, tokens], source) := by
  intro E
  have hseen : ((Source.ofText "# /x/gg @ /b").lex E).toOption.map
      (fun found => found.2.diagnostics.map fun d => (d.code, d.position.index)) =
      some [(.unknownCharacter, 0), (.unknownCharacter, 8), (.unterminatedPattern, 10),
        (.invalidPattern, 2)] := by decide +kernel
  obtain ⟨⟨tokens, source⟩, hlex, hdiagnostics⟩ := exists_of_toOption_map hseen
  obtain ⟨hreports, -, -, -, hagain⟩ := lex_reports_invalid hlex
  exact ⟨tokens, source, hlex, hdiagnostics, hreports, hagain 2⟩

end StepMachine
