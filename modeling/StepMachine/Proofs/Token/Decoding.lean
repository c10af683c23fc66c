import Mathlib.Data.List.Forall2
import StepMachine.Proofs.Pattern
import StepMachine.Proofs.Token.Passage
import StepMachine.Proofs.Token.Scanning
import StepMachine.Regex.Compile

/-! # Decoded tokens

Decoding changes a token's value and nothing else, except that a pattern which is refused makes
its token invalid. So the tokens of a text are those it is cut into by the lexical grammar, and
invalid are the damaged ones and the closed patterns with a repeated flag or with a body that the
engine refuses.
-/
namespace StepMachine

/-- A closed pattern with flags that stands for nothing, since a flag is repeated or since the
engine refuses the body. -/
def IsRefusedPattern (E : Engine) (text : List Char) : Prop :=
  ∃ body flags, IsBody '/' body ∧ (∀ c ∈ flags, c ∈ Pattern.flagLetters) ∧
    text = '/' :: (body ++ '/' :: flags) ∧
    (¬flags.Nodup ∨
      ∃ refusal, E.refusal? (String.ofList body) (Pattern.options flags) = some refusal)

/-- The second token is the first one with its literal decoded. -/
structure Token.DecodesTo (E : Engine) (raw t : Token) : Prop where
  kind_eq : t.kind = raw.kind
  text_eq : t.text = raw.text
  position_eq : t.position = raw.position
  invalid_iff : t.invalid = true ↔
    raw.invalid = true ∨ raw.kind = .pattern ∧ IsRefusedPattern E raw.text.toList

/-- The value of the literal, if it is not damaged, is read off the token's text. -/
structure Token.IsValued (E : Engine) (t : Token) : Prop where
  number : t.isValid .number = true →
    ∃ n : Nat, Text.readNumeral t.text.toList = .ok n ∧ t.value = some (.number n)
  string : t.isValid .string = true →
    t.value = some (.text (String.ofList (t.text.toList.drop 1).dropLast))
  pattern : t.isValid .pattern = true →
    ∃ p, Pattern.ofText E t.text = .ok p ∧ t.value = some (.pattern p)

/-- Digits that were read are not too many to be written again. -/
theorem Token.IsValued.isDecoded {E : Engine} {t : Token} (h : t.IsValued E)
    (hdigits : t.kind = .number → ∀ c ∈ t.text.toList, isNumberDigit c = true) : t.IsDecoded := by
  refine ⟨?_, fun hv => ⟨_, h.string hv⟩, ?_⟩
  · intro hv
    obtain ⟨hk, -⟩ : t.kind = .number ∧ t.invalid = false := by simpa [isValid] using hv
    obtain ⟨n, hread, hn⟩ := h.number hv
    exact ⟨n, hn, Text.isWritable_of_readNumeral (hdigits hk) hread⟩
  · intro hv
    obtain ⟨p, -, hp⟩ := h.pattern hv
    exact ⟨p, hp⟩

/-! ### Literals in a text -/

theorem Lexeme.all_isNumberDigit {text rest : List Char} {kind : TokenKind} {damaged : Bool}
    (h : Lexeme text rest kind damaged) (hk : kind = .number) :
    ∀ c ∈ text, isNumberDigit c = true := by
  cases h with
  | mark hmark =>
    have hkinds : ∀ m ∈ punctuation, m.2 ≠ .number := by decide
    exact absurd hk (hkinds _ (mem_punctuation hmark))
  | number _ hrun => exact hrun.all
  | _ => exact absurd hk (by decide)

/-- An undamaged pattern is closed, and known flags follow. -/
theorem Lexeme.exists_body {text rest : List Char} {kind : TokenKind} {damaged : Bool}
    (h : Lexeme text rest kind damaged) (hk : kind = .pattern) (hd : damaged = false) :
    ∃ body flags, IsBody '/' body ∧ (∀ c ∈ flags, c ∈ Pattern.flagLetters) ∧
      text = '/' :: (body ++ '/' :: flags) := by
  cases h with
  | mark hmark => exact absurd hk (kind_of_mark hmark).1
  | @pattern _ flags _ hclosed hflags =>
    obtain ⟨body, hbody, rfl⟩ := hclosed.closed
    refine ⟨body, flags, hbody, ?_, by simp⟩
    intro c hc
    simpa using hflags.all c hc
  | openPattern _ => exact absurd hd (by decide)
  | _ => exact absurd hk (by decide)

/-- A number is made of digits, and a pattern that is not damaged has the form of a literal. -/
structure Token.IsWellFormed (t : Token) : Prop where
  number : t.kind = .number → ∀ c ∈ t.text.toList, isNumberDigit c = true
  pattern : t.kind = .pattern → t.invalid = false →
    ∃ body flags, IsBody '/' body ∧ (∀ c ∈ flags, c ∈ Pattern.flagLetters) ∧
      t.text.toList = '/' :: (body ++ '/' :: flags)

theorem Tokenizes.isWellFormed {p : Position} {cs : List Char} {ts : List Token}
    (h : Tokenizes p cs ts) : ∀ t ∈ ts, t.IsWellFormed := by
  intro t ht
  rcases h.lexeme_or_end t ht with ⟨rest, hl⟩ | ⟨hend, -⟩
  · exact ⟨fun hk => hl.all_isNumberDigit hk, fun hk hd => hl.exists_body hk hd⟩
  · constructor <;> simp [hend]

theorem forall₂_of_map_eq {α β γ : Type} {f : α → γ} {g : β → γ} {l : List α} {m : List β}
    (h : l.map f = m.map g) : List.Forall₂ (fun a b => f a = g b) l m := by
  have heq : List.Forall₂ Eq (l.map f) (m.map g) := by rw [List.forall₂_eq_eq_eq, h]
  exact List.forall₂_map_right_iff.mp (List.forall₂_map_left_iff.mp heq)

namespace Token

variable {E : Engine} {raw t : Token} {ds : List Diagnostic}

theorem IsWellFormed.isRefusedPattern_iff (hw : raw.IsWellFormed) (hk : raw.kind = .pattern)
    (hd : raw.invalid = false) : IsRefusedPattern E raw.text.toList ↔
      ∃ failure, Pattern.ofText E raw.text = .error failure := by
  have hofText : ∀ body flags, (∀ c ∈ flags, c ∈ Pattern.flagLetters) →
      raw.text.toList = '/' :: (body ++ '/' :: flags) →
      ((∃ failure, Pattern.ofText E raw.text = .error failure) ↔ ¬flags.Nodup ∨
        ∃ refusal, E.refusal? (String.ofList body) (Pattern.options flags) = some refusal) := by
    intro body flags hflags htext
    rw [← Pattern.ofText_eq_error_iff hflags, ← htext, String.ofList_toList]
  constructor
  · rintro ⟨body, flags, -, hflags, htext, h⟩
    exact (hofText body flags hflags htext).mpr h
  · intro h
    obtain ⟨body, flags, hbody, hflags, htext⟩ := hw.pattern hk hd
    exact ⟨body, flags, hbody, hflags, htext, (hofText body flags hflags htext).mp h⟩

/-- What decoding can make of the token, and what it then reports. -/
inductive DecodesWith (E : Engine) (t : Token) : Token → List Diagnostic → Prop
  | damaged (hi : t.invalid = true) : t.DecodesWith E t []
  | number {n : Nat} (hi : t.invalid = false) (hk : t.kind = .number)
      (hn : Text.readNumeral t.text.toList = .ok n) :
      t.DecodesWith E { t with value := some (.number n) } []
  | string (hi : t.invalid = false) (hk : t.kind = .string) :
      t.DecodesWith E
        { t with value := some (.text (String.ofList (t.text.toList.drop 1).dropLast)) } []
  | pattern {p : Pattern} (hi : t.invalid = false) (hk : t.kind = .pattern)
      (hp : Pattern.ofText E t.text = .ok p) :
      t.DecodesWith E { t with value := some (.pattern p) } []
  | refused {failure : Pattern.Failure} (hi : t.invalid = false) (hk : t.kind = .pattern)
      (hp : Pattern.ofText E t.text = .error failure) (hremark : failure.escaping? = none) :
      t.DecodesWith E { t with invalid := true } [⟨.invalidPattern t.text failure, t.position⟩]
  | plain (hi : t.invalid = false) (hn : t.kind ≠ .number) (hs : t.kind ≠ .string)
      (hp : t.kind ≠ .pattern) : t.DecodesWith E t []

theorem decodesWith_of_decode (h : raw.decode E = .ok (t, ds)) : raw.DecodesWith E t ds := by
  unfold decode at h
  split at h
  · next hi =>
    cases h
    exact .damaged hi
  · next hi =>
    have hvalid : raw.invalid = false := by simpa using hi
    split at h
    · next hk =>
      split at h
      · cases h
      · next n hn =>
        cases h
        exact .number hvalid hk hn
    · next hk =>
      cases h
      exact .string hvalid hk
    · next hk =>
      split at h
      · next p hp =>
        cases h
        exact .pattern hvalid hk hp
      · next failure hp =>
        split at h
        · cases h
        · next hremark =>
          cases h
          exact .refused hvalid hk hp hremark
    · next hn hs hp =>
      cases h
      exact .plain hvalid hn hs hp

theorem decode_fields (h : raw.decode E = .ok (t, ds)) :
    t.kind = raw.kind ∧ t.text = raw.text ∧ t.position = raw.position := by
  cases decodesWith_of_decode h <;> exact ⟨rfl, rfl, rfl⟩

/-- Only a pattern that is refused becomes invalid, and that is what is reported. -/
theorem decode_reports (h : raw.decode E = .ok (t, ds)) : t.invalid = raw.invalid ∧ ds = [] ∨
    raw.kind = .pattern ∧ t.invalid = true ∧
      ∃ failure, ds = [⟨.invalidPattern raw.text failure, raw.position⟩] := by
  cases decodesWith_of_decode h with
  | refused _ hk _ _ => exact .inr ⟨hk, rfl, _, rfl⟩
  | _ => exact .inl ⟨rfl, rfl⟩

theorem decodesTo_of_decode (hw : raw.IsWellFormed) (h : raw.decode E = .ok (t, ds)) :
    raw.DecodesTo E t := by
  obtain ⟨hkind, htext, hposition⟩ := decode_fields h
  refine ⟨hkind, htext, hposition, ?_⟩
  cases decodesWith_of_decode h with
  | damaged hi => simp [hi]
  | number _ hk _ => simp [hk]
  | string _ hk => simp [hk]
  | pattern hi hk hp => simp [hi, hk, hw.isRefusedPattern_iff hk hi, hp]
  | refused hi hk hp _ => simp [hk, hw.isRefusedPattern_iff hk hi, hp]
  | plain _ _ _ hp => simp [hp]

theorem isValued_of_decode (h : raw.decode E = .ok (t, ds)) : t.IsValued E := by
  cases decodesWith_of_decode h with
  | damaged hi => constructor <;> simp [isValid, hi]
  | number _ hk hn => constructor <;> simp [isValid, hk, hn]
  | string _ hk => constructor <;> simp [isValid, hk]
  | pattern _ hk hp => constructor <;> simp [isValid, hk, hp]
  | refused => constructor <;> simp [isValid]
  | plain _ hn hs hp => constructor <;> simp [isValid, hn, hs, hp]

/-! ### Decoding all tokens -/

variable {u : Token} {ts us : List Token} {d : Diagnostic}

theorem decodeAll_cons_eq_ok_iff : decodeAll E (t :: ts) = .ok (us, ds) ↔ ∃ u es us' ds',
    t.decode E = .ok (u, es) ∧ decodeAll E ts = .ok (us', ds') ∧ us = u :: us' ∧ ds = es ++ ds' := by
  rw [decodeAll]
  constructor
  · intro h
    split at h
    · cases h
    · next u es hu =>
      split at h
      · cases h
      · next us' ds' hus =>
        cases h
        exact ⟨u, es, us', ds', hu, hus, rfl, rfl⟩
  · rintro ⟨u, es, us', ds', hu, hus, rfl, rfl⟩
    simp only [hu, hus]

/-- All tokens are decoded if each of them is, and the reports are put together. -/
theorem decodeAll_eq_ok_iff : decodeAll E ts = .ok (us, ds) ↔
    ∃ parts : List (Token × List Diagnostic), ts.map (decode E) = parts.map .ok ∧
      us = parts.map Prod.fst ∧ ds = parts.flatMap Prod.snd := by
  induction ts generalizing us ds with
  | nil =>
    rw [decodeAll]
    constructor
    · rintro ⟨⟩
      exact ⟨[], rfl, rfl, rfl⟩
    · rintro ⟨parts, hparts, rfl, rfl⟩
      obtain rfl : parts = [] := List.map_eq_nil_iff.mp hparts.symm
      rfl
  | cons t ts ih =>
    rw [decodeAll_cons_eq_ok_iff]
    constructor
    · rintro ⟨u, es, us', ds', hu, hus, rfl, rfl⟩
      obtain ⟨parts, hparts, rfl, rfl⟩ := ih.mp hus
      exact ⟨(u, es) :: parts, by simp [hu, hparts], rfl, rfl⟩
    · rintro ⟨parts, hparts, rfl, rfl⟩
      cases parts with
      | nil => simp at hparts
      | cons part parts =>
        simp only [List.map_cons, List.cons.injEq] at hparts
        have hrest := ih.mpr ⟨parts, hparts.2, rfl, rfl⟩
        exact ⟨_, _, _, _, hparts.1, hrest, rfl, rfl⟩

theorem exists_decoded (h : decodeAll E ts = .ok (us, ds)) (ht : t ∈ ts) :
    ∃ u ∈ us, ∃ es, t.decode E = .ok (u, es) := by
  obtain ⟨parts, hparts, rfl, -⟩ := decodeAll_eq_ok_iff.mp h
  have hmem : t.decode E ∈ parts.map Except.ok := hparts ▸ List.mem_map_of_mem ht
  obtain ⟨part, hpart, heq⟩ := List.mem_map.mp hmem
  exact ⟨part.1, List.mem_map_of_mem hpart, part.2, heq.symm⟩

theorem exists_undecoded (h : decodeAll E ts = .ok (us, ds)) (hu : u ∈ us) :
    ∃ t ∈ ts, ∃ es, t.decode E = .ok (u, es) := by
  obtain ⟨parts, hparts, rfl, -⟩ := decodeAll_eq_ok_iff.mp h
  obtain ⟨part, hpart, rfl⟩ := List.mem_map.mp hu
  have hmem : .ok part ∈ ts.map (decode E) := hparts ▸ List.mem_map_of_mem hpart
  obtain ⟨t, ht, heq⟩ := List.mem_map.mp hmem
  exact ⟨t, ht, part.2, heq⟩

theorem exists_refused (h : decodeAll E ts = .ok (us, ds)) (hd : d ∈ ds) :
    ∃ t ∈ ts, ∃ u ∈ us, ∃ es, t.decode E = .ok (u, es) ∧ d ∈ es := by
  obtain ⟨parts, hparts, rfl, rfl⟩ := decodeAll_eq_ok_iff.mp h
  obtain ⟨part, hpart, hmem⟩ := List.mem_flatMap.mp hd
  have hok : .ok part ∈ ts.map (decode E) := hparts ▸ List.mem_map_of_mem hpart
  obtain ⟨t, ht, heq⟩ := List.mem_map.mp hok
  exact ⟨t, ht, part.1, List.mem_map_of_mem hpart, part.2, heq, hmem⟩

theorem decodeAll_spec (hw : ∀ t ∈ ts, t.IsWellFormed) (h : decodeAll E ts = .ok (us, ds)) :
    List.Forall₂ (DecodesTo E) ts us ∧ ∀ u ∈ us, u.IsDecoded := by
  constructor
  · obtain ⟨parts, hparts, rfl, -⟩ := decodeAll_eq_ok_iff.mp h
    have hpairs := (List.forall₂_and_left _ _).mpr ⟨hw, forall₂_of_map_eq hparts⟩
    refine List.forall₂_map_right_iff.mpr (hpairs.imp ?_)
    rintro t part ⟨hwell, hok⟩
    exact decodesTo_of_decode hwell hok
  · intro u hu
    obtain ⟨t, ht, es, hok⟩ := exists_undecoded h hu
    obtain ⟨hkind, htext, -⟩ := decode_fields hok
    refine (isValued_of_decode hok).isDecoded ?_
    rw [hkind, htext]
    exact (hw t ht).number

end Token

/-! ### Tokens of a source text -/

variable {E : Engine} {text : String} {tokens : List Token}

/-- A source that nothing has been read of is scanned from its start, and then decoded. -/
theorem lex_ofText (E : Engine) (text : String) : (Source.ofText text).lex E =
    (Token.decodeAll E (rawTokens text.toList)).map fun decoded =>
      (decoded.1, ⟨text, Scanner.start.runOut text.toList, some decoded.1,
        (Scanner.start.runOut text.toList).diagnostics.toList ++ decoded.2⟩) := by
  unfold Source.lex
  split
  · next found hfound => cases hfound
  · dsimp only
    split
    · next failure hd =>
      have hraw : Token.decodeAll E (rawTokens text.toList) = .error failure := hd
      rw [hraw]
      rfl
    · next us refused hd =>
      have hraw : Token.decodeAll E (rawTokens text.toList) = .ok (us, refused) := hd
      rw [hraw]
      rfl

theorem exists_decodeAll (h : scan E text = .ok tokens) :
    ∃ ds, Token.decodeAll E (rawTokens text.toList) = .ok (tokens, ds) := by
  rw [scan, scanAll, lex_ofText] at h
  cases hd : Token.decodeAll E (rawTokens text.toList) with
  | error failure =>
    rw [hd] at h
    cases h
  | ok decoded =>
    rw [hd] at h
    cases h
    exact ⟨decoded.2, rfl⟩

theorem scan_spec (h : scan E text = .ok tokens) :
    List.Forall₂ (Token.DecodesTo E) (rawTokens text.toList) tokens ∧ ∀ t ∈ tokens, t.IsDecoded := by
  obtain ⟨ds, hds⟩ := exists_decodeAll h
  have hraw : Tokenizes .start text.toList (rawTokens text.toList) := tokenizes_iff.mpr rfl
  exact Token.decodeAll_spec hraw.isWellFormed hds

/-- A name, a mark, a pattern with a repeated flag, and on the next line a number and a string
that is never closed. -/
def mixedText : String := "a:/x/gg\n12\"b"

def mixedTokens : List Token := [
  ⟨.name, "a", ⟨1, 1, 0⟩, none, false⟩,
  ⟨.colon, ":", ⟨1, 2, 1⟩, none, false⟩,
  ⟨.pattern, "/x/gg", ⟨1, 3, 2⟩, none, true⟩,
  ⟨.number, "12", ⟨2, 1, 8⟩, some (.number 12), false⟩,
  ⟨.string, "\"b", ⟨2, 3, 10⟩, none, true⟩,
  ⟨.eof, "", ⟨2, 5, 12⟩, none, false⟩]

/-- The engine is not asked, since the flags of the only pattern are refused. -/
theorem scan_mixedText (E : Engine) : scan E mixedText = .ok mixedTokens := by rfl

/-- The tokens of a text are those that the lexical grammar cuts it into, and there is one way to
do so. A token is invalid if it is damaged or a pattern that is refused. -/
theorem scan_eq_tokenization (h : scan E text = .ok tokens) :
    ∃ raw, (∀ ts, Tokenizes .start text.toList ts ↔ ts = raw) ∧
      List.Forall₂ (Token.DecodesTo E) raw tokens :=
  ⟨rawTokens text.toList, fun _ => tokenizes_iff, (scan_spec h).1⟩

theorem mixedText_tokenization : scan (Regex.engine (.plain true)) mixedText = .ok mixedTokens ∧
    ∃ raw, (∀ ts, Tokenizes .start mixedText.toList ts ↔ ts = raw) ∧
      List.Forall₂ (Token.DecodesTo (Regex.engine (.plain true))) raw mixedTokens :=
  ⟨scan_mixedText _, scan_eq_tokenization (scan_mixedText _)⟩

end StepMachine
