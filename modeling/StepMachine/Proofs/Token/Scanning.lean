import StepMachine.Proofs.Token.Lexeme
import StepMachine.Token.Source

/-! # The scanner follows the lexical grammar

Between tokens the scanner is idle. From there it reads a lexeme and is idle again, with one more
token: at once if the lexeme is a mark, after the character that ends a run has been handed back,
on the quote that closes a literal, or at the end of the text. So the scanner cuts a text as the
lexical grammar says, and no text can be cut in another way.
-/
namespace StepMachine

/-- The reports of the scanner on a token. -/
def Token.damage (t : Token) : List Diagnostic :=
  if t.invalid then
    match t.kind with
    | .unknown => t.text.toList.map fun c => ⟨.unknownCharacter c, t.position⟩
    | .string => [⟨.general .unterminatedString, t.position⟩]
    | .pattern => [⟨.general .unterminatedPattern, t.position⟩]
    | _ => []
  else []

namespace ScanState

/-! ### Between tokens -/

variable {c : Char} {kind : TokenKind}

theorem lookup_punctuation_eq_none {p : Char → Bool} (hp : ∀ m ∈ punctuation, p m.1 = false)
    (hc : p c = true) : punctuation.lookup c = none := by
  rw [List.lookup_eq_none_iff]
  intro m hm
  rw [bne_iff_ne]
  rintro rfl
  simp [hp m hm] at hc

theorem dispatchMove_blank (hc : Text.isBlank c = true) : dispatchMove c = .skip := by
  have hmark := lookup_punctuation_eq_none (p := Text.isBlank) (by decide) hc
  simp only [dispatchMove, hmark, hc, if_true]

theorem dispatchMove_mark (h : punctuation.lookup c = some kind) :
    dispatchMove c = .finish kind := by
  simp only [dispatchMove, h]

theorem dispatchMove_letter (hb : Text.isBlank c = false) (hc : isNameLetter c = true) :
    dispatchMove c = .take .name := by
  have hmark := lookup_punctuation_eq_none (p := isNameLetter) (by decide) hc
  have hletter : Text.isAsciiLetter c.toNat = true := hc
  simp [dispatchMove, hmark, hb, hletter]

theorem dispatchMove_digit (hb : Text.isBlank c = false) (hc : isNumberDigit c = true) :
    dispatchMove c = .take .number := by
  have hmark := lookup_punctuation_eq_none (p := isNumberDigit) (by decide) hc
  have hdigit : Text.isAsciiDigit c.toNat = true := hc
  have hletter : Text.isAsciiLetter c.toNat = false := by
    simp only [Text.isAsciiDigit, Bool.and_eq_true, decide_eq_true_eq] at hdigit
    simp only [Text.isAsciiLetter, Bool.or_eq_false_iff, Bool.and_eq_false_iff,
      decide_eq_false_iff_not]
    omega
  simp [dispatchMove, hmark, hb, hletter, hdigit]

theorem dispatchMove_other (hb : Text.isBlank c = false) (hc : StartsNothing c) :
    dispatchMove c = .refuse := by
  have hletter : Text.isAsciiLetter c.toNat = false := hc.not_letter
  have hdigit : Text.isAsciiDigit c.toNat = false := hc.not_digit
  have hquote := hc.not_quote
  simp only [stringQuotes, List.mem_cons, List.not_mem_nil, or_false, not_or] at hquote
  simp [dispatchMove, hc.not_mark, hb, hletter, hdigit, hc.not_slash, hquote.1, hquote.2]

theorem dispatch_handsBack (c : Char) : dispatch.handsBack c = false := by
  simp only [handsBack, move, dispatchMove]
  cases punctuation.lookup c with
  | some kind => rfl
  | none =>
    dsimp only
    split_ifs <;> rfl

theorem ne_dispatch {st : ScanState} {pending : TokenKind × Option Code}
    (h : st.pending? = some pending) : st ≠ .dispatch := by
  rintro rfl
  simp [pending?] at h

/-! ### Inside a token -/

/-- In this state a run of such characters is taken, and any other character is handed back. -/
structure TakesRun (st : ScanState) (p : Char → Bool) (kind : TokenKind) : Prop where
  move_eq : ∀ c, st.move c = if p c then .take st else .handBack kind
  pending_eq : st.pending? = some (kind, none)

theorem name_takesRun : TakesRun .name isNameLetter .name := ⟨fun _ => rfl, rfl⟩

theorem number_takesRun : TakesRun .number isNumberDigit .number := ⟨fun _ => rfl, rfl⟩

theorem patternFlags_takesRun : TakesRun .patternFlags Pattern.flagLetters.contains .pattern :=
  ⟨fun _ => rfl, rfl⟩

/-- These two states read a literal that the quote opens, up to the quote that closes it. -/
structure ReadsLiteral (q : Char) (body escape : ScanState) (closing : ScanMove)
    (kind : TokenKind) (code : Code) : Prop where
  quote_ne : q ≠ '\\'
  opens : dispatchMove q = .take body
  move_body : ∀ c, body.move c =
    if c = '\\' then .take escape else if c = q then closing else .take body
  move_escape : ∀ c, escape.move c = .take body
  pending_body : body.pending? = some (kind, some code)
  pending_escape : escape.pending? = some (kind, some code)

theorem ReadsLiteral.closes {q : Char} {body escape : ScanState} {closing : ScanMove}
    {code : Code} (h : ReadsLiteral q body escape closing kind code) : body.move q = closing := by
  rw [h.move_body, if_neg h.quote_ne, if_pos rfl]

theorem readsLiteral_string {q : Char} (hq : q ∈ stringQuotes) :
    ∃ body escape, ReadsLiteral q body escape (.finish .string) .string .unterminatedString := by
  simp only [stringQuotes, List.mem_cons, List.not_mem_nil, or_false] at hq
  rcases hq with rfl | rfl
  · exact ⟨.doubleString, .doubleStringEscape,
      by decide, by decide, fun _ => rfl, fun _ => rfl, rfl, rfl⟩
  · exact ⟨.singleString, .singleStringEscape,
      by decide, by decide, fun _ => rfl, fun _ => rfl, rfl, rfl⟩

theorem readsLiteral_pattern : ReadsLiteral '/' .patternBody .patternEscape (.take .patternFlags)
    .pattern .unterminatedPattern :=
  ⟨by decide, by decide, fun _ => rfl, fun _ => rfl, rfl, rfl⟩

end ScanState

namespace Scanner

/-- Feed characters and emit what is then pending. -/
def runOut (s : Scanner) (cs : List Char) : Scanner := (s.feedAll cs).close

/-- Between tokens nothing is pending. -/
structure IsIdle (s : Scanner) : Prop where
  state_eq : s.state = .dispatch
  held_eq : s.held = #[]

/-- The machine with the characters taken into the pending token, in the next state. -/
def taking (s : Scanner) (cs : List Char) (next : ScanState) : Scanner :=
  { s with state := next, position := s.position.advanceOver cs, held := s.held ++ cs.toArray }

/-- The token with this text that starts where the machine is. -/
def token (s : Scanner) (kind : TokenKind) (text : List Char) (damaged : Bool) : Token :=
  ⟨kind, String.ofList text, s.position, none, damaged⟩

/-- The idle machine after a token that starts where it is. -/
def after (s : Scanner) (t : Token) : Scanner where
  state := .dispatch
  tokenStart := s.position
  position := s.position.advanceOver t.text.toList
  held := #[]
  tokens := s.tokens.push t
  diagnostics := s.diagnostics ++ t.damage

variable {s : Scanner} {c : Char} {cs ds rest : List Char} {st next : ScanState}
variable {kind : TokenKind} {p : Char → Bool}

theorem runOut_append (s : Scanner) (cs ds : List Char) :
    s.runOut (cs ++ ds) = (s.feedAll cs).runOut ds := by
  rw [runOut, feedAll_append, runOut]

theorem runOut_cons (s : Scanner) (c : Char) (cs : List Char) :
    s.runOut (c :: cs) = (s.feed c).runOut cs := rfl

theorem IsIdle.runOut_nil (hs : s.IsIdle) : s.runOut [] = s := by
  simp [runOut, close, hs.state_eq, ScanState.pending?]

theorem IsIdle.move_eq (hs : s.IsIdle) : s.state.move c = ScanState.dispatchMove c := by
  rw [hs.state_eq]
  rfl

theorem isIdle_after (t : Token) : (s.after t).IsIdle := ⟨rfl, rfl⟩

theorem mark_of_ne (h : s.state ≠ .dispatch) : s.mark = s := by
  rw [mark, if_neg h]

theorem taking_nil (h : s.state = st) : s.taking [] st = s := by
  subst h
  simp [taking]

theorem taking_taking : (s.taking cs st).taking ds next = s.taking (cs ++ ds) next := by
  simp [taking, Position.advanceOver_append]

/-- Before this text, the machine goes on as the other one would. -/
structure GoesLike (s u : Scanner) (cs : List Char) : Prop where
  close_eq : cs = [] → s.close = u.close
  feed_eq : ∀ c ∈ cs.head?, s.feed c = u.feed c

theorem GoesLike.of_eq {u : Scanner} (h : s = u) : s.GoesLike u cs :=
  ⟨fun _ => by rw [h], fun c _ => by rw [h]⟩

theorem GoesLike.runOut_eq {u : Scanner} (h : s.GoesLike u cs) : s.runOut cs = u.runOut cs := by
  cases cs with
  | nil => exact h.close_eq rfl
  | cons c cs => rw [runOut_cons, runOut_cons, h.feed_eq c rfl]

theorem GoesLike.feedAll_eq {u : Scanner} (h : s.GoesLike u cs) (hds : ds <+: cs)
    (hne : ds ≠ []) : s.feedAll ds = u.feedAll ds := by
  obtain ⟨rest, rfl⟩ := hds
  obtain ⟨d, ds, rfl⟩ := List.exists_cons_of_ne_nil hne
  rw [feedAll_cons, feedAll_cons, h.feed_eq d rfl]

/-! ### One character -/

theorem feed_eq_handle (h : s.state.handsBack c = false) : s.feed c = s.handle c := by
  rw [feed, if_neg (by simp [h])]

theorem feed_of_take (h : s.state.move c = .take next) : s.feed c = s.mark.taking [c] next := by
  rw [feed_eq_handle (by simp [ScanState.handsBack, h])]
  simp [handle, h, taking, bump]

theorem feed_of_finish (h : s.state.move c = .finish kind) :
    s.feed c = (s.mark.taking [c] s.state).emit kind false := by
  rw [feed_eq_handle (by simp [ScanState.handsBack, h])]
  simp [handle, h, taking, bump, emit]

theorem feed_of_refuse (h : s.state.move c = .refuse) : s.feed c =
    ((s.mark.taking [c] s.state).emit .unknown true).report (.unknownCharacter c) := by
  rw [feed_eq_handle (by simp [ScanState.handsBack, h])]
  simp [handle, h, taking, bump, emit]

theorem feed_of_take_inside (hst : s.state = st) (hne : st ≠ .dispatch)
    (h : st.move c = .take next) : s.feed c = s.taking [c] next := by
  subst hst
  rw [feed_of_take h, mark_of_ne hne]

theorem feed_of_finish_inside (hst : s.state = st) (hne : st ≠ .dispatch)
    (h : st.move c = .finish kind) : s.feed c = (s.taking [c] st).emit kind false := by
  subst hst
  rw [feed_of_finish h, mark_of_ne hne]

/-- A character that is handed back, or the end of the text, emits the pending token. -/
theorem goesLike_of_handBack (hp : s.state.pending? = some (kind, none))
    (h : ∀ c ∈ cs.head?, s.state.move c = .handBack kind) :
    s.GoesLike (s.emit kind false) cs := by
  constructor
  · intro _
    have hidle : (s.emit kind false).close = s.emit kind false := rfl
    rw [hidle]
    simp [close, hp]
  · intro c hc
    have hback : s.state.handsBack c = true := by simp [ScanState.handsBack, h c hc]
    have hhandle : s.handle c = s.emit kind false := by simp [handle, h c hc]
    have hfeed : (s.emit kind false).feed c = (s.emit kind false).handle c :=
      feed_eq_handle (ScanState.dispatch_handsBack c)
    rw [hfeed, feed, if_pos hback, hhandle]

/-! ### Whole tokens -/

/-- A run goes on to its last character. -/
theorem goesLike_run (h : st.TakesRun p kind) (hst : s.state = st)
    (hr : IsMaximalRun p cs rest) :
    (s.feedAll cs).GoesLike ((s.taking cs st).emit kind false) rest := by
  have hne := ScanState.ne_dispatch h.pending_eq
  have htake : s.feedAll cs = s.taking cs st := by
    have hall := hr.all
    clear hr
    induction cs generalizing s with
    | nil => rw [taking_nil hst, feedAll_nil]
    | cons c cs ih =>
      have hc : st.move c = .take st := by simp [h.move_eq, hall c]
      rw [feedAll_cons, feed_of_take_inside hst hne hc, ih (s := s.taking [c] st) rfl, taking_taking,
        List.singleton_append]
      intro d hd
      exact hall d (List.mem_cons_of_mem c hd)
  rw [htake]
  refine goesLike_of_handBack h.pending_eq fun c hc => ?_
  change st.move c = _
  simp [h.move_eq, hr.stops c hc]

theorem emit_taking (hs : s.IsIdle) (text : List Char) (st : ScanState) (kind : TokenKind) :
    (s.mark.taking text st).emit kind false = s.after (s.token kind text false) := by
  simp [emit, taking, mark, after, token, Token.damage, hs.state_eq, hs.held_eq]

theorem report_emit_taking (hs : s.IsIdle) (text : List Char) (st : ScanState)
    (kind : TokenKind) {cause : Cause}
    (hd : (s.token kind text true).damage = [⟨cause, s.position⟩]) :
    ((s.mark.taking text st).emit kind true).report cause = s.after (s.token kind text true) := by
  rw [after, hd]
  simp [emit, report, taking, mark, token, hs.state_eq, hs.held_eq]

theorem goesLike_opened_run (hs : s.IsIdle) (h : st.TakesRun p kind)
    (hopen : ScanState.dispatchMove c = .take st) (hr : IsMaximalRun p (c :: cs) rest) :
    (s.feedAll (c :: cs)).GoesLike (s.after (s.token kind (c :: cs) false)) rest := by
  have hr' : IsMaximalRun p cs rest := ⟨fun d hd => hr.all d (List.mem_cons_of_mem c hd), hr.stops⟩
  have hrun := goesLike_run (s := s.mark.taking [c] st) h rfl hr'
  rw [taking_taking, List.singleton_append, emit_taking hs] at hrun
  rwa [feedAll_cons, feed_of_take (hs.move_eq.trans hopen)]

variable {q : Char} {body escape : ScanState} {closing : ScanMove} {code : Code}

/-- From the quote on, a body is taken. -/
theorem feedAll_body (h : ScanState.ReadsLiteral q body escape closing kind code)
    (hs : s.IsIdle) (hcs : IsBody q cs) :
    s.feedAll (q :: cs) = s.mark.taking (q :: cs) body := by
  have hinside : ∀ s : Scanner, s.state = body → s.feedAll cs = s.taking cs body := by
    have hbody := ScanState.ne_dispatch h.pending_body
    have hescape := ScanState.ne_dispatch h.pending_escape
    induction hcs with
    | nil =>
      intro s hs
      rw [taking_nil hs, feedAll_nil]
    | escape c _ ih =>
      intro s hs
      have hopen : body.move '\\' = .take escape := by simp [h.move_body]
      rw [feedAll_cons, feed_of_take_inside hs hbody hopen, feedAll_cons,
        feed_of_take_inside rfl hescape (h.move_escape c), taking_taking, ih _ rfl, taking_taking]
      rfl
    | @plain c _ hq hb _ ih =>
      intro s hs
      have hplain : body.move c = .take body := by simp [h.move_body, hq, hb]
      rw [feedAll_cons, feed_of_take_inside hs hbody hplain, ih _ rfl, taking_taking]
      rfl
  rw [feedAll_cons, feed_of_take (hs.move_eq.trans h.opens), hinside _ rfl, taking_taking]
  rfl

theorem goesLike_neverCloses (h : ScanState.ReadsLiteral q body escape closing kind code)
    (hs : s.IsIdle) (hcs : NeverCloses q (q :: cs))
    (hd : (s.token kind (q :: cs) true).damage = [⟨.general code, s.position⟩]) :
    (s.feedAll (q :: cs)).GoesLike (s.after (s.token kind (q :: cs) true)) [] := by
  refine ⟨fun _ => ?_, by simp⟩
  change _ = s.after _
  have hclose : ∀ st : ScanState, st.pending? = some (kind, some code) →
      (s.mark.taking (q :: cs) st).close = s.after (s.token kind (q :: cs) true) := by
    intro st hst
    rw [← report_emit_taking hs _ st kind hd, close, taking]
    simp only [hst]
  -- the text ends in the body state, or in the escape state if a backslash stands last
  obtain ⟨bs, rest, hb, rfl⟩ | ⟨bs, hb, rfl | rfl⟩ := body_cases q cs
  · exact absurd ⟨bs, hb, rfl⟩ (hcs (q :: (bs ++ [q])) ⟨rest, by simp⟩)
  · rw [feedAll_body h hs hb]
    exact hclose body h.pending_body
  · have hescape : body.move '\\' = .take escape := by simp [h.move_body]
    rw [← List.cons_append, feedAll_append, feedAll_body h hs hb, feedAll_cons,
      feed_of_take_inside rfl (ScanState.ne_dispatch h.pending_body) hescape, taking_taking]
    exact hclose escape h.pending_escape

end Scanner

/-- From an idle machine every lexeme is read as its token. -/
theorem Lexeme.goesLike {s : Scanner} {text rest : List Char} {kind : TokenKind} {damaged : Bool}
    (hl : Lexeme text rest kind damaged) (hs : s.IsIdle)
    (hb : ∀ c ∈ text.head?, Text.isBlank c = false) :
    (s.feedAll text).GoesLike (s.after (s.token kind text damaged)) rest := by
  cases hl with
  | mark h =>
    have hmove := hs.move_eq.trans (ScanState.dispatchMove_mark h)
    apply Scanner.GoesLike.of_eq
    rw [Scanner.feedAll_cons, Scanner.feedAll_nil, Scanner.feed_of_finish hmove,
      Scanner.emit_taking hs]
  | unknown h =>
    have hmove := hs.move_eq.trans (ScanState.dispatchMove_other (hb _ rfl) h)
    apply Scanner.GoesLike.of_eq
    rw [Scanner.feedAll_cons, Scanner.feedAll_nil, Scanner.feed_of_refuse hmove,
      Scanner.report_emit_taking hs]
    simp [Token.damage, Scanner.token]
  | @name cs _ hne h =>
    obtain ⟨c, cs, rfl⟩ := List.exists_cons_of_ne_nil hne
    exact Scanner.goesLike_opened_run hs ScanState.name_takesRun
      (ScanState.dispatchMove_letter (hb c rfl) (h.all c (List.mem_cons_self ..))) h
  | @number cs _ hne h =>
    obtain ⟨c, cs, rfl⟩ := List.exists_cons_of_ne_nil hne
    exact Scanner.goesLike_opened_run hs ScanState.number_takesRun
      (ScanState.dispatchMove_digit (hb c rfl) (h.all c (List.mem_cons_self ..))) h
  | string hq h =>
    obtain ⟨bs, hbs, rfl⟩ := h.closed
    obtain ⟨body, escape, hread⟩ := ScanState.readsLiteral_string hq
    apply Scanner.GoesLike.of_eq
    rw [← List.cons_append, Scanner.feedAll_append, Scanner.feedAll_body hread hs hbs,
      Scanner.feedAll_cons, Scanner.feedAll_nil,
      Scanner.feed_of_finish_inside rfl (ScanState.ne_dispatch hread.pending_body) hread.closes,
      Scanner.taking_taking, Scanner.emit_taking hs]
  | openString hq h =>
    obtain ⟨body, escape, hread⟩ := ScanState.readsLiteral_string hq
    exact Scanner.goesLike_neverCloses hread hs h rfl
  | @pattern _ flags _ h hf =>
    obtain ⟨bs, hbs, rfl⟩ := h.closed
    have hread := ScanState.readsLiteral_pattern
    have hrun := Scanner.goesLike_run (s := s.mark.taking ('/' :: bs ++ ['/']) .patternFlags)
      ScanState.patternFlags_takesRun rfl hf
    rw [Scanner.taking_taking, Scanner.emit_taking hs] at hrun
    rwa [← List.cons_append, Scanner.feedAll_append, Scanner.feedAll_append,
      Scanner.feedAll_body hread hs hbs, Scanner.feedAll_cons, Scanner.feedAll_nil,
      Scanner.feed_of_take_inside rfl (ScanState.ne_dispatch hread.pending_body) hread.closes,
      Scanner.taking_taking]
  | openPattern h => exact Scanner.goesLike_neverCloses ScanState.readsLiteral_pattern hs h rfl

theorem Lexeme.runOut_eq {s : Scanner} {text rest : List Char} {kind : TokenKind} {damaged : Bool}
    (hl : Lexeme text rest kind damaged) (hs : s.IsIdle)
    (hb : ∀ c ∈ text.head?, Text.isBlank c = false) :
    s.runOut (text ++ rest) = (s.after (s.token kind text damaged)).runOut rest := by
  rw [Scanner.runOut_append, (hl.goesLike hs hb).runOut_eq]

/-! ### Whole texts -/

namespace Scanner

/-- What has been emitted, and the token of the end. -/
def output (s : Scanner) : List Token := s.tokens.toList ++ [s.endToken]

variable {s : Scanner} {c : Char}

def skipping (s : Scanner) (c : Char) : Scanner :=
  { s.mark with position := s.position.advance c }

theorem feed_blank (hs : s.IsIdle) (hc : Text.isBlank c = true) : s.feed c = s.skipping c := by
  have hmove := hs.move_eq.trans (ScanState.dispatchMove_blank hc)
  rw [feed_eq_handle (by simp [ScanState.handsBack, hmove])]
  simp [handle, hmove, skipping]

theorem isIdle_skipping (hs : s.IsIdle) : (s.skipping c).IsIdle := by
  constructor <;> simp [skipping, mark, hs.state_eq, hs.held_eq]

end Scanner

/-- From an idle machine a text is read as the tokens that it is cut into, and the damaged ones
are reported. -/
theorem Tokenizes.runOut_spec {p : Position} {cs : List Char} {ts : List Token}
    (h : Tokenizes p cs ts) : ∀ s : Scanner, s.IsIdle → s.position = p →
      (s.runOut cs).output = s.tokens.toList ++ ts ∧
      (s.runOut cs).diagnostics.toList = s.diagnostics.toList ++ ts.flatMap Token.damage := by
  induction h with
  | ending p =>
    rintro s hs rfl
    rw [hs.runOut_nil]
    exact ⟨rfl, by simp [Token.damage]⟩
  | blank hc _ ih =>
    rintro s hs rfl
    rw [Scanner.runOut_cons, Scanner.feed_blank hs hc]
    have hmark : s.mark.tokens = s.tokens ∧ s.mark.diagnostics = s.diagnostics := by
      simp [Scanner.mark, hs.state_eq]
    rw [← hmark.1, ← hmark.2]
    exact ih _ (Scanner.isIdle_skipping hs) rfl
  | @token _ text _ kind damaged _ hb hl _ ih =>
    rintro s hs rfl
    rw [hl.runOut_eq hs hb]
    have hnext := ih (s.after (s.token kind text damaged)) (Scanner.isIdle_after _)
      (by simp [Scanner.after, Scanner.token])
    simpa [Scanner.after, Scanner.token] using hnext

/-- Where a token starts there is an idle machine that reads it. -/
theorem Tokenizes.exists_idle {p : Position} {cs : List Char} {ts : List Token}
    (h : Tokenizes p cs ts) {t : Token} (ht : t ∈ ts) (hk : t.kind ≠ .eof) :
    ∀ s : Scanner, s.IsIdle → s.position = p → ∃ (pre rest : List Char) (u : Scanner),
      cs = pre ++ (t.text.toList ++ rest) ∧ t.position = p.advanceOver pre ∧
      Lexeme t.text.toList rest t.kind t.invalid ∧ u.IsIdle ∧
      ∀ ds, ds ≠ [] → ds <+: t.text.toList ++ rest → s.feedAll (pre ++ ds) = u.feedAll ds := by
  induction h with
  | ending p => simp [List.mem_singleton.mp ht] at hk
  | @blank p c cs _ hc _ ih =>
    rintro s hs rfl
    obtain ⟨pre, rest, u, rfl, hp, hl, hu, hfeed⟩ :=
      ih ht (s.skipping c) (Scanner.isIdle_skipping hs) rfl
    refine ⟨c :: pre, rest, u, rfl, hp, hl, hu, ?_⟩
    intro ds hne hds
    rw [List.cons_append, Scanner.feedAll_cons, Scanner.feed_blank hs hc, hfeed ds hne hds]
  | @token _ text rest kind damaged _ hb hl _ ih =>
    rintro s hs rfl
    rcases List.mem_cons.mp ht with rfl | ht
    · refine ⟨[], rest, s, ?_, rfl, ?_, hs, fun _ _ _ => rfl⟩
      · rw [String.toList_ofList, List.nil_append]
      · rwa [String.toList_ofList]
    · obtain ⟨pre, after, u, rfl, hp, hl', hu, hfeed⟩ := ih ht (s.after (s.token kind text damaged))
        (Scanner.isIdle_after _) (by simp [Scanner.after, Scanner.token])
      refine ⟨text ++ pre, after, u, by rw [List.append_assoc], ?_, hl', hu, ?_⟩
      · rw [hp, Position.advanceOver_append]
      · intro ds hne hds
        have hnext : pre ++ ds ≠ [] := List.append_ne_nil_of_right_ne_nil _ hne
        have hahead : pre ++ ds <+: pre ++ (t.text.toList ++ after) :=
          (List.prefix_append_right_inj _).mpr hds
        rw [List.append_assoc, Scanner.feedAll_append, (hl.goesLike hs hb).feedAll_eq hahead hnext,
          hfeed ds hne hds]

/-- The tokens that the scanner finds in a text. -/
def rawTokens (cs : List Char) : List Token := (Scanner.start.runOut cs).output

/-- A text is cut into tokens in one way only, and that is how the scanner does it. -/
theorem tokenizes_iff {cs : List Char} {ts : List Token} :
    Tokenizes .start cs ts ↔ ts = rawTokens cs := by
  have hspec : ∀ us, Tokenizes .start cs us → us = rawTokens cs := by
    intro us h
    obtain ⟨htokens, -⟩ := h.runOut_spec .start ⟨rfl, rfl⟩ rfl
    rw [rawTokens, htokens]
    rfl
  obtain ⟨us, hus⟩ := exists_tokenizes .start cs
  refine ⟨hspec ts, ?_⟩
  rintro rfl
  exact hspec us hus ▸ hus

end StepMachine
