import StepMachine.Proofs.Scheme.Ending

/-! # What routines are made of

Every routine of the grammar is made of a few readings: it asks what the next tokens are, goes past
one token at a time and changes a table of the draft at a time. So a run of a routine is a sequence
of such changes, and what each of them keeps is kept by the routine: the cursor goes forward and
never past a token of the end, and a table that the routine does not fill stays as it is.
-/
namespace StepMachine

/-! ### Tables -/

/-- The tables of a draft besides its errors. -/
inductive Table where
  | variableDecls
  | stepDecls
  | variableRefs
  | stepRefs
  | warnings
deriving DecidableEq

/-- The table is the same in both drafts. -/
def Table.Same (d e : Draft) : Table → Prop
  | variableDecls => e.variableDecls = d.variableDecls
  | stepDecls => e.stepDecls = d.stepDecls
  | variableRefs => e.variableRefs = d.variableRefs
  | stepRefs => e.stepRefs = d.stepRefs
  | warnings => e.warnings = d.warnings

theorem Table.Same.refl (d : Draft) (table : Table) : table.Same d d := by
  cases table <;> rfl

theorem Table.Same.trans {d e f : Draft} {table : Table} (h : table.Same d e)
    (k : table.Same e f) : table.Same d f := by
  cases table <;> exact Eq.trans k h

/-- Besides errors, the drafts differ at most in these tables. -/
def Draft.DiffersIn (tables : List Table) (d e : Draft) : Prop :=
  ∀ table ∉ tables, table.Same d e

section

variable {tables : List Table} {d : Draft}

theorem differsIn_error (x : Diagnostic) : d.DiffersIn tables (d.error x) := by
  intro table _
  cases table <;> rfl

theorem differsIn_useVariable (h : .variableRefs ∈ tables) (name : String) (p : Position) :
    d.DiffersIn tables (d.useVariable name p) := by
  intro table hne
  cases table with
  | variableRefs => exact absurd h hne
  | _ => rfl

theorem differsIn_useStep (h : .stepRefs ∈ tables) (id : Literal) (p : Position) :
    d.DiffersIn tables (d.useStep id p) := by
  intro table hne
  cases table with
  | stepRefs => exact absurd h hne
  | _ => rfl

theorem differsIn_declareVariable (h : .variableDecls ∈ tables) (v : Variable) :
    d.DiffersIn tables (d.declareVariable v).2 := by
  intro table hne
  cases table with
  | variableDecls => exact absurd h hne
  | _ => rfl

theorem differsIn_declareStep (h : .stepDecls ∈ tables) (s : Step) :
    d.DiffersIn tables (d.declareStep s).2 := by
  intro table hne
  cases table with
  | stepDecls => exact absurd h hne
  | _ => rfl

end

/-! ### Tests -/

namespace Cursor

/-- The test depends on no more than the next four tokens. -/
def LooksFourAhead (p : Cursor → Bool) : Prop :=
  ∀ ⦃c c' : Cursor⦄, EndsInEnd c.tokens → c.tokens.take 4 <+: c'.tokens → p c' = p c

variable {c c' : Cursor}

theorem current_eq_of_take {n : Nat} (h : c.tokens.take (n + 1) <+: c'.tokens) :
    c'.current = c.current := by
  obtain ⟨rest, hrest⟩ := h
  exact (List.cons.inj hrest).1.symm

theorem looksFourAhead_of_current {p : Cursor → Bool}
    (h : ∀ c c' : Cursor, c'.current = c.current → p c' = p c) : LooksFourAhead p :=
  fun _ _ _ hsame => h _ _ (current_eq_of_take hsame)

theorem looksFourAhead_isAt (kind : TokenKind) : LooksFourAhead (·.isAt kind) :=
  looksFourAhead_of_current fun c c' h => by rw [isAt, isAt, h]

theorem looksFourAhead_atAny (kinds : List TokenKind) : LooksFourAhead (·.atAny kinds) :=
  looksFourAhead_of_current fun c c' h => by rw [atAny, atAny, h]

theorem looksFourAhead_atValid (kind : TokenKind) : LooksFourAhead (·.atValid kind) :=
  looksFourAhead_of_current fun c c' h => by rw [atValid, atValid, h]

theorem looksFourAhead_or {p q : Cursor → Bool} (hp : LooksFourAhead p) (hq : LooksFourAhead q) :
    LooksFourAhead (fun c => p c || q c) := by
  intro c c' hend h
  dsimp only
  rw [hp hend h, hq hend h]

end Cursor

namespace Parse

/-- A step's header is four tokens of these kinds. Where fewer are left, the last of them is one of
the end, which is none of these. -/
theorem looksFourAhead_atStepHeader : Cursor.LooksFourAhead atStepHeader := by
  rintro ⟨i, t₀, ahead⟩ c' hend ⟨rest, hrest⟩
  have hseen : ∀ {n t}, (t₀ :: ahead)[n]? = some t → n < 4 →
      Cursor.nth ⟨i, t₀, ahead⟩ n = t.kind ∧ c'.nth n = t.kind := by
    intro n t ht hn
    refine ⟨Cursor.nth_eq ht, Cursor.nth_eq ?_⟩
    have htake : ((t₀ :: ahead).take 4)[n]? = some t := by rw [List.getElem?_take_of_lt hn, ht]
    rw [← hrest]
    exact List.getElem?_append_left (List.getElem?_eq_some_iff.mp htake).1 ▸ htake
  obtain ⟨h₀, h₀'⟩ := hseen (n := 0) rfl (by decide)
  -- by how many tokens are left; the last one decides the test if there are fewer than four
  rcases ahead with _ | ⟨t₁, _ | ⟨t₂, _ | ⟨t₃, more⟩⟩⟩
  · have hlast : t₀.kind = .eof := by simpa [EndsInEnd, Cursor.tokens] using hend
    have hother : (t₀.kind == .openParen) = false := by rw [hlast]; rfl
    simp only [atStepHeader, h₀, h₀', hother, Bool.false_and]
  · obtain ⟨h₁, h₁'⟩ := hseen (n := 1) rfl (by decide)
    have hlast : t₁.kind = .eof := by simpa [EndsInEnd, Cursor.tokens] using hend
    have hother : (t₁.kind == .number) = false := by rw [hlast]; rfl
    simp only [atStepHeader, h₁, h₁', hother, Bool.and_false, Bool.false_and]
  · obtain ⟨h₂, h₂'⟩ := hseen (n := 2) rfl (by decide)
    have hlast : t₂.kind = .eof := by simpa [EndsInEnd, Cursor.tokens] using hend
    have hother : (t₂.kind == .closeParen) = false := by rw [hlast]; rfl
    simp only [atStepHeader, h₂, h₂', hother, Bool.and_false, Bool.false_and]
  · obtain ⟨h₁, h₁'⟩ := hseen (n := 1) rfl (by decide)
    obtain ⟨h₂, h₂'⟩ := hseen (n := 2) rfl (by decide)
    obtain ⟨h₃, h₃'⟩ := hseen (n := 3) rfl (by decide)
    rw [atStepHeader, atStepHeader, h₀, h₁, h₂, h₃, h₀', h₁', h₂', h₃']

theorem looksFourAhead_atCondition : Cursor.LooksFourAhead atCondition :=
  Cursor.looksFourAhead_of_current fun c c' h => by
    simp only [atCondition, Cursor.isAt, Cursor.atValid, h]

theorem looksFourAhead_noFallback (last : Action) : Cursor.LooksFourAhead fun c =>
    last.condition.isWildcard && !atFallback c := by
  intro c c' hend h
  have hcurrent := Cursor.current_eq_of_take h
  have hheader := looksFourAhead_atStepHeader hend h
  simp only [atFallback, Cursor.atAny, Cursor.isAt, hcurrent, hheader]

/-! ### Readings made of readings -/

/-- The reading is made of these parts alone, and besides errors it fills at most these tables. -/
inductive IsMadeOf (tables : List Table) : {α : Type} → Parse α → Prop
  | pure {α : Type} (a : α) : IsMadeOf tables (pure a : Parse α)
  | bind {α β : Type} {m : Parse α} {next : α → Parse β} (hm : IsMadeOf tables m)
      (hnext : ∀ a, IsMadeOf tables (next a)) : IsMadeOf tables (m >>= next)
  | test {α : Type} {p : Cursor → Bool} {m n : Parse α} (hp : Cursor.LooksFourAhead p)
      (hm : IsMadeOf tables m) (hn : IsMadeOf tables n) :
      IsMadeOf tables (cursor >>= fun c => if p c then m else n)
  | position : IsMadeOf tables position
  | draft : IsMadeOf tables draft
  | bump : IsMadeOf tables bump
  | eat (kind : TokenKind) : IsMadeOf tables (eat kind)
  | change {f : Draft → Draft} (hf : ∀ d : Draft, d.DiffersIn tables (f d)) :
      IsMadeOf tables (change f)
  | ask {α : Type} {f : Draft → α × Draft} (hf : ∀ d : Draft, d.DiffersIn tables (f d).2) :
      IsMadeOf tables (ask f)
  | abandon {α : Type} : IsMadeOf tables (abandon : Parse α)
  | breach {α : Type} (b : Breach) : IsMadeOf tables (breach b : Parse α)
  | asFarAsItGoes {α : Type} {m : Parse α} (hm : IsMadeOf tables m) :
      IsMadeOf tables (asFarAsItGoes m)
  | many {α : Type} {starts : Cursor → Bool} {item : Parse α}
      (hstarts : Cursor.LooksFourAhead starts) (hitem : IsMadeOf tables item) :
      IsMadeOf tables (many starts item .start)

namespace IsMadeOf

variable {tables : List Table} {α : Type} {m n : Parse α}

theorem ite {p : Prop} [Decidable p] (hm : IsMadeOf tables m) (hn : IsMadeOf tables n) :
    IsMadeOf tables (if p then m else n) := by
  split
  · exact hm
  · exact hn

theorem report (cause : Cause) (p : Position) : IsMadeOf tables (report cause p) :=
  .change fun _ => differsIn_error _

theorem insistOnWording (cause : Cause) : IsMadeOf tables (insistOnWording cause) := by
  rw [Parse.insistOnWording]
  cases cause.message with
  | ok message => exact .pure _
  | error long => exact .breach _

theorem giveUp (cause : Cause) : IsMadeOf tables (giveUp cause : Parse α) :=
  .bind .position fun p => .bind (.report cause p) fun _ => .abandon

theorem expect (kind : TokenKind) (what : Expected) : IsMadeOf tables (expect kind what) :=
  .bind (.eat kind) fun _ => .ite (.pure ()) (.giveUp _)

theorem require {holds : Cursor → Bool} (h : Cursor.LooksFourAhead holds) (cause : Cause) :
    IsMadeOf tables (require holds cause) := .test h (.pure ()) (.giveUp cause)

theorem ofOption (o : Option α) : IsMadeOf tables (ofOption o) := by
  cases o with
  | none => exact .abandon
  | some a => exact .pure a

/-! ### The grammar -/

theorem stepId : IsMadeOf tables stepId :=
  .bind .bump fun _ => .bind (.require (Cursor.looksFourAhead_atValid _) _) fun _ =>
    .bind .bump fun _ => .bind (.expect _ _) fun _ => .ofOption _

theorem tokenName : IsMadeOf tables tokenName :=
  .test (Cursor.looksFourAhead_atValid _) (.bind .bump fun _ => .pure _) <|
    .test (Cursor.looksFourAhead_isAt _) (.bind .bump fun _ => .pure _) (.giveUp _)

theorem tokenTarget : IsMadeOf tables tokenTarget :=
  .bind .position fun _ => .bind (.eat _) fun _ => .bind (.expect _ _) fun _ =>
    .bind .tokenName fun _ => .bind (.expect _ _) fun _ => .pure _

theorem stepTarget (hs : .stepRefs ∈ tables) : IsMadeOf tables stepTarget :=
  .bind .position fun _ => .bind .stepId fun _ =>
    .bind (.change fun _ => differsIn_useStep hs _ _) fun _ => .pure _

theorem target (hs : .stepRefs ∈ tables) : IsMadeOf tables target :=
  .test (Cursor.looksFourAhead_isAt _) (.stepTarget hs) <|
    .test (Cursor.looksFourAhead_atAny _) .tokenTarget (.giveUp _)

theorem variableCondition (hv : .variableRefs ∈ tables) (name : String) (p : Position) :
    IsMadeOf tables (variableCondition name p) := by
  refine .bind .draft fun d => ?_
  cases d.variableNamed name with
  | none => exact .bind (.report _ _) fun _ => .pure _
  | some v => exact .bind (.change fun _ => differsIn_useVariable hv _ _) fun _ => .pure _

theorem condition (hv : .variableRefs ∈ tables) : IsMadeOf tables condition := by
  refine .bind .bump fun token => ?_
  cases token.kind with
  | name => exact .variableCondition hv _ _
  | string => exact .pure _
  | pattern => exact .pure _
  | star => exact .pure _
  | _ => exact .breach _

theorem action (hv : .variableRefs ∈ tables) (hs : .stepRefs ∈ tables) : IsMadeOf tables action :=
  .bind (.condition hv) fun _ => .bind (.expect _ _) fun _ => .bind (.target hs) fun _ => .pure _

theorem actionList (hv : .variableRefs ∈ tables) (hs : .stepRefs ∈ tables) :
    IsMadeOf tables actionList := .many looksFourAhead_atCondition (.action hv hs)

theorem fallback (hs : .stepRefs ∈ tables) (actions : List Action) :
    IsMadeOf tables (fallback actions) := by
  rw [Parse.fallback]
  cases actions.getLast? with
  | none => exact .target hs
  | some last => exact .test (looksFourAhead_noFallback last) (.pure _) (.target hs)

theorem step (hv : .variableRefs ∈ tables) (hs : .stepRefs ∈ tables) : IsMadeOf tables step :=
  .bind .position fun _ => .bind .stepId fun _ => .bind (.expect _ _) fun _ =>
    .bind (.actionList hv hs) fun _ => .bind (.fallback hs _) fun _ => .pure _

theorem stepDeclaration (hd : .stepDecls ∈ tables) (hv : .variableRefs ∈ tables)
    (hs : .stepRefs ∈ tables) : IsMadeOf tables stepDeclaration :=
  .bind (.step hv hs) fun s =>
    .bind (.ask fun _ => differsIn_declareStep hd s) fun _ =>
      .ite (.pure _) (.bind (.insistOnWording _) fun _ => .report _ _)

theorem stepList (hd : .stepDecls ∈ tables) (hv : .variableRefs ∈ tables)
    (hs : .stepRefs ∈ tables) : IsMadeOf tables stepList :=
  .asFarAsItGoes <| .many (Cursor.looksFourAhead_isAt _) <| .stepDeclaration hd hv hs

theorem variableBinding : IsMadeOf tables variableBinding :=
  .bind .bump fun _ => .bind (.expect _ _) fun _ =>
    .bind (.require (Cursor.looksFourAhead_or (Cursor.looksFourAhead_atValid _)
      (Cursor.looksFourAhead_atValid _)) _) fun _ => .bind .bump fun _ => .pure _

theorem variableDeclaration (hd : .variableDecls ∈ tables) :
    IsMadeOf tables variableDeclaration :=
  .bind .variableBinding fun v =>
    .bind (.ask fun _ => differsIn_declareVariable hd v) fun _ => .ite (.pure _) (.report _ _)

theorem variableList (hd : .variableDecls ∈ tables) : IsMadeOf tables variableList :=
  .asFarAsItGoes <| .many (Cursor.looksFourAhead_isAt _) <| .variableDeclaration hd

theorem scheme (hb : .variableDecls ∈ tables) (hd : .stepDecls ∈ tables)
    (hv : .variableRefs ∈ tables) (hs : .stepRefs ∈ tables) : IsMadeOf tables scheme :=
  .bind (.variableList hb) fun _ => .bind (.stepList hd hv hs) fun _ =>
    .test (Cursor.looksFourAhead_isAt _) (.pure _) (.bind .position fun _ => .report _ _)

end IsMadeOf

end Parse

/-! ### Changes -/

/-- One change of a state: the current token is passed, if it is none of the end, or something is
written to errors and tables. -/
inductive Moves (tables : List Table) (s : ParseState) : ParseState → Prop
  | pass : Moves tables s { s with cursor := s.cursor.next }
  | write {d : Draft} (h : s.draft.DiffersIn tables d) : Moves tables s { s with draft := d }

section

variable {tables : List Table} {s t : ParseState} {α β : Type}

theorem Moves.mono {tables' : List Table} (h : Moves tables s t) (hsub : tables ⊆ tables') :
    Moves tables' s t := by
  cases h with
  | pass => exact .pass
  | write hd => exact .write fun table hne => hd table fun hmem => hne (hsub hmem)

/-- Changes take the cursor forward, and never past a token of the end. -/
theorem exists_passes_of_moves (h : Relation.ReflTransGen (Moves tables) s t) :
    ∃ ts, s.cursor.Passes ts t.cursor ∧ ∀ u ∈ ts, u.kind ≠ .eof := by
  induction h with
  | refl => exact ⟨[], .refl _, by simp⟩
  | @tail t _ _ hmove ih =>
    obtain ⟨ts, p, hts⟩ := ih
    cases hmove with
    | pass =>
      obtain ⟨us, q, hus⟩ := t.cursor.exists_passes_next
      exact ⟨ts ++ us, p.trans q, fun u hu => (List.mem_append.mp hu).elim (hts u) (hus u)⟩
    | write => exact ⟨ts, p, hts⟩

/-- Changes leave all tables as they are but those that they are about. -/
theorem differsIn_of_moves (h : Relation.ReflTransGen (Moves tables) s t) :
    s.draft.DiffersIn tables t.draft := by
  induction h with
  | refl => exact fun table _ => .refl _ table
  | tail _ hmove ih =>
    cases hmove with
    | pass => exact ih
    | write hd => exact fun table hne => (ih table hne).trans (hd table hne)

namespace Parse

variable {m : Parse α} {next : α → Parse β}

theorem bind_moves (hm : Relation.ReflTransGen (Moves tables) s (m s).2)
    (hnext : ∀ a t, Relation.ReflTransGen (Moves tables) t (next a t).2) :
    Relation.ReflTransGen (Moves tables) s ((m >>= next) s).2 := by
  rw [bind_apply]
  generalize m s = reached at hm
  rcases reached with ⟨a | _ | _, t⟩
  · exact hm.trans (hnext a t)
  · exact hm
  · exact hm

theorem many_moves {starts : Cursor → Bool} {item : Parse α}
    (hitem : ∀ s, Relation.ReflTransGen (Moves tables) s (item s).2) (p : Progress)
    (s : ParseState) : Relation.ReflTransGen (Moves tables) s (many starts item p s).2 := by
  induction p, s using many_induction starts with
  | stop p s hs => rw [many_of_stop hs]
  | stall p s hs hp => rw [many_of_stall hs hp]
  | round p s hs hp ih =>
    rw [many_eq_bind hs hp]
    exact bind_moves (hitem s) fun a t => bind_moves (ih t) fun as u => .refl

/-- A run of a reading is a sequence of changes. -/
theorem IsMadeOf.moves (h : IsMadeOf tables m) (s : ParseState) :
    Relation.ReflTransGen (Moves tables) s (m s).2 := by
  induction h generalizing s with
  | bind _ _ ihm ihnext => exact bind_moves (ihm s) ihnext
  | @test _ p m n _ _ _ ihm ihn =>
    change Relation.ReflTransGen _ s ((if p s.cursor then m else n) s).2
    split
    · exact ihm s
    · exact ihn s
  | bump => exact .single .pass
  | eat kind =>
    unfold Parse.eat Cursor.eat
    split
    · exact .single .pass
    · exact .refl
  | change hf => exact .single (.write (hf _))
  | ask hf => exact .single (.write (hf _))
  | @asFarAsItGoes _ m _ ih =>
    have hm := ih s
    unfold Parse.asFarAsItGoes
    split <;> simp_all
  | many _ _ ih => exact many_moves ih .start s
  | _ => exact .refl

theorem IsMadeOf.exists_passes (h : IsMadeOf tables m) (s : ParseState) :
    ∃ ts, s.cursor.Passes ts (m s).2.cursor ∧ ∀ u ∈ ts, u.kind ≠ .eof :=
  exists_passes_of_moves (h.moves s)

theorem IsMadeOf.differsIn (h : IsMadeOf tables m) (s : ParseState) :
    s.draft.DiffersIn tables (m s).2.draft := differsIn_of_moves (h.moves s)

end Parse

end

/-- The routines of the grammar. -/
inductive Routine where
  | scheme
  | variableList
  | variableBinding
  | stepList
  | step
  | stepId
  | actionList
  | action
  | target
  | tokenTarget

namespace Routine

/-- What a routine is done with. -/
def Result : Routine → Type
  | scheme | variableList | stepList => Unit
  | variableBinding => Variable
  | step => Step
  | stepId => Literal
  | actionList => List Action
  | action => Action
  | target | tokenTarget => Target

def run : (r : Routine) → Parse r.Result
  | scheme => Parse.scheme
  | variableList => Parse.variableList
  | variableBinding => Parse.variableBinding
  | stepList => Parse.stepList
  | step => Parse.step
  | stepId => Parse.stepId
  | actionList => Parse.actionList
  | action => Parse.action
  | target => Parse.target
  | tokenTarget => Parse.tokenTarget

/-- The tables that a routine fills. -/
def tables : Routine → List Table
  | scheme => [.variableDecls, .stepDecls, .variableRefs, .stepRefs]
  | variableList => [.variableDecls]
  | stepList => [.stepDecls, .variableRefs, .stepRefs]
  | step | actionList | action => [.variableRefs, .stepRefs]
  | target => [.stepRefs]
  | variableBinding | stepId | tokenTarget => []

theorem tables_subset (r : Routine) : r.tables ⊆ scheme.tables := by
  cases r <;> decide

theorem isMadeOf (r : Routine) : Parse.IsMadeOf r.tables r.run := by
  cases r with
  | scheme => exact .scheme (by decide) (by decide) (by decide) (by decide)
  | variableList => exact .variableList (by decide)
  | variableBinding => exact .variableBinding
  | stepList => exact .stepList (by decide) (by decide) (by decide)
  | step => exact .step (by decide) (by decide)
  | stepId => exact .stepId
  | actionList => exact .actionList (by decide) (by decide)
  | action => exact .action (by decide) (by decide)
  | target => exact .target (by decide)
  | tokenTarget => exact .tokenTarget

end Routine

end StepMachine
