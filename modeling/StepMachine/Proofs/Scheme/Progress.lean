import StepMachine.Proofs.Scheme.Lookahead
import StepMachine.Proofs.Scheme.Partial

/-! # Progress

Every item that a loop reads begins with a token that it passes, so a round ends further on than it
began, and no check of progress fails. The cursor stays in the list and does not get past the first
token of the end, which bounds the number of rounds. Conditions are asked for only where the test
of the loop over actions has seen one, so no breach occurs at all.
-/
namespace StepMachine

theorem Cursor.Passes.index_lt {c d : Cursor} {ts : List Token} (h : c.Passes ts d) (ht : ts ≠ []) :
    c.index < d.index := by
  have hpos := List.length_pos_iff.mpr ht
  rw [h.index_eq]
  omega

/-- The cursor stands in the list, not after its first token of the end. -/
structure Cursor.IsWithin (tokens : List Token) (c : Cursor) : Prop where
  index_lt : c.index < tokens.length
  eq_atIndex : c = .atIndex tokens c.index index_lt
  index_le : c.index ≤ (beforeEnd tokens).length

/-- A passage of the list without a token of the end stays within the list. -/
theorem Cursor.Passes.isWithin {c d : Cursor} {ts : List Token} (p : c.Passes ts d)
    (hc : c.index = 0) (hts : ∀ t ∈ ts, t.kind ≠ .eof) : d.IsWithin c.tokens := by
  have hindex : d.index = ts.length := by rw [p.index_eq, hc, Nat.zero_add]
  have hlt : d.index < c.tokens.length := by
    rw [p.tokens_eq, List.length_append, hindex, Cursor.tokens, List.length_cons]
    omega
  refine ⟨hlt, Cursor.ext_tokens rfl ?_, ?_⟩
  · rw [Cursor.tokens_atIndex, hindex, p.tokens_eq, List.drop_left]
  · have hall : ∀ t ∈ ts, (t.kind != .eof) = true := fun t ht => bne_iff_ne.mpr (hts t ht)
    rw [beforeEnd, p.tokens_eq, List.takeWhile_append_of_pos hall, List.length_append, hindex]
    omega

/-! ### Loops -/

/-- The loops of the grammar. -/
inductive Loop where
  | variableList
  | stepList
  | actionList

namespace Loop

/-- What a round of a loop is done with. -/
def Item : Loop → Type
  | variableList | stepList => Unit
  | actionList => Action

/-- Where a round of a loop can start. -/
def starts : Loop → Cursor → Bool
  | variableList => (·.isAt .name)
  | stepList => (·.isAt .openParen)
  | actionList => Parse.atCondition

/-- What a loop reads in a round. -/
def item : (l : Loop) → Parse l.Item
  | variableList => Parse.variableDeclaration
  | stepList => Parse.stepDeclaration
  | actionList => Parse.action

variable {l : Loop} {s t : ParseState}

theorem isMadeOf (l : Loop) : Parse.IsMadeOf Routine.scheme.tables l.item := by
  cases l with
  | variableList => exact .variableDeclaration (by decide)
  | stepList => exact .stepDeclaration (by decide) (by decide) (by decide)
  | actionList => exact .action (by decide) (by decide)

/-- Steps are what breaks a loop off, at a report that would have to show a long number. -/
def MayShow (l : Loop) (ts : List Token) (b : Breach) : Prop := l = .stepList ∧ b.IsLongNumberOf ts

theorem MayShow.mono {ts us : List Token} {b : Breach} (h : l.MayShow ts b) (hsub : ts ⊆ us) :
    l.MayShow us b := ⟨h.1, h.2.mono hsub⟩

/-- An item is read or abandoned, and one that is read has passed some token. -/
theorem item_ends (l : Loop) (hc : EndsInEnd s.cursor.tokens) (hs : l.starts s.cursor = true) :
    l.item.Ends s (fun _ t => ∃ ts, ts ≠ [] ∧ s.cursor.Passes ts t.cursor) (fun _ => True)
      (l.MayShow s.cursor.tokens) := by
  cases l with
  | variableList =>
    refine ((Parse.variableDeclaration_ends hc hs).orBroken _).mono ?_ (fun _ _ => trivial)
    rintro _ t ⟨g, p, -⟩
    exact ⟨g.tokens, by simp [VariablePhrase.tokens], p⟩
  | stepList =>
    refine ((Parse.stepDeclaration_ends hc hs).mono_broken fun _ hb => ⟨rfl, hb⟩).mono ?_
      (fun _ _ => trivial)
    rintro _ t ⟨g, p, -⟩
    exact ⟨g.tokens, by simp [StepPhrase.tokens, StepIdPhrase.tokens], p⟩
  | actionList =>
    refine ((Parse.action_ends hc hs).orBroken _).mono ?_ (fun _ _ => trivial)
    rintro _ t ⟨g, p, -⟩
    exact ⟨g.tokens, by simp [ActionPhrase.tokens], p⟩

/-- A round passes some token, so the next check of progress does not fail. -/
theorem exists_passes_of_round (hc : EndsInEnd s.cursor.tokens)
    (h : Parse.Round l.starts l.item s t) : ∃ ts, ts ≠ [] ∧ s.cursor.Passes ts t.cursor := by
  obtain ⟨hs, a, ha⟩ := h
  exact (Parse.ends_of_done ha).mp (l.item_ends hc hs)

theorem index_lt_of_round (hc : EndsInEnd s.cursor.tokens)
    (h : Parse.Round l.starts l.item s t) : s.cursor.index < t.cursor.index := by
  obtain ⟨ts, hts, p⟩ := exists_passes_of_round hc h
  exact p.index_lt hts

theorem passes_of_round (hc : EndsInEnd s.cursor.tokens) (h : Parse.Round l.starts l.item s t) :
    (Progress.mark s.cursor).passes t.cursor = true := by
  obtain ⟨ts, hts, p⟩ := exists_passes_of_round hc h
  rw [passes_mark_of_passes p, decide_eq_true (p.index_lt hts)]

/-- A loop ends where no further round can start, or with an item that was abandoned or broken off.
It does not stall. -/
theorem many_ends (l : Loop) (hc : EndsInEnd s.cursor.tokens) :
    (Parse.many l.starts l.item .start).Ends s (fun _ t => l.starts t.cursor = false)
      (fun _ => True) (l.MayShow s.cursor.tokens) := by
  refine (Parse.ends_many (I := fun _ t => EndsInEnd t.cursor.tokens ∧
    t.cursor.tokens ⊆ s.cursor.tokens) rfl ⟨hc, List.Subset.refl _⟩ ?_).mono
    (fun _ _ h => h.2) (fun _ h => h)
  rintro as t ⟨ht, hsub⟩ hs
  refine ((l.item_ends ht hs).mono_broken fun _ hb => hb.mono hsub).mono ?_ (fun _ h => h)
  rintro _ u ⟨ts, hts, p⟩
  exact ⟨⟨ht.of_passes p, List.Subset.trans p.subset hsub⟩, p.ahead_lt hts⟩

/-- There is no endless sequence of rounds. -/
theorem wellFounded_round (l : Loop) :
    WellFounded fun t s => EndsInEnd s.cursor.tokens ∧ Parse.Round l.starts l.item s t := by
  refine Subrelation.wf ?_ (measure fun s : ParseState => s.cursor.ahead.length).wf
  rintro t s ⟨hc, h⟩
  obtain ⟨ts, hts, p⟩ := exists_passes_of_round hc h
  exact p.ahead_lt hts

end Loop

/-! ### Conditions -/

namespace Parse

theorem kind_mem_of_atCondition {c : Cursor} (h : atCondition c = true) :
    c.current.kind ∈ conditionStarts := by
  obtain ⟨g, hg⟩ := exists_condition h
  exact hg ▸ g.kind_mem

/-- A condition breaks off exactly where none starts. -/
theorem condition_eq_broken_iff (s : ParseState) :
    (∃ b t, condition s = (.broken b, t)) ↔ s.cursor.current.kind ∉ conditionStarts := by
  rw [exists_broken_iff, not_iff_not, condition, ends_bind, ends_bump]
  cases s.cursor.current.kind with
  | name =>
    refine iff_of_true ?_ (by decide)
    rw [variableCondition, ends_bind, ends_draft]
    split <;> simp
  | string | pattern | star => exact iff_of_true trivial (by decide)
  | _ => exact iff_of_false (by simp) (by decide)

end Parse

/-! ### Runs -/

/-- Reading can come from one state to the other, by changes of the kinds that routines make. -/
def ParseState.LeadsTo (s t : ParseState) : Prop :=
  Relation.ReflTransGen (Moves Routine.scheme.tables) s t

variable {tokens : List Token}

namespace ParseState.LeadsTo

variable {s t : ParseState}

theorem isWithin (h : s.LeadsTo t) (hs : s.cursor.index = 0) :
    t.cursor.IsWithin s.cursor.tokens := by
  obtain ⟨ts, p, hts⟩ := exists_passes_of_moves h
  exact p.isWithin hs hts

theorem endsInEnd (h : s.LeadsTo t) (hs : EndsInEnd s.cursor.tokens) :
    EndsInEnd t.cursor.tokens := by
  obtain ⟨ts, p, -⟩ := exists_passes_of_moves h
  exact hs.of_passes p

theorem subset (h : s.LeadsTo t) : t.cursor.tokens ⊆ s.cursor.tokens := by
  obtain ⟨ts, p, -⟩ := exists_passes_of_moves h
  exact p.subset

end ParseState.LeadsTo

theorem Loop.leadsTo_of_round {l : Loop} {s t : ParseState}
    (h : Parse.Round l.starts l.item s t) : s.LeadsTo t := by
  obtain ⟨-, a, ha⟩ := h
  have hmoves := l.isMadeOf.moves s
  rwa [ha] at hmoves

theorem Routine.leadsTo (r : Routine) (s : ParseState) : s.LeadsTo (r.run s).2 := by
  refine Relation.ReflTransGen.mono ?_ _ _ (r.isMadeOf.moves s)
  exact fun _ _ h => h.mono r.tables_subset

/-- The cursor is in the list and does not go back, a loop does not stall here, since each of its
rounds gets on, and a condition is not asked for where none starts, which would be a breach. What
breaks a loop off is a report that would have to show a long number, and nothing else. -/
structure ParseState.GoesOn (tokens : List Token) (s : ParseState) : Prop where
  isWithin : s.cursor.IsWithin tokens
  leadsTo (r : Routine) : s.LeadsTo (r.run s).2
  index_le (t : ParseState) (h : s.LeadsTo t) : s.cursor.index ≤ t.cursor.index
  round (l : Loop) (t : ParseState) (h : Parse.Round l.starts l.item s t) :
    s.LeadsTo t ∧ s.cursor.index < t.cursor.index ∧
      (Progress.mark s.cursor).passes t.cursor = true
  item (l : Loop) (hstarts : l.starts s.cursor = true) (b : Breach) (t : ParseState)
    (hbroken : l.item s = (.broken b, t)) : l.MayShow tokens b
  loop (l : Loop) (b : Breach) (t : ParseState)
    (hbroken : Parse.many l.starts l.item .start s = (.broken b, t)) : l.MayShow tokens b
  starts (h : Loop.actionList.starts s.cursor = true) : s.cursor.current.kind ∈ conditionStarts
  condition : (∃ b t, Parse.condition s = (.broken b, t)) ↔
    s.cursor.current.kind ∉ conditionStarts

theorem ParseState.LeadsTo.goesOn {s t : ParseState} (h : s.LeadsTo t)
    (hend : EndsInEnd s.cursor.tokens) (hs : s.cursor.index = 0) : t.GoesOn s.cursor.tokens where
  isWithin := h.isWithin hs
  leadsTo r := r.leadsTo t
  index_le _ := index_le_of_moves
  round _ _ hround := ⟨Loop.leadsTo_of_round hround,
    Loop.index_lt_of_round (h.endsInEnd hend) hround,
    Loop.passes_of_round (h.endsInEnd hend) hround⟩
  item l hstarts _ _ hbroken :=
    ((l.item_ends (h.endsInEnd hend) hstarts).broken hbroken).mono h.subset
  loop l _ _ hbroken := ((l.many_ends (h.endsInEnd hend)).broken hbroken).mono h.subset
  starts := Parse.kind_mem_of_atCondition
  condition := Parse.condition_eq_broken_iff t

/-- Tokens that end with one of the end are read to the end or up to a report that would have to
show a long number: reading goes on wherever it comes, no further than to the first token of the
end, and no loop has endless rounds. So it neither stalls nor asks for a condition in vain. -/
theorem ofTokens_never_stalls (hend : EndsInEnd tokens) :
    ∃ (start finish : ParseState) (o : Outcome Unit), ParseState.ofTokens tokens = .ok start ∧
      start.cursor.tokens = tokens ∧ Parse.scheme start = (o, finish) ∧
      (o = .done () ∧ Draft.ofTokens tokens = .ok finish.draft ∨
        ∃ b, o = .broken b ∧ Draft.ofTokens tokens = .error (.breach b) ∧
          b.IsLongNumberOf tokens) ∧
      start.LeadsTo finish ∧ (∀ s, start.LeadsTo s → s.GoesOn tokens) ∧
      ∀ l : Loop, WellFounded fun t s =>
        EndsInEnd s.cursor.tokens ∧ Parse.Round l.starts l.item s t := by
  obtain ⟨c, hstart, rfl, hc⟩ := exists_start hend
  have hleads := Routine.scheme.leadsTo ⟨c, .empty⟩
  obtain ⟨finish, b, hread, hb⟩ | ⟨-, finish, hread, -⟩ := Parse.scheme_parts hend
  · rw [show Routine.scheme.run _ = _ from hread] at hleads
    exact ⟨⟨c, .empty⟩, finish, .broken b, hstart, rfl, hread,
      .inr ⟨b, rfl, ofTokens_eq_of_broken hstart hread, hb⟩, hleads,
      fun s hs => hs.goesOn hend hc, Loop.wellFounded_round⟩
  · rw [show Routine.scheme.run _ = _ from hread] at hleads
    exact ⟨⟨c, .empty⟩, finish, .done (), hstart, rfl, hread,
      .inl ⟨rfl, ofTokens_eq_of_scheme hstart hread⟩, hleads, fun s hs => hs.goesOn hend hc,
      Loop.wellFounded_round⟩

/-- A damaged number after a token of the end, and nothing closes the parenthesis before it. -/
def strayEndTokens : List Token := [
  .onFirstLine .openParen "(" 0, .onFirstLine .eof "" 1, ⟨.number, "1", ⟨1, 3, 2⟩, none, true⟩,
  .onFirstLine .eof "" 3]

theorem strayEnd_is_not_passed : EndsInEnd strayEndTokens ∧ ∃ finish : ParseState,
    Draft.ofTokens strayEndTokens = .ok finish.draft ∧ finish.cursor.index ≤ 1 := by
  have hend : EndsInEnd strayEndTokens := by decide
  have hwritable : ∀ t ∈ strayEndTokens, t.IsWritable := by decide +kernel
  obtain ⟨_, finish, _, -, -, -, ⟨-, hdraft⟩ | ⟨b, -, hbroken, hb⟩, hleads, hreached, -⟩ :=
    ofTokens_never_stalls hend
  · exact ⟨hend, finish, hdraft, (hreached finish hleads).isWithin.index_le⟩
  · exact (not_stopsAtLongNumber hwritable ⟨b, hbroken, hb⟩).elim

/-- The value of an undamaged number is taken as it is, so a step can be declared under a text. -/
example :
    let tokens : List Token := [.onFirstLine .openParen "(" 0,
      ⟨.number, "x", ⟨1, 2, 1⟩, some (.text "x"), false⟩, .onFirstLine .closeParen ")" 2,
      .onFirstLine .colon ":" 3, .onFirstLine .openBracket "[" 4, .onFirstLine .name "a" 5,
      .onFirstLine .closeBracket "]" 6, .onFirstLine .eof "" 7]
    (Parse.scheme ⟨.atIndex tokens 0 (by decide), .empty⟩).2.cursor.index = 7 ∧
    (Draft.ofTokens tokens).toOption.map (·.stepDecls.map (·.id)) = some [.text "x"] := by
  decide +kernel

end StepMachine
