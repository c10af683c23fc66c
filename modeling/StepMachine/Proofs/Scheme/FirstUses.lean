import Mathlib.Data.List.Perm.Basic
import StepMachine.Proofs.Scheme.Binding
import StepMachine.Proofs.Scheme.Calls
import StepMachine.Proofs.Scheme.Provenance
import StepMachine.Proofs.Scheme.Uses

/-! # First uses

The tables of uses keep the first use of every number and of every declared name, in the order of
the tokens. They are filled in the middle of steps, so they also hold what a step that broke off or
came too late has used. Whatever is left out of a draft on that account, every record stands for
tokens that have been read as that use, and no use in a declared step lacks a record.
-/
namespace StepMachine

/-! ### Places of tokens -/

/-- The tokens follow one another in the text. -/
def Ascends (tokens : List Token) : Prop :=
  tokens.Pairwise (·.position.index < ·.position.index)

instance (tokens : List Token) : Decidable (Ascends tokens) :=
  inferInstanceAs (Decidable (tokens.Pairwise _))

variable {tokens ts : List Token}

/-- What is put down in the order of the tokens ascends like they do. -/
theorem Ascends.pairwise_positions (h : Ascends ts) {places : List Position}
    (hsub : places.Sublist (ts.map (·.position))) : places.Pairwise (·.index < ·.index) := by
  have hts : (ts.map (·.position)).Pairwise fun p q => p.index < q.index :=
    List.pairwise_map.mpr h
  exact hts.sublist hsub

theorem Ascends.pairwise_of_sublist (h : Ascends ts) {κ : Type} {refs : List (Reference κ)}
    (hsub : (refs.map (·.position)).Sublist (ts.map (·.position))) :
    refs.Pairwise fun r s => r.position.index < s.position.index := by
  have hrefs := h.pairwise_positions hsub
  rwa [List.pairwise_map] at hrefs

theorem Ascends.nodup_positions (h : Ascends ts) : (ts.map (·.position)).Nodup := by
  refine List.pairwise_map.mpr (h.imp ?_)
  intro t u hlt heq
  rw [heq] at hlt
  exact lt_irrefl _ hlt

theorem Ascends.of_append {us : List Token} (h : Ascends (ts ++ us)) : Ascends ts :=
  (List.pairwise_append.mp h).1

/-- Members of two parts of a list stand in it in the order of the parts. -/
theorem exists_getElem?_of_mem_append {α : Type} {l m : List α} {a b : α} (ha : a ∈ l)
    (hb : b ∈ m) : ∃ i j : Nat, i < j ∧ j < (l ++ m).length ∧ (l ++ m)[i]? = some a ∧
      (l ++ m)[j]? = some b := by
  obtain ⟨i, hi, rfl⟩ := List.mem_iff_getElem.mp ha
  obtain ⟨j, hj, rfl⟩ := List.mem_iff_getElem.mp hb
  refine ⟨i, l.length + j, by omega, by rw [List.length_append]; omega, ?_, ?_⟩
  · rw [List.getElem?_append_left hi, List.getElem?_eq_getElem hi]
  · rw [List.getElem?_append_right (by omega), Nat.add_sub_cancel_left,
      List.getElem?_eq_getElem hj]

/-! ### Tables of first uses -/

/-- Every key comes once, in the order of the places. -/
structure IsFirstUses {κ : Type} (refs : List (Reference κ)) : Prop where
  nodup : (refs.map (·.id)).Nodup
  ascending : refs.Pairwise (·.position < ·.position)

/-- The first of some uses that ascend. -/
theorem isFirstUses_firstOnly {κ : Type} [BEq κ] [LawfulBEq κ] {uses : List (Reference κ)}
    (h : uses.Pairwise fun r s => r.position.index < s.position.index) :
    IsFirstUses (firstOnly Reference.id uses) :=
  ⟨nodup_firstOnly _ _, (h.sublist (firstOnly_sublist _ _)).imp .inl⟩

/-- Every use has a record at its place or before it. -/
theorem exists_first_use {κ : Type} [BEq κ] [LawfulBEq κ] {uses : List (Reference κ)}
    (h : uses.Pairwise fun r s => r.position.index < s.position.index) {use : Reference κ}
    (hu : use ∈ uses) :
    ∃ r ∈ firstOnly Reference.id uses, r.id = use.id ∧ r.position ≤ use.position := by
  obtain ⟨r, hr, hid, rfl | hlt⟩ := exists_mem_firstOnly Reference.id h hu
  · exact ⟨r, hr, hid, .inr rfl⟩
  · exact ⟨r, hr, hid, .inl (.inl hlt)⟩

/-- The use of a step was read off a number between parentheses by a call of `target`. -/
def Reference.IsReadByTarget (tokens : List Token) (start finish : ParseState)
    (r : Reference Literal) : Prop :=
  ∃ (i : Nat) (opening number closing : Token) (u v : ParseState),
    tokens[i]? = some opening ∧ tokens[i + 1]? = some number ∧ tokens[i + 2]? = some closing ∧
    opening.kind = .openParen ∧ opening.position = r.position ∧
    (∃ n, r.id = .number n ∧ number.SpellsNumber n) ∧
    closing.kind = .closeParen ∧ start.Calls .target u ∧
    Parse.target u = (.done (.step r.id r.position), v) ∧ u.cursor.index = i ∧
    v.cursor.index = i + 3 ∧ i + 3 ≤ finish.cursor.index

/-- The use of a name is a name that was passed, behind the one that declares the variable. -/
def Reference.IsReadAfter (tokens : List Token) (finish : ParseState) (v : Variable)
    (r : Reference String) : Prop :=
  ∃ (i j : Nat) (word use : Token), i < j ∧ j < finish.cursor.index ∧ tokens[i]? = some word ∧
    tokens[j]? = some use ∧ word.SpellsName v.name ∧ word.position = v.position ∧
    use.SpellsName r.id ∧ use.position = r.position

/-- Reading from `start` to `finish` has noted first uses, all of them and nothing else. -/
structure NotesFirstUses (tokens : List Token) (start finish : ParseState) : Prop where
  stepRefs : IsFirstUses finish.draft.stepRefs
  variableRefs : IsFirstUses finish.draft.variableRefs
  step_read (r : Reference Literal) (hr : r ∈ finish.draft.stepRefs) :
    r.IsReadByTarget tokens start finish
  step_ne_header (r : Reference Literal) (hr : r ∈ finish.draft.stepRefs) (s : Step)
    (hs : s ∈ finish.draft.stepDecls) : r.position ≠ s.position
  step_noted (s : Step) (hs : s ∈ finish.draft.stepDecls) (id : Literal) (place : Position)
    (ht : .step id place ∈ s.targets) :
    ∃ r ∈ finish.draft.stepRefs, r.id = id ∧ r.position ≤ place
  variable_read (r : Reference String) (hr : r ∈ finish.draft.variableRefs) :
    ∃ v ∈ finish.draft.variableDecls, v.name = r.id ∧ r.IsReadAfter tokens finish v
  variable_noted (s : Step) (hs : s ∈ finish.draft.stepDecls) (a : Action) (ha : a ∈ s.actions)
    (name : String) (v : Variable) (place : Position)
    (hc : a.condition = .named name (some v) place) :
    ∃ r ∈ finish.draft.variableRefs, r.id = name ∧ r.position ≤ place

/-! ### What stands behind the records -/

/-- A call of `target` that is done with a step has passed the tokens that spell it. -/
theorem isReadByTarget_of_call {start finish u v : ParseState} {r : Reference Literal}
    (hend : EndsInEnd start.cursor.tokens) (hnumber : ∀ t ∈ start.cursor.tokens, t.HasNumber)
    (hstart : start.cursor.index = 0) (hcall : start.Calls .target u)
    (hread : Parse.target u = (.done (.step r.id r.position), v)) (hv : v.LeadsTo finish) :
    r.IsReadByTarget start.cursor.tokens start finish := by
  obtain ⟨before, p, -⟩ := exists_passes_of_moves hcall.leadsTo
  have htarget := (Parse.ends_of_done hread).mp (Parse.target_ends (hend.of_passes p))
  obtain ⟨g, q, hg, -⟩ := htarget
  have hindex : u.cursor.index = before.length := by rw [p.index_eq, hstart, Nat.zero_add]
  have hlater := index_le_of_moves hv
  cases g with
  | token bang opening name closing => cases bang <;> cases hg
  | step id =>
    obtain ⟨hid, hposition⟩ := Target.step.inj hg
    have hrow : start.cursor.tokens = before ++ (id.tokens ++ v.cursor.tokens) := by
      rw [p.tokens_eq, q.tokens_eq]
      rfl
    have hget : ∀ k, start.cursor.tokens[before.length + k]? =
        (id.tokens ++ v.cursor.tokens)[k]? := by
      intro k
      rw [hrow, List.getElem?_append_right (by omega), Nat.add_sub_cancel_left]
    have hnumberToken : id.number.token ∈ start.cursor.tokens := by
      rw [hrow]
      simp [StepIdPhrase.tokens]
    obtain ⟨n, hn⟩ := hnumber _ hnumberToken (id.number.isValid rfl)
    have hvalue : r.id = .number n := by simp [hid, StepIdPhrase.value, hn]
    have hpassed : v.cursor.index = before.length + 3 := by
      rw [q.index_eq, hindex]
      rfl
    exact ⟨before.length, id.opening.token, id.number.token, id.closing.token, u, v, hget 0,
      hget 1, hget 2, id.opening.kind_eq, hposition.symm, ⟨n, hvalue, id.number.isValid rfl, hn⟩,
      id.closing.kind_eq, hcall, hread, hindex, hpassed, hpassed ▸ hlater⟩

namespace PartialScheme

variable {r : PartialScheme}

/-- The parenthesis that opens a step is none of those that stand for a use. -/
theorem position_ne_of_mem_stepUses (h : Ascends r.tokens) {x : Reference Literal}
    (hx : x ∈ r.stepUses) {g : StepPhrase} (hg : g ∈ r.steps) : x.position ≠ g.id.position := by
  have hmentions : Mentions (r.steps.flatMap (·.tokens.tail) ++ r.brokenStep) r.nameUses
      r.stepUses := (mentions_flatMap StepPhrase.mentions_tail r.steps).append r.mentions
  -- the tokens that open steps and all others are the tokens of the steps, in another order
  have hperm : (r.steps.map (·.id.opening.token) ++
      (r.steps.flatMap (·.tokens.tail) ++ r.brokenStep)).Perm
      (r.steps.flatMap StepPhrase.tokens ++ r.brokenStep) := by
    rw [← List.append_assoc]
    exact (List.map_append_flatMap_perm _ _ _).append_right _
  have hsteps : Ascends (r.steps.flatMap StepPhrase.tokens ++ r.brokenStep) :=
    h.sublist (List.sublist_append_right _ _)
  have hnodup := (hperm.map (·.position)).nodup_iff.mpr hsteps.nodup_positions
  rw [List.map_append] at hnodup
  have hdisjoint := (List.nodup_append.mp hnodup).2.2
  have hopening : g.id.position ∈ (r.steps.map (·.id.opening.token)).map (·.position) := by
    rw [List.map_map]
    exact List.mem_map_of_mem hg
  have huse := hmentions.positions_sublist.subset (List.mem_map_of_mem hx)
  exact (hdisjoint _ hopening _ huse).symm

/-- A name is used in a step, and declared in a variable before all steps. -/
theorem isReadAfter (r : PartialScheme) {finish : ParseState} {rest : List Token}
    (hlength : finish.cursor.index = r.tokens.length) {g : VariablePhrase} (hg : g ∈ r.bindings)
    {x : Reference String} (hx : x ∈ r.nameUses) :
    x.IsReadAfter (r.tokens ++ rest) finish g.record := by
  have hmentions : Mentions (r.steps.flatMap StepPhrase.tokens ++ r.brokenStep) r.nameUses
      r.stepUses := (mentions_flatMap StepPhrase.mentions r.steps).append r.mentions
  obtain ⟨w, hw, rfl⟩ := hmentions.exists_name hx
  have hword : g.name.token ∈ r.bindings.flatMap VariablePhrase.tokens ++ r.brokenBinding :=
    List.mem_append_left _ (List.mem_flatMap.mpr ⟨g, hg, List.mem_cons_self ..⟩)
  obtain ⟨i, j, hij, hj, hi, hjget⟩ := exists_getElem?_of_mem_append hword hw
  refine ⟨i, j, g.name.token, w.token, hij, hlength ▸ hj, ?_, ?_, g.name.spellsName, rfl,
    w.spellsName, rfl⟩
  · rw [tokens, List.getElem?_append_left (by omega)]
    exact hi
  · rw [tokens, List.getElem?_append_left hj]
    exact hjget

/-- All uses of numbers in the parts ascend. -/
theorem stepUses_ascend (h : Ascends r.tokens) :
    r.stepUses.Pairwise fun x y => x.position.index < y.position.index :=
  h.pairwise_of_sublist r.mentions_tokens.positions_sublist

/-- All uses of names in the parts ascend. -/
theorem nameUses_ascend (h : Ascends r.tokens) :
    r.nameUses.Pairwise fun x y => x.position.index < y.position.index :=
  h.pairwise_of_sublist r.mentions_tokens.name_positions_sublist

namespace IsDraft

variable {d : Draft} (h : r.IsDraft d)
include h

theorem mem_stepUses {s : Step} (hs : s ∈ d.stepDecls) {id : Literal} {place : Position}
    (ht : .step id place ∈ s.targets) : ⟨id, place⟩ ∈ r.stepUses := by
  obtain ⟨g, hg, rfl⟩ := h.exists_step hs
  have huse := g.mem_stepUses_of_mem_targets _ ht
  exact List.mem_append_left _ (List.mem_flatMap.mpr ⟨g, hg, huse⟩)

/-- A condition that is bound uses a declared name. -/
theorem mem_nameUses {s : Step} (hs : s ∈ d.stepDecls) {a : Action} (ha : a ∈ s.actions)
    {name : String} {v : Variable} {place : Position}
    (hc : a.condition = .named name (some v) place) :
    ⟨name, place⟩ ∈ r.nameUses.filter (isDeclared r.whole.variableDecls) := by
  obtain ⟨g, hg, rfl⟩ := h.exists_step hs
  obtain ⟨hbinding, huse⟩ := StepPhrase.named_cases ha hc
  rw [h.variableDecls_eq] at hbinding
  have hfound := hbinding.symm
  refine List.mem_filter.mpr ⟨List.mem_append_left _ (List.mem_flatMap.mpr ⟨g, hg, huse⟩), ?_⟩
  exact List.any_eq_true.mpr ⟨v, List.mem_of_find?_eq_some hfound,
    List.find?_some (p := fun v : Variable => v.name == name) hfound⟩

theorem exists_binding {x : Reference String} (hx : x ∈ d.variableRefs) : x ∈ r.nameUses ∧
    ∃ g ∈ r.bindings, g.record ∈ d.variableDecls ∧ g.record.name = x.id := by
  rw [h.variableRefs_eq] at hx
  obtain ⟨huse, hdeclared⟩ := List.mem_filter.mp (mem_of_mem_firstOnly _ hx)
  obtain ⟨v, hv, hname⟩ := List.any_eq_true.mp hdeclared
  obtain ⟨g, hg, rfl⟩ := List.mem_map.mp (mem_of_mem_firstOnly _ hv)
  exact ⟨huse, g, hg, h.variableDecls_eq ▸ hv, beq_iff_eq.mp hname⟩

end IsDraft

end PartialScheme

/-- Whatever the tokens are, the tables of uses that are left when reading stops hold the first use
of each key in the order of the tokens. Every use of a step was read by a call of `target` and is
no header of a step, and every use of a variable was read behind its declaration; conversely, every
target and every bound condition of a declared step has its record. Only a report that would have
to show a long number keeps the reading from its end. -/
theorem scheme_notes_first_uses (hend : EndsInEnd tokens) (hascends : Ascends tokens)
    (hnumber : ∀ t ∈ tokens, t.HasNumber) :
    StopsAtLongNumber tokens ∨ ∃ start finish : ParseState, ParseState.ofTokens tokens = .ok start ∧
      Parse.scheme start = (.done (), finish) ∧ Draft.ofTokens tokens = .ok finish.draft ∧
      NotesFirstUses tokens start finish := by
  obtain ⟨c, hstart, rfl, hc⟩ := exists_start hend
  obtain ⟨t, b, hread, hb⟩ | ⟨r, t, hread, hp, hd⟩ := Parse.scheme_parts hend
  · exact .inl (stopsAtLongNumber_of_scheme hstart hread hb)
  have htokens := hp.tokens_eq
  have hindex : t.cursor.index = r.tokens.length := by rw [hp.index_eq, hc, Nat.zero_add]
  have hasc : Ascends r.tokens := Ascends.of_append (htokens ▸ hascends)
  have hnames := (PartialScheme.nameUses_ascend hasc).sublist
    (List.filter_sublist (p := isDeclared r.whole.variableDecls))
  refine .inr ⟨⟨c, .empty⟩, t, hstart, hread, ofTokens_eq_of_scheme hstart hread, ?_⟩
  constructor
  · rw [hd.stepRefs_eq]
    exact isFirstUses_firstOnly (PartialScheme.stepUses_ascend hasc)
  · rw [hd.variableRefs_eq]
    exact isFirstUses_firstOnly hnames
  · intro x hx
    have hturns := Parse.scheme_turns ⟨c, .empty⟩
    rw [hread] at hturns
    obtain hnone | ⟨u, v, hcall, hv, hlater⟩ := exists_call_of_mem_stepRefs hturns hx
    · cases hnone
    · exact isReadByTarget_of_call hend hnumber hc hcall hv hlater
  · intro x hx s hs
    obtain ⟨g, hg, rfl⟩ := hd.exists_step hs
    rw [hd.stepRefs_eq] at hx
    exact PartialScheme.position_ne_of_mem_stepUses hasc (mem_of_mem_firstOnly _ hx) hg
  · intro s hs id place ht
    rw [hd.stepRefs_eq]
    exact exists_first_use (PartialScheme.stepUses_ascend hasc) (hd.mem_stepUses hs ht)
  · intro x hx
    obtain ⟨huse, g, hg, hrecord, hname⟩ := hd.exists_binding hx
    rw [htokens]
    exact ⟨_, hrecord, hname, r.isReadAfter hindex hg huse⟩
  · intro s hs a ha name v place hcondition
    rw [hd.variableRefs_eq]
    exact exists_first_use hnames (hd.mem_nameUses hs ha hcondition)

/-- `x:"" (1): x?(2) (1) (1): x?(3)`, where the second step comes too late and breaks off. -/
def lateTokens : List Token := [
  .onFirstLine .name "x" 0, .onFirstLine .colon ":" 1, .onFirstLine .string "\"\"" 2,
  .onFirstLine .openParen "(" 5, .numberOnFirstLine "1" 6 1, .onFirstLine .closeParen ")" 7,
  .onFirstLine .colon ":" 8, .onFirstLine .name "x" 10, .onFirstLine .question "?" 11,
  .onFirstLine .openParen "(" 12, .numberOnFirstLine "2" 13 2, .onFirstLine .closeParen ")" 14,
  .onFirstLine .openParen "(" 16, .numberOnFirstLine "1" 17 1, .onFirstLine .closeParen ")" 18,
  .onFirstLine .openParen "(" 20, .numberOnFirstLine "1" 21 1, .onFirstLine .closeParen ")" 22,
  .onFirstLine .colon ":" 23, .onFirstLine .name "x" 25, .onFirstLine .question "?" 26,
  .onFirstLine .openParen "(" 27, .numberOnFirstLine "3" 28 3, .onFirstLine .closeParen ")" 29,
  .onFirstLine .eof "" 30]

theorem late_uses_noted : EndsInEnd lateTokens ∧ Ascends lateTokens ∧
    (∀ t ∈ lateTokens, t.HasNumber) ∧
    ∃ start finish : ParseState, Draft.ofTokens lateTokens = .ok finish.draft ∧
      NotesFirstUses lateTokens start finish := by
  have hend : EndsInEnd lateTokens := by decide
  have hascends : Ascends lateTokens := by decide
  have hnumber : ∀ t ∈ lateTokens, t.HasNumber := by
    simp [lateTokens, Token.HasNumber, Token.isValid, Token.onFirstLine, Token.numberOnFirstLine]
  have hwritable : ∀ t ∈ lateTokens, t.IsWritable := by decide +kernel
  obtain hstops | ⟨start, finish, -, -, hdraft, hnotes⟩ :=
    scheme_notes_first_uses hend hascends hnumber
  · exact (not_stopsAtLongNumber hwritable hstops).elim
  exact ⟨hend, hascends, hnumber, start, finish, hdraft, hnotes⟩

example : (Draft.ofTokens lateTokens).toOption.map (fun d =>
      (d.stepDecls.map (·.id), d.stepRefs, d.variableRefs)) =
    some ([.number 1],
      [⟨.number 2, ⟨1, 13, 12⟩⟩, ⟨.number 1, ⟨1, 17, 16⟩⟩, ⟨.number 3, ⟨1, 28, 27⟩⟩],
      [⟨"x", ⟨1, 11, 10⟩⟩]) := by
  decide +kernel

end StepMachine
