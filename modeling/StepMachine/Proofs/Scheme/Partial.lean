import StepMachine.Proofs.Scheme.Acceptance
import StepMachine.Proofs.Scheme.Findings

/-! # What is read of any tokens

Tokens that no derivation spells are read as far as they go: whole variables, perhaps part of one
more, whole steps, and perhaps part of one more. All tokens that are passed are leaves. The whole
variables and steps stand for what they stand for in a derivation; the part of a step adds what
it mentions, and the part of a variable adds nothing but an error of syntax.
-/
namespace StepMachine

theorem map_sublist_flatMap {α β : Type} {f : α → β} {g : α → List β} (h : ∀ a, f a ∈ g a)
    (l : List α) : (l.map f).Sublist (l.flatMap g) := by
  induction l with
  | nil => exact .refl _
  | cons a l ih => exact (List.singleton_sublist.mpr (h a)).append ih

/-- Variables and steps, with the tokens of a variable and of a step that broke off and what the
latter mention. -/
structure PartialScheme where
  bindings : List VariablePhrase
  brokenBinding : List Token
  steps : List StepPhrase
  brokenStep : List Token
  names : List (Reference String)
  numbers : List (Reference Literal)
  isLeaf_brokenBinding : ∀ t ∈ brokenBinding, t.IsLeaf
  isLeaf_brokenStep : ∀ t ∈ brokenStep, t.IsLeaf
  mentions : Mentions brokenStep names numbers

namespace PartialScheme

variable (r : PartialScheme)

/-- The variables and steps that are whole. -/
def whole : SchemePhrase := ⟨r.bindings, r.steps⟩

def tokens : List Token :=
  r.bindings.flatMap VariablePhrase.tokens ++ r.brokenBinding ++
    (r.steps.flatMap StepPhrase.tokens ++ r.brokenStep)

def nameUses : List (Reference String) := r.steps.flatMap StepPhrase.nameUses ++ r.names

def stepUses : List (Reference Literal) := r.steps.flatMap StepPhrase.stepUses ++ r.numbers

theorem isLeaf : ∀ t ∈ r.tokens, t.IsLeaf := by
  intro t ht
  simp only [tokens, List.mem_append, or_assoc] at ht
  rcases ht with ht | ht | ht | ht
  · exact isLeaf_of_mem_flatMap VariablePhrase.isLeaf t ht
  · exact r.isLeaf_brokenBinding t ht
  · exact isLeaf_of_mem_flatMap StepPhrase.isLeaf t ht
  · exact r.isLeaf_brokenStep t ht

theorem mentions_tokens : Mentions r.tokens r.nameUses r.stepUses :=
  (Mentions.none _).append ((mentions_flatMap StepPhrase.mentions r.steps).append r.mentions)

theorem infix_of_binding {g : VariablePhrase} (hg : g ∈ r.bindings) : g.tokens <:+: r.tokens := by
  have h : g.tokens <:+: r.bindings.flatMap VariablePhrase.tokens :=
    List.infix_of_mem_flatten (List.mem_map_of_mem hg)
  rw [tokens, List.append_assoc]
  exact h.trans (List.prefix_append _ _).isInfix

theorem infix_of_step {g : StepPhrase} (hg : g ∈ r.steps) : g.tokens <:+: r.tokens := by
  have h : g.tokens <:+: r.steps.flatMap StepPhrase.tokens :=
    List.infix_of_mem_flatten (List.mem_map_of_mem hg)
  exact (h.trans (List.prefix_append _ _).isInfix).trans (List.suffix_append _ _).isInfix

theorem binding_words_sublist : (r.bindings.map (·.name.token)).Sublist
    (r.bindings.flatMap VariablePhrase.tokens) :=
  map_sublist_flatMap (fun _ => List.mem_cons_self ..) _

/-- The names of the variables are among the tokens, in their order. -/
theorem words_sublist : (r.bindings.map (·.name.token)).Sublist r.tokens := by
  rw [tokens, List.append_assoc]
  exact r.binding_words_sublist.trans (List.sublist_append_left _ _)

/-- The parentheses that open the steps are among the tokens, in their order. -/
theorem openings_sublist : (r.steps.map (·.id.opening.token)).Sublist r.tokens := by
  have hopenings : (r.steps.map (·.id.opening.token)).Sublist
      (r.steps.flatMap StepPhrase.tokens) :=
    map_sublist_flatMap (fun g => List.mem_cons_self ..) _
  rw [tokens]
  exact (hopenings.trans (List.sublist_append_left _ _)).trans (List.sublist_append_right _ _)

/-- The draft of the parts, if the variables and the steps broke off with these errors. -/
def draft (atVariable atStep : Option Diagnostic) : Draft where
  variableDecls := r.whole.variableDecls
  stepDecls := firstOnly Step.id (r.steps.map (·.step r.whole.variableDecls))
  variableRefs := firstOnly Reference.id
    (r.nameUses.filter (isDeclared r.whole.variableDecls))
  stepRefs := firstOnly Reference.id r.stepUses
  errors := r.whole.variableErrors ++ atVariable.toList ++ r.whole.stepErrors ++
    unknownNames r.whole.variableDecls r.names ++ atStep.toList
  warnings := []

/-- The draft has been read off the parts. Errors of syntax come after the variables, after the
steps and at the end. -/
structure IsDraft (d : Draft) : Prop where
  variableDecls_eq : d.variableDecls = r.whole.variableDecls
  stepDecls_eq : d.stepDecls =
    firstOnly Step.id (r.steps.map (·.step r.whole.variableDecls))
  variableRefs_eq : d.variableRefs =
    firstOnly Reference.id (r.nameUses.filter (isDeclared r.whole.variableDecls))
  stepRefs_eq : d.stepRefs = firstOnly Reference.id r.stepUses
  errors_eq : ∃ atVariable atStep atEnd : List Diagnostic,
    d.errors = r.whole.variableErrors ++ atVariable ++ r.whole.stepErrors ++
      unknownNames r.whole.variableDecls r.names ++ atStep ++ atEnd ∧
    ∀ x ∈ atVariable ++ atStep ++ atEnd, x.code.isSyntax = true
  warnings_eq : d.warnings = []

namespace IsDraft

variable {r : PartialScheme} {d : Draft} (h : r.IsDraft d)
include h

/-- A step that is declared or used is one that stands in parentheses among the tokens. -/
theorem exists_stepId {id : Literal}
    (hid : id ∈ d.stepDecls.map (·.id) ∨ id ∈ d.stepRefs.map (·.id)) :
    ∃ g : StepIdPhrase, g.tokens <:+: r.tokens ∧ g.value = id := by
  rcases hid with hid | hid
  · obtain ⟨s, hs, rfl⟩ := List.mem_map.mp hid
    rw [h.stepDecls_eq] at hs
    obtain ⟨g, hg, rfl⟩ := List.mem_map.mp (mem_of_mem_firstOnly _ hs)
    exact ⟨g.id, (List.prefix_append _ _).isInfix.trans (r.infix_of_step hg), rfl⟩
  · obtain ⟨use, huse, rfl⟩ := List.mem_map.mp hid
    rw [h.stepRefs_eq] at huse
    obtain ⟨g, hg, rfl⟩ := r.mentions_tokens.exists_number (mem_of_mem_firstOnly _ huse)
    exact ⟨g, hg, rfl⟩

theorem hasNumbers (hdecoded : ∀ t ∈ r.tokens, t.IsDecoded) : d.HasNumbers := by
  intro id hid
  obtain ⟨g, hg, rfl⟩ := h.exists_stepId hid
  have hmem : g.number.token ∈ r.tokens := hg.subset (by simp [StepIdPhrase.tokens])
  obtain ⟨n, hn, hwritable⟩ := (hdecoded _ hmem).1 (g.number.isValid rfl)
  exact ⟨n, by simp [StepIdPhrase.value, hn], hwritable⟩

theorem hasLongNumber_of_check {o : CheckOptions} {long : Text.LongNumber}
    (hcheck : (d.checkReferences o).1 = .error long) : HasLongNumber r.tokens long := by
  obtain ⟨hlong, hid⟩ := Draft.mem_ids_of_checkReferences hcheck
  obtain ⟨g, hg, hvalue⟩ := h.exists_stepId hid
  exact Parse.hasLongNumber_of_write hg.subset (Literal.write_eq_error_iff.mpr ⟨hvalue, hlong⟩)

end IsDraft

end PartialScheme

namespace Parse

/-- The error is what a loop from `s` to `t` broke off with: after whole rounds the next item was
abandoned, which declared nothing and reported the error last, at the token where it stopped. -/
structure IsBreak (starts : Cursor → Bool) (item : Parse Unit) (breaks : Code → Bool)
    (s t : ParseState) (x : Diagnostic) : Prop where
  breaks_code : breaks x.code = true
  position_eq : x.position = t.cursor.current.position
  exists_item : ∃ (m : ParseState) (more : List Diagnostic),
    Relation.ReflTransGen (Round starts item) s m ∧ item m = (.abandoned, t) ∧
    t.draft.variableDecls = m.draft.variableDecls ∧ t.draft.stepDecls = m.draft.stepDecls ∧
    t.draft.errors = m.draft.errors ++ more ++ [x]

theorem Stopped.isBreak {starts : Cursor → Bool} {item : Parse Unit} {breaks : Code → Bool}
    {s m t : ParseState} {names : List (Reference String)} {numbers : List (Reference Literal)}
    (hr : Relation.ReflTransGen (Round starts item) s m) (hm : item m = (.abandoned, t))
    {x : Option Diagnostic} (hd : t.draft = (m.draft.note names numbers).reporting x)
    (hx : ∀ y ∈ x, breaks y.code = true ∧ y.position = t.cursor.current.position) :
    ∀ y ∈ x, IsBreak starts item breaks s t y := by
  rintro y rfl
  obtain ⟨hcode, hposition⟩ := hx y rfl
  exact ⟨hcode, hposition, m, _, hr, hm, by rw [hd]; rfl, by rw [hd]; rfl, by rw [hd]; rfl⟩

variable {c : Cursor} {s : ParseState}

/-- Variables are declared in an empty draft, and one that breaks off leaves at most an error. -/
theorem variableList_parts (hc : EndsInEnd c.tokens) : variableList.Ends ⟨c, .empty⟩
    (fun _ t => ∃ (vs : List VariablePhrase) (broken : List Token) (x : Option Diagnostic),
      c.Passes (vs.flatMap VariablePhrase.tokens ++ broken) t.cursor ∧
      (∀ u ∈ broken, u.IsLeaf) ∧
      (∀ y ∈ x, IsBreak (·.isAt .name) variableDeclaration Code.breaksVariable ⟨c, .empty⟩ t y) ∧
      t.draft = { Draft.empty with
        variableDecls := (SchemePhrase.mk vs []).variableDecls
        errors := (SchemePhrase.mk vs []).variableErrors ++ x.toList }) (fun _ => False) := by
  refine (variableList_ends (s := ⟨c, .empty⟩) hc).mono ?_ (fun _ h => h)
  rintro _ t ⟨vs, m, r, p, hd, ht⟩
  have hfold : m.draft = { Draft.empty with
      variableDecls := (SchemePhrase.mk vs []).variableDecls
      errors := (SchemePhrase.mk vs []).variableErrors } := by
    have h := SchemePhrase.foldl_addVariable (vs.map VariablePhrase.record)
    rw [List.foldl_map] at h
    exact hd.trans h
  rcases ht with rfl | ⟨hm, ht⟩
  · refine ⟨vs, [], none, ?_, by simp, by simp, ?_⟩
    · rwa [List.append_nil]
    · simpa using hfold
  · obtain ⟨ts, q, hts, -⟩ := ht.passes
    obtain ⟨x, hx, hbreak, -⟩ := ht.reports
    refine ⟨vs, ts, x, p.trans q, hts, Stopped.isBreak r hm hx hbreak, ?_⟩
    rw [hx, Draft.note_nil, hfold]
    rfl

/-- Steps are declared one after another, and one that breaks off leaves what it mentions and at
most an error. Only a report that shows a long number stops all this. -/
theorem stepList_parts (hc : EndsInEnd s.cursor.tokens) : stepList.Ends s
    (fun _ t => ∃ (gs : List StepPhrase) (broken : List Token) (names : List (Reference String))
      (numbers : List (Reference Literal)) (x : Option Diagnostic),
      s.cursor.Passes (gs.flatMap StepPhrase.tokens ++ broken) t.cursor ∧
      (∀ u ∈ broken, u.IsLeaf) ∧ Mentions broken names numbers ∧
      (∀ y ∈ x, IsBreak (·.isAt .openParen) stepDeclaration Code.breaksStep s t y) ∧
      t.draft = ((gs.foldl StepPhrase.addTo s.draft).note names numbers).reporting x)
    (fun _ => False) (Breach.IsLongNumberOf s.cursor.tokens) := by
  refine (stepList_ends hc).mono ?_ (fun _ h => h)
  rintro _ t ⟨gs, m, r, p, hd, rfl | ⟨hm, names, numbers, ht⟩⟩
  · refine ⟨gs, [], [], [], none, ?_, by simp, .nil, by simp, by simpa using hd⟩
    rwa [List.append_nil]
  · obtain ⟨ts, q, hts, hmentions⟩ := ht.passes
    obtain ⟨x, hx, hbreak, -⟩ := ht.reports
    exact ⟨gs, ts, names, numbers, x, p.trans q, hts, hmentions, Stopped.isBreak r hm hx hbreak,
      hd ▸ hx⟩

/-- The report on a token that is left. -/
def leftOver (c : Cursor) : Option Diagnostic :=
  if c.isAt .eof then none else some ⟨.general .expectedEnd, c.current.position⟩

theorem isSyntax_of_mem_leftOver {x : Diagnostic} (h : x ∈ leftOver c) :
    x.code.isSyntax = true := by
  unfold leftOver at h
  split at h
  · cases h
  · cases h
    rfl

/-- After the variables and the steps it is only said whether tokens are left. -/
theorem scheme_of_lists {t u : ParseState} (hv : variableList s = (.done (), t))
    (hs : stepList t = (.done (), u)) :
    scheme s = (.done (), ⟨u.cursor, u.draft.reporting (leftOver u.cursor)⟩) := by
  rw [eq_done_iff, scheme, ends_bind, ends_of_done hv, ends_bind, ends_of_done hs]
  simp only [ends_bind, ends_cursor, ends_ite, ends_pure, ends_position, ends_report]
  unfold leftOver
  split
  · simp
  · exact ⟨trivial, rfl⟩

theorem scheme_of_broken {t u : ParseState} {b : Breach} (hv : variableList s = (.done (), t))
    (hs : stepList t = (.broken b, u)) : scheme s = (.broken b, u) := by
  simp only [scheme, bind_apply, hv, hs]

/-- Whatever the tokens are, variables are read as far as they go, and then steps, unless a report
would have to show a long number. -/
theorem lists_parts (hc : EndsInEnd c.tokens) :
    (∃ (t u : ParseState) (b : Breach), variableList ⟨c, .empty⟩ = (.done (), t) ∧
      stepList t = (.broken b, u) ∧ b.IsLongNumberOf c.tokens) ∨
    ∃ (r : PartialScheme) (t u : ParseState) (atVariable atStep : Option Diagnostic),
      variableList ⟨c, .empty⟩ = (.done (), t) ∧ stepList t = (.done (), u) ∧
      c.Passes r.tokens u.cursor ∧ u.draft = r.draft atVariable atStep ∧
      t.draft.variableDecls = u.draft.variableDecls ∧
      t.draft.errors = r.whole.variableErrors ++ atVariable.toList ∧
      (∀ x ∈ atVariable,
        IsBreak (·.isAt .name) variableDeclaration Code.breaksVariable ⟨c, .empty⟩ t x) ∧
      ∀ x ∈ atStep, IsBreak (·.isAt .openParen) stepDeclaration Code.breaksStep t u x := by
  obtain ⟨_, t, hv, vs, brokenBinding, x₁, p, hl₁, hx₁, hd₁⟩ | ⟨_, _, hfalse⟩ :=
    (variableList_parts hc).exists_or
  · obtain ⟨_, u, hs, gs, brokenStep, names, numbers, x₂, q, hl₂, hm, hx₂, hd₂⟩ |
      ⟨_, _, hfalse⟩ | ⟨b, u, hs, hb⟩ := (stepList_parts (hc.of_passes p)).cases
    · refine .inr ⟨⟨vs, brokenBinding, gs, brokenStep, names, numbers, hl₁, hl₂, hm⟩, t, u, x₁, x₂,
        hv, hs, p.trans q, ?_, ?_, ?_, hx₁, hx₂⟩
      · rw [hd₂, hd₁, SchemePhrase.foldl_addTo _ rfl rfl rfl]
        simp only [Draft.reporting, Draft.note, PartialScheme.draft, PartialScheme.nameUses,
          PartialScheme.stepUses, ← addAll_nil, ← addAll_append, ← List.filter_append]
        rfl
      · rw [hd₂, hd₁, SchemePhrase.foldl_addTo _ rfl rfl rfl]
        rfl
      · rw [hd₁]
        rfl
    · exact hfalse.elim
    · exact .inl ⟨t, u, b, hv, hs, hb.mono p.subset⟩
  · exact hfalse.elim

/-- Whatever the tokens are, a scheme is read as far as it goes, unless a report would have to show
a long number. -/
theorem scheme_parts (hc : EndsInEnd c.tokens) :
    (∃ (t : ParseState) (b : Breach),
      scheme ⟨c, .empty⟩ = (.broken b, t) ∧ b.IsLongNumberOf c.tokens) ∨
    ∃ (r : PartialScheme) (t : ParseState),
      scheme ⟨c, .empty⟩ = (.done (), t) ∧ c.Passes r.tokens t.cursor ∧ r.IsDraft t.draft := by
  obtain ⟨t, u, b, hv, hs, hb⟩ | ⟨r, t, u, x₁, x₂, hv, hs, hp, hd, -, -, hx₁, hx₂⟩ :=
    lists_parts hc
  · exact .inl ⟨u, b, scheme_of_broken hv hs, hb⟩
  · refine .inr ⟨r, _, scheme_of_lists hv hs, hp, ?_⟩
    rw [hd]
    refine ⟨rfl, rfl, rfl, rfl, ⟨x₁.toList, x₂.toList, (leftOver u.cursor).toList, rfl, ?_⟩, rfl⟩
    intro y hy
    simp only [List.mem_append, Option.mem_toList, or_assoc] at hy
    rcases hy with hy | hy | hy
    · exact Code.isSyntax_of_breaksVariable (hx₁ y hy).breaks_code
    · exact Code.isSyntax_of_breaksStep (hx₂ y hy).breaks_code
    · exact isSyntax_of_mem_leftOver hy

end Parse

theorem endsInEnd_of_ofTokens {tokens : List Token} {d : Draft}
    (h : Draft.ofTokens tokens = .ok d) : EndsInEnd tokens := by
  unfold Draft.ofTokens ParseState.ofTokens Cursor.ofTokens? at h
  cases tokens with
  | nil => cases h
  | cons t rest =>
    by_cases hend : (t :: rest).getLast?.map (·.kind) = some .eof
    · exact hend
    · simp [hend] at h

theorem ofTokens_eq_of_broken {tokens : List Token} {s t : ParseState} {b : Breach}
    (hstart : ParseState.ofTokens tokens = .ok s) (hread : Parse.scheme s = (.broken b, t)) :
    Draft.ofTokens tokens = .error (.breach b) := by
  rw [Draft.ofTokens, hstart]
  simp only [hread]

/-- What draft there is has been read off parts that are among the tokens. -/
theorem exists_parts_of_ofTokens {tokens : List Token} {d : Draft}
    (h : Draft.ofTokens tokens = .ok d) :
    ∃ r : PartialScheme, r.tokens ⊆ tokens ∧ r.IsDraft d := by
  have hend := endsInEnd_of_ofTokens h
  obtain ⟨c, hstart, rfl, -⟩ := exists_start hend
  obtain ⟨t, b, hread, -⟩ | ⟨r, t, hread, hpasses, hdraft⟩ := Parse.scheme_parts hend
  · rw [ofTokens_eq_of_broken hstart hread] at h
    cases h
  · rw [ofTokens_eq_of_scheme hstart hread] at h
    cases h
    refine ⟨r, ?_, hdraft⟩
    rw [hpasses.tokens_eq]
    exact List.subset_append_left _ _

/-- Decoded tokens give all steps numbers that can be written. -/
theorem hasNumbers_of_ofTokens {tokens : List Token} {d : Draft}
    (hdecoded : ∀ t ∈ tokens, t.IsDecoded) (h : Draft.ofTokens tokens = .ok d) :
    d.HasNumbers := by
  obtain ⟨r, hsub, hdraft⟩ := exists_parts_of_ofTokens h
  exact hdraft.hasNumbers fun t ht => hdecoded t (hsub ht)

/-- The tokens are not read to the end, since a report would have to show a number among them that
is too long to be written. -/
def StopsAtLongNumber (tokens : List Token) : Prop :=
  ∃ b, Draft.ofTokens tokens = .error (.breach b) ∧ b.IsLongNumberOf tokens

theorem stopsAtLongNumber_of_scheme {tokens : List Token} {s t : ParseState} {b : Breach}
    (hstart : ParseState.ofTokens tokens = .ok s) (hread : Parse.scheme s = (.broken b, t))
    (hb : b.IsLongNumberOf tokens) : StopsAtLongNumber tokens :=
  ⟨b, ofTokens_eq_of_broken hstart hread, hb⟩

theorem not_stopsAtLongNumber {tokens : List Token} (h : ∀ t ∈ tokens, t.IsWritable) :
    ¬StopsAtLongNumber tokens := by
  rintro ⟨b, -, hb⟩
  cases b with
  | longNumber long => exact not_hasLongNumber h long hb
  | stalled | noCondition => exact hb

end StepMachine
