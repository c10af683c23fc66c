import StepMachine.Proofs.Scheme.Routines

/-! # How far routines look ahead

What a routine does depends on the tokens that it passes and on four more, whatever comes after
them. Two runs are compared that start alike and see the same tokens up to a place; as long as the
first one stays four tokens before that place, both do the same. Where fewer than four tokens are
left, the last of them is one of the end, and no test looks past it.
-/
namespace StepMachine

/-- The second state is at the same place with the same draft, and up to the token number `k` it
sees what the first one sees. -/
structure SameUpTo (k : Nat) (s s' : ParseState) : Prop where
  endsInEnd : EndsInEnd s.cursor.tokens
  index_eq : s'.cursor.index = s.cursor.index
  tokens_take : s.cursor.tokens.take (k - s.cursor.index) <+: s'.cursor.tokens
  draft_eq : s'.draft = s.draft

namespace SameUpTo

variable {k : Nat} {s s' : ParseState}

theorem take_four (h : SameUpTo k s s') (hk : s.cursor.index + 4 ≤ k) :
    s.cursor.tokens.take 4 <+: s'.cursor.tokens :=
  (List.take_prefix_take_left (by omega)).trans h.tokens_take

theorem current_eq (h : SameUpTo k s s') (hk : s.cursor.index + 4 ≤ k) :
    s'.cursor.current = s.cursor.current := Cursor.current_eq_of_take (h.take_four hk)

theorem test_eq (h : SameUpTo k s s') {p : Cursor → Bool} (hp : Cursor.LooksFourAhead p)
    (hk : s.cursor.index + 4 ≤ k) : p s'.cursor = p s.cursor := hp h.endsInEnd (h.take_four hk)

theorem write (h : SameUpTo k s s') (f : Draft → Draft) :
    SameUpTo k { s with draft := f s.draft } { s' with draft := f s'.draft } :=
  ⟨h.endsInEnd, h.index_eq, h.tokens_take, congrArg f h.draft_eq⟩

/-- Both go on, or both stay on a token of the end. -/
theorem next (h : SameUpTo k s s') (hk : s.cursor.index + 4 ≤ k) :
    SameUpTo k { s with cursor := s.cursor.next } { s' with cursor := s'.cursor.next } := by
  have hcurrent := h.current_eq hk
  by_cases he : s.cursor.current.kind = .eof
  · rw [Cursor.next_of_eof he, Cursor.next_of_eof (hcurrent ▸ he)]
    exact h
  · have p := h.endsInEnd.passes_next he
    have hindex : s.cursor.next.index = s.cursor.index + 1 := p.index_eq
    have hleft : k - s.cursor.index = k - s.cursor.next.index + 1 := by omega
    have htokens := h.tokens_take
    rw [hleft, p.tokens_eq, List.singleton_append, List.take_succ_cons] at htokens
    have hahead : s.cursor.next.tokens.take (k - s.cursor.next.index) <+: s'.cursor.ahead :=
      (List.cons_prefix_cons.mp htokens).2
    -- the token after the current one is still within reach
    have hmore : s'.cursor.ahead ≠ [] := by
      intro hnone
      rw [hnone, List.prefix_nil, List.take_eq_nil_iff] at hahead
      rcases hahead with hzero | hnil
      · omega
      · exact List.cons_ne_nil _ _ hnil
    have q := Cursor.passes_next (hcurrent ▸ he) hmore
    have hrest : s'.cursor.ahead = s'.cursor.next.tokens := (List.cons.inj q.tokens_eq).2
    refine ⟨h.endsInEnd.of_passes p, ?_, hrest ▸ hahead, h.draft_eq⟩
    have hindex' : s'.cursor.next.index = s'.cursor.index + 1 := q.index_eq
    rw [hindex', h.index_eq, hindex]

end SameUpTo

theorem index_le_of_moves {tables : List Table} {s t : ParseState}
    (h : Relation.ReflTransGen (Moves tables) s t) : s.cursor.index ≤ t.cursor.index := by
  obtain ⟨ts, p, -⟩ := exists_passes_of_moves h
  have hindex := p.index_eq
  omega

/-- A check passes if tokens have been passed since its mark. -/
theorem passes_mark_of_passes {c d : Cursor} {ts : List Token} (h : c.Passes ts d) :
    (Progress.mark c).passes d = decide (c.index < d.index) := by
  have hindex := h.index_eq
  have hlength := congrArg List.length h.tokens_eq
  simp only [Cursor.tokens, List.length_append, List.length_cons] at hlength
  simp only [Progress.passes, Progress.mark, Option.all_some, decide_eq_decide]
  omega

namespace Parse

variable {α β : Type} {k : Nat} {s s' : ParseState} {m m' : Parse α} {tables : List Table}

/-- If the first reading ends four tokens before the place `k`, then the second one ends as it
does. -/
def Echoes (k : Nat) (m m' : Parse α) (s s' : ParseState) : Prop :=
  (m s).2.cursor.index + 4 ≤ k → (m' s').1 = (m s).1 ∧ SameUpTo k (m s).2 (m' s').2

/-- One reading after another: the first one ends no later than both do. -/
theorem Echoes.bind {next next' : α → Parse β} (h : Echoes k m m' s s')
    (hforward : ∀ a t, t.cursor.index ≤ (next a t).2.cursor.index)
    (hnext : ∀ a t t', m s = (.done a, t) → m' s' = (.done a, t') → SameUpTo k t t' →
      Echoes k (next a) (next' a) t t') : Echoes k (m >>= next) (m' >>= next') s s' := by
  unfold Echoes at h ⊢
  rw [bind_apply, bind_apply]
  rcases hm : m s with ⟨a | _ | b, t⟩
  all_goals
    rcases hm' : m' s' with ⟨o, t'⟩
    rw [hm, hm'] at h
    intro hk
  · have hfirst := hforward a t
    dsimp only at hk
    obtain ⟨rfl, ht⟩ := h (by dsimp only; omega)
    exact hnext a t t' hm hm' ht hk
  · obtain ⟨rfl, ht⟩ := h hk
    exact ⟨rfl, ht⟩
  · obtain ⟨rfl, ht⟩ := h hk
    exact ⟨rfl, ht⟩

theorem Echoes.asFarAsItGoes (h : Echoes k m m' s s') :
    Echoes k (asFarAsItGoes m) (asFarAsItGoes m') s s' := by
  unfold Echoes Parse.asFarAsItGoes at *
  rcases hm : m s with ⟨_ | _ | b, t⟩
  all_goals
    rw [hm] at h
    intro hk
    obtain ⟨ho, ht⟩ := h hk
    split <;> simp_all

theorem many_echoes {starts : Cursor → Bool} {item : Parse α}
    (hstarts : Cursor.LooksFourAhead starts) (hitem : IsMadeOf tables item)
    (h : ∀ {s s'}, SameUpTo k s s' → Echoes k item item s s') (p p' : Progress)
    (hs : SameUpTo k s s') (hp : p'.passes s'.cursor = p.passes s.cursor) :
    Echoes k (many starts item p) (many starts item p') s s' := by
  induction p, s using many_induction starts generalizing p' s' with
  | stop p s hstop =>
    unfold Echoes
    rw [many_of_stop hstop]
    intro hk
    rw [many_of_stop ((hs.test_eq hstarts hk).trans hstop)]
    exact ⟨rfl, hs⟩
  | stall p s hstart hstall =>
    unfold Echoes
    rw [many_of_stall hstart hstall]
    intro hk
    rw [many_of_stall ((hs.test_eq hstarts hk).trans hstart) (hp.trans hstall), Breach.ofStall,
      Breach.ofStall, hs.current_eq hk]
    exact ⟨rfl, hs⟩
  | round p s hstart hpass ih =>
    have hloop : ∀ (a : α) (t : ParseState), Relation.ReflTransGen (Moves tables) t
        ((do
          let as ← many starts item (.mark s.cursor)
          pure (a :: as) : Parse (List α)) t).2 := fun a t =>
      bind_moves (many_moves hitem.moves _ t) fun _ _ => .refl
    intro hk
    have hreach : s.cursor.index ≤ (many starts item p s).2.cursor.index :=
      index_le_of_moves (many_moves hitem.moves p s)
    have hstart' := (hs.test_eq hstarts (by omega)).trans hstart
    revert hk
    change Echoes k (many starts item p) (many starts item p') s s'
    unfold Echoes
    rw [many_eq_bind hstart hpass, many_eq_bind hstart' (hp.trans hpass)]
    refine (h hs).bind (fun a t => index_le_of_moves (hloop a t)) ?_
    intro a t t' hm hm' ht
    refine (ih t (.mark s'.cursor) ht ?_).bind (fun _ _ => le_rfl) ?_
    · -- the marks count the tokens that are left, but only those that have been passed matter
      obtain ⟨ts, p, -⟩ := hitem.exists_passes s
      obtain ⟨ts', p', -⟩ := hitem.exists_passes s'
      rw [hm] at p
      rw [hm'] at p'
      rw [passes_mark_of_passes p, passes_mark_of_passes p', hs.index_eq, ht.index_eq]
    · exact fun _ _ _ _ _ hu _ => ⟨rfl, hu⟩

theorem IsMadeOf.index_le (h : IsMadeOf tables m) (s : ParseState) :
    s.cursor.index ≤ (m s).2.cursor.index := index_le_of_moves (h.moves s)

theorem IsMadeOf.start_near (h : IsMadeOf tables m) (hk : (m s).2.cursor.index + 4 ≤ k) :
    s.cursor.index + 4 ≤ k := by
  have hle := h.index_le s
  omega

/-- A reading ends alike where four more tokens than it passes are alike. -/
theorem IsMadeOf.echoes (h : IsMadeOf tables m) (hs : SameUpTo k s s') : Echoes k m m s s' := by
  induction h generalizing s s' with
  | bind _ hnext ihm ihnext =>
    exact (ihm hs).bind (fun a t => (hnext a).index_le t) fun a _ _ _ _ ht => ihnext a ht
  | @test _ p m n hp hm hn ihm ihn =>
    intro hk
    have htest := hs.test_eq hp ((IsMadeOf.test hp hm hn).start_near hk)
    revert hk
    change Echoes k (if p s.cursor then m else n) (if p s'.cursor then m else n) s s'
    rw [htest]
    split
    · exact ihm hs
    · exact ihn hs
  | position =>
    intro hk
    exact ⟨congrArg (fun t : Token => Outcome.done t.position) (hs.current_eq hk), hs⟩
  | draft => exact fun _ => ⟨congrArg Outcome.done hs.draft_eq, hs⟩
  | bump =>
    intro hk
    have hnear := (IsMadeOf.bump : IsMadeOf tables _).start_near hk
    have htoken := hs.current_eq hnear
    rw [← Cursor.bump_fst, ← Cursor.bump_fst s.cursor] at htoken
    exact ⟨congrArg Outcome.done htoken, hs.next hnear⟩
  | eat kind =>
    intro hk
    have hnear := (IsMadeOf.eat kind : IsMadeOf tables _).start_near hk
    have htest := hs.test_eq (Cursor.looksFourAhead_isAt kind) hnear
    unfold Parse.eat Cursor.eat
    rw [htest]
    split
    · exact ⟨rfl, hs.next hnear⟩
    · exact ⟨rfl, hs⟩
  | @change f _ => exact fun _ => ⟨rfl, hs.write f⟩
  | @ask _ f _ =>
    exact fun _ => ⟨congrArg (fun d => Outcome.done (f d).1) hs.draft_eq, hs.write fun d => (f d).2⟩
  | asFarAsItGoes _ ih => exact (ih hs).asFarAsItGoes
  | many hstarts hitem ih => exact many_echoes hstarts hitem ih .start .start hs rfl
  | _ => exact fun _ => ⟨rfl, hs⟩

/-- A reading of a list of tokens ends alike on any list with the same tokens up to the fourth one
from where it ends. -/
theorem IsMadeOf.run_eq (h : IsMadeOf tables m) {tokens : List Token} (hend : EndsInEnd tokens)
    {i : Nat} {hi : i < tokens.length} {d : Draft} {o : Outcome α} {t : ParseState}
    (hrun : m ⟨.atIndex tokens i hi, d⟩ = (o, t)) {tokens' : List Token}
    (hagree : tokens.take (t.cursor.index + 4) <+: tokens') :
    ∃ (hi' : i < tokens'.length) (t' : ParseState), m ⟨.atIndex tokens' i hi', d⟩ = (o, t') ∧
      t'.cursor.index = t.cursor.index ∧ t'.draft = t.draft := by
  have hle : i ≤ t.cursor.index := by simpa [hrun] using h.index_le ⟨.atIndex tokens i hi, d⟩
  have hlength := hagree.length_le
  rw [List.length_take] at hlength
  have hi' : i < tokens'.length := by omega
  have hdrop : (tokens.drop i).take (t.cursor.index + 4 - i) <+: tokens'.drop i := by
    obtain ⟨rest, rfl⟩ := hagree
    rw [List.drop_append_of_le_length (by rw [List.length_take]; omega), List.drop_take]
    exact List.prefix_append _ _
  have hsame : SameUpTo (t.cursor.index + 4) ⟨.atIndex tokens i hi, d⟩
      ⟨.atIndex tokens' i hi', d⟩ := by
    refine ⟨?_, rfl, ?_, rfl⟩
    · simpa using hend.drop hi
    · simpa using hdrop
  have hecho := h.echoes hsame
  unfold Echoes at hecho
  rw [hrun] at hecho
  obtain ⟨ho, ht⟩ := hecho le_rfl
  rcases hrun' : m ⟨.atIndex tokens' i hi', d⟩ with ⟨o', t'⟩
  rw [hrun'] at ho ht
  obtain rfl : o' = o := ho
  exact ⟨hi', t', hrun', ht.index_eq, ht.draft_eq⟩

end Parse

/-- Tokens after one of the end do not show in a draft. -/
theorem ofTokens_append {before : List Token} {last : Token} (hlast : last.kind = .eof)
    {after : List Token} (hend : EndsInEnd (before ++ last :: after)) :
    Draft.ofTokens (before ++ last :: after) = Draft.ofTokens (before ++ [last]) := by
  have hshort : EndsInEnd (before ++ [last]) := by simp [EndsInEnd, hlast]
  have hagree : before ++ [last] <+: before ++ last :: after :=
    (List.prefix_append_right_inj before).mpr ⟨after, rfl⟩
  rcases hrun : Parse.scheme ⟨.atIndex (before ++ [last]) 0 hshort.length_pos, .empty⟩ with ⟨o, t⟩
  obtain ⟨_, t', hrun', -, hdraft⟩ := Routine.scheme.isMadeOf.run_eq hshort hrun
    ((List.take_prefix _ _).trans hagree)
  change Parse.scheme _ = (o, t') at hrun'
  simp only [Draft.ofTokens, ParseState.ofTokens, Cursor.ofTokens?_eq hend,
    Cursor.ofTokens?_eq hshort, hrun, hrun']
  cases o with
  | broken b => rfl
  | _ => exact congrArg Except.ok hdraft

/-- Whatever routine reads on from whatever token with whatever draft, it ends the same way on any
tokens that are the same up to the fourth one from where it ends. So nothing after a token of the
end shows in the draft, and of what follows a step nothing shows in it but four tokens. -/
theorem routine_looks_four_ahead {tokens : List Token} (hend : EndsInEnd tokens) :
    (∀ (r : Routine) (i : Nat) (hi : i < tokens.length) (d : Draft) (o : Outcome r.Result)
      (t : ParseState), r.run ⟨.atIndex tokens i hi, d⟩ = (o, t) →
      ∀ tokens' : List Token, tokens.take (t.cursor.index + 4) <+: tokens' →
      ∃ (hi' : i < tokens'.length) (t' : ParseState), r.run ⟨.atIndex tokens' i hi', d⟩ = (o, t') ∧
        t'.cursor.index = t.cursor.index ∧ t'.draft = t.draft) ∧
    (∀ (before after after' : List Token) (last : Token), tokens = before ++ last :: after →
      last.kind = .eof → EndsInEnd (before ++ last :: after') →
      Draft.ofTokens (before ++ last :: after') = Draft.ofTokens tokens) ∧
    ∀ (i : Nat) (hi : i < tokens.length) (d : Draft) (o : Outcome Step) (t : ParseState),
      Parse.step ⟨.atIndex tokens i hi, d⟩ = (o, t) →
      ∀ follow : List Token, (tokens.drop t.cursor.index).take 4 <+: follow →
      ∃ (hi' : i < (tokens.take t.cursor.index ++ follow).length) (t' : ParseState),
        Parse.step ⟨.atIndex (tokens.take t.cursor.index ++ follow) i hi', d⟩ = (o, t') ∧
        t'.cursor.index = t.cursor.index ∧ t'.draft = t.draft := by
  refine ⟨?_, ?_, ?_⟩
  · intro r i hi d o t hrun tokens' hagree
    exact r.isMadeOf.run_eq hend hrun hagree
  · rintro before after after' last rfl hlast hend'
    rw [ofTokens_append hlast hend, ofTokens_append hlast hend']
  · intro i hi d o t hrun follow hagree
    refine Routine.step.isMadeOf.run_eq hend hrun ?_
    rw [List.take_add]
    exact (List.prefix_append_right_inj _).mpr hagree

/-- `(1):*?[go](2):`, where the second step breaks off. -/
def openStepTokens : List Token := [
  .onFirstLine .openParen "(" 0, .numberOnFirstLine "1" 1 1, .onFirstLine .closeParen ")" 2,
  .onFirstLine .colon ":" 3, .onFirstLine .star "*" 4, .onFirstLine .question "?" 5,
  .onFirstLine .openBracket "[" 6, .onFirstLine .name "go" 7, .onFirstLine .closeBracket "]" 9,
  .onFirstLine .openParen "(" 10, .numberOnFirstLine "2" 11 2, .onFirstLine .closeParen ")" 12,
  .onFirstLine .colon ":" 13, .onFirstLine .eof "" 14]

/-- A second colon after the header of the second step does not show in the first one, which leaves
out its fallback. -/
theorem header_is_seen :
    let tokens := openStepTokens.take 9 ++ (openStepTokens.drop 9).take 4 ++
      [.onFirstLine .colon ":" 14, .onFirstLine .eof "" 15]
    EndsInEnd openStepTokens ∧ ∃ (hi : 0 < tokens.length) (t : ParseState),
      Parse.step ⟨.atIndex tokens 0 hi, .empty⟩ =
        ((Parse.step ⟨.atIndex openStepTokens 0 (by decide), .empty⟩).1, t) ∧
      t.cursor.index = 9 ∧ t.draft = .empty := by
  have hend : EndsInEnd openStepTokens := by decide
  have hrun : Parse.step ⟨.atIndex openStepTokens 0 (by decide), .empty⟩ =
      ((Parse.step ⟨.atIndex openStepTokens 0 (by decide), .empty⟩).1,
        ⟨.atIndex openStepTokens 9 (by decide), .empty⟩) := Prod.ext rfl (by decide +kernel)
  exact ⟨hend, (routine_looks_four_ahead hend).1 .step 0 (by decide) .empty _ _ hrun _ (by decide)⟩

/-- The fourth token matters: without the colon `(2)` is the fallback. -/
example :
    let tokens := openStepTokens.take 12 ++ openStepTokens.drop 13
    (Parse.step ⟨.atIndex tokens 0 (by decide), .empty⟩).2 =
      ⟨.atIndex tokens 12 (by decide), Draft.empty.useStep (.number 2) ⟨1, 11, 10⟩⟩ := by decide +kernel

end StepMachine
