import Mathlib.Data.List.Flatten
import StepMachine.Proofs.Scheme.FirstUses

/-! # Places of records

Every place in what has been read is that of a token. What a condition or a target is tells the
kind of that token, its first one. In a step the places follow one another like the tokens do: the
step's own, those of its actions and that of its fallback; a fallback that is left out has no place
of its own but that of the last target. Errors are reported at tokens as well.
-/
namespace StepMachine

/-- A token of the kind stands at the place. -/
def IsPlaceOf (ts : List Token) (kind : TokenKind) (p : Position) : Prop :=
  ∃ t ∈ ts, t.kind = kind ∧ t.position = p

/-- The kind of the token that spells the condition. -/
def Condition.kind : Condition → TokenKind
  | named .. => .name
  | text .. => .string
  | pattern .. => .pattern
  | wildcard _ => .star

/-- The kind of the token that the target starts with. -/
def Target.kind : Target → TokenKind
  | step .. => .openParen
  | token _ false _ => .openBracket
  | token _ true _ => .bang

def Action.places (a : Action) : List Position := [a.condition.position, a.target.position]

namespace Step

/-- The fallback is where the target of the last action is. -/
def repeatsTarget (s : Step) : Bool :=
  s.actions.getLast?.any (·.target.position == s.fallback.position)

/-- The places in a step in the order of the text, each of them once. -/
def places (s : Step) : List Position :=
  s.position :: (s.actions.flatMap Action.places ++
    if s.repeatsTarget then [] else [s.fallback.position])

end Step

/-! ### Phrases -/

theorem TargetPhrase.exists_first (g : TargetPhrase) : ∃ t rest, g.tokens = t :: rest ∧
    t.kind = g.target.kind ∧ t.position = g.target.position := by
  cases g with
  | step id => exact ⟨id.opening.token, _, rfl, id.opening.kind_eq, rfl⟩
  | token bang opening name closing =>
    cases bang with
    | none => exact ⟨opening.token, _, rfl, opening.kind_eq, rfl⟩
    | some bang => exact ⟨bang.token, _, rfl, bang.kind_eq, rfl⟩

theorem ConditionPhrase.kind_condition (vars : List Variable) (g : ConditionPhrase) :
    (g.condition vars).kind = g.token.kind := by
  cases g with
  | name word => exact word.kind_eq.symm
  | text literal => exact literal.kind_eq.symm
  | pattern literal => exact literal.kind_eq.symm
  | wildcard star => exact star.kind_eq.symm

theorem ConditionPhrase.position_condition (vars : List Variable) (g : ConditionPhrase) :
    (g.condition vars).position = g.token.position := by
  cases g <;> rfl

/-- The place of the fallback, if there is one. -/
def StepEnd.places : StepEnd → List Position
  | fallback target => [target.target.position]
  | wildcard .. => []

variable {ts : List Token} (vars : List Variable)

theorem TargetPhrase.isPlaceOf {g : TargetPhrase} (h : g.tokens ⊆ ts) :
    IsPlaceOf ts g.target.kind g.target.position := by
  obtain ⟨t, rest, htokens, hkind, hposition⟩ := g.exists_first
  exact ⟨t, h (htokens ▸ List.mem_cons_self ..), hkind, hposition⟩

theorem TargetPhrase.place_sublist (g : TargetPhrase) :
    [g.target.position].Sublist (g.tokens.map (·.position)) := by
  obtain ⟨t, rest, htokens, -, hposition⟩ := g.exists_first
  rw [List.singleton_sublist, htokens, List.map_cons, hposition]
  exact List.mem_cons_self ..

theorem ActionPhrase.places_sublist (g : ActionPhrase) :
    (g.action vars).places.Sublist (g.tokens.map (·.position)) := by
  rw [Action.places, action, g.condition.position_condition vars]
  exact (g.target.place_sublist.cons _).cons_cons _

theorem StepEnd.places_sublist (g : StepEnd) : g.places.Sublist (g.tokens.map (·.position)) := by
  cases g with
  | fallback target => exact target.place_sublist
  | wildcard star question target => exact .refl _

namespace StepPhrase

variable (g : StepPhrase)

theorem tokens_subset_of_mem {a : ActionPhrase} (ha : a ∈ g.allActions) : a.tokens ⊆ g.tokens := by
  intro t ht
  have hactions : t ∈ g.allActions.flatMap ActionPhrase.tokens := List.mem_flatMap.mpr ⟨a, ha, ht⟩
  simp [tokens, hactions]

/-- The tokens of what serves as the fallback, be it written as one or not. -/
theorem fallback_subset : g.ending.target.tokens ⊆ g.tokens := by
  cases he : g.ending with
  | fallback target =>
    intro t ht
    have hending : t ∈ g.ending.tokens := he ▸ ht
    simp [tokens, hending]
  | wildcard star question target =>
    have hlast : ⟨.wildcard star, question, target⟩ ∈ g.allActions := by
      simp [allActions, he, StepEnd.lastAction]
    intro t ht
    exact g.tokens_subset_of_mem hlast (List.mem_cons_of_mem _ (List.mem_cons_of_mem _ ht))

theorem condition_isPlaceOf (h : g.tokens ⊆ ts) : ∀ a ∈ (g.step vars).actions,
    IsPlaceOf ts a.condition.kind a.condition.position := by
  intro a ha
  obtain ⟨f, hf, rfl⟩ := List.mem_map.mp ha
  have hmem : f.condition.token ∈ ts := h (g.tokens_subset_of_mem hf (List.mem_cons_self ..))
  exact ⟨f.condition.token, hmem, (f.condition.kind_condition vars).symm,
    (f.condition.position_condition vars).symm⟩

theorem target_isPlaceOf (h : g.tokens ⊆ ts) : ∀ t ∈ (g.step vars).targets,
    IsPlaceOf ts t.kind t.position := by
  intro t ht
  rcases List.mem_append.mp ht with ht | ht
  · obtain ⟨a, ha, rfl⟩ := List.mem_map.mp ht
    obtain ⟨f, hf, rfl⟩ := List.mem_map.mp ha
    refine TargetPhrase.isPlaceOf fun u hu => h (g.tokens_subset_of_mem hf ?_)
    exact List.mem_cons_of_mem _ (List.mem_cons_of_mem _ hu)
  · obtain rfl := List.mem_singleton.mp ht
    exact TargetPhrase.isPlaceOf fun u hu => h (g.fallback_subset hu)

/-! ### Order -/

/-- The places of the parts of a step are those of some of its tokens, in their order. -/
theorem parts_sublist : (g.id.position ::
    ((g.step vars).actions.flatMap Action.places ++ g.ending.places)).Sublist
      (g.tokens.map (·.position)) := by
  have hactions : ((g.step vars).actions.flatMap Action.places).Sublist
      ((g.allActions.flatMap ActionPhrase.tokens).map (·.position)) := by
    have hmap : (g.step vars).actions = g.allActions.map (·.action vars) := rfl
    rw [hmap, List.flatMap_map, List.map_flatMap]
    exact List.Sublist.flatMap_right _ fun a _ => a.places_sublist vars
  have hrest := hactions.append g.ending.places_sublist
  rw [← List.map_append] at hrest
  exact (((hrest.cons _).cons _).cons _).cons_cons _

theorem getLast?_of_wildcard {g : StepPhrase} {star : Terminal .star}
    {question : Terminal .question} {target : TargetPhrase}
    (h : g.ending = .wildcard star question target) : (g.step vars).actions.getLast? =
      some ⟨.wildcard star.token.position, (g.step vars).fallback⟩ := by
  simp [step, allActions, h, StepEnd.lastAction, StepEnd.target, ActionPhrase.action,
    ConditionPhrase.condition]

/-- Where the fallback is written, it is behind all other targets. -/
theorem repeatsTarget_iff (h : Ascends g.tokens) :
    (g.step vars).repeatsTarget = true ↔ g.ending.tokens = [] := by
  rw [Step.repeatsTarget]
  cases he : g.ending with
  | wildcard star question target => simp [getLast?_of_wildcard vars he, StepEnd.tokens]
  | fallback target =>
    refine iff_of_false ?_ target.tokens_ne_nil
    cases hlast : (g.step vars).actions.getLast? with
    | none => simp
    | some a =>
      have hplaces := h.pairwise_positions (g.parts_sublist vars)
      have hmem : a.target.position ∈ (g.step vars).actions.flatMap Action.places :=
        List.mem_flatMap.mpr ⟨a, List.mem_of_getLast? hlast, by simp [Action.places]⟩
      have hfallback : (g.step vars).fallback.position ∈ g.ending.places := by
        simp [step, he, StepEnd.places, StepEnd.target]
      have hlt := (List.pairwise_append.mp hplaces.of_cons).2.2 _ hmem _ hfallback
      intro hsame
      have heq : a.target.position = (g.step vars).fallback.position := by simpa using hsame
      rw [heq] at hlt
      exact lt_irrefl _ hlt

theorem places_sublist (h : Ascends g.tokens) :
    (g.step vars).places.Sublist (g.tokens.map (·.position)) := by
  have hparts := g.parts_sublist vars
  have hends : (if (g.step vars).repeatsTarget then [] else [(g.step vars).fallback.position]) =
      g.ending.places := by
    rw [if_congr (g.repeatsTarget_iff vars h) rfl rfl]
    cases he : g.ending with
    | fallback target =>
      simp [StepEnd.tokens, target.tokens_ne_nil, step, he, StepEnd.target, StepEnd.places]
    | wildcard star question target => simp [StepEnd.tokens, StepEnd.places]
  rw [Step.places, hends]
  exact hparts

/-- A step that repeats a target is one whose last action, on `*`, serves as its fallback. -/
theorem exists_last_of_repeatsTarget (h : Ascends g.tokens)
    (hrepeats : (g.step vars).repeatsTarget = true) : ∃ a, (g.step vars).actions.getLast? = some a ∧
      a.condition.isWildcard = true ∧ (g.step vars).fallback = a.target := by
  have hending := (g.repeatsTarget_iff vars h).mp hrepeats
  cases he : g.ending with
  | fallback target =>
    rw [he] at hending
    exact absurd hending target.tokens_ne_nil
  | wildcard star question target => exact ⟨_, getLast?_of_wildcard vars he, rfl, rfl⟩

end StepPhrase

/-! ### Errors -/

theorem SchemePhrase.exists_of_mem_variableErrors {g : SchemePhrase} {x : Diagnostic}
    (h : x ∈ g.variableErrors) : ∃ v ∈ g.bindings, x.position = v.name.token.position := by
  obtain ⟨⟨v, taken⟩, hv, hx⟩ := List.mem_flatMap.mp h
  obtain ⟨f, hf, rfl⟩ := List.mem_map.mp (mem_of_mem_withTaken _ hv)
  cases taken with
  | false => simp at hx
  | true => exact ⟨f, hf, by rw [List.mem_singleton.mp hx]; rfl⟩

namespace PartialScheme

variable {r : PartialScheme} {x : Diagnostic}

/-- What is reported of whole variables and steps and of the names in them is reported at tokens
that have been passed. -/
theorem exists_token_of_mem_found (h : x ∈ r.whole.variableErrors ∨ x ∈ r.whole.stepErrors ∨
    x ∈ unknownNames r.whole.variableDecls r.names) : ∃ t ∈ r.tokens, t.position = x.position := by
  have hname : ∀ uses, uses ⊆ r.nameUses → x ∈ unknownNames r.whole.variableDecls uses →
      ∃ t ∈ r.tokens, t.position = x.position := by
    intro uses hsub hunknown
    obtain ⟨use, huse, -, rfl⟩ := mem_unknownNames_iff.mp hunknown
    obtain ⟨w, hw, rfl⟩ := r.mentions_tokens.exists_name (hsub huse)
    exact ⟨w.token, hw, rfl⟩
  rcases h with h | h | h
  · obtain ⟨v, hv, hposition⟩ := SchemePhrase.exists_of_mem_variableErrors h
    exact ⟨v.name.token, (r.infix_of_binding hv).subset (List.mem_cons_self ..), hposition.symm⟩
  · rcases SchemePhrase.cases_of_mem_stepErrors h with ⟨s, hs, hunknown⟩ | ⟨s, hs, rfl⟩
    · refine hname _ (fun use huse => List.mem_append_left _ ?_) hunknown
      exact List.mem_flatMap.mpr ⟨s, hs, huse⟩
    · exact ⟨s.id.opening.token, (r.infix_of_step hs).subset (List.mem_cons_self ..), rfl⟩
  · exact hname _ (fun use huse => List.mem_append_right _ huse) h

end PartialScheme

/-- Every error of a reading is at one of the tokens. -/
theorem exists_token_of_mem_errors {tokens : List Token} (hend : EndsInEnd tokens) {d : Draft}
    (hd : Draft.ofTokens tokens = .ok d) {x : Diagnostic} (hx : x ∈ d.errors) :
    ∃ t ∈ tokens, t.position = x.position := by
  obtain ⟨c, hstart, rfl, -⟩ := exists_start hend
  obtain ⟨t, u, b, hv, hs, -⟩ |
    ⟨r, t, u, atVariable, atStep, hv, hs, hp, hu, -, -, hbreak, hbreak'⟩ := Parse.lists_parts hend
  · have hbroken := ofTokens_eq_of_broken hstart (Parse.scheme_of_broken hv hs)
    cases hd.symm.trans hbroken
  obtain rfl := Except.ok.inj
    (hd.symm.trans (ofTokens_eq_of_scheme hstart (Parse.scheme_of_lists hv hs)))
  have hmiddle : t.cursor.current ∈ c.tokens := by
    obtain ⟨ts, p, -⟩ := Routine.variableList.isMadeOf.exists_passes ⟨c, .empty⟩
    rw [show Routine.variableList.run _ = _ from hv] at p
    exact p.subset (List.mem_cons_self ..)
  have hfinish : u.cursor.current ∈ c.tokens := hp.subset (List.mem_cons_self ..)
  have hfound : x ∈ r.whole.variableErrors ∨ x ∈ r.whole.stepErrors ∨
      x ∈ unknownNames r.whole.variableDecls r.names →
      ∃ t ∈ c.tokens, t.position = x.position := by
    intro h
    obtain ⟨t, ht, hposition⟩ := PartialScheme.exists_token_of_mem_found h
    exact ⟨t, hp.tokens_eq ▸ List.mem_append_left _ ht, hposition⟩
  rw [hu] at hx
  simp only [Draft.reporting, PartialScheme.draft, List.mem_append, Option.mem_toList,
    or_assoc] at hx
  rcases hx with hx | hx | hx | hx | hx | hx
  · exact hfound (.inl hx)
  · exact ⟨_, hmiddle, (hbreak x hx).position_eq.symm⟩
  · exact hfound (.inr (.inl hx))
  · exact hfound (.inr (.inr hx))
  · exact ⟨_, hfinish, (hbreak' x hx).position_eq.symm⟩
  · exact ⟨_, hfinish, (Parse.code_of_mem_leftOver hx).2.symm⟩

end StepMachine
