import StepMachine.Proofs.Scheme.Derivation

/-! # Derivations are unambiguous

A phrase can be cancelled from the front of a list of tokens without losing its boundary. For
targets, conditions and actions this holds whatever follows; a list of phrases must be followed by
something that begins no further one. Only a step looks further: whether its last action on `*`
serves as its fallback is decided by whether the rest is a list of steps.
-/
namespace StepMachine

variable {r s : List Token}

theorem StepIdPhrase.append_inj {g h : StepIdPhrase} (e : g.tokens ++ r = h.tokens ++ s) :
    g = h ∧ r = s := by
  obtain ⟨a, b, c⟩ := g
  obtain ⟨a', b', c'⟩ := h
  simpa [tokens, and_assoc] using e

theorem TokenNamePhrase.token_injective : Function.Injective TokenNamePhrase.token := by
  intro g h e
  cases g with
  | text t =>
    cases h with
    | text u => rw [Terminal.token_inj.mp e]
    | name u => exact absurd e (t.token_ne u (by decide))
  | name t =>
    cases h with
    | text u => exact absurd e (t.token_ne u (by decide))
    | name u => rw [Terminal.token_inj.mp e]

theorem TargetPhrase.append_inj {g h : TargetPhrase} (e : g.tokens ++ r = h.tokens ++ s) :
    g = h ∧ r = s := by
  cases g with
  | step i =>
    cases h with
    | step j =>
      obtain ⟨rfl, hrs⟩ := StepIdPhrase.append_inj e
      exact ⟨rfl, hrs⟩
    | token bang o n c =>
      cases bang with
      | none => exact absurd (List.cons.inj e).1 (i.opening.token_ne o (by decide))
      | some b => exact absurd (List.cons.inj e).1 (i.opening.token_ne b (by decide))
  | token bang o n c =>
    cases h with
    | step j =>
      cases bang with
      | none => exact absurd (List.cons.inj e).1 (o.token_ne j.opening (by decide))
      | some b => exact absurd (List.cons.inj e).1 (b.token_ne j.opening (by decide))
    | token bang' o' n' c' =>
      cases bang with
      | none =>
        cases bang' with
        | none =>
          simp only [tokens, List.cons_append, List.nil_append, List.cons.injEq,
            Terminal.token_inj, TokenNamePhrase.token_injective.eq_iff] at e
          obtain ⟨rfl, rfl, rfl, hrs⟩ := e
          exact ⟨rfl, hrs⟩
        | some b' => exact absurd (List.cons.inj e).1 (o.token_ne b' (by decide))
      | some b =>
        cases bang' with
        | none => exact absurd (List.cons.inj e).1 (b.token_ne o' (by decide))
        | some b' =>
          simp only [tokens, List.cons_append, List.nil_append, List.cons.injEq,
            Terminal.token_inj, TokenNamePhrase.token_injective.eq_iff] at e
          obtain ⟨rfl, rfl, rfl, rfl, hrs⟩ := e
          exact ⟨rfl, hrs⟩

theorem ConditionPhrase.token_injective : Function.Injective ConditionPhrase.token := by
  intro g h e
  cases g <;> cases h <;>
    first
    | exact congrArg _ (Terminal.token_inj.mp e)
    | exact absurd e (Terminal.token_ne _ _ (by decide))

theorem ActionPhrase.append_inj {g h : ActionPhrase} (e : g.tokens ++ r = h.tokens ++ s) :
    g = h ∧ r = s := by
  obtain ⟨c, q, t⟩ := g
  obtain ⟨c', q', t'⟩ := h
  simp only [tokens, List.cons_append, List.cons.injEq, Terminal.token_inj,
    ConditionPhrase.token_injective.eq_iff] at e
  obtain ⟨rfl, rfl, e⟩ := e
  obtain ⟨rfl, hrs⟩ := TargetPhrase.append_inj e
  exact ⟨rfl, hrs⟩

theorem VariablePhrase.append_inj {g h : VariablePhrase} (e : g.tokens ++ r = h.tokens ++ s) :
    g = h ∧ r = s := by
  obtain ⟨n, c, v⟩ := g
  obtain ⟨n', c', v'⟩ := h
  simp only [tokens, List.cons_append, List.nil_append, List.cons.injEq, Terminal.token_inj] at e
  obtain ⟨rfl, rfl, hv, hrs⟩ := e
  have hv : v = v' := by
    cases v <;> cases v' <;>
      first
      | exact congrArg _ (Terminal.token_inj.mp hv)
      | exact absurd hv (Terminal.token_ne _ _ (by decide))
  exact ⟨by rw [hv], hrs⟩

/-- A list of phrases can be cancelled if its phrases can and what follows begins none. -/
theorem flatMap_append_inj {γ : Type} {tokens : γ → List Token} {starts : List TokenKind}
    (hinj : ∀ {g h : γ} {r s : List Token}, tokens g ++ r = tokens h ++ s → g = h ∧ r = s)
    (hstart : ∀ g, ∃ t ts, tokens g = t :: ts ∧ t.kind ∈ starts)
    {gs hs : List γ} (hr : NotStartedBy starts r) (hs' : NotStartedBy starts s)
    (e : gs.flatMap tokens ++ r = hs.flatMap tokens ++ s) : gs = hs ∧ r = s := by
  induction gs generalizing hs with
  | nil =>
    cases hs with
    | nil => exact ⟨rfl, e⟩
    | cons h hs =>
      obtain ⟨t, ts, ht, hk⟩ := hstart h
      exact absurd hk (hr t (by simp [show r = _ from e, ht]))
  | cons g gs ih =>
    cases hs with
    | nil =>
      obtain ⟨t, ts, ht, hk⟩ := hstart g
      exact absurd hk (hs' t (by simp [← show _ = s from e, ht]))
    | cons h hs =>
      simp only [List.flatMap_cons, List.append_assoc] at e
      obtain ⟨hgh, hrest⟩ := hinj e
      obtain ⟨hgs, hrs⟩ := ih hrest
      exact ⟨by rw [hgh, hgs], hrs⟩

theorem ActionPhrase.starts (g : ActionPhrase) :
    ∃ t ts, g.tokens = t :: ts ∧ t.kind ∈ conditionStarts :=
  ⟨_, _, rfl, g.condition.kind_mem⟩

/-- What a fallback spells, with something of a list of steps after it, is no list of steps. -/
theorem TargetPhrase.append_ne_steps (g : TargetPhrase) (gs hs : List StepPhrase) :
    g.tokens ++ gs.flatMap StepPhrase.tokens ≠ hs.flatMap StepPhrase.tokens := by
  intro e
  rcases steps_tokens_cases hs with hn | ⟨id, colon, ts, hc⟩
  · exact g.tokens_ne_nil (List.append_eq_nil_iff.mp (e.trans hn)).1
  · rw [hc] at e
    cases g with
    | step j =>
      -- both open a parenthesis; the fourth token tells them apart
      have hrest := (StepIdPhrase.append_inj (g := j) e).2
      rcases steps_tokens_cases gs with hn | ⟨id', colon', ts', hc'⟩
      · simp [hn] at hrest
      · rw [hc'] at hrest
        exact id'.opening.token_ne colon (by decide) (List.cons.inj hrest).1
    | token bang o n c =>
      cases bang with
      | none => exact o.token_ne id.opening (by decide) (List.cons.inj e).1
      | some b => exact b.token_ne id.opening (by decide) (List.cons.inj e).1

/-- A step can be cancelled if a list of steps follows it. -/
theorem StepPhrase.append_inj {g h : StepPhrase} {gs hs : List StepPhrase}
    (e : g.tokens ++ gs.flatMap tokens = h.tokens ++ hs.flatMap tokens) :
    g = h ∧ gs.flatMap tokens = hs.flatMap tokens := by
  simp only [tokens, List.append_assoc, List.cons_append] at e
  obtain ⟨hid, e⟩ := StepIdPhrase.append_inj e
  obtain ⟨hcolon, e⟩ := List.cons.inj e
  -- no condition begins where the actions end, so both steps have the same actions
  obtain ⟨hactions, e⟩ := flatMap_append_inj ActionPhrase.append_inj ActionPhrase.starts
    (g.ending.not_condition gs) (h.ending.not_condition hs) e
  obtain ⟨id, colon, actions, ending⟩ := g
  obtain ⟨id', colon', actions', ending'⟩ := h
  obtain rfl : id = id' := hid
  obtain rfl : colon = colon' := Terminal.token_inj.mp hcolon
  cases ending with
  | fallback target =>
    cases ending' with
    | fallback target' =>
      obtain ⟨rfl, hrest⟩ := TargetPhrase.append_inj e
      obtain rfl : actions = actions' := by simpa [allActions, StepEnd.lastAction] using hactions
      exact ⟨rfl, hrest⟩
    | wildcard star question target' => exact absurd e (target.append_ne_steps gs hs)
  | wildcard star question target =>
    cases ending' with
    | fallback target' => exact absurd e.symm (target'.append_ne_steps hs gs)
    | wildcard star' question' target' =>
      have hlast := List.append_inj' hactions rfl
      simp only [StepEnd.lastAction, List.cons.injEq, ActionPhrase.mk.injEq,
        ConditionPhrase.wildcard.injEq, and_true] at hlast
      obtain ⟨rfl, rfl, rfl, rfl⟩ := hlast
      exact ⟨rfl, e⟩

theorem StepPhrase.flatMap_tokens_injective :
    Function.Injective fun gs : List StepPhrase => gs.flatMap tokens := by
  intro gs
  induction gs with
  | nil =>
    intro hs e
    cases hs with
    | nil => rfl
    | cons h hs => simp [tokens, StepIdPhrase.tokens] at e
  | cons g gs ih =>
    intro hs e
    cases hs with
    | nil => simp [tokens, StepIdPhrase.tokens] at e
    | cons h hs =>
      obtain ⟨rfl, hrest⟩ := append_inj (by simpa only [List.flatMap_cons] using e)
      rw [ih hrest]

theorem VariablePhrase.starts (g : VariablePhrase) :
    ∃ t ts, g.tokens = t :: ts ∧ t.kind ∈ [TokenKind.name] :=
  ⟨_, _, rfl, by simp⟩

/-- Two derivations that spell the same tokens are the same. -/
theorem SchemePhrase.tokens_injective : Function.Injective SchemePhrase.tokens := by
  have hsteps : ∀ gs : List StepPhrase, NotStartedBy [.name] (gs.flatMap StepPhrase.tokens) := by
    intro gs t ht
    rcases steps_tokens_cases gs with hn | ⟨id, colon, ts, hc⟩
    · simp [hn] at ht
    · rw [hc] at ht
      have ht : id.opening.token = t := by simpa [StepIdPhrase.tokens] using ht
      simp [← ht]
  intro g h e
  obtain ⟨bindings, steps⟩ := g
  obtain ⟨bindings', steps'⟩ := h
  obtain ⟨rfl, hrest⟩ := flatMap_append_inj VariablePhrase.append_inj VariablePhrase.starts
    (hsteps steps) (hsteps steps') e
  rw [StepPhrase.flatMap_tokens_injective hrest]

end StepMachine
