import Mathlib.Data.List.Basic
import StepMachine.Scheme.Compiled

/-! # Where a machine starts

The order of numbers and the order of texts make one relation on all values, in which a number and a
text are not comparable. The least of some values is found if all of them are numbers, and whatever
is found is up to each of them. The machine starts at the step that was declared under the least
number.
-/
namespace StepMachine

/-! ### The order of texts -/

namespace Text

variable {c d : Char} {bs cs ds : List Char}

theorem comesBefore_cons : comesBefore (c :: cs) (d :: ds) = true ↔
    c.toNat < d.toNat ∨ c = d ∧ comesBefore cs ds = true := by
  simp [comesBefore]

theorem not_comesBefore_cons : comesBefore (c :: cs) (d :: ds) = false ↔
    d.toNat ≤ c.toNat ∧ (c = d → comesBefore cs ds = false) := by
  simp [comesBefore]

theorem comesBefore_asymm (h : comesBefore cs ds = true) : comesBefore ds cs = false := by
  fun_induction comesBefore ds cs with
  | case1 => rfl
  | case2 => cases h
  | case3 d ds c cs ih =>
    refine not_comesBefore_cons.mpr ?_
    rcases comesBefore_cons.mp h with hlt | ⟨rfl, hrest⟩
    · refine ⟨Nat.le_of_lt hlt, ?_⟩
      rintro rfl
      omega
    · exact ⟨Nat.le_refl _, fun _ => ih hrest⟩

/-- What is not before a text that is not before another one is not before that one. -/
theorem not_comesBefore_trans (h : comesBefore cs bs = false) (h' : comesBefore ds cs = false) :
    comesBefore ds bs = false := by
  fun_induction comesBefore ds bs generalizing cs with
  | case1 => rfl
  | case2 b bs =>
    cases cs with
    | nil => cases h
    | cons c cs => cases h'
  | case3 d ds b bs ih =>
    cases cs with
    | nil => cases h
    | cons c cs =>
      obtain ⟨hbc, hrest⟩ := not_comesBefore_cons.mp h
      obtain ⟨hcd, hrest'⟩ := not_comesBefore_cons.mp h'
      refine not_comesBefore_cons.mpr ⟨Nat.le_trans hbc hcd, ?_⟩
      rintro rfl
      obtain rfl : c = d := Char.toNat_inj.mp (Nat.le_antisymm hcd hbc)
      exact ih (hrest rfl) (hrest' rfl)

theorem eq_of_not_comesBefore (h : comesBefore cs ds = false) (h' : comesBefore ds cs = false) :
    cs = ds := by
  fun_induction comesBefore cs ds with
  | case1 cs =>
    cases cs with
    | nil => rfl
    | cons c cs => cases h'
  | case2 => cases h
  | case3 c cs d ds ih =>
    obtain ⟨hdc, hrest⟩ := not_comesBefore_cons.mp h
    obtain ⟨hcd, hrest'⟩ := not_comesBefore_cons.mp h'
    obtain rfl : c = d := Char.toNat_inj.mp (Nat.le_antisymm hcd hdc)
    rw [ih (hrest rfl) (hrest' rfl)]

end Text

/-! ### The order of values -/

namespace Literal

variable {a b c : Literal} {m n : Int}

/-- Both values are numbers or both are texts, and the first one comes first or they are equal. -/
def IsUpTo (a b : Literal) : Prop := b.isBelow a = .ok false

def IsNumber (a : Literal) : Prop := ∃ n, a = .number n

@[simp] theorem number_isUpTo : (number m).IsUpTo (number n) ↔ m ≤ n := by
  simp [IsUpTo, isBelow]

@[simp] theorem text_isUpTo {s t : String} :
    (text s).IsUpTo (text t) ↔ Text.comesBefore t.toList s.toList = false := by
  simp [IsUpTo, isBelow]

theorem IsUpTo.cases (h : a.IsUpTo b) : (∃ m n, a = number m ∧ b = number n) ∨
    ∃ s t, a = text s ∧ b = text t := by
  cases a with
  | number m =>
    cases b with
    | number n => exact .inl ⟨m, n, rfl, rfl⟩
    | text t => cases h
    | pattern p => cases h
  | text s =>
    cases b with
    | number n => cases h
    | text t => exact .inr ⟨s, t, rfl, rfl⟩
    | pattern p => cases h
  | pattern p => cases b <;> cases h

theorem IsUpTo.trans (h : a.IsUpTo b) (h' : b.IsUpTo c) : a.IsUpTo c := by
  rcases h.cases with ⟨m, n, rfl, rfl⟩ | ⟨s, t, rfl, rfl⟩
  · rcases h'.cases with ⟨_, k, heq, rfl⟩ | ⟨_, _, heq, -⟩
    · cases heq
      rw [number_isUpTo] at h h' ⊢
      exact Int.le_trans h h'
    · cases heq
  · rcases h'.cases with ⟨_, _, heq, -⟩ | ⟨_, u, heq, rfl⟩
    · cases heq
    · cases heq
      rw [text_isUpTo] at h h' ⊢
      exact Text.not_comesBefore_trans h h'

theorem IsUpTo.antisymm (h : a.IsUpTo b) (h' : b.IsUpTo a) : a = b := by
  rcases h.cases with ⟨m, n, rfl, rfl⟩ | ⟨s, t, rfl, rfl⟩
  · rw [number_isUpTo] at h h'
    rw [Int.le_antisymm h h']
  · rw [text_isUpTo] at h h'
    rw [String.toList_injective (Text.eq_of_not_comesBefore h' h)]

theorem isUpTo_of_isBelow (h : a.isBelow b = .ok true) : a.IsUpTo b := by
  cases a with
  | number m =>
    cases b with
    | number n =>
      have hlt : m < n := by simpa [isBelow] using h
      exact number_isUpTo.mpr (Int.le_of_lt hlt)
    | text t => cases h
    | pattern p => cases h
  | text s =>
    cases b with
    | number n => cases h
    | text t =>
      have hlt : Text.comesBefore s.toList t.toList = true := by simpa [isBelow] using h
      exact text_isUpTo.mpr (Text.comesBefore_asymm hlt)
    | pattern p => cases h
  | pattern p => cases b <;> cases h

/-- The value is the least of the values, among which it is. -/
structure IsLeastOf (a : Literal) (values : List Literal) : Prop where
  mem : a ∈ values
  isUpTo : ∀ b ∈ values, b = a ∨ a.IsUpTo b

theorem IsLeastOf.unique {values : List Literal} (ha : a.IsLeastOf values)
    (hb : b.IsLeastOf values) : a = b := by
  rcases ha.isUpTo b hb.mem with heq | hab
  · exact heq.symm
  rcases hb.isUpTo a ha.mem with heq | hba
  · exact heq
  · exact hab.antisymm hba

theorem IsLeastOf.of_perm {values others : List Literal} (h : a.IsLeastOf values)
    (hp : values.Perm others) : a.IsLeastOf others :=
  ⟨hp.mem_iff.mp h.mem, fun b hb => h.isUpTo b (hp.mem_iff.mpr hb)⟩

end Literal

section

variable {least a : Literal} {rest : List Literal}

theorem leastFrom_isLeastOf (h : leastFrom least rest = .ok a) : a.IsLeastOf (least :: rest) := by
  -- the one that is left behind is below or equal to neither the least so far nor what is found
  induction rest generalizing least with
  | nil =>
    cases h
    exact ⟨List.mem_cons_self .., by simp⟩
  | cons b rest ih =>
    rw [leastFrom] at h
    split at h
    · cases h
    · next hbelow =>
      obtain ⟨hmem, hupTo⟩ := ih h
      have hleft : a.IsUpTo least := by
        have hb := Literal.isUpTo_of_isBelow hbelow
        rcases hupTo b (List.mem_cons_self ..) with rfl | hab
        · exact hb
        · exact hab.trans hb
      refine ⟨List.mem_cons_of_mem _ hmem, List.forall_mem_cons.mpr ⟨.inr hleft, hupTo⟩⟩
    · next hbelow =>
      obtain ⟨hmem, hupTo⟩ := ih h
      obtain ⟨hleast, hrest⟩ := List.forall_mem_cons.mp hupTo
      have hleft : a.IsUpTo b := by
        rcases hleast with rfl | hal
        · exact hbelow
        · exact hal.trans hbelow
      refine ⟨?_, List.forall_mem_cons.mpr ⟨hleast, List.forall_mem_cons.mpr ⟨.inr hleft, hrest⟩⟩⟩
      exact List.mem_cons.mpr ((List.mem_cons.mp hmem).imp id (List.mem_cons_of_mem _))

theorem exists_leastFrom (h : ∀ b ∈ least :: rest, b.IsNumber) :
    ∃ a, leastFrom least rest = .ok a := by
  induction rest generalizing least with
  | nil => exact ⟨least, rfl⟩
  | cons b rest ih =>
    obtain ⟨hleast, hb, hrest⟩ : least.IsNumber ∧ b.IsNumber ∧ ∀ d ∈ rest, d.IsNumber := by
      simpa using h
    obtain ⟨m, rfl⟩ := hleast
    obtain ⟨n, rfl⟩ := hb
    rw [leastFrom, Literal.isBelow]
    cases decide (n < m) with
    | true => exact ih (List.forall_mem_cons.mpr ⟨⟨n, rfl⟩, hrest⟩)
    | false => exact ih (List.forall_mem_cons.mpr ⟨⟨m, rfl⟩, hrest⟩)

end

namespace CompiledScheme

variable {c : CompiledScheme} {id : Literal} {s : Step}

theorem mem_of_stepNumbered (h : c.stepNumbered id = some s) : s ∈ c.stepDecls ∧ s.id = id :=
  ⟨List.mem_of_find?_eq_some h, by simpa using List.find?_some h⟩

/-- There is no least of no values, and the least of any others is that of a step. -/
theorem entryStep_cases (c : CompiledScheme) : (c.stepDecls = [] ∧ c.entryStep = .ok none) ∨
    (∃ s, c.entryStep = .ok (some s) ∧ c.stepNumbered s.id = some s ∧
      s.id.IsLeastOf (c.stepDecls.map (·.id))) ∨
    (¬ (∀ s ∈ c.stepDecls, s.id.IsNumber) ∧ ∃ unordered, c.entryStep = .error unordered) := by
  unfold entryStep
  cases hids : c.stepDecls.map (·.id) with
  | nil => exact .inl ⟨List.map_eq_nil_iff.mp hids, rfl⟩
  | cons id rest =>
    right
    dsimp only
    cases hleast : leastFrom id rest with
    | ok a =>
      left
      have ha := leastFrom_isLeastOf hleast
      rw [← hids] at ha
      obtain ⟨s, hs, rfl⟩ := List.mem_map.mp ha.mem
      have hsome : (c.stepNumbered s.id).isSome = true := List.find?_isSome.mpr ⟨s, hs, by simp⟩
      obtain ⟨entry, hentry⟩ := Option.isSome_iff_exists.mp hsome
      have hid := (mem_of_stepNumbered hentry).2
      exact ⟨entry, by simp [Except.map, hentry], by rw [hid, hentry], by rwa [hid, ← hids]⟩
    | error unordered =>
      right
      refine ⟨?_, unordered, rfl⟩
      intro hnumbers
      have hall : ∀ b ∈ id :: rest, b.IsNumber := by
        rw [← hids]
        simpa using hnumbers
      obtain ⟨a, ha⟩ := exists_leastFrom hall
      rw [ha] at hleast
      cases hleast

/-- A machine whose steps have numbers starts at the least of them. -/
theorem exists_entryStep (h : ∀ s ∈ c.stepDecls, s.id.IsNumber) :
    (c.stepDecls = [] ∧ c.entryStep = .ok none) ∨
    ∃ s, c.entryStep = .ok (some s) ∧ c.stepNumbered s.id = some s ∧
      s.id.IsLeastOf (c.stepDecls.map (·.id)) := by
  rcases c.entryStep_cases with hnone | hsome | ⟨hnumbers, -⟩
  · exact .inl hnone
  · exact .inr hsome
  · exact absurd h hnumbers

theorem exists_entryStep_eq (h : ∀ s ∈ c.stepDecls, s.id.IsNumber) :
    ∃ entry, c.entryStep = .ok entry := by
  obtain ⟨-, hnone⟩ | ⟨s, hs, -⟩ := exists_entryStep h
  · exact ⟨none, hnone⟩
  · exact ⟨some s, hs⟩

/-- Machines with the same steps start at the same one, in whatever order these were declared. -/
theorem entryStep_congr {c' : CompiledScheme} (hperm : c'.stepDecls.Perm c.stepDecls)
    (hsame : ∀ id, c'.stepNumbered id = c.stepNumbered id)
    (hnumbers : ∀ s ∈ c.stepDecls, s.id.IsNumber) :
    ∃ entry, c'.entryStep = .ok entry ∧ c.entryStep = .ok entry := by
  have hnumbers' : ∀ s ∈ c'.stepDecls, s.id.IsNumber := fun s hs =>
    hnumbers s (hperm.mem_iff.mp hs)
  rcases exists_entryStep hnumbers with ⟨hnil, hnone⟩ | ⟨s, hs, hfound, hleast⟩
  · rcases exists_entryStep hnumbers' with ⟨-, hnone'⟩ | ⟨s', -, -, hleast'⟩
    · exact ⟨none, hnone', hnone⟩
    · have hmem := (hleast'.of_perm (hperm.map _)).mem
      simp [hnil] at hmem
  · rcases exists_entryStep hnumbers' with ⟨hnil', -⟩ | ⟨s', hs', hfound', hleast'⟩
    · have hmem := (hleast.of_perm (hperm.symm.map _)).mem
      simp [hnil'] at hmem
    · have hid : s'.id = s.id := (hleast'.of_perm (hperm.map _)).unique hleast
      rw [hid, hsame, hfound] at hfound'
      obtain rfl : s = s' := Option.some.inj hfound'
      exact ⟨some s, hs', hs⟩

end CompiledScheme

end StepMachine
