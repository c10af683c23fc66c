import Mathlib.Data.List.Induction
import Mathlib.Data.List.Nodup
import StepMachine.Scheme.Draft

/-! # Tables that keep the first record

A table to which records are added one after another keeps the first record under each key, in
the order in which the keys came up. Which records found their key taken is a matter of the
records before them alone.
-/
namespace StepMachine

variable {α κ : Type} [BEq κ]

/-- The table after all the records have been added in order. -/
def addAll (key : α → κ) (l table : List α) : List α :=
  l.foldl (fun t a => addNew key a t) table

/-- The first record under each key, in order. -/
def firstOnly (key : α → κ) (l : List α) : List α :=
  l.eraseDupsBy fun a b => key a == key b

/-- Each record, and whether one before it has its key. -/
def withTaken (key : α → κ) (l : List α) : List (α × Bool) :=
  l.mapIdx fun i a => (a, (l.take i).any (key · == key a))

variable (key : α → κ)

@[simp] theorem addAll_nil_left (table : List α) : addAll key [] table = table := rfl

theorem addAll_append (l m table : List α) :
    addAll key (l ++ m) table = addAll key m (addAll key l table) := List.foldl_append

theorem addNew_eq (a : α) (table : List α) :
    addNew key a table = addAll key [a] table := rfl

@[simp] theorem firstOnly_nil : firstOnly key ([] : List α) = [] := rfl

theorem firstOnly_cons (a : α) (l : List α) :
    firstOnly key (a :: l) = a :: firstOnly key (l.filter fun b => !(key b == key a)) := by
  simp [firstOnly, List.eraseDupsBy_cons]

theorem any_addNew (a : α) (table : List α) [LawfulBEq κ] (k : κ) :
    (addNew key a table).any (key · == k) = (table.any (key · == k) || key a == k) := by
  unfold addNew
  split
  · next h =>
    by_cases hk : key a = k
    · subst hk
      simp [h]
    · simp [hk]
  · simp

/-- A record whose key the table has is not added. -/
theorem addNew_of_any {a : α} {table : List α} (h : table.any (key · == key a) = true) :
    addNew key a table = table := by rw [addNew, if_pos h]

/-- Adding keeps the table and appends the first new record under each new key. -/
theorem addAll_eq [LawfulBEq κ] (l table : List α) : addAll key l table =
    table ++ firstOnly key (l.filter fun a => !table.any (key · == key a)) := by
  induction l generalizing table with
  | nil => simp
  | cons a l ih =>
    have hstep : addAll key (a :: l) table = addAll key l (addNew key a table) := rfl
    rw [hstep, ih]
    by_cases ha : table.any (key · == key a) = true
    · rw [addNew_of_any key ha, List.filter_cons_of_neg (by simp [ha])]
    · have hadd : addNew key a table = table ++ [a] := by rw [addNew, if_neg ha]
      have hfilter : (fun b => !(table ++ [a]).any (key · == key b)) =
          fun b => !(key b == key a) && !table.any (key · == key b) := by
        funext b
        rw [List.any_append, Bool.not_or, Bool.and_comm, BEq.comm (a := key b)]
        simp
      rw [hadd, hfilter, List.filter_cons_of_pos (by simpa using ha), firstOnly_cons,
        List.filter_filter, List.append_assoc, List.singleton_append]

theorem addAll_nil [LawfulBEq κ] (l : List α) : addAll key l [] = firstOnly key l := by
  rw [addAll_eq, List.nil_append, List.filter_eq_self.mpr (by simp)]

theorem any_addAll [LawfulBEq κ] (l table : List α) (k : κ) :
    (addAll key l table).any (key · == k) =
      (table.any (key · == k) || l.any (key · == k)) := by
  induction l generalizing table with
  | nil => simp
  | cons a l ih =>
    have hstep : addAll key (a :: l) table = addAll key l (addNew key a table) := rfl
    rw [hstep, ih, any_addNew, List.any_cons, Bool.or_assoc]

/-- Records that were there before are not added again. -/
theorem addAll_append_of_subset [LawfulBEq κ] {l again : List α} (h : again ⊆ l)
    (table : List α) : addAll key (l ++ again) table = addAll key l table := by
  have hknown : again.filter (fun a => !(addAll key l table).any (key · == key a)) = [] := by
    rw [List.filter_eq_nil_iff]
    intro a ha
    have hany : l.any (key · == key a) = true := List.any_eq_true.mpr ⟨a, h ha, beq_self_eq_true _⟩
    rw [any_addAll, hany]
    simp
  rw [addAll_append, addAll_eq, hknown, firstOnly_nil, List.append_nil]

/-- One more record is added to the first records of all before it. -/
theorem firstOnly_concat [LawfulBEq κ] (l : List α) (a : α) :
    firstOnly key (l ++ [a]) = addNew key a (firstOnly key l) := by
  rw [← addAll_nil, addAll_append, addAll_nil, ← addNew_eq]

theorem firstOnly_sublist [LawfulBEq κ] (l : List α) : (firstOnly key l).Sublist l := by
  induction l using List.reverseRecOn with
  | nil => exact .refl _
  | append_singleton l b ih =>
    rw [firstOnly_concat, addNew]
    split
    · exact ih.trans (List.sublist_append_left _ _)
    · exact ih.append_right _

theorem mem_of_mem_firstOnly [LawfulBEq κ] {l : List α} {a : α} (h : a ∈ firstOnly key l) :
    a ∈ l := (firstOnly_sublist key l).subset h

/-- A table of first records has all the keys of the records. -/
theorem any_firstOnly [LawfulBEq κ] (l : List α) (k : κ) :
    (firstOnly key l).any (key · == k) = l.any (key · == k) := by
  induction l using List.reverseRecOn with
  | nil => rfl
  | append_singleton l a ih =>
    rw [firstOnly_concat, any_addNew, ih]
    simp

/-- A record of the table is the first one under its key. -/
theorem find?_of_mem_firstOnly [LawfulBEq κ] {l : List α} {a : α} (h : a ∈ firstOnly key l) :
    l.find? (key · == key a) = some a := by
  induction l using List.reverseRecOn with
  | nil => cases h
  | append_singleton l b ih =>
    rw [firstOnly_concat, addNew] at h
    rw [List.find?_append]
    split at h
    · rw [ih h, Option.some_or]
    · next hnew =>
      rcases List.mem_append.mp h with h | h
      · rw [ih h, Option.some_or]
      · obtain rfl := List.mem_singleton.mp h
        have hnone : l.find? (key · == key a) = none := by
          rw [List.find?_eq_none]
          intro c hc hkey
          apply hnew
          rw [any_firstOnly, List.any_eq_true]
          exact ⟨c, hc, hkey⟩
        simp [hnone]

/-- What is found in a table under a key is the first record under it. -/
theorem find?_firstOnly [LawfulBEq κ] (l : List α) (k : κ) :
    (firstOnly key l).find? (key · == k) = l.find? (key · == k) := by
  cases hfind : (firstOnly key l).find? (key · == k) with
  | none =>
    have hnone : (firstOnly key l).any (key · == k) = false := by
      simpa using List.find?_eq_none.mp hfind
    rw [any_firstOnly, List.any_eq_false] at hnone
    exact (List.find?_eq_none.mpr hnone).symm
  | some a =>
    obtain rfl : key a = k := by simpa using List.find?_some hfind
    exact (find?_of_mem_firstOnly key (List.mem_of_find?_eq_some hfind)).symm

theorem exists_key_mem_firstOnly [LawfulBEq κ] {l : List α} {a : α} (h : a ∈ l) :
    ∃ b ∈ firstOnly key l, key b = key a := by
  have hany : (firstOnly key l).any (key · == key a) = true := by
    rw [any_firstOnly, List.any_eq_true]
    exact ⟨a, h, beq_self_eq_true _⟩
  obtain ⟨b, hb, hkey⟩ := List.any_eq_true.mp hany
  exact ⟨b, hb, beq_iff_eq.mp hkey⟩

/-- In a list that ascends, the first record under a key is no later than any other under it. -/
theorem exists_mem_firstOnly [LawfulBEq κ] {R : α → α → Prop} {l : List α} (hl : l.Pairwise R)
    {a : α} (ha : a ∈ l) :
    ∃ b ∈ firstOnly key l, key b = key a ∧ (b = a ∨ R b a) := by
  induction l using List.reverseRecOn with
  | nil => cases ha
  | append_singleton l c ih =>
    obtain ⟨hl, -, hlc⟩ := List.pairwise_append.mp hl
    rw [firstOnly_concat, addNew]
    rcases List.mem_append.mp ha with ha | ha
    · obtain ⟨b, hb, hkey, hR⟩ := ih hl ha
      refine ⟨b, ?_, hkey, hR⟩
      split
      · exact hb
      · exact List.mem_append_left _ hb
    · obtain rfl := List.mem_singleton.mp ha
      split
      · next htaken =>
        obtain ⟨b, hb, hkey⟩ := List.any_eq_true.mp htaken
        have hbefore := hlc b (mem_of_mem_firstOnly key hb) a (List.mem_singleton_self a)
        exact ⟨b, hb, beq_iff_eq.mp hkey, .inr hbefore⟩
      · exact ⟨a, List.mem_append_right _ (List.mem_singleton_self a), rfl, .inl rfl⟩

theorem mem_of_mem_withTaken {l : List α} {a : α} {taken : Bool}
    (h : (a, taken) ∈ withTaken key l) : a ∈ l := by
  obtain ⟨i, hi, heq⟩ := List.mem_mapIdx.mp h
  exact (Prod.mk.inj heq).1 ▸ List.getElem_mem hi

theorem exists_mem_withTaken {l : List α} {a : α} (h : a ∈ l) :
    ∃ taken, (a, taken) ∈ withTaken key l := by
  obtain ⟨i, hi, rfl⟩ := List.mem_iff_getElem.mp h
  exact ⟨_, List.mem_mapIdx.mpr ⟨i, hi, rfl⟩⟩

/-- The last record is judged by all the others, and they do not look at it. -/
theorem withTaken_concat (l : List α) (a : α) :
    withTaken key (l ++ [a]) = withTaken key l ++ [(a, l.any (key · == key a))] := by
  unfold withTaken
  rw [List.mapIdx_concat]
  congr 1
  · apply List.mapIdx_eq_mapIdx_iff.mpr
    intro i hi
    rw [List.take_append_of_le_length (Nat.le_of_lt hi)]
  · rw [List.take_left]

/-- A table has a record under a key exactly if the key is one of its keys. -/
theorem any_key_iff [LawfulBEq κ] {l : List α} {k : κ} :
    l.any (key · == k) = true ↔ k ∈ l.map key := by
  simp [List.any_eq_true]

theorem nodup_keys_concat [LawfulBEq κ] (l : List α) (a : α) : ((l ++ [a]).map key).Nodup ↔
    l.any (key · == key a) = false ∧ (l.map key).Nodup := by
  rw [List.map_append, List.map_singleton, ← List.concat_eq_append, List.nodup_concat,
    ← any_key_iff, Bool.not_eq_true]

/-- All keys are different exactly if none of them was taken. -/
theorem nodup_keys_iff [LawfulBEq κ] {l : List α} :
    (l.map key).Nodup ↔ ∀ p ∈ withTaken key l, p.2 = false := by
  induction l using List.reverseRecOn with
  | nil => simp [withTaken]
  | append_singleton l a ih =>
    rw [nodup_keys_concat, withTaken_concat, ih]
    constructor
    · rintro ⟨ha, hl⟩ p hp
      rcases List.mem_append.mp hp with hp | hp
      · exact hl p hp
      · rw [List.mem_singleton.mp hp]
        exact ha
    · intro h
      have ha := h _ (List.mem_append_right _ (List.mem_singleton_self _))
      exact ⟨ha, fun p hp => h p (List.mem_append_left _ hp)⟩

/-- A table of records whose keys are all different has all of them. -/
theorem firstOnly_eq_self [LawfulBEq κ] {l : List α} (h : (l.map key).Nodup) :
    firstOnly key l = l := by
  induction l using List.reverseRecOn with
  | nil => rfl
  | append_singleton l a ih =>
    obtain ⟨hfree, hl⟩ := (nodup_keys_concat key l a).mp h
    rw [firstOnly_concat, ih hl, addNew, hfree]
    simp

/-- The keys of a table of first records are all different. -/
theorem nodup_firstOnly [LawfulBEq κ] (l : List α) : ((firstOnly key l).map key).Nodup := by
  induction l using List.reverseRecOn with
  | nil => exact List.nodup_nil
  | append_singleton l a ih =>
    rw [firstOnly_concat, addNew]
    split
    · exact ih
    · next hfree => exact (nodup_keys_concat key _ a).mpr ⟨by simpa using hfree, ih⟩

/-! ### Tables in another order -/

section

variable {key} {l l' : List α} [LawfulBEq κ]

/-- Where all keys are different, a record is found under its own key and no other. -/
theorem find?_eq_some_iff_of_nodup (h : (l.map key).Nodup) {k : κ} {a : α} :
    l.find? (key · == k) = some a ↔ a ∈ l ∧ key a = k := by
  constructor
  · intro hfind
    exact ⟨List.mem_of_find?_eq_some hfind, by simpa using List.find?_some hfind⟩
  · rintro ⟨ha, rfl⟩
    rw [← firstOnly_eq_self key h] at ha
    exact find?_of_mem_firstOnly key ha

/-- Where all keys are different, what is found does not depend on the order. -/
theorem find?_eq_of_perm (hp : l'.Perm l) (h : (l.map key).Nodup) (k : κ) :
    l'.find? (key · == k) = l.find? (key · == k) := by
  have h' : (l'.map key).Nodup := (hp.map key).nodup_iff.mpr h
  apply Option.ext
  intro a
  rw [find?_eq_some_iff_of_nodup h', find?_eq_some_iff_of_nodup h, hp.mem_iff]

/-- The first records of a list in another order have the same keys. -/
theorem firstOnly_keys_perm (hp : l'.Perm l) :
    ((firstOnly key l').map key).Perm ((firstOnly key l).map key) := by
  rw [List.perm_ext_iff_of_nodup (nodup_firstOnly key l') (nodup_firstOnly key l)]
  have hkeys : ∀ (m : List α) (k : κ), k ∈ (firstOnly key m).map key ↔ k ∈ m.map key := by
    intro m k
    rw [← any_key_iff, ← any_key_iff, any_firstOnly]
  intro k
  rw [hkeys, hkeys, (hp.map key).mem_iff]

end

/-! ### Tables of images -/

section

variable {β κ' : Type} [BEq κ'] {key} {key' : β → κ'} {f : α → β}
variable (hkey : ∀ a b, (key' (f a) == key' (f b)) = (key a == key b))
include hkey

theorem any_map (a : α) (table : List α) :
    (table.map f).any (key' · == key' (f a)) = table.any (key · == key a) := by
  simp [List.any_map, Function.comp_def, hkey]

theorem addNew_map (a : α) (table : List α) :
    addNew key' (f a) (table.map f) = (addNew key a table).map f := by
  rw [addNew, addNew, any_map hkey]
  split <;> simp

end

end StepMachine
