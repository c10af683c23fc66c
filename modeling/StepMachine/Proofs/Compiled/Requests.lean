import StepMachine.Proofs.Compiled.Entry
import StepMachine.Proofs.Scheme.Findings
import StepMachine.Proofs.Scheme.Routines
import StepMachine.Proofs.Scheme.Tables

/-! # What drafts are asked for

A draft comes about by requests: to declare, to note a use, to report, to check references. In
whatever order they come, each table has the first record that was passed under each key, a request
under a key that the table has changes nothing, and reports are added at the end. A check that comes
upon a number too long to be written ends there, and what it has reported stays.
-/
namespace StepMachine

namespace Draft

inductive Request where
  | declareVariable (v : Variable)
  | declareStep (s : Step)
  | useVariable (name : String) (position : Position)
  | useStep (id : Literal) (position : Position)
  | error (report : Diagnostic)
  | warn (report : Diagnostic)
  | checkReferences (o : CheckOptions)

namespace Request

/-- The variables that the request passes to their table. -/
def variableDecls : Request → List Variable
  | declareVariable v => [v]
  | _ => []

def stepDecls : Request → List Step
  | declareStep s => [s]
  | _ => []

def variableRefs : Request → List (Reference String)
  | useVariable name p => [⟨name, p⟩]
  | _ => []

def stepRefs : Request → List (Reference Literal)
  | useStep id p => [⟨id, p⟩]
  | _ => []

def errors : Request → List Diagnostic
  | error x => [x]
  | _ => []

/-- The warnings that the request adds. A check of references adds what it finds in the draft, up to
the first finding that cannot be worded. -/
def warnings (d : Draft) : Request → List Diagnostic
  | warn x => [x]
  | checkReferences o => d.issued o
  | _ => []

/-- The tables besides the errors that the request is about. -/
def tables : Request → List Table
  | declareVariable _ => [.variableDecls]
  | declareStep _ => [.stepDecls]
  | useVariable .. => [.variableRefs]
  | useStep .. => [.stepRefs]
  | error _ => []
  | warn _ | checkReferences _ => [.warnings]

/-- An earlier request passed a record under the same key. -/
def Repeats (earlier : List Request) : Request → Prop
  | declareVariable v => ∃ v', declareVariable v' ∈ earlier ∧ v'.name = v.name
  | declareStep s => ∃ s', declareStep s' ∈ earlier ∧ s'.id = s.id
  | useVariable name _ => ∃ p, useVariable name p ∈ earlier
  | useStep id _ => ∃ p, useStep id p ∈ earlier
  | error _ | warn _ | checkReferences _ => False

end Request

/-- The draft after one more request, which may be a check that does not get through. -/
def apply (d : Draft) : Request → Draft
  | .declareVariable v => (d.declareVariable v).2
  | .declareStep s => (d.declareStep s).2
  | .useVariable name p => d.useVariable name p
  | .useStep id p => d.useStep id p
  | .error x => d.error x
  | .warn x => d.warn x
  | .checkReferences o => (d.checkReferences o).2

/-- The draft that the requests make of the empty one. -/
def after (requests : List Request) : Draft := requests.foldl apply empty

theorem after_concat (requests : List Request) (q : Request) :
    after (requests ++ [q]) = (after requests).apply q := List.foldl_concat ..

theorem after_append (requests more : List Request) :
    after (requests ++ more) = more.foldl apply (after requests) := List.foldl_append

/-! ### Reports -/

theorem apply_checkReferences (d : Draft) (o : CheckOptions) :
    d.apply (.checkReferences o) = d.warned (d.issued o) := (d.checkReferences_spec o).1

/-- What a request passes to a table is added to it. -/
theorem tables_apply (d : Draft) (q : Request) :
    (d.apply q).variableDecls = addAll Variable.name q.variableDecls d.variableDecls ∧
    (d.apply q).stepDecls = addAll Step.id q.stepDecls d.stepDecls ∧
    (d.apply q).variableRefs = addAll Reference.id q.variableRefs d.variableRefs ∧
    (d.apply q).stepRefs = addAll Reference.id q.stepRefs d.stepRefs := by
  cases q with
  | checkReferences o =>
    rw [apply_checkReferences]
    exact ⟨rfl, rfl, rfl, rfl⟩
  | _ => exact ⟨rfl, rfl, rfl, rfl⟩

theorem errors_apply (d : Draft) (q : Request) : (d.apply q).errors = d.errors ++ q.errors := by
  cases q with
  | error x => rfl
  | checkReferences o =>
    rw [apply_checkReferences]
    exact (List.append_nil _).symm
  | _ => exact (List.append_nil _).symm

theorem warnings_apply (d : Draft) (q : Request) :
    (d.apply q).warnings = d.warnings ++ q.warnings d := by
  cases q with
  | warn x => rfl
  | checkReferences o =>
    rw [apply_checkReferences]
    rfl
  | _ => exact (List.append_nil _).symm

theorem differsIn_warned (d : Draft) (xs : List Diagnostic) :
    d.DiffersIn [.warnings] (d.warned xs) := by
  intro table hne
  cases table with
  | warnings => exact absurd (List.mem_singleton_self _) hne
  | _ => rfl

theorem differsIn_apply (d : Draft) (q : Request) : d.DiffersIn q.tables (d.apply q) := by
  cases q with
  | declareVariable v => exact differsIn_declareVariable (List.mem_singleton_self _) v
  | declareStep s => exact differsIn_declareStep (List.mem_singleton_self _) s
  | useVariable name p => exact differsIn_useVariable (List.mem_singleton_self _) name p
  | useStep id p => exact differsIn_useStep (List.mem_singleton_self _) id p
  | error x => exact differsIn_error x
  | warn x => exact differsIn_warned d [x]
  | checkReferences o =>
    rw [apply_checkReferences]
    exact differsIn_warned d _

theorem errors_after (requests : List Request) :
    (after requests).errors = requests.flatMap Request.errors := by
  induction requests using List.reverseRecOn with
  | nil => rfl
  | append_singleton requests q ih =>
    rw [after_concat, errors_apply, ih, List.flatMap_append, List.flatMap_singleton]

/-- No request takes a report back. -/
theorem reports_prefix (d : Draft) (more : List Request) :
    d.errors <+: (more.foldl apply d).errors ∧ d.warnings <+: (more.foldl apply d).warnings := by
  induction more generalizing d with
  | nil => exact ⟨List.prefix_refl _, List.prefix_refl _⟩
  | cons q more ih =>
    obtain ⟨herrors, hwarnings⟩ := ih (d.apply q)
    rw [errors_apply] at herrors
    rw [warnings_apply] at hwarnings
    exact ⟨(List.prefix_append _ _).trans herrors, (List.prefix_append _ _).trans hwarnings⟩

end Draft

/-! ### Tables -/

/-- The table has the first of the records under each key, in their order, and each of them is found
under its own key alone. -/
structure IsFirstTable {α κ : Type} [BEq κ] (key : α → κ) (records table : List α) : Prop where
  eq_firstOnly : table = firstOnly key records
  nodup_keys : (table.map key).Nodup
  find?_eq : ∀ k, table.find? (key · == k) = records.find? (key · == k)
  find?_eq_some_iff : ∀ k a, table.find? (key · == k) = some a ↔ a ∈ table ∧ key a = k

section

variable {α κ : Type} [BEq κ] [LawfulBEq κ] {key : α → κ} {records table : List α}

theorem isFirstTable_firstOnly (key : α → κ) (records : List α) :
    IsFirstTable key records (firstOnly key records) where
  eq_firstOnly := rfl
  nodup_keys := nodup_firstOnly key records
  find?_eq := find?_firstOnly key records
  find?_eq_some_iff _ _ := find?_eq_some_iff_of_nodup (nodup_firstOnly key records)

theorem IsFirstTable.any_eq (h : IsFirstTable key records table) (k : κ) :
    table.any (key · == k) = records.any (key · == k) := by
  rw [h.eq_firstOnly, any_firstOnly]

theorem IsFirstTable.addNew_eq (h : IsFirstTable key records table) {a b : α} (hb : b ∈ records)
    (hkey : key b = key a) : addNew key a table = table := by
  apply addNew_of_any
  rw [h.any_eq, List.any_eq_true]
  exact ⟨b, hb, by simp [hkey]⟩

/-- If each request adds to a table what it passes to it, then the table has the first records of
all that was passed. -/
theorem isFirstTable_after {passed : Draft.Request → List α} {table : Draft → List α}
    (hempty : table .empty = [])
    (hstep : ∀ d q, table (Draft.apply d q) = addAll key (passed q) (table d))
    (requests : List Draft.Request) :
    IsFirstTable key (requests.flatMap passed) (table (Draft.after requests)) := by
  have heq : table (Draft.after requests) = firstOnly key (requests.flatMap passed) := by
    induction requests using List.reverseRecOn with
    | nil => exact hempty
    | append_singleton requests q ih =>
      rw [Draft.after_concat, hstep, ih, List.flatMap_append, List.flatMap_singleton,
        ← addAll_nil, ← addAll_nil, addAll_append]
  rw [heq]
  exact isFirstTable_firstOnly key _

end

namespace Draft

variable (requests : List Request)

theorem variableDecls_after : IsFirstTable Variable.name (requests.flatMap Request.variableDecls)
    (after requests).variableDecls :=
  isFirstTable_after rfl (fun d q => (tables_apply d q).1) requests

theorem stepDecls_after : IsFirstTable Step.id (requests.flatMap Request.stepDecls)
    (after requests).stepDecls :=
  isFirstTable_after rfl (fun d q => (tables_apply d q).2.1) requests

theorem variableRefs_after : IsFirstTable Reference.id (requests.flatMap Request.variableRefs)
    (after requests).variableRefs :=
  isFirstTable_after rfl (fun d q => (tables_apply d q).2.2.1) requests

theorem stepRefs_after : IsFirstTable Reference.id (requests.flatMap Request.stepRefs)
    (after requests).stepRefs :=
  isFirstTable_after rfl (fun d q => (tables_apply d q).2.2.2) requests

variable {requests}

/-- A record has been passed to a table if the request that passes it was made. -/
theorem mem_passed {α : Type} {passed : Request → List α} (make : α → Request)
    (h : ∀ q a, a ∈ passed q ↔ q = make a) {a : α} :
    a ∈ requests.flatMap passed ↔ make a ∈ requests := by
  rw [List.mem_flatMap]
  constructor
  · rintro ⟨q, hq, ha⟩
    exact (h q a).mp ha ▸ hq
  · intro ha
    exact ⟨make a, ha, (h _ a).mpr rfl⟩

theorem mem_variableDecls {v : Variable} :
    v ∈ requests.flatMap Request.variableDecls ↔ .declareVariable v ∈ requests := by
  refine mem_passed .declareVariable fun q v => ?_
  cases q <;> simp [Request.variableDecls, eq_comm]

theorem mem_stepDecls {s : Step} :
    s ∈ requests.flatMap Request.stepDecls ↔ .declareStep s ∈ requests := by
  refine mem_passed .declareStep fun q s => ?_
  cases q <;> simp [Request.stepDecls, eq_comm]

theorem mem_variableRefs {r : Reference String} :
    r ∈ requests.flatMap Request.variableRefs ↔ .useVariable r.id r.position ∈ requests := by
  refine mem_passed (fun r : Reference String => .useVariable r.id r.position) fun q r => ?_
  cases r
  cases q <;> simp [Request.variableRefs, eq_comm]

theorem mem_stepRefs {r : Reference Literal} :
    r ∈ requests.flatMap Request.stepRefs ↔ .useStep r.id r.position ∈ requests := by
  refine mem_passed (fun r : Reference Literal => .useStep r.id r.position) fun q r => ?_
  cases r
  cases q <;> simp [Request.stepRefs, eq_comm]

/-- The answer to a declaration of a variable is whether its name is new. -/
theorem declareVariable_iff (v : Variable) : ((after requests).declareVariable v).1 = true ↔
    ¬ (Request.declareVariable v).Repeats requests := by
  have hany : (after requests).variableDecls.any (·.name == v.name) = true ↔
      (Request.declareVariable v).Repeats requests := by
    rw [(variableDecls_after requests).any_eq, List.any_eq_true]
    simp only [mem_variableDecls, beq_iff_eq, Request.Repeats]
  rw [← hany]
  simp [declareVariable]

theorem declareStep_iff (s : Step) : ((after requests).declareStep s).1 = true ↔
    ¬ (Request.declareStep s).Repeats requests := by
  have hany : (after requests).stepDecls.any (·.id == s.id) = true ↔
      (Request.declareStep s).Repeats requests := by
    rw [(stepDecls_after requests).any_eq, List.any_eq_true]
    simp only [mem_stepDecls, beq_iff_eq, Request.Repeats]
  rw [← hany]
  simp [declareStep]

/-- A request under a key that is taken changes nothing. -/
theorem apply_of_repeats {q : Request} (h : q.Repeats requests) :
    (after requests).apply q = after requests := by
  cases q with
  | declareVariable v =>
    obtain ⟨v', hv, hname⟩ := h
    have hsame := (variableDecls_after requests).addNew_eq (mem_variableDecls.mpr hv) hname
    rw [apply, declareVariable, hsame]
  | declareStep s =>
    obtain ⟨s', hs, hid⟩ := h
    have hsame := (stepDecls_after requests).addNew_eq (mem_stepDecls.mpr hs) hid
    rw [apply, declareStep, hsame]
  | useVariable name p =>
    obtain ⟨p', hp⟩ := h
    have huse : ⟨name, p'⟩ ∈ requests.flatMap Request.variableRefs := mem_variableRefs.mpr hp
    have hsame := (variableRefs_after requests).addNew_eq (a := ⟨name, p⟩) huse rfl
    rw [apply, useVariable, hsame]
  | useStep id p =>
    obtain ⟨p', hp⟩ := h
    have huse : ⟨id, p'⟩ ∈ requests.flatMap Request.stepRefs := mem_stepRefs.mpr hp
    have hsame := (stepRefs_after requests).addNew_eq (a := ⟨id, p⟩) huse rfl
    rw [apply, useStep, hsame]
  | _ => exact h.elim

end Draft

/-! ### The step to start with -/

section

variable {c : CompiledScheme} {records : List Step} (h : IsFirstTable Step.id records c.stepDecls)
include h

theorem IsFirstTable.mem_ids_iff {id : Literal} :
    id ∈ c.stepDecls.map (·.id) ↔ id ∈ records.map (·.id) := by
  simp only [List.mem_map]
  constructor
  · rintro ⟨s, hs, rfl⟩
    exact ⟨s, mem_of_mem_firstOnly _ (h.eq_firstOnly ▸ hs), rfl⟩
  · rintro ⟨s, hs, rfl⟩
    obtain ⟨b, hb, hid⟩ := exists_key_mem_firstOnly Step.id hs
    exact ⟨b, h.eq_firstOnly ▸ hb, hid⟩

theorem IsFirstTable.isLeastOf_iff {id : Literal} :
    id.IsLeastOf (c.stepDecls.map (·.id)) ↔ id.IsLeastOf (records.map (·.id)) := by
  constructor
  · rintro ⟨hmem, hupTo⟩
    exact ⟨h.mem_ids_iff.mp hmem, fun b hb => hupTo b (h.mem_ids_iff.mpr hb)⟩
  · rintro ⟨hmem, hupTo⟩
    exact ⟨h.mem_ids_iff.mpr hmem, fun b hb => hupTo b (h.mem_ids_iff.mp hb)⟩

theorem entryStep_eq_none_iff : c.entryStep = .ok none ↔ records = [] := by
  have hnil : c.stepDecls = [] ↔ records = [] := by
    have hids : ∀ id, id ∈ c.stepDecls.map (·.id) ↔ id ∈ records.map (·.id) :=
      fun _ => h.mem_ids_iff
    constructor
    · intro hnone
      rw [← List.map_eq_nil_iff (f := (·.id)), List.eq_nil_iff_forall_not_mem]
      simpa [hnone] using hids
    · intro hnone
      rw [h.eq_firstOnly, hnone, firstOnly_nil]
  rw [← hnil]
  rcases c.entryStep_cases with ⟨htable, hentry⟩ | ⟨s, hentry, hfound, -⟩ | ⟨hnumbers, u, hentry⟩
  · exact iff_of_true hentry htable
  · exact iff_of_false (by simp [hentry])
      (List.ne_nil_of_mem (CompiledScheme.mem_of_stepNumbered hfound).1)
  · refine iff_of_false (by simp [hentry]) ?_
    rintro htable
    simp [htable] at hnumbers

/-- The machine starts at the first step that was declared under the least number. -/
theorem of_entryStep_eq {s : Step} (hs : c.entryStep = .ok (some s)) :
    records.find? (·.id == s.id) = some s ∧ s.id.IsLeastOf (records.map (·.id)) := by
  rcases c.entryStep_cases with ⟨-, hentry⟩ | ⟨e, hentry, hfound, hleast⟩ | ⟨-, u, hentry⟩
  · simp [hentry] at hs
  · rw [hentry] at hs
    cases hs
    exact ⟨(h.find?_eq _).symm.trans hfound, h.isLeastOf_iff.mp hleast⟩
  · simp [hentry] at hs

theorem isNumber_of_mem_table (hnumbers : ∀ s ∈ records, s.id.IsNumber) :
    ∀ s ∈ c.stepDecls, s.id.IsNumber := fun s hs =>
  hnumbers s (mem_of_mem_firstOnly _ (h.eq_firstOnly ▸ hs))

/-- If all of them have numbers, no step but that one has its number up to theirs. -/
theorem entryStep_eq_iff (hnumbers : ∀ s ∈ records, s.id.IsNumber) {s : Step} :
    c.entryStep = .ok (some s) ↔
      records.find? (·.id == s.id) = some s ∧ ∀ s' ∈ records, s.id.IsUpTo s'.id := by
  constructor
  · intro hs
    obtain ⟨hfound, hleast⟩ := of_entryStep_eq h hs
    refine ⟨hfound, fun s' hs' => ?_⟩
    rcases hleast.isUpTo s'.id (List.mem_map_of_mem hs') with heq | hupTo
    · obtain ⟨n, hn⟩ := hnumbers s' hs'
      rw [← heq, hn, Literal.number_isUpTo]
    · exact hupTo
  · rintro ⟨hfound, hupTo⟩
    have hmem := List.mem_of_find?_eq_some hfound
    have hleast : s.id.IsLeastOf (records.map (·.id)) := by
      refine ⟨List.mem_map_of_mem hmem, fun b hb => ?_⟩
      obtain ⟨s', hs', rfl⟩ := List.mem_map.mp hb
      exact .inr (hupTo s' hs')
    obtain ⟨entry, hentry⟩ :=
      CompiledScheme.exists_entryStep_eq (isNumber_of_mem_table h hnumbers)
    cases entry with
    | none =>
      rw [(entryStep_eq_none_iff h).mp hentry] at hmem
      cases hmem
    | some e =>
      obtain ⟨hfound', hleast'⟩ := of_entryStep_eq h hentry
      rw [hleast'.unique hleast, hfound] at hfound'
      rw [hentry, Option.some.inj hfound']

end

/-- Whatever is asked of an empty draft, its tables have the first record under each key of those
that were passed to them, declarations are answered by whether their key is new, a request under a
key that is taken changes nothing and any other no table but its own, and reports stay where they
are. A check gets through if all that it finds can be worded, and else it reports what comes before
the first finding that cannot. The machine of such a draft starts at the first declaration of the
least number. -/
theorem Draft.after_keeps_first (requests : List Request) :
    IsFirstTable Variable.name (requests.flatMap Request.variableDecls)
      (after requests).variableDecls ∧
    IsFirstTable Step.id (requests.flatMap Request.stepDecls) (after requests).stepDecls ∧
    IsFirstTable Reference.id (requests.flatMap Request.variableRefs)
      (after requests).variableRefs ∧
    IsFirstTable Reference.id (requests.flatMap Request.stepRefs) (after requests).stepRefs ∧
    (after requests).errors = requests.flatMap Request.errors ∧
    (∀ v, ((after requests).declareVariable v).1 = true ↔
      ¬ ∃ v', .declareVariable v' ∈ requests ∧ v'.name = v.name) ∧
    (∀ s, ((after requests).declareStep s).1 = true ↔
      ¬ ∃ s', .declareStep s' ∈ requests ∧ s'.id = s.id) ∧
    (∀ o, ((after requests).checkReferences o).1 = .ok () ↔
      ∀ x ∈ (after requests).findings o, x.cause.IsWorded) ∧
    (∀ q : Request, q.Repeats requests → after (requests ++ [q]) = after requests) ∧
    (∀ q : Request, (after requests).DiffersIn q.tables (after (requests ++ [q])) ∧
      (after (requests ++ [q])).errors = (after requests).errors ++ q.errors ∧
      (after (requests ++ [q])).warnings =
        (after requests).warnings ++ q.warnings (after requests)) ∧
    (∀ more, (after requests).errors <+: (after (requests ++ more)).errors ∧
      (after requests).warnings <+: (after (requests ++ more)).warnings) ∧
    ∀ text tokens scanned c, c = CompiledScheme.ofDraft text tokens scanned (after requests) →
      (c.entryStep = .ok none ↔ requests.flatMap Request.stepDecls = []) ∧
      (∀ s, c.entryStep = .ok (some s) →
        (requests.flatMap Request.stepDecls).find? (·.id == s.id) = some s ∧
          s.id.IsLeastOf ((requests.flatMap Request.stepDecls).map (·.id))) ∧
      ((∀ s ∈ requests.flatMap Request.stepDecls, s.id.IsNumber) →
        (∃ entry, c.entryStep = .ok entry) ∧ ∀ s, c.entryStep = .ok (some s) ↔
          (requests.flatMap Request.stepDecls).find? (·.id == s.id) = some s ∧
            ∀ s' ∈ requests.flatMap Request.stepDecls, s.id.IsUpTo s'.id) := by
  refine ⟨variableDecls_after requests, stepDecls_after requests, variableRefs_after requests,
    stepRefs_after requests, errors_after requests, declareVariable_iff, declareStep_iff,
    fun o => ((after requests).checkReferences_spec o).2, ?repeated, ?one, ?more, ?entry⟩
  case repeated =>
    intro q hq
    rw [after_concat, apply_of_repeats hq]
  case one =>
    intro q
    rw [after_concat]
    exact ⟨differsIn_apply _ q, errors_apply _ q, warnings_apply _ q⟩
  case more =>
    intro more
    rw [after_append]
    exact reports_prefix _ more
  case entry =>
    rintro text tokens scanned c rfl
    have htable : IsFirstTable Step.id (requests.flatMap Request.stepDecls)
      (CompiledScheme.ofDraft text tokens scanned (after requests)).stepDecls :=
      stepDecls_after requests
    exact ⟨entryStep_eq_none_iff htable, fun _ => of_entryStep_eq htable, fun hnumbers =>
      ⟨CompiledScheme.exists_entryStep_eq (isNumber_of_mem_table htable hnumbers),
        fun _ => entryStep_eq_iff htable hnumbers⟩⟩

/-- The third step comes too late for its number, and so does the second use. -/
example :
    let d := Draft.after [
      .declareStep ⟨.number 2, [], .step (.number 1) ⟨1, 6, 5⟩, ⟨1, 1, 0⟩⟩,
      .useStep (.number 1) ⟨1, 6, 5⟩,
      .declareStep ⟨.number 1, [], .step (.number 1) ⟨1, 14, 13⟩, ⟨1, 10, 9⟩⟩,
      .useStep (.number 1) ⟨1, 14, 13⟩,
      .declareStep ⟨.number 1, [], .step (.number 2) ⟨1, 22, 21⟩, ⟨1, 18, 17⟩⟩]
    (d.stepDecls.map (·.position.index), d.stepRefs,
      (CompiledScheme.ofDraft "" [] [] d).entryStep.toOption.map (·.map (·.position.index))) =
      ([0, 9], [⟨.number 1, ⟨1, 6, 5⟩⟩], some (some 9)) := by decide

end StepMachine
