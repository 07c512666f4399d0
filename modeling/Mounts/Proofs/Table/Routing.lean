import Mounts.Proofs.Path.Covering
import Mounts.Table

/-!
# Routing requests

The mounts of a table that serve a request have its parameters and cover its path
(`serving_iff`).  Routing answers one of them whose scope is as long as any, and answers none only
if there is none (`lookup_spec`, `lookup_eq_none_iff`, `lookupSpec_eq_none_iff`).

So a mount whose scope is longer than those of all others that serve a request is the answer to it
(`lookup_eq_of_longest`).  In a table with one mount for each content, the answer at the scope of a
mount is the mount itself, unless another one writes that scope as a directory
(`lookupSpec_of_opens`, `lookupSpec_of_not_opens`).
-/

namespace Mounts

set_option autoImplicit false

theorem Spec.serves_iff {mounted query : Spec} {path : String} :
    mounted.serves query path = true ↔
      mounted.params = query.params ∧ Path.liesUnder path (some mounted.scope) = true := by
  rw [serves, Bool.and_eq_true, decide_eq_true_iff]

/-- A spec that differs from another one in a separator more at the end of its scope, which is not
empty otherwise. -/
def Spec.Opens (opened spec : Spec) : Prop :=
  spec.scope ≠ "" ∧ opened = ⟨spec.params, Path.opened spec.scope⟩

instance (opened spec : Spec) : Decidable (opened.Opens spec) :=
  inferInstanceAs (Decidable (_ ∧ _))

namespace Table

/-! ## The longest of several scopes -/

theorem longest?_eq_none_iff {entries : List (Ref × Spec)} :
    longest? entries = none ↔ entries = [] := by
  cases entries with
  | nil => exact iff_of_true rfl rfl
  | cons first rest =>
    refine iff_of_false (fun nothing => ?_) (List.cons_ne_nil _ _)
    rw [longest?] at nothing
    split at nothing
    · cases nothing
    · split at nothing
      · cases nothing
      · cases nothing

/-- The longest of several entries is one of them, and none is longer. -/
theorem longest?_spec {entries : List (Ref × Spec)} {best : Ref × Spec}
    (found : longest? entries = some best) :
    best ∈ entries ∧ ∀ entry ∈ entries, entry.2.scope.utf8ByteSize ≤ best.2.scope.utf8ByteSize := by
  induction entries generalizing best with
  | nil => cases found
  | cons first rest ih =>
    rw [longest?] at found
    rw [List.forall_mem_cons]
    split at found
    · next nothing =>
      cases found
      rw [longest?_eq_none_iff.mp nothing]
      exact ⟨List.mem_cons_self, Nat.le_refl _, List.forall_mem_nil _⟩
    · next earlier further =>
      obtain ⟨inside, longest⟩ := ih further
      split at found
      · next longer =>
        cases found
        refine ⟨List.mem_cons_self, Nat.le_refl _, fun entry later => ?_⟩
        exact Nat.le_trans (longest entry later) (Nat.le_of_lt longer)
      · next no_longer =>
        cases found
        exact ⟨List.mem_cons_of_mem _ inside, Nat.le_of_not_lt no_longer, longest⟩

/-! ## Serving a request -/

variable {D : Type}

/-- A mount of a table, with its spec, that serves a path for a query. -/
structure Serving (pool : Pool D) (table : Table) (query : Spec) (path : String) (mount : Ref)
    (spec : Spec) : Prop where
  listed : mount ∈ table.mounts
  content : pool.spec? mount = some spec
  params : spec.params = query.params
  covers : Path.liesUnder path (some spec.scope) = true

variable {pool : Pool D} {table : Table} {query : Spec} {path : String}

theorem mem_entries {mount : Ref} {spec : Spec} :
    (mount, spec) ∈ table.entries pool ↔ mount ∈ table.mounts ∧ pool.spec? mount = some spec := by
  rw [entries, List.mem_filterMap]
  constructor
  · rintro ⟨ref, listed, found⟩
    obtain ⟨content, there, same⟩ := Option.map_eq_some_iff.mp found
    cases same
    exact ⟨listed, there⟩
  · rintro ⟨listed, there⟩
    exact ⟨mount, listed, Option.map_eq_some_iff.mpr ⟨spec, there, rfl⟩⟩

/-- Routing chooses among the mounts that serve the request. -/
theorem serving_iff {mount : Ref} {spec : Spec} :
    (mount, spec) ∈ (table.entries pool).filter (fun entry => entry.2.serves query path) ↔
      table.Serving pool query path mount spec := by
  rw [List.mem_filter, mem_entries, Spec.serves_iff]
  constructor
  · rintro ⟨⟨listed, content⟩, params, covers⟩
    exact ⟨listed, content, params, covers⟩
  · rintro ⟨listed, content, params, covers⟩
    exact ⟨⟨listed, content⟩, params, covers⟩

/-- **No mount is answered only if none serves the request.** -/
theorem lookup_eq_none_iff :
    table.lookup pool query path = none ↔
      ∀ mount spec, ¬ table.Serving pool query path mount spec := by
  rw [lookup, Option.map_eq_none_iff, longest?_eq_none_iff, List.eq_nil_iff_forall_not_mem]
  constructor
  · intro nothing mount spec serving
    exact nothing (mount, spec) (serving_iff.mpr serving)
  · intro nothing entry found
    exact nothing entry.1 entry.2 (serving_iff.mp found)

/-- Nothing is answered for what a query claims exactly if no mount serves the query. -/
theorem lookupSpec_eq_none_iff :
    table.lookupSpec pool query = none ↔
      ∀ entry ∈ table.entries pool, entry.2.servesQuery query = false := by
  rw [lookupSpec, lookup, Option.map_eq_none_iff, longest?_eq_none_iff, List.filter_eq_nil_iff]
  simp only [Spec.servesQuery, Bool.not_eq_true]

/-- **The mount that is answered serves the request, and none that does has a longer scope.** -/
theorem lookup_spec {mount : Ref} (answer : table.lookup pool query path = some mount) :
    ∃ spec, table.Serving pool query path mount spec ∧
      ∀ other content, table.Serving pool query path other content →
        content.scope.utf8ByteSize ≤ spec.scope.utf8ByteSize := by
  obtain ⟨⟨ref, spec⟩, found, rfl⟩ := Option.map_eq_some_iff.mp answer
  obtain ⟨chosen, longest⟩ := longest?_spec found
  refine ⟨spec, serving_iff.mp chosen, fun other content serving => ?_⟩
  exact longest (other, content) (serving_iff.mpr serving)

/-- A mount that serves a request is the answer if the scopes of all others that do are shorter. -/
theorem lookup_eq_of_longest {mount : Ref} {spec : Spec}
    (serving : table.Serving pool query path mount spec)
    (longest : ∀ other content, table.Serving pool query path other content →
      other = mount ∨ content.scope.utf8ByteSize < spec.scope.utf8ByteSize) :
    table.lookup pool query path = some mount := by
  cases answer : table.lookup pool query path with
  | none => exact absurd serving (lookup_eq_none_iff.mp answer mount spec)
  | some other =>
    obtain ⟨content, serves, no_shorter⟩ := lookup_spec answer
    rcases longest other content serves with rfl | shorter
    · rfl
    · exact absurd (no_shorter mount spec serving) (Nat.not_le_of_lt shorter)

/-- Of a query only the parameters matter. -/
theorem lookup_congr {other : Spec} (same : query.params = other.params) (path : String) :
    table.lookup pool query path = table.lookup pool other path := by
  have alike : (fun entry : Ref × Spec => entry.2.serves query path) =
      fun entry => entry.2.serves other path := by
    funext entry
    rw [Spec.serves, Spec.serves, same]
  rw [lookup, lookup, alike]

/-! ## A mount at its own scope -/

/-- A table with at most one mount of any content. -/
def Single (pool : Pool D) (table : Table) : Prop :=
  ∀ first ∈ table.mounts, ∀ second ∈ table.mounts, ∀ spec,
    pool.spec? first = some spec → pool.spec? second = some spec → first = second

variable {mount other : Ref} {spec content : Spec}

/-- **At the scope of a mount a mount is found that writes this scope as a directory.** -/
theorem lookupSpec_of_opens (single : table.Single pool) (listed : other ∈ table.mounts)
    (there : pool.spec? other = some content) (opens : content.Opens spec) :
    table.lookupSpec pool spec = some other := by
  obtain ⟨filled, rfl⟩ := opens
  have serving : table.Serving pool spec spec.scope other ⟨spec.params, Path.opened spec.scope⟩ :=
    ⟨listed, there, rfl, Path.liesUnder_opened filled⟩
  have longer : spec.scope.utf8ByteSize < (Path.opened spec.scope).utf8ByteSize := by
    rw [Path.size_opened]
    exact Nat.lt_succ_self _
  refine lookup_eq_of_longest serving fun further found serves => ?_
  rcases Path.size_of_covering serves.covers with shorter | same | ⟨_, directory⟩
  · exact .inr (Nat.lt_trans shorter longer)
  · refine .inr ?_
    rwa [same]
  · left
    have alike : found = ⟨spec.params, Path.opened spec.scope⟩ :=
      Spec.ext serves.params directory
    exact single further serves.listed other listed _ (alike ▸ serves.content) there

/-- **At the scope of a mount the mount itself is found if none writes that scope as a
directory.** -/
theorem lookupSpec_of_not_opens (single : table.Single pool) (listed : mount ∈ table.mounts)
    (there : pool.spec? mount = some spec)
    (closed : ∀ other ∈ table.mounts, ∀ content, pool.spec? other = some content →
      ¬ content.Opens spec) :
    table.lookupSpec pool spec = some mount := by
  have serving : table.Serving pool spec spec.scope mount spec :=
    ⟨listed, there, rfl, Path.liesUnder_self spec.scope⟩
  refine lookup_eq_of_longest serving fun other content serves => ?_
  rcases Path.size_of_covering serves.covers with shorter | same | ⟨filled, directory⟩
  · exact .inr shorter
  · left
    have alike : content = spec := Spec.ext serves.params same
    exact single other serves.listed mount listed spec (alike ▸ serves.content) there
  · refine absurd ⟨filled, ?_⟩ (closed other serves.listed content serves.content)
    exact Spec.ext serves.params directory

end Table

end Mounts
