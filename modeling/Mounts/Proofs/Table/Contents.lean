import Mounts.Proofs.Registry.Lasting
import Mounts.Proofs.Table.Routing

/-!
# What a table holds

By its contents a table is a list of specs, and routing answers one of them.  Two specs that serve
one request are told apart by the sizes of their scopes (`Spec.eq_of_serves`), so of those that do
one is longer than all others.  The contents alone tell which spec that is, whatever instances are
mounted and in whatever order (`Answers.unique`, `answers_served?`).

A spec that joins the contents takes over the requests that it serves and that nothing answered or
something with a shorter scope, and no others (`Answers.joined`, `Answers.joined_below`).  A spec
that leaves gives up the requests that it answered, to shorter scopes, and no others
(`Answers.left`, `Answers.left_to_shorter`).
-/

namespace Mounts

set_option autoImplicit false

/-- **Two specs that serve one request are told apart by the sizes of their scopes.** -/
theorem Spec.eq_of_serves {first second query : Spec} {path : String}
    (one : first.serves query path = true) (other : second.serves query path = true)
    (same : first.scope.utf8ByteSize = second.scope.utf8ByteSize) : first = second := by
  obtain ⟨params, covers⟩ := serves_iff.mp one
  obtain ⟨params_too, covers_too⟩ := serves_iff.mp other
  exact Spec.ext (params.trans params_too.symm) (Path.eq_of_covering covers covers_too same)

/-- A spec serves a request that had no answer, or one with a shorter scope. -/
def Spec.TakesOver (spec query : Spec) (path : String) (answer : Option Spec) : Prop :=
  spec.serves query path = true ∧ ∀ old ∈ answer, old.scope.utf8ByteSize < spec.scope.utf8ByteSize

instance (spec query : Spec) (path : String) (answer : Option Spec) :
    Decidable (spec.TakesOver query path answer) :=
  inferInstanceAs (Decidable (_ ∧ _))

namespace Table

/-! ## Answers among specs -/

/-- What answers a request among several specs: one of them that serves it, to which all others
that do come second by their scopes. -/
structure Answers (contents : List Spec) (query : Spec) (path : String) (answer : Option Spec) :
    Prop where
  serves : ∀ spec ∈ answer, spec ∈ contents ∧ spec.serves query path = true
  longest : ∀ other ∈ contents, other.serves query path = true →
    ∃ spec ∈ answer, other = spec ∨ other.scope.utf8ByteSize < spec.scope.utf8ByteSize

namespace Answers

variable {contents after : List Spec} {query : Spec} {path : String} {answer : Option Spec}

/-- **There is one answer among several specs.** -/
theorem unique {other : Option Spec} (answers : Answers contents query path answer)
    (answers_too : Answers contents query path other) : answer = other := by
  cases answer with
  | none =>
    cases other with
    | none => rfl
    | some second =>
      obtain ⟨listed, serves⟩ := answers_too.serves second rfl
      obtain ⟨_, nothing, _⟩ := answers.longest second listed serves
      cases nothing
  | some first =>
    obtain ⟨listed, serves⟩ := answers.serves first rfl
    obtain ⟨second, rfl, second_to⟩ := answers_too.longest first listed serves
    obtain ⟨listed_too, serves_too⟩ := answers_too.serves second rfl
    obtain ⟨_, found, first_to⟩ := answers.longest second listed_too serves_too
    cases found
    rcases second_to with rfl | shorter
    · rfl
    · rcases first_to with rfl | longer
      · rfl
      · exact absurd longer (Nat.lt_asymm shorter)

/-- Only which specs there are matters to the answer. -/
theorem congr (answers : Answers contents query path answer)
    (members : ∀ spec, spec ∈ after ↔ spec ∈ contents) : Answers after query path answer where
  serves := by
    intro spec answered
    obtain ⟨listed, serves⟩ := answers.serves spec answered
    exact ⟨(members spec).mpr listed, serves⟩
  longest := by
    intro other listed
    exact answers.longest other ((members other).mp listed)

/-- A spec answers at its own scope if no other one writes this scope as a directory. -/
theorem own (listed : ⟨query.params, path⟩ ∈ contents)
    (closed : ∀ spec ∈ contents, spec.scope ≠ Path.opened path) :
    Answers contents query path (some ⟨query.params, path⟩) where
  serves := by
    intro spec same
    cases same
    exact ⟨listed, Spec.serves_iff.mpr ⟨rfl, Path.liesUnder_self path⟩⟩
  longest := by
    intro other listed_too serves
    refine ⟨⟨query.params, path⟩, rfl, ?_⟩
    obtain ⟨params, covers⟩ := Spec.serves_iff.mp serves
    rcases Path.size_of_covering covers with shorter | same | ⟨_, directory⟩
    · exact .inr shorter
    · exact .inl (Spec.ext params same)
    · exact absurd directory (closed other listed_too)

variable {spec : Spec}

/-- **What a spec takes over it answers after it joined.** -/
theorem joined (answers : Answers contents query path answer)
    (members : ∀ other, other ∈ after ↔ other ∈ contents ∨ other = spec)
    (takes_over : spec.TakesOver query path answer) : Answers after query path (some spec) where
  serves := by
    intro other same
    cases same
    exact ⟨(members spec).mpr (.inr rfl), takes_over.1⟩
  longest := by
    intro other listed serves
    refine ⟨spec, rfl, ?_⟩
    rcases (members other).mp listed with earlier | same
    · obtain ⟨old, answered, second_to⟩ := answers.longest other earlier serves
      have longer := takes_over.2 old answered
      rcases second_to with rfl | shorter
      · exact .inr longer
      · exact .inr (Nat.lt_trans shorter longer)
    · exact .inl same

/-- **What it does not take over is answered as before.** -/
theorem joined_below (answers : Answers contents query path answer)
    (members : ∀ other, other ∈ after ↔ other ∈ contents ∨ other = spec)
    (below : ¬ spec.TakesOver query path answer) : Answers after query path answer where
  serves := by
    intro old answered
    obtain ⟨listed, serves⟩ := answers.serves old answered
    exact ⟨(members old).mpr (.inl listed), serves⟩
  longest := by
    intro other listed serves
    rcases (members other).mp listed with earlier | rfl
    · exact answers.longest other earlier serves
    · obtain ⟨old, answered, no_shorter⟩ : ∃ old ∈ answer,
          ¬ old.scope.utf8ByteSize < other.scope.utf8ByteSize := by
        by_contra every
        push Not at every
        exact below ⟨serves, every⟩
      refine ⟨old, answered, ?_⟩
      rcases Nat.eq_or_lt_of_not_lt no_shorter with same | shorter
      · exact .inl (Spec.eq_of_serves serves (answers.serves old answered).2 same.symm)
      · exact .inr shorter

/-- **What a spec does not answer is answered as before after it left.** -/
theorem left (answers : Answers contents query path answer)
    (members : ∀ other, other ∈ after ↔ other ∈ contents ∧ other ≠ spec)
    (others : answer ≠ some spec) : Answers after query path answer where
  serves := by
    intro old answered
    obtain ⟨listed, serves⟩ := answers.serves old answered
    refine ⟨(members old).mpr ⟨listed, ?_⟩, serves⟩
    rintro rfl
    exact others answered
  longest := by
    intro other listed serves
    exact answers.longest other ((members other).mp listed).1 serves

/-- **What it answered is left to shorter scopes.** -/
theorem left_to_shorter (answers : Answers contents query path (some spec))
    (members : ∀ other, other ∈ after ↔ other ∈ contents ∧ other ≠ spec)
    (answers_after : Answers after query path answer) :
    ∀ next ∈ answer, next.scope.utf8ByteSize < spec.scope.utf8ByteSize := by
  intro next answered
  obtain ⟨listed, serves⟩ := answers_after.serves next answered
  obtain ⟨earlier, another⟩ := (members next).mp listed
  obtain ⟨_, found, second_to⟩ := answers.longest next earlier serves
  cases found
  exact second_to.resolve_left another

end Answers

/-! ## The contents of a table -/

variable {D : Type}

/-- The specs of the mounts, in order. -/
def contents (pool : Pool D) (table : Table) : List Spec :=
  table.mounts.filterMap pool.spec?

/-- The spec of the mount that serves a path for a query. -/
def served? (pool : Pool D) (table : Table) (query : Spec) (path : String) : Option Spec :=
  (table.lookup pool query path).bind pool.spec?

variable {pool after : Pool D} {table : Table} {query : Spec} {path : String}

theorem mem_contents {spec : Spec} :
    spec ∈ table.contents pool ↔ ∃ mount ∈ table.mounts, pool.spec? mount = some spec :=
  List.mem_filterMap

theorem Serving.serves {mount : Ref} {spec : Spec}
    (serving : table.Serving pool query path mount spec) : spec.serves query path = true :=
  Spec.serves_iff.mpr ⟨serving.params, serving.covers⟩

theorem Serving.mem_contents {mount : Ref} {spec : Spec}
    (serving : table.Serving pool query path mount spec) : spec ∈ table.contents pool :=
  Table.mem_contents.mpr ⟨mount, serving.listed, serving.content⟩

theorem exists_serving_of_mem {spec : Spec} (listed : spec ∈ table.contents pool)
    (serves : spec.serves query path = true) :
    ∃ mount, table.Serving pool query path mount spec := by
  obtain ⟨mount, inside, content⟩ := mem_contents.mp listed
  obtain ⟨params, covers⟩ := Spec.serves_iff.mp serves
  exact ⟨mount, inside, content, params, covers⟩

/-- **Routing answers among the contents.** -/
theorem answers_served? (pool : Pool D) (table : Table) (query : Spec) (path : String) :
    Answers (table.contents pool) query path (table.served? pool query path) where
  serves := by
    intro spec answered
    obtain ⟨mount, found, content⟩ := Option.bind_eq_some_iff.mp answered
    obtain ⟨_, serving, _⟩ := lookup_spec found
    rw [serving.content] at content
    cases content
    exact ⟨serving.mem_contents, serving.serves⟩
  longest := by
    intro other listed serves
    obtain ⟨mount, serving⟩ := exists_serving_of_mem listed serves
    cases found : table.lookup pool query path with
    | none => exact absurd serving (lookup_eq_none_iff.mp found mount other)
    | some best =>
      obtain ⟨spec, best_serving, longest⟩ := lookup_spec found
      refine ⟨spec, ?answered, ?second_to⟩
      case answered =>
        rw [served?, found]
        exact best_serving.content
      case second_to =>
        rcases Nat.eq_or_lt_of_le (longest mount other serving) with same | shorter
        · exact .inl (Spec.eq_of_serves serves best_serving.serves same)
        · exact .inr shorter

/-- The contents tell which spec is answered, in any order and whatever pool they are of. -/
theorem served?_of_mem_iff {E : Type} {elsewhere : Pool E} {other : Table}
    (members : ∀ spec, spec ∈ other.contents elsewhere ↔ spec ∈ table.contents pool)
    (query : Spec) (path : String) :
    other.served? elsewhere query path = table.served? pool query path :=
  (answers_served? elsewhere other query path).unique
    ((answers_served? pool table query path).congr members)

theorem served?_congr {other : Table}
    (same : other.contents after = table.contents pool) (query : Spec) (path : String) :
    other.served? after query path = table.served? pool query path := by
  refine served?_of_mem_iff (fun spec => ?_) query path
  rw [same]

/-- The contents of live mounts last. -/
theorem contents_of_leads (leads : pool.Leads after)
    (live : ∀ mount ∈ table.mounts, pool.Live mount) :
    table.contents after = table.contents pool := by
  refine List.filterMap_congr fun mount listed => ?_
  obtain ⟨spec, content⟩ := (live mount listed).content
  rw [content, leads.spec? content]

/-! ## What unmounting leaves -/

variable [Directory D] {spec : Spec}

/-- Unmounting leaves the mounts of other specs, in order. -/
theorem mounts_unmount (pool : Pool D) (table : Table) (spec : Spec) :
    (table.unmount pool spec).2.1.mounts =
      table.mounts.filter fun mount => pool.spec? mount ≠ some spec := by
  rw [unmount, List.partition_eq_filter_filter]
  refine List.filter_congr fun mount _ => ?_
  rw [Function.comp_apply, decide_not, beq_eq_decide]

theorem leads_unmount (pool : Pool D) (table : Table) (spec : Spec) :
    pool.Leads (table.unmount pool spec).2.2 := by
  rw [unmount, List.partition_eq_filter_filter]
  exact pool.leads_releaseAll _

/-- **Unmounting leaves the contents without the spec.** -/
theorem contents_unmount (live : ∀ mount ∈ table.mounts, pool.Live mount) (spec : Spec) :
    (table.unmount pool spec).2.1.contents (table.unmount pool spec).2.2 =
      (table.contents pool).filter fun other => other ≠ spec := by
  have left := mounts_unmount pool table spec
  have live_left : ∀ mount ∈ (table.unmount pool spec).2.1.mounts, pool.Live mount := by
    intro mount listed
    rw [left] at listed
    exact live mount (List.mem_filter.mp listed).1
  rw [contents_of_leads (leads_unmount pool table spec) live_left, contents, left, contents,
    List.filter_filterMap, List.filterMap_filter]
  refine List.filterMap_congr fun mount _ => ?_
  cases content : pool.spec? mount with
  | none => simp
  | some other =>
    by_cases same : other = spec
    · simp [same, Option.filter_some]
    · simp [same, Option.filter_some]

theorem mem_contents_unmount (live : ∀ mount ∈ table.mounts, pool.Live mount) (spec other : Spec) :
    other ∈ (table.unmount pool spec).2.1.contents (table.unmount pool spec).2.2 ↔
      other ∈ table.contents pool ∧ other ≠ spec := by
  rw [contents_unmount live, List.mem_filter, decide_eq_true_iff]

/-- An unmounted spec leaves the answers as they are that were others. -/
theorem served?_unmount (live : ∀ mount ∈ table.mounts, pool.Live mount)
    (others : table.served? pool query path ≠ some spec) :
    (table.unmount pool spec).2.1.served? (table.unmount pool spec).2.2 query path =
      table.served? pool query path := by
  have before := answers_served? pool table query path
  exact (answers_served? _ _ query path).unique
    (before.left (mem_contents_unmount live spec) others)

/-- Where it was the answer, something with a shorter scope follows or nothing. -/
theorem size_of_served?_unmount (live : ∀ mount ∈ table.mounts, pool.Live mount)
    (answered : table.served? pool query path = some spec) :
    ∀ next ∈ (table.unmount pool spec).2.1.served? (table.unmount pool spec).2.2 query path,
      next.scope.utf8ByteSize < spec.scope.utf8ByteSize := by
  have before := answers_served? pool table query path
  rw [answered] at before
  exact before.left_to_shorter (mem_contents_unmount live spec) (answers_served? _ _ query path)

/-! ## What mounting adds -/

/-- Mounting lists the canonical instance last if it is not listed yet. -/
theorem mounts_mount (pool : Pool D) (table : Table) (ref : Ref) :
    (table.mount pool ref).2.1.mounts =
      if (table.mount pool ref).1 ∈ table.mounts then table.mounts
      else table.mounts ++ [(table.mount pool ref).1] := by
  rw [mount]
  dsimp only
  split
  · rfl
  · rfl

variable [LawfulDirectory D] {held : List Ref} {keys : List RegistryId} {ref : Ref}

/-- Mounting a shared spec makes it canonical, and takes a handle if the mount is new. -/
theorem moves_mount (table : Table) (kept : pool.Kept held keys) (live : pool.Live ref) :
    pool.Moves [] (table.mount pool ref).2.2 := by
  have canonical := Pool.Moves.canonicalize [] kept List.mem_cons_self live
  have live_mount := (kept.canonicalize List.mem_cons_self live).live List.mem_cons_self
  rw [mount]
  dsimp only
  split
  · exact canonical
  · exact canonical.trans (.acquire [] live_mount)

theorem leads_mount (table : Table) (kept : pool.Kept held keys) (live : pool.Live ref) :
    pool.Leads (table.mount pool ref).2.2 :=
  (table.moves_mount kept live).leads

/-- What is mounted has the content of the shared spec. -/
theorem spec?_mount (table : Table) (kept : pool.Kept held keys)
    (content : pool.spec? ref = some spec) :
    (table.mount pool ref).2.2.spec? (table.mount pool ref).1 = some spec := by
  have canonical := kept.spec?_canonicalize List.mem_cons_self content
  rw [mount]
  dsimp only
  split
  · exact canonical
  · rwa [Pool.spec?_acquire]

/-- What is mounted is canonical. -/
theorem isCanonical_mount (table : Table) (kept : pool.Kept held keys) (live : pool.Live ref) :
    (table.mount pool ref).2.2.isCanonical (table.mount pool ref).1 = true := by
  have canonical := kept.isCanonical_canonicalize List.mem_cons_self live
  have live_mount := (kept.canonicalize List.mem_cons_self live).live List.mem_cons_self
  rw [mount]
  dsimp only
  split
  · exact canonical
  · exact (Pool.leads_acquire live_mount).isCanonical canonical

/-- **Mounting adds the spec to the contents.** -/
theorem mem_contents_mount (kept : pool.Kept held keys) (live : pool.Live ref)
    (content : pool.spec? ref = some spec) (lives : ∀ mount ∈ table.mounts, pool.Live mount)
    (other : Spec) :
    other ∈ (table.mount pool ref).2.1.contents (table.mount pool ref).2.2 ↔
      other ∈ table.contents pool ∨ other = spec := by
  have mounted := spec?_mount table kept content
  rw [← contents_of_leads (leads_mount table kept live) lives, mem_contents, mounts_mount,
    mem_contents]
  split
  · next inside =>
    constructor
    · exact .inl
    · rintro (earlier | rfl)
      · exact earlier
      · exact ⟨_, inside, mounted⟩
  · next outside =>
    constructor
    · rintro ⟨mount, listed, found⟩
      rcases List.mem_append.mp listed with earlier | last
      · exact .inl ⟨mount, earlier, found⟩
      · rw [List.mem_singleton.mp last, mounted] at found
        exact .inr (Option.some.inj found).symm
    · rintro (⟨mount, earlier, found⟩ | rfl)
      · exact ⟨mount, List.mem_append_left _ earlier, found⟩
      · exact ⟨_, List.mem_append_right _ List.mem_cons_self, mounted⟩

/-- A mounted spec answers what it takes over. -/
theorem served?_mount (kept : pool.Kept held keys) (live : pool.Live ref)
    (content : pool.spec? ref = some spec) (lives : ∀ mount ∈ table.mounts, pool.Live mount)
    (takes_over : spec.TakesOver query path (table.served? pool query path)) :
    (table.mount pool ref).2.1.served? (table.mount pool ref).2.2 query path = some spec := by
  have before := answers_served? pool table query path
  exact (answers_served? _ _ query path).unique
    (before.joined (mem_contents_mount kept live content lives) takes_over)

/-- It leaves the answers as they are that it does not take over. -/
theorem served?_mount_below (kept : pool.Kept held keys) (live : pool.Live ref)
    (content : pool.spec? ref = some spec) (lives : ∀ mount ∈ table.mounts, pool.Live mount)
    (below : ¬ spec.TakesOver query path (table.served? pool query path)) :
    (table.mount pool ref).2.1.served? (table.mount pool ref).2.2 query path =
      table.served? pool query path := by
  have before := answers_served? pool table query path
  exact (answers_served? _ _ query path).unique
    (before.joined_below (mem_contents_mount kept live content lives) below)

/-- **Unmounting takes back what mounting did if the spec was not mounted before.** -/
theorem unmount_mount (kept : pool.Kept held keys) (live : pool.Live ref)
    (content : pool.spec? ref = some spec) (lives : ∀ mount ∈ table.mounts, pool.Live mount)
    (absent : spec ∉ table.contents pool) (later : Pool D)
    (leads : (table.mount pool ref).2.2.Leads later) :
    ((table.mount pool ref).2.1.unmount later spec).2.1 = table := by
  have mounted := leads.spec? (spec?_mount table kept content)
  have others : ∀ mount ∈ table.mounts, later.spec? mount ≠ some spec := by
    intro mount listed found
    obtain ⟨old, there⟩ := (lives mount listed).content
    rw [((leads_mount table kept live).trans leads).spec? there] at found
    cases found
    exact absent (mem_contents.mpr ⟨mount, listed, there⟩)
  have new : (table.mount pool ref).1 ∉ table.mounts := fun inside => others _ inside mounted
  have left : ((table.mount pool ref).2.1.unmount later spec).2.1.mounts = table.mounts := by
    rw [mounts_unmount, mounts_mount, if_neg new, List.filter_append,
      List.filter_eq_self.mpr fun mount listed => decide_eq_true (others mount listed),
      List.filter_cons_of_neg (by simpa using mounted), List.filter_nil, List.append_nil]
  exact congrArg Table.mk left

end Table

end Mounts
