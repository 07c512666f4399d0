import Mounts.Proofs.Registry.Accounts

/-!
# What lasts in a pool

Contents, homes and canonical instances last as long as somebody holds them.  What an operation adds
to a pool beyond that is told by the contents that it was given.
-/

namespace Mounts.Pool

set_option autoImplicit false

/-!
## Contents and homes

Handles come and go, but an instance has its content and its registry for good, and no operation
makes a second live instance of a content that a registry has one of.  `Leads pool after` says both
of what becomes of a pool, and every operation leads from one pool to another.

The second part, `Distinct`, holds of registries that are gone as well.  Their directories no longer
tell what they made canonical, but nothing can be made canonical there either.

So of two live canonical instances with one content it is the registries that decide whether they
are the same (`eq_iff_same_home`), and the canonical instance for a shared spec is the one of the
registry that the shared spec has already, or else of the registry that was asked
(`Kept.canonicalize_eq_iff`).

An instance belongs to the registry that made it canonical.  Those that belong to one registry are
told apart by their contents while they live (`Distinct.eq_iff_of_belongs`).
-/

section

variable {D : Type}

/-- Of no content a registry, alive or not, made two live instances canonical. -/
def Distinct (pool : Pool D) : Prop :=
  ∀ (registry : RegistryId) (spec : Spec) (first second : Ref),
    pool.Stands registry first spec → pool.Stands registry second spec → first = second

/-- What becomes of a pool: instances keep their contents and registries, and what was distinct
stays so. -/
structure Leads (pool after : Pool D) : Prop where
  stays : ∀ ref held, pool.instance? ref = some held →
    ∃ handles, after.instance? ref = some { held with handles := handles }
  distinct : pool.Distinct → after.Distinct

namespace Leads

theorem refl (pool : Pool D) : pool.Leads pool :=
  ⟨fun _ held found => ⟨held.handles, found⟩, id⟩

theorem trans {first second third : Pool D} (one : first.Leads second)
    (other : second.Leads third) : first.Leads third where
  stays := by
    intro ref held found
    obtain ⟨_, between⟩ := one.stays ref held found
    obtain ⟨handles, later⟩ := other.stays ref _ between
    exact ⟨handles, later⟩
  distinct := fun distinct => other.distinct (one.distinct distinct)

/-- What stands for something afterwards did so before. -/
theorem of_stands {pool after : Pool D}
    (stays : ∀ ref held, pool.instance? ref = some held →
      ∃ handles, after.instance? ref = some { held with handles := handles })
    (earlier : ∀ registry ref spec,
      after.Stands registry ref spec → pool.Stands registry ref spec) : pool.Leads after :=
  ⟨stays, fun distinct registry spec first second one other =>
    distinct registry spec first second (earlier _ _ _ one) (earlier _ _ _ other)⟩

/-- What happens to registries alone changes nothing for instances. -/
theorem of_instances {pool after : Pool D} (same : after.instances = pool.instances) :
    pool.Leads after := by
  have found (ref : Ref) : after.instance? ref = pool.instance? ref := by
    rw [instance?, same, instance?]
  refine of_stands (fun ref held there => ⟨held.handles, (found ref).trans there⟩) ?_
  intro registry ref spec
  rw [Stands, Stands, found]
  exact id

/-- Counting handles anew changes nothing as long as no instance comes back to life. -/
theorem of_recounts {pool after : Pool D} {count : Ref → Nat → Nat}
    (recounts : pool.Recounts after count)
    (dead : ∀ ref held, pool.instance? ref = some held → held.handles = 0 → count ref 0 = 0) :
    pool.Leads after := by
  refine of_stands (fun ref held found => ⟨count ref held.handles, ?_⟩) ?_
  · rw [recounts, found]
    rfl
  · intro registry ref spec stands
    obtain ⟨held, found, some_handle, home, content⟩ := recounts.stands_iff.mp stands
    refine ⟨held, found, fun none_left => ?_, home, content⟩
    rw [none_left] at some_handle
    exact some_handle (dead ref held found none_left)

/-- A new instance is distinct from the others of its registry if it has another content. -/
theorem of_make (pool : Pool D) {spec : Spec} {home : Option RegistryId}
    (missing : ∀ registry ref, home = some registry → ¬ pool.Stands registry ref spec) :
    pool.Leads (pool.make spec home).2 where
  stays := by
    intro ref held found
    have old : ref ≠ ⟨pool.instances.length⟩ := by
      rintro rfl
      exact Nat.lt_irrefl _ (List.getElem?_eq_some_iff.mp found).1
    refine ⟨held.handles, ?_⟩
    rw [instance?_make, if_neg old, found]
  distinct := by
    intro distinct registry content first second one other
    rcases stands_make.mp one with old | ⟨made, rfl, rfl⟩
    · rcases stands_make.mp other with older | ⟨made, rfl, rfl⟩
      · exact distinct registry content first second old older
      · exact absurd old (missing registry first made)
    · rcases stands_make.mp other with old | ⟨_, rfl, _⟩
      · exact absurd old (missing registry second made)
      · rfl

end Leads

theorem distinct_empty [Directory D] : (empty : Pool D).Distinct := by
  rintro registry spec first second ⟨held, found, _⟩
  cases found

/-- The content of an instance lasts. -/
theorem Leads.spec? {pool after : Pool D} (leads : pool.Leads after) {ref : Ref} {spec : Spec}
    (content : pool.spec? ref = some spec) : after.spec? ref = some spec := by
  obtain ⟨held, found, rfl⟩ := Option.map_eq_some_iff.mp content
  obtain ⟨handles, there⟩ := leads.stays ref held found
  rw [Pool.spec?, there]
  rfl

/-- An instance that is canonical stays canonical. -/
theorem Leads.isCanonical {pool after : Pool D} (leads : pool.Leads after) {ref : Ref}
    (canonical : pool.isCanonical ref = true) : after.isCanonical ref = true := by
  rw [Pool.isCanonical] at canonical ⊢
  cases found : pool.instance? ref with
  | none =>
    rw [found] at canonical
    cases canonical
  | some held =>
    obtain ⟨handles, there⟩ := leads.stays ref held found
    rw [found] at canonical
    rw [there]
    exact canonical

theorem Stands.isCanonical {pool : Pool D} {registry : RegistryId} {ref : Ref} {spec : Spec}
    (stands : pool.Stands registry ref spec) : pool.isCanonical ref = true := by
  obtain ⟨held, found, _, home, _⟩ := stands
  rw [Pool.isCanonical, found, Option.bind_some, home]
  rfl

/-- **Canonical instances of one content are the same if their registries are.** -/
theorem Distinct.eq_iff_same_home {pool : Pool D} (distinct : pool.Distinct) {first second : Ref}
    {one other : Instance} (there : pool.instance? first = some one) (alive : pool.Live first)
    (canonical : one.home.isSome) (there_too : pool.instance? second = some other)
    (alive_too : pool.Live second) (same : one.spec = other.spec) :
    first = second ↔ one.home = other.home := by
  constructor
  · rintro rfl
    rw [there] at there_too
    cases there_too
    rfl
  · intro together
    obtain ⟨registry, home⟩ := Option.isSome_iff_exists.mp canonical
    obtain ⟨_, found, some_handle⟩ := alive
    obtain ⟨_, found_too, some_handle_too⟩ := alive_too
    rw [there] at found
    rw [there_too] at found_too
    cases found
    cases found_too
    exact distinct registry one.spec first second ⟨one, there, some_handle, home, rfl⟩
      ⟨other, there_too, some_handle_too, together ▸ home, same.symm⟩

/-! ### Whom instances belong to -/

/-- A reference is to an instance that a registry made canonical for a content. -/
def Belongs (pool : Pool D) (registry : RegistryId) (ref : Ref) (spec : Spec) : Prop :=
  ∃ held, pool.instance? ref = some held ∧ held.home = some registry ∧ held.spec = spec

theorem Stands.belongs {pool : Pool D} {registry : RegistryId} {ref : Ref} {spec : Spec}
    (stands : pool.Stands registry ref spec) : pool.Belongs registry ref spec := by
  obtain ⟨held, found, _, home, content⟩ := stands
  exact ⟨held, found, home, content⟩

namespace Belongs

variable {pool after : Pool D} {registry : RegistryId} {ref : Ref} {spec : Spec}

theorem spec? (belongs : pool.Belongs registry ref spec) : pool.spec? ref = some spec := by
  obtain ⟨held, found, _, rfl⟩ := belongs
  rw [Pool.spec?, found]
  rfl

theorem stands (belongs : pool.Belongs registry ref spec) (live : pool.Live ref) :
    pool.Stands registry ref spec := by
  obtain ⟨held, found, some_handle⟩ := live
  obtain ⟨_, again, home, content⟩ := belongs
  rw [found] at again
  cases again
  exact ⟨held, found, some_handle, home, content⟩

/-- To whom an instance belongs lasts. -/
theorem of_leads (belongs : pool.Belongs registry ref spec) (leads : pool.Leads after) :
    after.Belongs registry ref spec := by
  obtain ⟨held, found, home, content⟩ := belongs
  obtain ⟨handles, there⟩ := leads.stays ref held found
  exact ⟨_, there, home, content⟩

/-- What belongs to a registry is canonical already. -/
theorem canonicalize [Directory D] (belongs : pool.Belongs registry ref spec)
    (other : RegistryId) : pool.canonicalize other ref = (ref, pool.acquire ref) := by
  obtain ⟨held, found, home, _⟩ := belongs
  rw [Pool.canonicalize, found]
  dsimp only
  rw [home, if_pos Option.isSome_some]

end Belongs

/-- **Live instances that belong to one registry are told apart by their contents.** -/
theorem Distinct.eq_iff_of_belongs {pool : Pool D} (distinct : pool.Distinct)
    {registry : RegistryId} {first second : Ref} {spec content : Spec}
    (one : pool.Belongs registry first spec) (live : pool.Live first)
    (other : pool.Belongs registry second content) (live_too : pool.Live second) :
    first = second ↔ spec = content := by
  constructor
  · rintro rfl
    exact Option.some.inj (one.spec?.symm.trans other.spec?)
  · rintro rfl
    exact distinct registry spec first second (one.stands live) (other.stands live_too)

/-! ### Every operation leads on -/

theorem leads_acquire {pool : Pool D} {ref : Ref} (live : pool.Live ref) :
    pool.Leads (pool.acquire ref) := by
  refine .of_recounts (pool.recounts_acquire ref) fun other held found none_left => ?_
  have apart : ref ≠ other := by
    rintro rfl
    obtain ⟨known, there, some_handle⟩ := live
    rw [found] at there
    cases there
    exact some_handle none_left
  exact if_neg apart

theorem leads_share (pool : Pool D) (spec : Spec) : pool.Leads (pool.share spec).2 := by
  apply Leads.of_make
  intro registry ref made
  cases made

variable [Directory D]

theorem leads_release (pool : Pool D) (ref : Ref) : pool.Leads (pool.release ref) := by
  refine .of_recounts (pool.recounts_release ref) fun other _ _ _ => ?_
  rw [Nat.zero_sub, ite_self]

theorem leads_releaseAll (pool : Pool D) (refs : List Ref) : pool.Leads (pool.releaseAll refs) := by
  induction refs generalizing pool with
  | nil => exact .refl pool
  | cons ref refs ih => exact (leads_release pool ref).trans (ih (pool.release ref))

theorem leads_enter (pool : Pool D) {registry : RegistryId} {spec : Spec}
    (missing : ∀ ref, ¬ pool.Stands registry ref spec) :
    pool.Leads (pool.enter registry spec).2 := by
  have made : pool.Leads (pool.make spec (some registry)).2 := by
    apply Leads.of_make
    rintro other ref home
    cases home
    exact missing ref
  exact made.trans (.of_instances rfl)

variable [LawfulDirectory D]

namespace Kept

variable {pool : Pool D} {held : List Ref} {keys : List RegistryId}

theorem leads_canonicalFor (kept : pool.Kept held keys) {registry : RegistryId}
    (holds : registry ∈ global :: keys) (spec : Spec) :
    pool.Leads (pool.canonicalFor registry spec).2 := by
  obtain ⟨entry, found, alive⟩ := kept.alive holds
  have swept : pool.Leads (pool.sweepDead registry spec) := .of_instances rfl
  rcases canonicalFor_spec kept.sound found alive spec with
    ⟨ref, stands, interned⟩ | ⟨missing, interned⟩
  · rw [interned]
    exact swept.trans (leads_acquire stands.live)
  · rw [interned]
    exact swept.trans (leads_enter (pool.sweepDead registry spec) missing)

theorem leads_canonicalize (kept : pool.Kept held keys) {registry : RegistryId}
    (holds : registry ∈ global :: keys) {ref : Ref} (live : pool.Live ref) :
    pool.Leads (pool.canonicalize registry ref).2 := by
  obtain ⟨shared, found, some_handle⟩ := live
  rw [Pool.canonicalize, found]
  dsimp only
  split
  · exact leads_acquire ⟨shared, found, some_handle⟩
  · exact kept.leads_canonicalFor holds shared.spec

/-! ### Canonical instances -/

/-- Interning answers an instance that belongs to the registry and has the content. -/
theorem belongs_canonicalFor (kept : pool.Kept held keys) {registry : RegistryId}
    (holds : registry ∈ global :: keys) (spec : Spec) :
    (pool.canonicalFor registry spec).2.Belongs registry (pool.canonicalFor registry spec).1
      spec := by
  obtain ⟨entry, found, alive⟩ := kept.alive holds
  rcases canonicalFor_spec kept.sound found alive spec with
    ⟨ref, stands, interned⟩ | ⟨_, interned⟩
  · have swept : (pool.sweepDead registry spec).Belongs registry ref spec := stands.belongs
    rw [interned]
    exact swept.of_leads (leads_acquire stands.live)
  · rw [interned]
    exact ⟨_, (instance?_enter (pool.sweepDead registry spec) registry spec).2, rfl, rfl⟩

/-- So does making a shared spec canonical that does not belong to another registry. -/
theorem belongs_canonicalize (kept : pool.Kept held keys) {registry : RegistryId}
    (holds : registry ∈ global :: keys) {ref : Ref} {shared : Instance}
    (found : pool.instance? ref = some shared) (live : pool.Live ref)
    (free : shared.home.all (· == registry) = true) :
    (pool.canonicalize registry ref).2.Belongs registry (pool.canonicalize registry ref).1
      shared.spec := by
  cases home : shared.home with
  | none =>
    rw [Pool.canonicalize, found]
    dsimp only
    rw [home]
    exact kept.belongs_canonicalFor holds shared.spec
  | some other =>
    rw [home, Option.all_some, beq_iff_eq] at free
    have belongs : pool.Belongs registry ref shared.spec := ⟨shared, found, free ▸ home, rfl⟩
    rw [belongs.canonicalize]
    exact belongs.of_leads (leads_acquire live)

/-- The canonical instance for a shared spec has its content. -/
theorem spec?_canonicalize (kept : pool.Kept held keys) {registry : RegistryId}
    (holds : registry ∈ global :: keys) {ref : Ref} {spec : Spec}
    (content : pool.spec? ref = some spec) :
    (pool.canonicalize registry ref).2.spec? (pool.canonicalize registry ref).1 = some spec := by
  obtain ⟨shared, found, rfl⟩ := Option.map_eq_some_iff.mp content
  rw [Pool.canonicalize, found]
  dsimp only
  split
  · rw [spec?_acquire]
    exact content
  · exact (kept.belongs_canonicalFor holds shared.spec).spec?

/-- The canonical instance of a content is canonical. -/
theorem isCanonical_canonicalFor (kept : pool.Kept held keys) {registry : RegistryId}
    (holds : registry ∈ global :: keys) (spec : Spec) :
    (pool.canonicalFor registry spec).2.isCanonical (pool.canonicalFor registry spec).1 = true := by
  obtain ⟨entry, found, alive⟩ := kept.alive holds
  rcases canonicalFor_spec kept.sound found alive spec with
    ⟨ref, stands, interned⟩ | ⟨missing, interned⟩
  · rw [interned]
    exact (leads_acquire stands.live).isCanonical stands.isCanonical
  · rw [interned, isCanonical, (instance?_enter (pool.sweepDead registry spec) registry spec).2]
    rfl

/-- The canonical instance for a shared spec is canonical. -/
theorem isCanonical_canonicalize (kept : pool.Kept held keys) {registry : RegistryId}
    (holds : registry ∈ global :: keys) {ref : Ref} (live : pool.Live ref) :
    (pool.canonicalize registry ref).2.isCanonical (pool.canonicalize registry ref).1 = true := by
  obtain ⟨shared, found, some_handle⟩ := live
  rw [Pool.canonicalize, found]
  dsimp only
  split
  · next registered =>
    refine (leads_acquire ⟨shared, found, some_handle⟩).isCanonical ?_
    rw [isCanonical, found, Option.bind_some]
    exact registered
  · exact kept.isCanonical_canonicalFor holds shared.spec

/-- **Which canonical instance a shared spec has**: of the live ones with its content, the one of
the registry that the shared spec has, or of the registry that was asked if it has none. -/
theorem canonicalize_eq_iff (kept : pool.Kept held keys) (distinct : pool.Distinct)
    {registry : RegistryId} (holds : registry ∈ global :: keys) {ref entry : Ref}
    {shared canonical : Instance} (live : pool.Live ref)
    (found : pool.instance? ref = some shared) (live_entry : pool.Live entry)
    (there : pool.instance? entry = some canonical) (same : canonical.spec = shared.spec) :
    (pool.canonicalize registry ref).1 = entry ↔
      canonical.home = some (shared.home.getD registry) := by
  rw [Pool.canonicalize, found]
  dsimp only
  cases home : shared.home with
  | some other =>
    rw [if_pos Option.isSome_some, Option.getD_some,
      distinct.eq_iff_same_home found live (by rw [home]; rfl) there live_entry same.symm, home]
    exact eq_comm
  | none =>
    rw [if_neg (by simp), Option.getD_none]
    have stands (made : canonical.home = some registry) :
        pool.Stands registry entry shared.spec := by
      obtain ⟨_, again, some_handle⟩ := live_entry
      rw [there] at again
      cases again
      exact ⟨canonical, there, some_handle, made, same⟩
    obtain ⟨filed, known, alive⟩ := kept.alive holds
    rcases canonicalFor_spec kept.sound known alive shared.spec with
      ⟨other, standing, interned⟩ | ⟨missing, interned⟩
    · rw [interned]
      constructor
      · rintro rfl
        obtain ⟨_, again, _, made, _⟩ := standing
        rw [there] at again
        cases again
        exact made
      · intro made
        exact distinct registry shared.spec other entry standing (stands made)
    · rw [interned]
      constructor
      · rintro rfl
        have fresh := (instance?_enter (pool.sweepDead registry shared.spec) registry
          shared.spec).1
        exact absurd (fresh.symm.trans there) (by simp)
      · intro made
        exact absurd (stands made) (missing entry)

end Kept

end

/-!
## What operations add

A pool has a content if one of its instances has it, with or without handles.  Handles come and go
without any change in contents, and a new instance has the content that it was made for.  So no
operation brings up a content that the pool did not have and that was not given to the operation.
`Gains pool after given` says so of what becomes of a pool.

`Moves pool given after` lists the operations, each under the conditions under which it is carried
out, and the courses of several of them.  Whatever lasts through every operation lasts through every
course: the pool is led on (`Moves.leads`), and it gains no contents but those given to it
(`Moves.gains`).
-/

variable {D : Type}

/-- A spec is the content of an instance. -/
def Has (pool : Pool D) (spec : Spec) : Prop :=
  ∃ ref, pool.spec? ref = some spec

/-- What becomes of a pool: it has no contents but those it had and some that were given. -/
def Gains (pool after : Pool D) (given : List Spec) : Prop :=
  ∀ spec, after.Has spec → pool.Has spec ∨ spec ∈ given

namespace Gains

variable {pool after : Pool D} {given : List Spec}

theorem refl (pool : Pool D) (given : List Spec) : pool.Gains pool given :=
  fun _ => .inl

theorem trans {between : Pool D} (one : pool.Gains between given)
    (other : between.Gains after given) : pool.Gains after given := by
  intro spec has
  rcases other spec has with earlier | new
  · exact one spec earlier
  · exact .inr new

/-- What happens to registries alone changes no content. -/
theorem of_instances (same : after.instances = pool.instances) : pool.Gains after given := by
  rintro spec ⟨ref, found⟩
  refine .inl ⟨ref, ?_⟩
  rwa [spec?, instance?, same] at found

/-- Counting handles anew changes no content. -/
theorem of_recounts {count : Ref → Nat → Nat} (recounts : pool.Recounts after count) :
    pool.Gains after given := by
  rintro spec ⟨ref, found⟩
  refine .inl ⟨ref, ?_⟩
  rwa [spec?, recounts, Option.map_map] at found

/-- A new instance has the content it was made for. -/
theorem of_make (pool : Pool D) (spec : Spec) (home : Option RegistryId) :
    pool.Gains (pool.make spec home).2 [spec] := by
  rintro content ⟨ref, found⟩
  rw [spec?, instance?_make] at found
  split at found
  · cases found
    exact .inr List.mem_cons_self
  · exact .inl ⟨ref, found⟩

end Gains

/-! ### Every operation -/

theorem not_has_empty [Directory D] (spec : Spec) : ¬ (empty : Pool D).Has spec := by
  rintro ⟨ref, found⟩
  cases found

theorem gains_acquire (pool : Pool D) (ref : Ref) (given : List Spec) :
    pool.Gains (pool.acquire ref) given :=
  .of_recounts (pool.recounts_acquire ref)

theorem gains_search (pool : Pool D) (spec : Spec) (refs : List Ref) (given : List Spec) :
    pool.Gains (pool.search spec refs).2.2 given := by
  induction refs generalizing pool with
  | nil => exact .refl pool given
  | cons ref refs ih =>
    rw [search]
    split
    · exact ih pool
    · dsimp only
      split
      · exact gains_acquire pool ref given
      · exact (gains_acquire pool ref given).trans (ih (pool.acquire ref))

variable [Directory D]

theorem gains_release (pool : Pool D) (ref : Ref) (given : List Spec) :
    pool.Gains (pool.release ref) given :=
  .of_recounts (pool.recounts_release ref)

theorem gains_releaseAll (pool : Pool D) (refs : List Ref) (given : List Spec) :
    pool.Gains (pool.releaseAll refs) given := by
  induction refs generalizing pool with
  | nil => exact .refl pool given
  | cons ref refs ih => exact (gains_release pool ref given).trans (ih (pool.release ref))

theorem gains_enter (pool : Pool D) (registry : RegistryId) (spec : Spec) :
    pool.Gains (pool.enter registry spec).2 [spec] :=
  (Gains.of_make pool spec (some registry)).trans (.of_instances rfl)

/-- Interning brings up no content but the one that is asked for. -/
theorem gains_canonicalFor (pool : Pool D) (registry : RegistryId) (spec : Spec) :
    pool.Gains (pool.canonicalFor registry spec).2 [spec] := by
  have swept : pool.Gains (pool.sweepDead registry spec) [spec] := .of_instances rfl
  have searched := swept.trans (gains_search _ spec
    (Directory.candidates ((pool.sweepDead registry spec).directory registry) spec) [spec])
  rw [canonicalFor_of_search rfl]
  cases (Pool.search _ spec _).1 with
  | some ref => exact searched.trans (gains_releaseAll _ _ _)
  | none => exact (searched.trans (gains_enter _ registry spec)).trans (gains_releaseAll _ _ _)

/-- The canonical instance for a shared spec has a content that was there. -/
theorem gains_canonicalize (pool : Pool D) (registry : RegistryId) (ref : Ref)
    (given : List Spec) : pool.Gains (pool.canonicalize registry ref).2 given := by
  rw [canonicalize]
  split
  · exact .refl pool given
  · next shared found =>
    split
    · exact gains_acquire pool ref given
    · intro spec has
      rcases gains_canonicalFor pool registry shared.spec spec has with earlier | same
      · exact .inl earlier
      · refine .inl ⟨ref, ?_⟩
        rw [List.mem_singleton.mp same, spec?, found]
        rfl

/-! ### Courses -/

variable [LawfulDirectory D]

/-- Courses of operations from one pool to another one, with the specs that are given to them. -/
inductive Moves : Pool D → List Spec → Pool D → Prop
  /-- Nothing is done. -/
  | refl (pool : Pool D) (given : List Spec) : Moves pool given pool
  /-- One course goes on where another one ends. -/
  | trans {pool between after : Pool D} {given : List Spec} :
      Moves pool given between → Moves between given after → Moves pool given after
  /-- Another handle is taken to an instance that has one. -/
  | acquire {pool : Pool D} {ref : Ref} (given : List Spec) :
      pool.Live ref → Moves pool given (pool.acquire ref)
  /-- Handles are given back. -/
  | releaseAll (pool : Pool D) (refs : List Ref) (given : List Spec) :
      Moves pool given (pool.releaseAll refs)
  /-- A spec is shared. -/
  | share (pool : Pool D) (spec : Spec) : Moves pool [spec] (pool.share spec).2
  /-- A spec is interned in a registry that is alive. -/
  | canonicalFor {pool : Pool D} {held : List Ref} {keys : List RegistryId}
      {registry : RegistryId} (spec : Spec) :
      pool.Kept held keys → registry ∈ global :: keys →
        Moves pool [spec] (pool.canonicalFor registry spec).2
  /-- A shared spec is made canonical by a registry that is alive. -/
  | canonicalize {pool : Pool D} {held : List Ref} {keys : List RegistryId}
      {registry : RegistryId} {ref : Ref} (given : List Spec) :
      pool.Kept held keys → registry ∈ global :: keys → pool.Live ref →
        Moves pool given (pool.canonicalize registry ref).2
  /-- Something is done to registries alone. -/
  | registries {pool after : Pool D} (given : List Spec) :
      after.instances = pool.instances → Moves pool given after

namespace Moves

variable {pool after : Pool D} {given : List Spec}

theorem leads (moves : pool.Moves given after) : pool.Leads after := by
  induction moves with
  | refl pool given => exact .refl pool
  | trans _ _ one other => exact one.trans other
  | acquire given live => exact leads_acquire live
  | releaseAll pool refs given => exact leads_releaseAll pool refs
  | share pool spec => exact leads_share pool spec
  | canonicalFor spec kept holds => exact kept.leads_canonicalFor holds spec
  | canonicalize given kept holds live => exact kept.leads_canonicalize holds live
  | registries given same => exact .of_instances same

theorem gains (moves : pool.Moves given after) : pool.Gains after given := by
  induction moves with
  | refl pool given => exact .refl pool given
  | trans _ _ one other => exact one.trans other
  | acquire given live => exact gains_acquire _ _ given
  | releaseAll pool refs given => exact gains_releaseAll pool refs given
  | share pool spec => exact .of_make pool spec none
  | canonicalFor spec kept holds => exact gains_canonicalFor _ _ spec
  | canonicalize given kept holds live => exact gains_canonicalize _ _ _ given
  | registries given same => exact .of_instances same

end Moves

end Mounts.Pool
