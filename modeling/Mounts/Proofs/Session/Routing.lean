import Mounts.Proofs.Session.Mounting
import Mounts.Proofs.Spec.Wire
import Mounts.Proofs.Table.Routing

/-!
# Requests in sessions

After any run of a session, requests are routed as the tables of that moment say: in place and over
a message, for locations, and while others mount and unmount.
-/

namespace Mounts.Session

set_option autoImplicit false

/-!
## Routing over whole runs

A location asks for its mount by a message, and a daemon that reads the message routes what it
reads.  That gives the mount that the daemon would find for the location without a message, as long
as the path of the location holds no NUL: a peer takes the path to end there, and so does the
message (`routing_over_wire`).

In tables whose mounts are all of the shared registry every mount is found at its own scope, with
one exception.  A scope that is written as a directory covers the directory too, and it is the
longer one, so it takes requests from a mount at the directory itself (`lookup_own_scope`).
-/

open Message (Cursor Draft Writer)

variable {D : Type}

/-! ### Asking by a message -/

/-- What a location asks for in a message is its mount at its path, up to a NUL. -/
theorem lookupSpec_announced (pool : Pool D) (table : Table) (spec : Spec) (path : String) :
    table.lookupSpec pool (spec.announced (some path)) =
      table.lookup pool spec (Text.untilNul path) :=
  Table.lookup_congr rfl _

variable [Directory D] [LawfulDirectory D]

/-- **A location asks for its mount by a message as it would without one, up to the first NUL in its
path.** -/
theorem routing_over_wire (steps : List SessionStep)
    (built : ∀ step ∈ steps, ∀ spec ∈ step.given, spec.Built) (session : Session D)
    (run : session = (start : Session D).after steps) (name : String) (location : Location)
    (filed : session.locations.get? name = some location) (table : Table) :
    ∃ spec, session.pool.spec? location.ref = some spec ∧
      ((spec.toValue (some location.path)).Fits →
        spec.writeTo (some location.path) Writer.empty = (none, ⟨location.toWire spec⟩) ∧
        ∃ request after,
          Spec.read (Cursor.ofBytes (location.toWire spec)) = .ok (request, after) ∧
          table.lookupSpec session.pool request =
            table.lookup session.pool spec (Text.untilNul location.path) ∧
          (Text.hasNul location.path = false →
            table.lookupSpec session.pool request =
              table.lookup session.pool spec location.path)) := by
  have kept : session.Kept := run ▸ kept_after steps
  obtain ⟨held, found, _⟩ := kept.pool.live (mem_held_of_location filed)
  have content : session.pool.spec? location.ref = some held.spec := by
    rw [Pool.spec?, found]
    rfl
  have has : ((start : Session D).after steps).pool.Has held.spec := run ▸ ⟨location.ref, content⟩
  obtain ⟨step, among, given⟩ := given_of_has_after steps held.spec has
  have valid : held.spec.Valid := (built step among held.spec given).valid
  refine ⟨held.spec, content, fun fits => ?_⟩
  refine ⟨Spec.writeTo_of_valid valid (some location.path) fits Writer.empty, ?_⟩
  have alone : (Cursor.ofBytes (location.toWire held.spec)).rest =
      held.spec.toWire (some location.path) ++ [] := (List.append_nil _).symm
  have routed := lookupSpec_announced session.pool table held.spec location.path
  refine ⟨_, _, Spec.read_toWire valid fits rfl alone, routed, fun clean => ?_⟩
  rw [routed, Text.untilNul_eq_self clean]

/-- Mounts a spec and goes to a path on it. -/
def visiting (path : String) : List SessionStep :=
  [.registry (.share "a" Spec.guest), .table (.make "t"), .table (.mount "t" "a" none),
    .location (.ofSpec "l" Spec.guest path)]

/-- The session in which the spec is mounted and there is a location on it. -/
def visited (path : String) : Session Buckets :=
  start.after (visiting path)

/-- A file below the scope of a mount is asked for in a message as without one. -/
theorem routing_over_wire_upload :
    ∃ request after,
      Spec.read (Cursor.ofBytes (Location.toWire Spec.guest ⟨⟨1⟩, "/pub/upload"⟩)) =
        .ok (request, after) ∧
      Table.lookupSpec (visited "/pub/upload").pool ⟨[⟨1⟩]⟩ request = some ⟨1⟩ := by
  have built : ∀ step ∈ visiting "/pub/upload", ∀ spec ∈ step.given, spec.Built := by
    simp [visiting, SessionStep.given, RegistryStep.given, LocationStep.given, Spec.guest_built]
  have filed : (visited "/pub/upload").locations.get? "l" = some ⟨⟨1⟩, "/pub/upload"⟩ := by
    decide +kernel
  have there : (visited "/pub/upload").pool.spec? ⟨1⟩ = some Spec.guest := by decide +kernel
  have found : Table.lookup (visited "/pub/upload").pool ⟨[⟨1⟩]⟩ Spec.guest "/pub/upload" =
      some ⟨1⟩ := by decide +kernel
  have fits : (Spec.guest.toValue (some "/pub/upload")).Fits := by
    rw [Message.Value.Fits]
    decide +kernel
  obtain ⟨spec, content, routed⟩ := routing_over_wire (visiting "/pub/upload") built
    (visited "/pub/upload") rfl "l" ⟨⟨1⟩, "/pub/upload"⟩ filed ⟨[⟨1⟩]⟩
  have same : spec = Spec.guest := Option.some.inj (content.symm.trans there)
  rw [same] at routed
  obtain ⟨_, request, after, read, _, clean⟩ := routed fits
  exact ⟨request, after, read, (clean (by decide)).trans found⟩

/-- A path that goes on behind the scope of a mount with a NUL is asked for in a message as if it
ended there, and the mount is found that does not serve the whole path. -/
theorem nul_changes_route :
    (visited "/pub\x00x").locations.get? "l" = some ⟨⟨1⟩, "/pub\x00x"⟩ ∧
    (visited "/pub\x00x").tables.get? "t" = some ⟨[⟨1⟩]⟩ ∧
    (visited "/pub\x00x").pool.spec? ⟨1⟩ = some Spec.guest ∧
    ∃ request after,
      Spec.read (Cursor.ofBytes (Location.toWire Spec.guest ⟨⟨1⟩, "/pub\x00x"⟩)) =
        .ok (request, after) ∧
      Table.lookupSpec (visited "/pub\x00x").pool ⟨[⟨1⟩]⟩ request = some ⟨1⟩ ∧
      Table.lookup (visited "/pub\x00x").pool ⟨[⟨1⟩]⟩ Spec.guest "/pub\x00x" = none := by
  have fits : (Spec.guest.toValue (some "/pub\x00x")).Fits := by
    rw [Message.Value.Fits]
    decide +kernel
  have alone : (Cursor.ofBytes (Location.toWire Spec.guest ⟨⟨1⟩, "/pub\x00x"⟩)).rest =
      Spec.guest.toWire (some "/pub\x00x") ++ [] := (List.append_nil _).symm
  have read := Spec.read_toWire Spec.guest_built.valid fits rfl alone
  refine ⟨?_, ?_, ?_, _, _, read, ?_, ?_⟩
  · decide +kernel
  · decide +kernel
  · decide +kernel
  · decide +kernel
  · decide +kernel

/-! ### Mounts at their own scopes -/

/-- A table whose mounts are all of one registry has one mount of each content. -/
theorem single_of_home {session : Session D} (kept : session.Kept) (orderly : session.Orderly)
    {name : String} {table : Table} (filed : session.tables.get? name = some table)
    {registry : RegistryId}
    (homes : ∀ mount ∈ table.mounts, ∀ held, session.pool.instance? mount = some held →
      held.home = some registry) : table.Single session.pool := by
  intro first listed second listed_too spec content content_too
  obtain ⟨one, there, rfl⟩ := Option.map_eq_some_iff.mp content
  obtain ⟨other, there_too, same⟩ := Option.map_eq_some_iff.mp content_too
  have live {mount : Ref} (inside : mount ∈ table.mounts) : session.pool.Live mount :=
    kept.pool.live (mem_held_of_table filed inside)
  have home := homes first listed one there
  have home_too := homes second listed_too other there_too
  exact (orderly.distinct.eq_iff_same_home there (live listed)
    (home ▸ Option.isSome_some) there_too (live listed_too) same.symm).mpr
      (home.trans home_too.symm)

/-- **Every mount is found at its own scope, unless another writes this scope as a directory.** -/
theorem lookup_own_scope (steps : List SessionStep) (session : Session D)
    (run : session = (start : Session D).after steps) (name : String) (table : Table)
    (filed : session.tables.get? name = some table)
    (shared : ∀ mount ∈ table.mounts, ∀ held, session.pool.instance? mount = some held →
      held.home = some Pool.global) (mount : Ref) (listed : mount ∈ table.mounts) :
    ∃ spec, session.pool.spec? mount = some spec ∧
      (∀ other ∈ table.mounts, ∀ content, session.pool.spec? other = some content →
        content.Opens spec → table.lookupSpec session.pool spec = some other) ∧
      ((∀ other ∈ table.mounts, ∀ content, session.pool.spec? other = some content →
        ¬ content.Opens spec) → table.lookupSpec session.pool spec = some mount) := by
  have kept : session.Kept := run ▸ kept_after steps
  have orderly : session.Orderly := run ▸ orderly_after steps
  have single := single_of_home kept orderly filed shared
  obtain ⟨held, found, _⟩ := kept.pool.live (mem_held_of_table filed listed)
  have content : session.pool.spec? mount = some held.spec := by
    rw [Pool.spec?, found]
    rfl
  refine ⟨held.spec, content, ?opened, ?closed⟩
  case opened =>
    intro other listed_too further there opens
    exact Table.lookupSpec_of_opens single listed_too there opens
  case closed =>
    intro nothing
    exact Table.lookupSpec_of_not_opens single listed content nothing

/-- The guest spec with its scope written as a directory. -/
def guestDirectory : Spec :=
  ⟨Spec.guest.params, "/pub/"⟩

/-- Mounts a spec twice, once with its scope written as a directory. -/
def mountingTwice : List SessionStep :=
  [.registry (.canonicalFor "a" globalName Spec.guest),
    .registry (.canonicalFor "b" globalName guestDirectory), .table (.make "t"),
    .table (.mount "t" "a" none), .table (.mount "t" "b" none)]

/-- The session in which both are mounted. -/
def mountedTwice : Session Buckets :=
  start.after mountingTwice

/-- The scope that is written as a directory is found for both mounts. -/
theorem lookup_own_scope_twice :
    Table.lookupSpec mountedTwice.pool ⟨[⟨0⟩, ⟨1⟩]⟩ Spec.guest = some ⟨1⟩ ∧
    Table.lookupSpec mountedTwice.pool ⟨[⟨0⟩, ⟨1⟩]⟩ guestDirectory = some ⟨1⟩ := by
  have filed : mountedTwice.tables.get? "t" = some ⟨[⟨0⟩, ⟨1⟩]⟩ := by decide +kernel
  have one : mountedTwice.pool.instance? ⟨0⟩ = some ⟨Spec.guest, some Pool.global, 2⟩ := by
    decide +kernel
  have other : mountedTwice.pool.instance? ⟨1⟩ = some ⟨guestDirectory, some Pool.global, 2⟩ := by
    decide +kernel
  have shared : ∀ mount ∈ (⟨[⟨0⟩, ⟨1⟩]⟩ : Table).mounts, ∀ held,
      mountedTwice.pool.instance? mount = some held → held.home = some Pool.global := by
    simp [one, other]
  have directory : guestDirectory.Opens Spec.guest := by decide +kernel
  have neither : ¬ Spec.guest.Opens guestDirectory ∧ ¬ guestDirectory.Opens guestDirectory := by
    decide +kernel
  have closed : ∀ mount ∈ (⟨[⟨0⟩, ⟨1⟩]⟩ : Table).mounts, ∀ content,
      mountedTwice.pool.spec? mount = some content → ¬ content.Opens guestDirectory := by
    simp [Pool.spec?, one, other, neither]
  obtain ⟨spec, content, opened, _⟩ :=
    lookup_own_scope mountingTwice mountedTwice rfl "t" _ filed shared ⟨0⟩ (by simp)
  obtain ⟨spec_too, content_too, _, found⟩ :=
    lookup_own_scope mountingTwice mountedTwice rfl "t" _ filed shared ⟨1⟩ (by simp)
  rw [Pool.spec?, one] at content
  rw [Pool.spec?, other] at content_too
  cases content
  cases content_too
  refine ⟨opened ⟨1⟩ (by simp) guestDirectory ?_ directory, found closed⟩
  rw [Pool.spec?, other]
  rfl

/-- A mount is not found at its own scope. -/
theorem mount_shadowed_by_directory :
    mountedTwice.tables.get? "t" = some ⟨[⟨0⟩, ⟨1⟩]⟩ ∧
    (∀ mount ∈ [(⟨0⟩ : Ref), ⟨1⟩],
      (mountedTwice.pool.instance? mount).bind (·.home) = some Pool.global) ∧
    mountedTwice.pool.spec? ⟨0⟩ = some Spec.guest ∧
    Table.lookupSpec mountedTwice.pool ⟨[⟨0⟩, ⟨1⟩]⟩ Spec.guest ≠ some ⟨0⟩ := by
  decide +kernel

/-!
## Asking for a mount

A location has two ways to tell a daemon which mount it asks for.  Its request spec is a copy of its
spec with the path of the location as the scope.  Its message holds the spec with the path
announced, and no copy is made.

Both come to the same: what is read from the message is the request spec, whatever the path holds,
and neither way changes the spec that the location is on (`request_by_message`).
-/

/-- A content after a run whose specs were built is valid. -/
theorem valid_of_spec? {steps : List SessionStep}
    (built : ∀ step ∈ steps, ∀ spec ∈ step.given, spec.Built) {ref : Ref} {spec : Spec}
    (content : ((start : Session D).after steps).pool.spec? ref = some spec) : spec.Valid := by
  obtain ⟨step, among, given⟩ := given_of_has_after steps spec ⟨ref, content⟩
  exact (built step among spec given).valid

/-- **A location asks by a message for what it asks for by its request spec.** -/
theorem request_by_message (steps : List SessionStep)
    (built : ∀ step ∈ steps, ∀ spec ∈ step.given, spec.Built) (session : Session D)
    (run : session = (start : Session D).after steps) (name : String) (location : Location)
    (filed : session.locations.get? name = some location) :
    ∃ spec, session.pool.spec? location.ref = some spec ∧
      (∀ writer, (spec.writeTo (some location.path) writer).1 = none ↔
        (spec.toValue (some location.path)).Fits) ∧
      (∀ writer written, spec.writeTo (some location.path) writer = (none, written) →
        written.bytes = writer.bytes ++ location.toWire spec ∧
        ∀ (later : List Draft) message, message = (written.extendAll later).bytes →
          Spec.read ⟨message, writer.bytes.length, none⟩ =
            .ok (location.requestSpec spec, ⟨message, written.bytes.length, none⟩)) ∧
      session.apply (.location (.describe name)) =
        (.location location spec (location.requestSpec spec) (location.toWire spec), session) ∧
      ∀ more, (session.after more).pool.spec? location.ref = some spec := by
  have kept : session.Kept := run ▸ kept_after steps
  obtain ⟨spec, content⟩ := (kept.pool.live (mem_held_of_location filed)).content
  have valid : spec.Valid := valid_of_spec? built (run ▸ content)
  refine ⟨spec, content, ?writable, ?read, ?described, ?lasts⟩
  case writable =>
    exact Spec.writeTo_faultless_iff valid (some location.path)
  case read =>
    intro writer written done
    obtain ⟨fits, whole⟩ := Spec.fits_of_writeTo done
    refine ⟨whole, ?_⟩
    rintro later message rfl
    obtain ⟨added, longer⟩ := written.bytes_extendAll later
    rw [longer, whole]
    exact Spec.read_written valid fits rfl writer.bytes added
  case described =>
    rw [apply, perform?, onLocations, filed]
    dsimp only [bind, Option.bind]
    rw [content]
    rfl
  case lasts =>
    intro more
    exact (kept.leads_after more).spec? content

/-- The request for a path with a NUL in it is the request for what comes before. -/
theorem request_by_message_cut :
    ∃ after, Spec.read (Cursor.ofBytes (Location.toWire Spec.guest ⟨⟨1⟩, "/pub\x00x"⟩)) =
        .ok (Location.requestSpec Spec.guest ⟨⟨1⟩, "/pub\x00x"⟩, after) ∧
      Location.requestSpec Spec.guest ⟨⟨1⟩, "/pub\x00x"⟩ = Spec.guest := by
  have built : ∀ step ∈ visiting "/pub\x00x", ∀ spec ∈ step.given, spec.Built := by
    simp [visiting, SessionStep.given, RegistryStep.given, LocationStep.given, Spec.guest_built]
  have filed : (visited "/pub\x00x").locations.get? "l" = some ⟨⟨1⟩, "/pub\x00x"⟩ := by
    decide +kernel
  have there : (visited "/pub\x00x").pool.spec? ⟨1⟩ = some Spec.guest := by decide +kernel
  have faultless : (Spec.guest.writeTo (some "/pub\x00x") .empty).1 = none := by decide +kernel
  obtain ⟨spec, content, _, read, _⟩ := request_by_message (visiting "/pub\x00x") built
    (visited "/pub\x00x") rfl "l" ⟨⟨1⟩, "/pub\x00x"⟩ filed
  cases content.symm.trans there
  obtain ⟨whole, reads⟩ := read .empty _ (Prod.ext faultless rfl)
  exact ⟨_, reads [] _ whole.symm, by decide +kernel⟩

/-!
## What mounting and unmounting spare

A daemon mounts and unmounts while others ask for their mounts.  What it does with one spec should
not show in the answers to requests that this spec does not serve best.

After any run, a mount takes over the requests that it serves and for which there was nothing or a
shorter scope, and an unmount gives up those that the spec answered, to shorter scopes or to
nothing.  All other answers stay what they were, and what was mounted and unmounted again leaves no
trace (`mounting_spares_others`).
-/

/-- **Mounting and unmounting change the answers that they must change, and no others.** -/
theorem mounting_spares_others (steps : List SessionStep) (session : Session D)
    (run : session = (start : Session D).after steps) (name : String) (table : Table)
    (filed : session.tables.get? name = some table) :
    (∀ spec removed left after, table.unmount session.pool spec = (removed, left, after) →
      left.mounts = table.mounts.filter (fun mount => session.pool.spec? mount ≠ some spec) ∧
      left.contents after = (table.contents session.pool).filter (fun other => other ≠ spec) ∧
      ∀ query path,
        (table.served? session.pool query path ≠ some spec →
          left.served? after query path = table.served? session.pool query path) ∧
        (table.served? session.pool query path = some spec →
          ∀ next ∈ left.served? after query path,
            next.scope.utf8ByteSize < spec.scope.utf8ByteSize)) ∧
    (∀ ref ∈ session.held, ∃ spec, session.pool.spec? ref = some spec ∧
      ∀ mounted longer after, table.mount session.pool ref = (mounted, longer, after) →
        after.spec? mounted = some spec ∧
        (∀ query path,
          (spec.TakesOver query path (table.served? session.pool query path) →
            longer.served? after query path = some spec) ∧
          (¬ spec.TakesOver query path (table.served? session.pool query path) →
            longer.served? after query path = table.served? session.pool query path)) ∧
        (spec ∉ table.contents session.pool →
          ∀ later, after.Leads later →
            ∀ removed left last, longer.unmount later spec = (removed, left, last) →
              left = table ∧
              ∀ query path,
                left.served? last query path = table.served? session.pool query path)) := by
  have kept : session.Kept := run ▸ kept_after steps
  have lives : ∀ mount ∈ table.mounts, session.pool.Live mount := fun mount listed =>
    kept.pool.live (mem_held_of_table filed listed)
  refine ⟨?unmounting, ?mounting⟩
  case unmounting =>
    intro spec removed left after unmounted
    have mounts := Table.mounts_unmount session.pool table spec
    have contents := Table.contents_unmount lives spec
    rw [unmounted] at mounts contents
    refine ⟨mounts, contents, fun query path => ⟨?others, ?answered⟩⟩
    case others =>
      intro others
      have spared := Table.served?_unmount lives others
      rwa [unmounted] at spared
    case answered =>
      intro answered
      have shorter := Table.size_of_served?_unmount lives answered
      rwa [unmounted] at shorter
  case mounting =>
    intro ref holds
    have live := kept.pool.live holds
    obtain ⟨spec, content⟩ := live.content
    refine ⟨spec, content, fun mounted longer after done => ⟨?there, ?answers, ?restored⟩⟩
    case there =>
      have there := Table.spec?_mount table kept.pool content
      rwa [done] at there
    case answers =>
      intro query path
      constructor
      · intro takes_over
        have answered := Table.served?_mount kept.pool live content lives takes_over
        rwa [done] at answered
      · intro below
        have spared := Table.served?_mount_below kept.pool live content lives below
        rwa [done] at spared
    case restored =>
      intro absent later goes_on removed left last unmounted
      have leads := Table.leads_mount table kept.pool live
      rw [done] at leads
      have all_along := (leads.trans goes_on).trans (Table.leads_unmount later longer spec)
      have restored : (longer.unmount later spec).2.1 = table := by
        have back := Table.unmount_mount kept.pool live content lives absent later
        rw [done] at back
        exact back goes_on
      rw [unmounted] at all_along restored
      cases restored
      refine ⟨rfl, fun query path => ?_⟩
      exact Table.served?_congr (Table.contents_of_leads all_along lives) query path

/-- The guest spec at the top. -/
def guestTop : Spec :=
  ⟨Spec.guest.params, "/"⟩

/-- Mounts a spec at the top and shares it with a scope below. -/
def nesting : List SessionStep :=
  [.registry (.share "a" guestTop), .table (.make "t"), .table (.mount "t" "a" none),
    .registry (.share "b" Spec.guest)]

/-- The session in which the top is mounted. -/
def nested : Session Buckets :=
  start.after nesting

/-- The mount below takes over what lies below it while it is there, and leaves the rest to the
mount at the top. -/
theorem mounting_spares_others_nested :
    ∃ mounted longer after, Table.mount nested.pool ⟨[⟨1⟩]⟩ ⟨2⟩ = (mounted, longer, after) ∧
      longer.served? after Spec.guest "/pub/upload" = some Spec.guest ∧
      longer.served? after Spec.guest "/public" = some guestTop ∧
      (longer.unmount after Spec.guest).2.1 = ⟨[⟨1⟩]⟩ ∧
      ∀ next ∈ (Table.unmount nested.pool ⟨[⟨1⟩]⟩ guestTop).2.1.served?
        (Table.unmount nested.pool ⟨[⟨1⟩]⟩ guestTop).2.2 Spec.guest "/public",
          next.scope.utf8ByteSize < 1 := by
  have filed : nested.tables.get? "t" = some ⟨[⟨1⟩]⟩ := by decide +kernel
  have holds : (⟨2⟩ : Ref) ∈ nested.held := by decide +kernel
  have shared : nested.pool.spec? ⟨2⟩ = some Spec.guest := by decide +kernel
  have absent : Spec.guest ∉ Table.contents nested.pool ⟨[⟨1⟩]⟩ := by decide +kernel
  have below : Spec.guest.TakesOver Spec.guest "/pub/upload"
      (Table.served? nested.pool ⟨[⟨1⟩]⟩ Spec.guest "/pub/upload") := by decide +kernel
  have aside : ¬ Spec.guest.TakesOver Spec.guest "/public"
      (Table.served? nested.pool ⟨[⟨1⟩]⟩ Spec.guest "/public") := by decide +kernel
  have top : Table.served? nested.pool ⟨[⟨1⟩]⟩ Spec.guest "/public" = some guestTop := by
    decide +kernel
  obtain ⟨unmounting, mounting⟩ := mounting_spares_others nesting nested rfl "t" _ filed
  obtain ⟨spec, content, spares⟩ := mounting ⟨2⟩ holds
  cases content.symm.trans shared
  obtain ⟨_, answers, back⟩ := spares _ _ _ rfl
  obtain ⟨_, _, given_up⟩ := unmounting guestTop _ _ _ rfl
  refine ⟨_, _, _, rfl, (answers _ _).1 below, ((answers _ _).2 aside).trans top, ?_, ?_⟩
  · exact (back absent _ (.refl _) _ _ _ rfl).1
  · exact (given_up _ _).2 top

end Mounts.Session
