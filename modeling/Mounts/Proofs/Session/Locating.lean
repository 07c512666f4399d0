import Mounts.Proofs.Session.Mounting

/-!
# Locations over whole runs

The instance of a location that is made of a spec belongs to the shared registry.  So does that of
a location on a shared spec which is not canonical or canonical there, and those of all locations
that are derived from them.

The shared registry has one live instance of a content at a time.  So such locations are equal
exactly if the contents of their instances and their paths are, however long ago they were made and
whatever was dropped in between (`location_identity_after`).
-/

namespace Mounts

set_option autoImplicit false

variable {D : Type}

/-! ## What steps do to locations -/

namespace Session

variable [Directory D]

theorem after_append (session : Session D) (earlier later : List SessionStep) :
    session.after (earlier ++ later) = (session.after earlier).after later :=
  List.foldl_append

variable {session : Session D}

theorem locations_execute (session : Session D) {action : Action}
    (elsewhere : action.relocates = false) :
    (session.execute action).2.locations = session.locations := by
  cases action with
  | fileLocation | dropLocation => cases elsewhere
  | mount name table ref target =>
    cases target with
    | none => rfl
    | some target => rfl
  | tell | makeRegistry | copyRegistry | dropRegistry | fileRef | dropRef | makeTable | dropTable
  | unmount => rfl

/-- **A step leaves all locations as they are, drops one, or files one that it makes.** -/
theorem apply_cases_of_locations (session : Session D) (step : SessionStep) :
    (session.apply step).2.locations = session.locations ∨
    (∃ name, step = .location (.drop name) ∧
      (session.apply step).2.locations = session.locations.erase name ∧
        (session.apply step).1 = .flag (session.locations.get? name).isSome) ∨
    (∃ inner target source path, step = .location inner ∧ inner.subject? = some target ∧
      session.Makes inner source path ∧
        (session.apply step).2 = session.fileLocation target
          ⟨(source.take session.pool).1, path⟩ (source.take session.pool).2 ∧
        ((session.apply step).1 = .nothing ∨ (session.apply step).1 = .flag true)) := by
  rcases session.apply_cases step with same | ⟨action, ⟨-, -, locates⟩, same⟩
  · rw [same]
    exact .inl rfl
  · rw [same]
    cases locates with
    | elsewhere elsewhere => exact .inl (session.locations_execute elsewhere)
    | drop name => exact .inr (.inl ⟨name, rfl, rfl, rfl⟩)
    | @file inner target source path _ subject makes told =>
      exact .inr (.inr ⟨inner, target, source, path, rfl, subject, makes, rfl, told⟩)

/-! ## Steps under one name -/

/-- Whether a step drops the location of a name, or files another one under it. -/
def replaces (session : Session D) (step : SessionStep) (name : String) : Bool :=
  match step with
  | .location inner =>
    inner.subject? == some name &&
      ((session.apply step).1 != .unknown && (session.apply step).1 != .flag false)
  | _ => false

/-- A location that no step replaces is where it was. -/
theorem get?_locations_apply {step : SessionStep} {name : String}
    (spared : session.replaces step name = false) :
    (session.apply step).2.locations.get? name = session.locations.get? name := by
  rcases session.apply_cases_of_locations step with
    same | ⟨dropped, rfl, erased, told⟩ |
      ⟨inner, target, source, path, rfl, subject, _, filed, told⟩
  · rw [same]
  · rw [erased, Keyed.get?_erase]
    split
    · next here =>
      rw [replaces, told, here] at spared
      cases missing : session.locations.get? dropped with
      | none => rw [here, missing]
      | some location =>
        rw [missing] at spared
        simp [LocationStep.subject?] at spared
    · rfl
  · have apart : name ≠ target := by
      rintro rfl
      rw [replaces, subject] at spared
      rcases told with told | told
      · simp [told] at spared
      · simp [told] at spared
    rw [filed]
    change (session.locations.insert target _).get? name = _
    rw [Keyed.get?_insert, if_neg apart]

/-- Whether none of several steps replaces the location of a name. -/
def spares (session : Session D) (name : String) : List SessionStep → Bool
  | [] => true
  | step :: steps => !session.replaces step name && (session.apply step).2.spares name steps

/-! ## Steps on shared specs -/

/-- Whether a step makes no location on a shared spec that another registry than the shared one made
canonical. -/
def sharesHome (session : Session D) : SessionStep → Bool
  | .location (.ofRef _ ref _) =>
    ((session.refs.get? ref).bind session.pool.instance?).all fun held =>
      held.home.all (· == Pool.global)
  | _ => true

/-- Whether none of several steps does. -/
def sharesHomes (session : Session D) : List SessionStep → Bool
  | [] => true
  | step :: steps => session.sharesHome step && (session.apply step).2.sharesHomes steps

/-- The instances of all locations belong to the shared registry. -/
def AtHome (session : Session D) : Prop :=
  ∀ name location, session.locations.get? name = some location →
    ∃ spec, session.pool.Belongs Pool.global location.ref spec

theorem atHome_start : (start : Session D).AtHome := by
  intro name location filed
  cases filed

variable [LawfulDirectory D]

/-- The instance of a location that is made belongs to the shared registry. -/
theorem Kept.belongs_of_makes (kept : session.Kept) (home : session.AtHome) {step : LocationStep}
    {source : Source} {path : String} (makes : session.Makes step source path)
    (shares : session.sharesHome (.location step) = true) :
    ∃ spec, (source.take session.pool).2.Belongs Pool.global (source.take session.pool).1 spec := by
  have derived {name : String} {location : Location}
      (named : session.locations.get? name = some location) :
      ∃ spec, (session.pool.acquire location.ref).Belongs Pool.global location.ref spec := by
    obtain ⟨spec, belongs⟩ := home _ _ named
    have live := kept.pool.live (mem_held_of_location named)
    exact ⟨spec, belongs.of_leads (Pool.leads_acquire live)⟩
  cases makes with
  | ofSpec target spec path =>
    exact ⟨spec, kept.pool.belongs_canonicalFor List.mem_cons_self spec⟩
  | ofRef target path named =>
    next ref shared =>
    have live := kept.pool.live (mem_held_of_ref named)
    obtain ⟨held, found, _⟩ := id live
    rw [sharesHome, named, Option.bind_some, found] at shares
    exact ⟨held.spec, kept.pool.belongs_canonicalize List.mem_cons_self found live shares⟩
  | resolve target relative named => exact derived named
  | parent target named enclosing => exact derived named

/-- A step that files a location leads on from the pool in which the location was made. -/
theorem leads_fileLocation (session : Session D) (name : String) (location : Location)
    (pool : Pool D) : pool.Leads (session.fileLocation name location pool).pool :=
  (moves_letGoRef pool ((session.locations.get? name).map Location.ref) []).leads

/-- Every such step leaves all locations at home. -/
theorem AtHome.apply (home : session.AtHome) (kept : session.Kept) {step : SessionStep}
    (shares : session.sharesHome step = true) : (session.apply step).2.AtHome := by
  intro name location there
  have old (earlier : session.locations.get? name = some location) :
      ∃ spec, (session.apply step).2.pool.Belongs Pool.global location.ref spec :=
    (home name location earlier).imp fun spec belongs =>
      belongs.of_leads (kept.moves_apply step).leads
  rcases session.apply_cases_of_locations step with
    same | ⟨dropped, _, erased, _⟩ | ⟨inner, target, source, path, rfl, _, makes, filed, _⟩
  · rw [same] at there
    exact old there
  · rw [erased, Keyed.get?_erase] at there
    split at there
    · cases there
    · exact old there
  · rw [filed] at there ⊢
    change (session.locations.insert target _).get? name = _ at there
    rw [Keyed.get?_insert] at there
    split at there
    · cases there
      exact (kept.belongs_of_makes home makes shares).imp fun spec belongs =>
        belongs.of_leads (session.leads_fileLocation target _ _)
    · rw [← filed]
      exact old there

/-- Every run of such steps leaves all locations at home. -/
theorem AtHome.after (home : session.AtHome) (kept : session.Kept) {steps : List SessionStep}
    (shares : session.sharesHomes steps = true) : (session.after steps).AtHome := by
  induction steps generalizing session with
  | nil => exact home
  | cons step steps ih =>
    rw [sharesHomes, Bool.and_eq_true] at shares
    exact ih (home.apply kept shares.1) (kept.apply step) shares.2

/-! ## Locations that were made of a spec -/

/-- The location that a step of a run made of a spec and a path is there at the end. -/
def Remains (D : Type) [Directory D] (steps : List SessionStep) (name : String) (spec : Spec)
    (path : String) : Prop :=
  ∃ earlier later, steps = earlier ++ .location (.ofSpec name spec path) :: later ∧
    ((start : Session D).after (earlier ++ [.location (.ofSpec name spec path)])).spares name
      later = true

/-- The location of a name stays as long as it is spared, and so does what belongs to whom. -/
theorem Kept.belongs_after (kept : session.Kept) {name : String} {location : Location} {spec : Spec}
    {steps : List SessionStep} (filed : session.locations.get? name = some location)
    (belongs : session.pool.Belongs Pool.global location.ref spec)
    (spared : session.spares name steps = true) :
    (session.after steps).locations.get? name = some location ∧
      (session.after steps).pool.Belongs Pool.global location.ref spec := by
  induction steps generalizing session with
  | nil => exact ⟨filed, belongs⟩
  | cons step steps ih =>
    rw [spares, Bool.and_eq_true, Bool.not_eq_true'] at spared
    exact ih (kept.apply step) ((get?_locations_apply spared.1).trans filed)
      (belongs.of_leads (kept.moves_apply step).leads) spared.2

/-- **A location that was made of a spec and a path has both for as long as it is there.** -/
theorem Remains.belongs {steps : List SessionStep} {name : String} {spec : Spec} {path : String}
    (remains : Remains D steps name spec path) :
    ∃ location, ((start : Session D).after steps).locations.get? name = some location ∧
      location.path = Path.canonicalize path ∧
        ((start : Session D).after steps).pool.Belongs Pool.global location.ref spec := by
  obtain ⟨earlier, later, rfl, spared⟩ := remains
  have kept : ((start : Session D).after earlier).Kept := kept_after earlier
  have whole : earlier ++ .location (.ofSpec name spec path) :: later =
      (earlier ++ [.location (.ofSpec name spec path)]) ++ later := by
    rw [List.append_assoc, List.singleton_append]
  rw [whole, after_append]
  rw [after_append] at spared ⊢
  generalize (start : Session D).after earlier = session at kept spared ⊢
  change ((session.apply (.location (.ofSpec name spec path))).2).spares name later = true at spared
  have made := (kept.pool.belongs_canonicalFor List.mem_cons_self spec).of_leads
    (session.leads_fileLocation name (Location.ofSpec session.pool spec path).1 _)
  obtain ⟨filed, belongs⟩ := (kept.apply (.location (.ofSpec name spec path))).belongs_after
    ((Keyed.get?_insert _ _ _ name).trans (if_pos rfl)) made spared
  exact ⟨_, filed, rfl, belongs⟩

/-! ## Equal locations -/

/-- Locations on instances of the shared registry are told by content and path. -/
theorem Kept.location_eq_iff (kept : session.Kept) (orderly : session.Orderly)
    {first second : String} {one other : Location} {spec content : Spec}
    (filed : session.locations.get? first = some one)
    (belongs : session.pool.Belongs Pool.global one.ref spec)
    (filed_too : session.locations.get? second = some other)
    (belongs_too : session.pool.Belongs Pool.global other.ref content) :
    one = other ↔ spec = content ∧ one.path = other.path := by
  have parts : one = other ↔ one.ref = other.ref ∧ one.path = other.path := by
    cases one
    cases other
    rw [Location.mk.injEq]
  rw [parts, orderly.distinct.eq_iff_of_belongs
    belongs (kept.pool.live (mem_held_of_location filed))
    belongs_too (kept.pool.live (mem_held_of_location filed_too))]

/-- **After any run locations are told by content and path.** -/
theorem location_identity_after (steps : List SessionStep) (session : Session D)
    (run : session = (start : Session D).after steps) :
    ((start : Session D).sharesHomes steps = true →
      ∀ first one, session.locations.get? first = some one →
      ∀ second other, session.locations.get? second = some other →
        ∃ spec content, session.pool.spec? one.ref = some spec ∧
          session.pool.spec? other.ref = some content ∧
          (one = other ↔ spec = content ∧ one.path = other.path)) ∧
    (∀ first spec path, Remains D steps first spec path →
      ∀ second content target, Remains D steps second content target →
        ∃ one other, session.locations.get? first = some one ∧
          session.locations.get? second = some other ∧
          (one = other ↔ spec = content ∧ Path.canonicalize path = Path.canonicalize target)) := by
  have kept : session.Kept := run ▸ kept_after steps
  have orderly : session.Orderly := run ▸ orderly_after steps
  subst run
  refine ⟨?all, ?made⟩
  case all =>
    intro shares first one filed second other filed_too
    have home := atHome_start.after kept_start shares
    obtain ⟨spec, belongs⟩ := home first one filed
    obtain ⟨content, belongs_too⟩ := home second other filed_too
    exact ⟨spec, content, belongs.spec?, belongs_too.spec?,
      kept.location_eq_iff orderly filed belongs filed_too belongs_too⟩
  case made =>
    intro first spec path remains second content target remains_too
    obtain ⟨one, filed, canonical, belongs⟩ := remains.belongs
    obtain ⟨other, filed_too, canonical_too, belongs_too⟩ := remains_too.belongs
    refine ⟨one, other, filed, filed_too, ?_⟩
    rw [← canonical, ← canonical_too]
    exact kept.location_eq_iff orderly filed belongs filed_too belongs_too

/-- Makes a location, drops it, and makes four more of the same content: of a spec again, on a
shared spec, above the second one, and once more of a spec. -/
def returning : List SessionStep :=
  [.location (.ofSpec "gone" Spec.guest "/pub"), .location (.drop "gone"),
    .location (.ofSpec "old" Spec.guest "pub/"), .registry (.share "s" Spec.guest),
    .location (.ofRef "shared" "s" "//pub"), .location (.parent "above" "old"),
    .location (.ofSpec "new" Spec.guest "/./pub")]

/-- The location on the shared spec and those of specs are equal, and the one above is another. -/
theorem location_identity_after_returning :
    ∃ old shared above new : Location,
      ((start : Session Buckets).after returning).locations.get? "old" = some old ∧
      ((start : Session Buckets).after returning).locations.get? "shared" = some shared ∧
      ((start : Session Buckets).after returning).locations.get? "above" = some above ∧
      ((start : Session Buckets).after returning).locations.get? "new" = some new ∧
      old = shared ∧ old ≠ above ∧ old = new := by
  obtain ⟨all, made⟩ := location_identity_after (D := Buckets) returning _ rfl
  have shares : (start : Session Buckets).sharesHomes returning = true := by decide +kernel
  have remains : Remains Buckets returning "old" Spec.guest "pub/" :=
    ⟨returning.take 2, returning.drop 3, rfl, by decide +kernel⟩
  have remains_too : Remains Buckets returning "new" Spec.guest "/./pub" :=
    ⟨returning.take 6, [], rfl, by decide +kernel⟩
  obtain ⟨old, new, old_there, new_there, of_specs⟩ := made _ _ _ remains _ _ _ remains_too
  have old_filed : ((start : Session Buckets).after returning).locations.get? "old" =
      some ⟨⟨1⟩, "/pub"⟩ := by decide +kernel
  have shared_there : ((start : Session Buckets).after returning).locations.get? "shared" =
      some ⟨⟨1⟩, "/pub"⟩ := by decide +kernel
  have above_there : ((start : Session Buckets).after returning).locations.get? "above" =
      some ⟨⟨1⟩, "/"⟩ := by decide +kernel
  obtain rfl : ⟨⟨1⟩, "/pub"⟩ = old := Option.some.inj (old_filed.symm.trans old_there)
  refine ⟨_, _, _, new, old_filed, shared_there, above_there, new_there, ?_, ?_,
    of_specs.mpr ⟨rfl, by decide +kernel⟩⟩
  · obtain ⟨spec, content, has, has_too, same⟩ := all shares _ _ old_filed _ _ shared_there
    exact same.mpr ⟨Option.some.inj (has.symm.trans has_too), rfl⟩
  · obtain ⟨_, _, _, _, same⟩ := all shares _ _ old_filed _ _ above_there
    exact fun equal => absurd (same.mp equal).2 (by decide +kernel)

end Session

end Mounts
