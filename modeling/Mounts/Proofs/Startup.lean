import Mounts.Proofs.Except
import Mounts.Proofs.Spec.Arguments
import Mounts.Startup

/-!
# What a command line asks a daemon for

One leading debug flag is taken away, and what is left decides what the daemon does: it reports to a
spawner, it serves the spec that the arguments give, or it waits.  `Asks` says which, with the ways
to go wrong, by one rule for each; reading follows these rules for all arguments
(`readTask_eq_iff`).

A command line is refused for its form if it starts with the spawner flag and fewer than two names
follow it, and otherwise for whatever is wrong with the spec that it should give.  It gives neither
names nor a spec exactly if there are no arguments and no default type (`command_line_followed`).
Debugging is on if it is wanted or asked for by the leading flag, and two command lines that are the
same behind that flag give the same names and the same spec, or the same error.  What is logged
follows the setting (`logLevel_eq_debug_iff`), and a refusal is held against whoever gave the
command line (`isInvalidArgument_of_parse`).
-/

namespace Mounts

set_option autoImplicit false

namespace Startup

/-! ## The debug flag -/

/-- The arguments without one leading debug flag. -/
def afterDebugFlag (arguments : List String) : List String :=
  if arguments.head? = some debugFlag then arguments.tail else arguments

theorem takeDebugFlag_eq (arguments : List String) :
    takeDebugFlag arguments =
      (decide (arguments.head? = some debugFlag), afterDebugFlag arguments) := by
  cases arguments with
  | nil => rfl
  | cons first others =>
    by_cases flagged : first = debugFlag
    · simp [takeDebugFlag, afterDebugFlag, flagged]
    · simp [takeDebugFlag, afterDebugFlag, flagged]

/-! ## Tasks -/

/-- What arguments without a debug flag in front ask for, if there may be a default for the mount
type. -/
inductive Asks (defaultType : Option String) : List String → Except SpecError Task → Prop
  /-- A spawner is told by two names; what follows does not count. -/
  | report (busId objectPath : String) (further : List String) :
      Asks defaultType (spawnerFlag :: busId :: objectPath :: further)
        (.ok (.report ⟨busId, objectPath⟩))
  /-- One name or none tells no spawner. -/
  | unnamed {names : List String} : names.length < 2 →
      Asks defaultType (spawnerFlag :: names) (.error (.usage .spawner))
  /-- A spec is given by other arguments, or by the default alone, or it is refused. -/
  | serve {arguments : List String} : arguments.head? ≠ some spawnerFlag →
      arguments ≠ [] ∨ defaultType ≠ none →
      Asks defaultType arguments ((Spec.ofArguments arguments defaultType).map .serve)
  /-- Without arguments and without a default there is nothing to do. -/
  | wait : defaultType = none → Asks defaultType [] (.ok .wait)

variable {arguments : List String} {defaultType : Option String} {outcome : Except SpecError Task}

/-- Arguments that do not name a spawner are those of a spec, if there are any or a default. -/
theorem readTask_of_other (other : arguments.head? ≠ some spawnerFlag)
    (given : arguments ≠ [] ∨ defaultType ≠ none) :
    readTask arguments defaultType = (Spec.ofArguments arguments defaultType).map .serve := by
  rw [readTask.eq_def]
  cases arguments with
  | nil => exact if_pos (Option.isSome_iff_ne_none.mpr (given.resolve_left (· rfl)))
  | cons first others => exact if_neg fun spawned => other (congrArg some spawned)

/-- There is a rule for all arguments. -/
theorem asks_readTask (arguments : List String) (defaultType : Option String) :
    Asks defaultType arguments (readTask arguments defaultType) := by
  by_cases spawned : arguments.head? = some spawnerFlag
  · obtain ⟨names, rfl⟩ := List.head?_eq_some_iff.mp spawned
    rcases names with - | ⟨busId, - | ⟨objectPath, further⟩⟩
    · exact .unnamed (by simp)
    · exact .unnamed (by simp)
    · exact .report busId objectPath further
  · by_cases given : arguments ≠ [] ∨ defaultType ≠ none
    · rw [readTask_of_other spawned given]
      exact .serve spawned given
    · obtain ⟨rfl, rfl⟩ : arguments = [] ∧ defaultType = none := by simpa using given
      exact .wait rfl

/-- **Arguments are read as what they ask for.** -/
theorem readTask_eq_iff :
    readTask arguments defaultType = outcome ↔ Asks defaultType arguments outcome := by
  constructor
  · rintro rfl
    exact asks_readTask arguments defaultType
  · intro asks
    cases asks with
    | report busId objectPath further => rfl
    | @unnamed names short =>
      rcases names with - | ⟨busId, - | ⟨objectPath, further⟩⟩
      · rfl
      · rfl
      · simp only [List.length_cons] at short
        omega
    | serve other given => exact readTask_of_other other given
    | wait untyped =>
      subst untyped
      rfl

/-- What is accepted, by the task that it gives. -/
theorem readTask_eq_ok_iff {task : Task} : readTask arguments defaultType = .ok task ↔
    (∃ busId objectPath further, arguments = spawnerFlag :: busId :: objectPath :: further ∧
      task = .report ⟨busId, objectPath⟩) ∨
    (arguments.head? ≠ some spawnerFlag ∧ (arguments ≠ [] ∨ defaultType ≠ none) ∧
      ∃ spec, Spec.ofArguments arguments defaultType = .ok spec ∧ task = .serve spec) ∨
    arguments = [] ∧ defaultType = none ∧ task = .wait := by
  rw [readTask_eq_iff]
  constructor
  · intro asks
    -- The rule for specs does not say whether they are accepted, so the outcome is kept apart.
    generalize same : Except.ok task = outcome at asks
    cases asks with
    | report busId objectPath further =>
      cases same
      exact .inl ⟨busId, objectPath, further, rfl, rfl⟩
    | unnamed short => cases same
    | serve other given =>
      obtain ⟨spec, accepted, rfl⟩ := Except.map_eq_ok_iff.mp same.symm
      exact .inr (.inl ⟨other, given, spec, accepted, rfl⟩)
    | wait untyped =>
      cases same
      exact .inr (.inr ⟨rfl, untyped, rfl⟩)
  · rintro (⟨busId, objectPath, further, rfl, rfl⟩ | ⟨other, given, spec, accepted, rfl⟩ |
      ⟨rfl, untyped, rfl⟩)
    · exact .report busId objectPath further
    · exact Except.map_eq_ok_iff.mpr ⟨spec, accepted, rfl⟩ ▸ .serve other given
    · exact .wait untyped

/-- What is refused, by the reason. -/
theorem readTask_eq_error_iff {why : SpecError} : readTask arguments defaultType = .error why ↔
    (∃ names, arguments = spawnerFlag :: names ∧ names.length < 2 ∧ why = .usage .spawner) ∨
    (arguments.head? ≠ some spawnerFlag ∧ (arguments ≠ [] ∨ defaultType ≠ none) ∧
      Spec.ofArguments arguments defaultType = .error why) := by
  rw [readTask_eq_iff]
  constructor
  · intro asks
    generalize same : Except.error why = outcome at asks
    cases asks with
    | report busId objectPath further => cases same
    | @unnamed names short =>
      cases same
      exact .inl ⟨names, rfl, short, rfl⟩
    | serve other given => exact .inr ⟨other, given, Except.map_eq_error_iff.mp same.symm⟩
    | wait untyped => cases same
  · rintro (⟨names, rfl, short, rfl⟩ | ⟨other, given, refused⟩)
    · exact .unnamed short
    · exact Except.map_eq_error_iff.mpr refused ▸ .serve other given

/-- Waiting takes no arguments and no default. -/
theorem readTask_eq_wait_iff :
    readTask arguments defaultType = .ok .wait ↔ arguments = [] ∧ defaultType = none := by
  rw [readTask_eq_ok_iff]
  simp

/-! ## A task by its spawner and its spec -/

variable {startup : Startup}

theorem task_eq_report_iff {spawner : Spawner} : startup.task = .report spawner ↔
    startup.spawner? = some spawner ∧ startup.spec? = none := by
  rw [spawner?, spec?]
  cases startup.task with
  | report other => simp
  | serve spec => simp
  | wait => simp

theorem task_eq_serve_iff {spec : Spec} : startup.task = .serve spec ↔
    startup.spawner? = none ∧ startup.spec? = some spec := by
  rw [spawner?, spec?]
  cases startup.task with
  | report spawner => simp
  | serve other => simp
  | wait => simp

/-- A daemon waits exactly if it has neither a spawner nor a spec. -/
theorem task_eq_wait_iff :
    startup.task = .wait ↔ startup.spawner? = none ∧ startup.spec? = none := by
  rw [spawner?, spec?]
  cases startup.task with
  | report spawner => simp
  | serve spec => simp
  | wait => simp

/-! ## Command lines -/

variable {wanted : Bool}

/-- The outcome of a command line is the task of what is behind the debug flag, with the debug
setting. -/
theorem parse_eq (arguments : List String) (defaultType : Option String) (wanted : Bool) :
    parse arguments defaultType wanted = (readTask (afterDebugFlag arguments) defaultType).map
      fun task => ⟨wanted || decide (arguments.head? = some debugFlag), task⟩ := by
  rw [parse, takeDebugFlag_eq]

theorem parse_eq_ok_iff : parse arguments defaultType wanted = .ok startup ↔
    startup.debug = (wanted || decide (arguments.head? = some debugFlag)) ∧
      readTask (afterDebugFlag arguments) defaultType = .ok startup.task := by
  rw [parse_eq, Except.map_eq_ok_iff]
  constructor
  · rintro ⟨task, read, rfl⟩
    exact ⟨rfl, read⟩
  · rintro ⟨debug, read⟩
    exact ⟨startup.task, read, by rw [← debug]⟩

theorem parse_eq_error_iff {why : SpecError} :
    parse arguments defaultType wanted = .error why ↔
      readTask (afterDebugFlag arguments) defaultType = .error why := by
  rw [parse_eq, Except.map_eq_error_iff]

/-- A daemon logs for debugging exactly if the setting or the leading flag asks for it. -/
theorem logLevel_eq_debug_iff (accepted : parse arguments defaultType wanted = .ok startup) :
    startup.logLevel = .debug ↔ wanted = true ∨ arguments.head? = some debugFlag := by
  obtain ⟨debug, _⟩ := parse_eq_ok_iff.mp accepted
  rw [logLevel, debug]
  cases wanted with
  | false => simp
  | true => simp

/-- A command line that is refused is held against whoever gave it. -/
theorem isInvalidArgument_of_parse {why : SpecError}
    (refused : parse arguments defaultType wanted = .error why) : why.isInvalidArgument = true := by
  rcases readTask_eq_error_iff.mp (parse_eq_error_iff.mp refused) with
    ⟨_, _, _, rfl⟩ | ⟨_, _, spoilt⟩
  · rfl
  · exact Spec.isInvalidArgument_of_ofArguments spoilt

/-- **A command line is followed to the letter**, and debugging touches no more than a setting. -/
theorem command_line_followed (arguments : List String) (defaultType : Option String)
    (wanted : Bool) :
    (∀ why, parse arguments defaultType wanted = .error why ↔
      (∃ names, afterDebugFlag arguments = spawnerFlag :: names ∧ names.length < 2 ∧
        why = .usage .spawner) ∨
      ((afterDebugFlag arguments).head? ≠ some spawnerFlag ∧
        (afterDebugFlag arguments ≠ [] ∨ defaultType ≠ none) ∧
        Spec.ofArguments (afterDebugFlag arguments) defaultType = .error why)) ∧
    (∀ startup, parse arguments defaultType wanted = .ok startup ↔
      startup.debug = (wanted || decide (arguments.head? = some debugFlag)) ∧
      ((∃ busId objectPath further,
          afterDebugFlag arguments = spawnerFlag :: busId :: objectPath :: further ∧
          startup.spawner? = some ⟨busId, objectPath⟩ ∧ startup.spec? = none) ∨
        ((afterDebugFlag arguments).head? ≠ some spawnerFlag ∧
          (afterDebugFlag arguments ≠ [] ∨ defaultType ≠ none) ∧
          ∃ spec, Spec.ofArguments (afterDebugFlag arguments) defaultType = .ok spec ∧
            startup.spawner? = none ∧ startup.spec? = some spec) ∨
        (afterDebugFlag arguments = [] ∧ defaultType = none ∧
          startup.spawner? = none ∧ startup.spec? = none))) ∧
    (∀ startup, parse arguments defaultType wanted = .ok startup →
      (startup.spawner? = none ∧ startup.spec? = none ↔
        afterDebugFlag arguments = [] ∧ defaultType = none)) ∧
    (∀ others wantedToo, afterDebugFlag others = afterDebugFlag arguments →
      (parse others defaultType wantedToo).map (fun startup => (startup.spawner?, startup.spec?)) =
        (parse arguments defaultType wanted).map
          fun startup => (startup.spawner?, startup.spec?)) := by
  refine ⟨?refused, ?accepted, ?waits, ?same⟩
  case refused =>
    intro why
    rw [parse_eq_error_iff, readTask_eq_error_iff]
  case accepted =>
    intro startup
    rw [parse_eq_ok_iff, readTask_eq_ok_iff]
    simp only [task_eq_report_iff, task_eq_serve_iff, task_eq_wait_iff]
  case waits =>
    intro startup accepted
    obtain ⟨-, read⟩ := parse_eq_ok_iff.mp accepted
    rw [← task_eq_wait_iff, ← readTask_eq_wait_iff, read, Except.ok.injEq]
  case same =>
    intro others wantedToo same
    rw [parse_eq, parse_eq, same]
    cases readTask (afterDebugFlag arguments) defaultType with
    | error why => rfl
    | ok task => rfl

/-- A second debug flag is an argument of a spec and is refused as one, arguments behind the names
of a spawner do not count, and without arguments a daemon has neither. -/
theorem command_line_followed_flags :
    parse ["--debug", "--debug", "type=ftp"] none false = .error (.usage .pairs) ∧
    parse ["--debug", "--spawner", ":1.42", "/org", "extra"] none false =
      .ok ⟨true, .report ⟨":1.42", "/org"⟩⟩ ∧
    (∃ startup, parse [] none true = .ok startup ∧
      startup.spawner? = none ∧ startup.spec? = none) ∧
    (parse ["type=ftp"] none true).map (fun startup => (startup.spawner?, startup.spec?)) =
      (parse ["--debug", "type=ftp"] none false).map
        fun startup => (startup.spawner?, startup.spec?) := by
  obtain ⟨refused, -, -, -⟩ := command_line_followed ["--debug", "--debug", "type=ftp"] none false
  obtain ⟨-, accepted, -, -⟩ :=
    command_line_followed ["--debug", "--spawner", ":1.42", "/org", "extra"] none false
  obtain ⟨-, -, waits, -⟩ := command_line_followed [] none true
  obtain ⟨-, -, -, same⟩ := command_line_followed ["--debug", "type=ftp"] none false
  exact ⟨(refused _).mpr (.inr ⟨by decide +kernel, .inl (by decide +kernel), rfl⟩),
    (accepted _).mpr ⟨rfl, .inl ⟨":1.42", "/org", ["extra"], rfl, rfl, rfl⟩⟩,
    ⟨_, rfl, (waits _ rfl).mpr ⟨rfl, rfl⟩⟩,
    same ["type=ftp"] true rfl⟩

end Startup

end Mounts
