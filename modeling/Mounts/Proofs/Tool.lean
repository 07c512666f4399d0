import Mounts.Proofs.Message.Writing
import Mounts.Proofs.Path.Covering
import Mounts.Proofs.Registry.Lasting
import Mounts.Proofs.Spec.Arguments
import Mounts.Proofs.Spec.Compact
import Mounts.Proofs.Spec.Wire
import Mounts.Proofs.Startup
import Mounts.Proofs.Table.Routing
import Mounts.Spec.Wire
import Mounts.Tool

/-!
# What the inspection tool reports

The tool checks itself: it reads back what it shows, and it routes a request to a mount of its own
making.  Of all checks only one can fail, and only for a spec with a parameter under the key of the
path prefix, whose compact form reads back as another spec.

So there are four ways for a run to end (`run_cases`): the command line is not understood and the
tool says how it is called, the spawner is told, a spec is shown with all that is known of it, or
its compact form is shown alone.  `report_end_to_end` gives the report for each of them, word by
word.

A spec from a command line claims the whole tree, so any path is served.  The mount is shared by the
handle of whoever mounted it, by that of the table and by that of the location.
-/

namespace Mounts

set_option autoImplicit false

/-!
## How long a spec is in a message

A parameter takes twelve bytes more in a message than its key and its value have, and storing a
parameter adds no more than that.  So a command line that is not huge gives a spec whose lengths can
all be written (`fits_of_ofArguments`).
-/

open Message (Cursor Value)

theorem Text.length_utf8 (text : String) : (utf8 text).length = text.utf8ByteSize :=
  rfl

/-- A text without what follows its first NUL is not longer. -/
theorem Text.size_untilNul_le (text : String) :
    (untilNul text).utf8ByteSize ≤ text.utf8ByteSize := by
  have begins : (untilNul text).toList <+: text.toList := by
    rw [untilNul, String.toList_ofList]
    exact List.takeWhile_prefix _
  rcases Path.size_of_beginning begins with same | shorter
  · exact Nat.le_of_eq (congrArg _ same)
  · exact Nat.le_of_lt shorter

namespace Params

/-- How many bytes the parameters take in a message. -/
def wireSize (params : Params) : Nat :=
  (Value.encodeAll (params.entries.map Spec.entryValue)).length

theorem length_entryValue (entry : String × String) :
    (Spec.entryValue entry).encode.length =
      entry.1.utf8ByteSize + entry.2.utf8ByteSize + 12 := by
  simp only [Spec.entryValue, Value.encode, Value.encodeAll, List.length_cons, List.length_append,
    Value.length_counted, Text.length_utf8, List.length_nil]
  omega

/-- Filing a value adds at most one entry. -/
theorem wireSize_insert_le (params : Params) (key value : String) :
    wireSize (params.insert key value) ≤
      params.wireSize + (key.utf8ByteSize + value.utf8ByteSize + 12) := by
  rw [← length_entryValue (key, value), wireSize, wireSize, Keyed.entries_insert]
  induction params.entries with
  | nil => simp [Keyed.place, Value.encodeAll]
  | cons entry entries ih =>
    obtain ⟨other, held⟩ := entry
    rw [Keyed.place]
    split
    · simp only [List.map_cons, Value.encodeAll, List.length_append]
      omega
    · split
      · simp only [List.map_cons, Value.encodeAll, List.length_append]
        omega
      · simp only [List.map_cons, Value.encodeAll, List.length_append] at ih ⊢
        omega

theorem wireSize_set_le (params : Params) (key value : String) :
    (params.set key value).wireSize ≤
      params.wireSize + (key.utf8ByteSize + value.utf8ByteSize + 12) := by
  rw [set_eq_insert]
  have placed := wireSize_insert_le params (Text.untilNul key) (Text.untilNul value)
  have key_size := Text.size_untilNul_le key
  have value_size := Text.size_untilNul_le value
  omega

end Params

namespace Spec

/-- How many bytes a list of arguments takes in a message at most. -/
def argumentsSize : List String → Nat
  | [] => 0
  | argument :: others => argument.utf8ByteSize + 12 + argumentsSize others

/-- The two sides of an argument are parts of it. -/
theorem size_of_splitArgument {argument : String} {pair : String × String}
    (parts : splitArgument argument = .ok pair) :
    pair.1.utf8ByteSize + pair.2.utf8ByteSize ≤ argument.utf8ByteSize := by
  obtain ⟨⟨whole, _⟩, _⟩ := splitArgument_eq_ok_iff.mp parts
  have sizes := congrArg String.utf8ByteSize whole
  rw [String.utf8ByteSize_append, String.utf8ByteSize_append] at sizes
  omega

/-- The arguments bound what is stored of them. -/
theorem wireSize_foldl_set_le {arguments : List String} {pairs : List (String × String)}
    (parts : arguments.mapM splitArgument = .ok pairs) (spec : Spec) :
    (pairs.foldl (fun spec pair => spec.set pair.1 pair.2) spec).params.wireSize ≤
      spec.params.wireSize + argumentsSize arguments := by
  rw [Except.mapM_eq_ok_iff] at parts
  induction arguments generalizing pairs spec with
  | nil =>
    obtain rfl := List.forall₂_nil_left_iff.mp parts
    exact Nat.le_refl _
  | cons argument arguments ih =>
    obtain ⟨pair, others, first, further, rfl⟩ := List.forall₂_cons_left_iff.mp parts
    have size := size_of_splitArgument first
    have stored : (spec.set pair.1 pair.2).params.wireSize ≤ _ :=
      Params.wireSize_set_le spec.params pair.1 pair.2
    have later := ih further (spec.set pair.1 pair.2)
    rw [List.foldl_cons, argumentsSize]
    omega

/-- The body of a spec is its path and its parameters. -/
theorem length_body_toValue (spec : Spec) :
    (spec.toValue none).body.length = spec.scope.utf8ByteSize + spec.params.wireSize + 8 := by
  rw [Params.wireSize, toValue, Value.body]
  simp only [Value.encode, Value.encodeAll, List.length_cons, List.length_append,
    Value.length_counted, Text.length_utf8, List.length_nil, Option.map_none, Option.getD_none]
  omega

/-- **The message of a spec from a command line can be written unless the command line is huge.** -/
theorem fits_of_ofArguments {arguments : List String} {mountType : String} {spec : Spec}
    (accepted : ofArguments arguments (some mountType) = .ok spec)
    (small : argumentsSize arguments + mountType.utf8ByteSize + 25 < Message.Length.bound) :
    (spec.toValue none).Fits := by
  have scope : spec.scope.utf8ByteSize = 1 := by
    rw [scope_ofArguments accepted]
    rfl
  obtain ⟨pairs, parts, rfl⟩ := eq_foldl_set_of_ofArguments accepted
  have stored := wireSize_foldl_set_le parts (ofType (some mountType))
  have first : (ofType (some mountType)).params.wireSize ≤ _ :=
    Params.wireSize_set_le ∅ typeKey mountType
  have key : typeKey.utf8ByteSize = 4 := rfl
  have none_yet : Params.wireSize ∅ = 0 := rfl
  have blank_params : blank.params.wireSize = 0 := rfl
  rw [Value.Fits, length_body_toValue]
  omega

end Spec

/-! ## Running the tool -/

/-! ### Command lines -/

/-- **A daemon of one mount type has something to do**: it reports to a spawner, or it serves the
spec that the arguments after the debug flag give. -/
theorem Startup.task_of_parseIn {setting : Option String} {arguments : List String}
    {mountType : String} {startup : Startup}
    (accepted : parseIn setting arguments (some mountType) = .ok startup) :
    (∃ spawner, startup.task = .report spawner) ∨
      ∃ spec, startup.task = .serve spec ∧
        Spec.ofArguments (afterDebugFlag arguments) (some mountType) = .ok spec := by
  obtain ⟨-, read⟩ := parse_eq_ok_iff.mp accepted
  rcases readTask_eq_ok_iff.mp read with
    ⟨busId, objectPath, -, -, task⟩ | ⟨-, -, spec, given, task⟩ | ⟨-, untyped, -⟩
  · exact .inl ⟨⟨busId, objectPath⟩, task⟩
  · exact .inr ⟨spec, task, given⟩
  · cases untyped

/-- Taking the debug flag away leaves no more arguments. -/
theorem Startup.argumentsSize_afterDebugFlag_le (arguments : List String) :
    Spec.argumentsSize (afterDebugFlag arguments) ≤ Spec.argumentsSize arguments := by
  rw [afterDebugFlag]
  split
  · cases arguments with
    | nil => exact Nat.le_refl _
    | cons first others => exact Nat.le_add_left _ _
  · exact Nat.le_refl _

/-! ### Mounts and locations on canonical instances -/

section

variable {D : Type} [Directory D] {pool : Pool D} {ref : Ref} {spec : Spec}

/-- A canonical instance that is not in a table yet is mounted as it is. -/
theorem Table.mount_of_belongs {table : Table} (belongs : pool.Belongs Pool.global ref spec)
    (absent : ref ∉ table.mounts) :
    table.mount pool ref = (ref, ⟨table.mounts ++ [ref]⟩, (pool.acquire ref).acquire ref) := by
  rw [mount, belongs.canonicalize]
  exact if_neg absent

/-- A location on a canonical instance refers to this instance. -/
theorem Location.ofRef_of_belongs (belongs : pool.Belongs Pool.global ref spec) (path : String) :
    Location.ofRef pool ref path = (⟨ref, Path.canonicalize path⟩, pool.acquire ref) := by
  rw [ofRef, belongs.canonicalize]

end

namespace Tool

/-! ### The checks -/

variable {spec : Spec}

/-- The compact form comes back as another spec exactly if a parameter has the key of the path
prefix. -/
theorem textFailure?_eq (built : spec.Built) :
    textFailure? spec = if spec.get? Spec.scopeKey = none then none else some .textDiffers := by
  have outcome := Spec.ofText_toText built.valid
  have whole := (Spec.compact_round_trip built).2
  rw [outcome, Except.ok.injEq] at whole
  rw [textFailure?, outcome, readBackFailure?]
  exact if_congr whole rfl rfl

/-- A message that can be written comes back as the spec. -/
theorem messageFailure?_eq_none (built : spec.Built) (fits : (spec.toValue none).Fits) :
    messageFailure? spec = none := by
  have alone : (Cursor.ofBytes (spec.toWire none)).rest = spec.toWire none ++ [] :=
    (List.append_nil _).symm
  have announced : spec.announced none = spec := rfl
  rw [messageFailure?, Spec.read_toWire built.valid fits rfl alone, Except.map, announced,
    readBackFailure?, if_pos rfl]

/-- A mount of the whole tree serves the request, and three handles share it: that of whoever
mounted it, that of the table and that of the location. -/
theorem route?_eq (whole : spec.scope = Path.root) :
    route? spec = some ("/readme.txt", spec, 3) := by
  have kept := (Pool.kept_empty (D := Buckets)).canonicalFor List.mem_cons_self spec
  have belongs := (Pool.kept_empty (D := Buckets)).belongs_canonicalFor List.mem_cons_self spec
  rw [route?]
  generalize (Pool.empty : Pool Buckets).canonicalFor Pool.global spec = made at kept belongs ⊢
  obtain ⟨ref, pool⟩ := made
  dsimp only at kept belongs ⊢
  have unmounted : ref ∉ Table.empty.mounts := List.not_mem_nil
  rw [Table.mount_of_belongs belongs unmounted]
  dsimp only
  -- The handle from interning goes back once the table and its caller have handles of their own.
  have live := kept.live List.mem_cons_self
  have live_too := (kept.acquire live).live List.mem_cons_self
  have settles := ((kept.acquire live).acquire live_too).release
  have leads := (Pool.leads_acquire live).trans
    ((Pool.leads_acquire live_too).trans (Pool.leads_release _ ref))
  generalize ((pool.acquire ref).acquire ref).release ref = settled at settles leads ⊢
  replace belongs := belongs.of_leads leads
  have canonical : Path.canonicalize requestedPath = "/readme.txt" := by decide +kernel
  rw [Location.ofRef_of_belongs belongs, canonical]
  dsimp only
  have holding := settles.live List.mem_cons_self
  replace belongs := belongs.of_leads (Pool.leads_acquire holding)
  have covers : Path.liesUnder "/readme.txt" (some Path.root) = true := by decide +kernel
  have serving : Table.Serving (settled.acquire ref) ⟨[ref]⟩ spec "/readme.txt" ref spec :=
    ⟨List.mem_cons_self, belongs.spec?, rfl, whole ▸ covers⟩
  have served : Table.lookup (settled.acquire ref) ⟨[ref]⟩ spec "/readme.txt" = some ref :=
    Table.lookup_eq_of_longest serving fun other content serves =>
      .inl (List.mem_singleton.mp serves.listed)
  have shared : (settled.acquire ref).handles ref = 3 := by
    rw [(settles.acquire holding).refs]
    simp
  rw [Table.empty, List.nil_append, served, Option.bind_eq_bind, Option.bind_some, belongs.spec?,
    Option.bind_eq_bind, Option.bind_some, shared]
  rfl

/-! ### Reports -/

/-- The report on a spec that passes all checks. -/
def passed (spec : Spec) : Report :=
  ⟨0, "text:      " ++ spec.toText ++ "\n" ++
    "message:   " ++ Text.Hex.ofBytes (spec.toWire none) ++ "\n" ++
    "hash:      0x" ++ Text.Hex.ofWord spec.digest ++ "\n" ++
    "location:  /readme.txt on " ++ spec.toText ++ "\n" ++
    "canonical: shared by 3 references\n", none⟩

/-- A spec without the key of the path prefix passes all checks. -/
theorem inspect_of_free (built : spec.Built) (whole : spec.scope = Path.root)
    (free : spec.get? Spec.scopeKey = none) (fits : (spec.toValue none).Fits) :
    inspect spec = passed spec := by
  have location : "location:  " ++ "/readme.txt" ++ " on " = "location:  /readme.txt on " := by
    decide +kernel
  have canonical : "canonical: shared by " ++ toString 3 ++ " references\n" =
      "canonical: shared by 3 references\n" := by decide +kernel
  rw [inspect, textFailure?_eq built, if_pos free, messageFailure?_eq_none built fits,
    route?_eq whole, passed, ← location, ← canonical]
  simp only [String.append_assoc]

/-- A spec with this key fails the first check, after its compact form was shown. -/
theorem inspect_of_reserved (built : spec.Built) (reserved : spec.get? Spec.scopeKey ≠ none) :
    inspect spec = failed ("text:      " ++ spec.toText ++ "\n") .textDiffers := by
  rw [inspect, textFailure?_eq built, if_neg reserved]

/-- How a text starts is told by its beginning. -/
theorem take_two_append {start : String} (long : 2 ≤ start.toList.length) (rest : String) :
    (start ++ rest).toList.take 2 = start.toList.take 2 := by
  rw [String.toList_append, List.take_append_of_le_length long]

/-- What is said of a command line that is not understood starts otherwise than a failure. -/
theorem take_two_message (why : SpecError) (rest : String) :
    (why.message ++ rest).toList.take 2 ≠ ['E', 'r'] := by
  delta SpecError.message
  cases why with
  | invalidPair pair | missingScope line | invalidEscape token =>
    rw [String.append_assoc, String.append_assoc, take_two_append (by decide +kernel)]
    decide +kernel
  | usage form | malformed missing =>
    rw [String.append_assoc, take_two_append (by decide +kernel)]
    decide +kernel
  | missingType =>
    rw [take_two_append (by decide +kernel)]
    decide +kernel

/-- A command line that is not understood is not complained of as a failure. -/
theorem rejected_complaint_ne (why : SpecError) (said : String) :
    (rejected why).complaint ≠ some ("Error: " ++ said) := by
  intro same
  have complaint : why.message ++ "\n\n" ++ usage = "Error: " ++ said := Option.some.inj same
  refine take_two_message why ("\n\n" ++ usage) ?_
  rw [← String.append_assoc, complaint, take_two_append (by decide +kernel)]
  decide +kernel

/-! ### Whole runs -/

/-- The message of the spec that a command line gives can be written, if the tool comes to it.  A
message can hold any text of less than 4 GiB. -/
def Writable (setting : Option String) (arguments : List String) : Prop :=
  ∀ startup spec, Startup.parseIn setting arguments (some defaultType) = .ok startup →
    startup.spec? = some spec → spec.get? Spec.scopeKey = none → (spec.toValue none).Fits

/-- Command lines that are not huge are writable. -/
theorem writable_of_argumentsSize (setting : Option String) {arguments : List String}
    (small : Spec.argumentsSize arguments + 28 < Message.Length.bound) :
    Writable setting arguments := by
  intro startup spec accepted gives _
  have fewer := Startup.argumentsSize_afterDebugFlag_le arguments
  have type_size : defaultType.utf8ByteSize = 3 := rfl
  rcases Startup.task_of_parseIn accepted with ⟨spawner, task⟩ | ⟨served, task, parsed⟩
  · rw [Startup.spec?, task] at gives
    cases gives
  · rw [Startup.spec?, task] at gives
    cases gives
    exact Spec.fits_of_ofArguments parsed (by omega)

/-- **How a run ends**: the command line is not understood, the spawner is told, the spec passes all
checks, or it fails the first one. -/
theorem run_cases {setting : Option String} {arguments : List String}
    (writable : Writable setting arguments) :
    (∃ why, Startup.parseIn setting arguments (some defaultType) = .error why ∧
      run setting arguments = rejected why) ∨
    (∃ debug busId objectPath, Startup.parseIn setting arguments (some defaultType) =
        .ok ⟨debug, .report ⟨busId, objectPath⟩⟩ ∧
      run setting arguments = ⟨0, "spawned by " ++ busId ++ " at " ++ objectPath ++ "\n", none⟩) ∨
    (∃ debug spec,
      Startup.parseIn setting arguments (some defaultType) = .ok ⟨debug, .serve spec⟩ ∧
        spec.get? Spec.scopeKey = none ∧ run setting arguments = passed spec) ∨
    (∃ debug spec,
      Startup.parseIn setting arguments (some defaultType) = .ok ⟨debug, .serve spec⟩ ∧
        spec.get? Spec.scopeKey ≠ none ∧
          run setting arguments = failed ("text:      " ++ spec.toText ++ "\n") .textDiffers) := by
  cases parsed : Startup.parseIn setting arguments (some defaultType) with
  | error why =>
    refine .inl ⟨why, rfl, ?_⟩
    rw [run, parsed]
  | ok startup =>
    obtain ⟨debug, task⟩ := startup
    rcases Startup.task_of_parseIn parsed with ⟨⟨busId, objectPath⟩, rfl⟩ | ⟨spec, rfl, given⟩
    · refine .inr (.inl ⟨debug, busId, objectPath, rfl, ?_⟩)
      rw [run, parsed]
    · have inspected : run setting arguments = inspect spec := by rw [run, parsed]
      have built : spec.Built := .ofArguments given
      rw [inspected]
      by_cases free : spec.get? Spec.scopeKey = none
      · exact .inr (.inr (.inl ⟨debug, spec, rfl, free, inspect_of_free built
          (Spec.scope_ofArguments given) free (writable _ spec parsed rfl free)⟩))
      · exact .inr (.inr (.inr ⟨debug, spec, rfl, free, inspect_of_reserved built free⟩))

/-- **All that the tool reports**, for any command line and any debug setting: when all went well,
what is printed in each case, and that the one failure there is comes from the compact form. -/
theorem report_end_to_end (setting : Option String) (arguments : List String)
    (writable : Writable setting arguments) :
    ((run setting arguments).status = 0 ↔
      ∃ startup, Startup.parseIn setting arguments (some "ftp") = .ok startup ∧
        (startup.spawner?.isSome = true ∨
          ∃ spec, startup.spec? = some spec ∧ spec.get? "__mount_prefix" = none)) ∧
    (∀ why, Startup.parseIn setting arguments (some "ftp") = .error why →
      run setting arguments = ⟨1, "", some (why.message ++ "\n\n" ++
        ("Usage: spectool [--debug] [key=value ...]\n" ++
          "       spectool [--debug] --spawner <bus-id> <object-path>\n"))⟩) ∧
    (∀ startup, Startup.parseIn setting arguments (some "ftp") = .ok startup →
      (∀ busId objectPath, startup.spawner? = some ⟨busId, objectPath⟩ →
        run setting arguments =
          ⟨0, "spawned by " ++ busId ++ " at " ++ objectPath ++ "\n", none⟩) ∧
      (∀ spec, startup.spec? = some spec →
        (spec.get? "__mount_prefix" = none → run setting arguments =
          ⟨0, "text:      " ++ spec.toText ++ "\n" ++
            "message:   " ++ Text.Hex.ofBytes (spec.toWire none) ++ "\n" ++
            "hash:      0x" ++ Text.Hex.ofWord spec.digest ++ "\n" ++
            "location:  /readme.txt on " ++ spec.toText ++ "\n" ++
            "canonical: shared by 3 references\n", none⟩) ∧
        (spec.get? "__mount_prefix" ≠ none → run setting arguments =
          ⟨1, "text:      " ++ spec.toText ++ "\n",
            some "Error: text form did not round-trip\n"⟩))) ∧
    (∀ said, (run setting arguments).complaint = some ("Error: " ++ said) →
      said = "text form did not round-trip\n") := by
  have one : (1 : UInt32) ≠ 0 := by decide
  have differs : "Error: " ++ Failure.message .textDiffers ++ "\n" =
      "Error: " ++ "text form did not round-trip\n" := by decide +kernel
  have wording : "Error: " ++ Failure.message .textDiffers ++ "\n" =
      "Error: text form did not round-trip\n" := by decide +kernel
  rcases run_cases writable with
    ⟨why, parsed, ran⟩ | ⟨debug, busId, objectPath, parsed, ran⟩ |
      ⟨debug, spec, parsed, free, ran⟩ | ⟨debug, spec, parsed, reserved, ran⟩
  all_goals
    change Startup.parseIn setting arguments (some "ftp") = _ at parsed
    rw [parsed, ran]
  · refine ⟨iff_of_false one ?_, ?_, ?_, ?_⟩
    · rintro ⟨_, ⟨⟩, _⟩
    · rintro _ ⟨⟩
      rfl
    · rintro _ ⟨⟩
    · exact fun said same => absurd same (rejected_complaint_ne why said)
  · refine ⟨iff_of_true rfl ⟨_, rfl, .inl rfl⟩, ?_, ?_, ?_⟩
    · rintro _ ⟨⟩
    · rintro _ ⟨⟩
      exact ⟨fun _ _ same => by cases same; rfl, fun _ none_served => by cases none_served⟩
    · exact fun said same => by cases same
  · refine ⟨iff_of_true rfl ⟨_, rfl, .inr ⟨spec, rfl, free⟩⟩, ?_, ?_, ?_⟩
    · rintro _ ⟨⟩
    · rintro _ ⟨⟩
      refine ⟨fun _ _ same => (by cases same), fun _ same => ?_⟩
      cases same
      exact ⟨fun _ => rfl, fun reserved => absurd free reserved⟩
    · exact fun said same => by cases same
  · refine ⟨iff_of_false one ?_, ?_, ?_, ?_⟩
    · rintro ⟨_, ⟨⟩, ⟨⟨⟩⟩ | ⟨_, ⟨⟩, free⟩⟩
      exact reserved free
    · rintro _ ⟨⟩
    · rintro _ ⟨⟩
      refine ⟨fun _ _ same => (by cases same), fun _ same => ?_⟩
      cases same
      exact ⟨fun free => absurd free reserved, fun _ => by rw [failed, wording]⟩
    · intro said same
      exact ((String.append_right_inj _).mp (differs.symm.trans (Option.some.inj same))).symm

/-- A spec of a host is shown, one with a parameter under the key of the path prefix is not read
back, a spawner is told, and one name is not enough for it. -/
theorem report_end_to_end_host :
    run none ["--debug", "host=h"] = ⟨0, "text:      host=h,type=ftp,__mount_prefix=%2F\n" ++
      "message:   720000002d7a2f00617200000024720000000c7300000004686f73747a6800" ++
      "720000000e7300000004747970657a66747000\n" ++
      "hash:      0x0b8877f6\n" ++
      "location:  /readme.txt on host=h,type=ftp,__mount_prefix=%2F\n" ++
      "canonical: shared by 3 references\n", none⟩ ∧
    run none ["__mount_prefix=/y"] =
      ⟨1, "text:      __mount_prefix=%2Fy,type=ftp,__mount_prefix=%2F\n",
        some "Error: text form did not round-trip\n"⟩ ∧
    run none ["--spawner", ":1.42", "/org"] = ⟨0, "spawned by :1.42 at /org\n", none⟩ ∧
    run (some "1") ["--spawner", "a"] = ⟨1, "", some ("Usage: --spawner dbus-id object_path\n\n" ++
      "Usage: spectool [--debug] [key=value ...]\n" ++
      "       spectool [--debug] --spawner <bus-id> <object-path>\n")⟩ := by
  obtain ⟨_, _, shows, _⟩ := report_end_to_end none ["--debug", "host=h"]
    (writable_of_argumentsSize none (by decide +kernel))
  obtain ⟨_, _, fails, _⟩ := report_end_to_end none ["__mount_prefix=/y"]
    (writable_of_argumentsSize none (by decide +kernel))
  obtain ⟨_, _, tells, _⟩ := report_end_to_end none ["--spawner", ":1.42", "/org"]
    (writable_of_argumentsSize none (by decide +kernel))
  obtain ⟨_, refuses, _⟩ := report_end_to_end (some "1") ["--spawner", "a"]
    (writable_of_argumentsSize (some "1") (by decide +kernel))
  have given (key value : String) : (Spec.ofType (some "ftp")).set key value =
      ⟨((∅ : Params).insert "type" "ftp").insert (Text.untilNul key) (Text.untilNul value),
        "/"⟩ := by
    have typed : (Spec.ofType (some "ftp")).params = (∅ : Params).insert "type" "ftp" :=
      (Params.set_eq_insert ∅ "type" "ftp").trans (by decide +kernel)
    rw [Spec.set, Params.set_eq_insert, typed]
    rfl
  have host : (Spec.ofType (some "ftp")).set "host" "h" =
      ⟨⟨[("host", "h"), ("type", "ftp")], by decide +kernel⟩, "/"⟩ :=
    (given _ _).trans (by decide +kernel)
  have reserved : (Spec.ofType (some "ftp")).set "__mount_prefix" "/y" =
      ⟨⟨[("__mount_prefix", "/y"), ("type", "ftp")], by decide +kernel⟩, "/"⟩ :=
    (given _ _).trans (by decide +kernel)
  have host_given : Startup.parseIn none ["--debug", "host=h"] (some "ftp") =
      .ok ⟨true, .serve ⟨⟨[("host", "h"), ("type", "ftp")], by decide +kernel⟩, "/"⟩⟩ := by
    rw [← host]
    rfl
  have reserved_given : Startup.parseIn none ["__mount_prefix=/y"] (some "ftp") =
      .ok ⟨false,
        .serve ⟨⟨[("__mount_prefix", "/y"), ("type", "ftp")], by decide +kernel⟩, "/"⟩⟩ := by
    rw [← reserved]
    rfl
  refine ⟨?shown, ?differs, ?told, ?refused⟩
  case shown =>
    exact (((shows _ host_given).2 _ rfl).1 (by decide +kernel)).trans (by decide +kernel)
  case differs =>
    exact (((fails _ reserved_given).2 _ rfl).2 (by decide +kernel)).trans (by decide +kernel)
  case told =>
    exact ((tells ⟨false, .report ⟨":1.42", "/org"⟩⟩ rfl).1 _ _ rfl).trans (by decide +kernel)
  case refused => exact (refuses (.usage .spawner) rfl).trans (by decide +kernel)

end Tool

end Mounts
