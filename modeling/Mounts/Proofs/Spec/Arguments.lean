import Mounts.Proofs.Spec.Built
import Mounts.Proofs.Text.Splitting

/-!
# Which arguments give a spec

Each argument has to assign a value to a key, with something on either side of its first equals
sign.  The mount type has to be among the keys unless there is a default for it.  Then the spec has
what the arguments assign, as if all of it had been collected in bulk behind the default, and
otherwise an argument that is refused is blamed before a missing type is (`arguments_collected`).
Keys count up to their first NUL, and of several values for a key the last one is found.  Either
refusal is held against whoever gave the arguments (`isInvalidArgument_of_ofArguments`).

Keys and values are cut at NUL only when they are stored, after it was seen that something is there.
So a parameter can be left empty after all, by a NUL and by nothing else (`emptied_only_by_nul`).
-/

namespace Mounts

set_option autoImplicit false

/-- Nothing is left of a text exactly if there is nothing before its first NUL. -/
theorem Text.untilNul_eq_empty_iff {text : String} :
    untilNul text = "" ↔ text = "" ∨ text.toList.head? = some nul := by
  rw [untilNul, ← String.toList_inj, ← String.toList_inj, String.toList_ofList]
  cases text.toList with
  | nil => simp
  | cons first rest => simp [List.takeWhile_cons]

namespace Spec

/-! ## Arguments -/

/-- An argument assigns a value to a key: these two are around its first equals sign. -/
def Assigns (argument key value : String) : Prop :=
  argument = key ++ "=" ++ value ∧ '=' ∉ key.toList

instance (argument key value : String) : Decidable (Assigns argument key value) :=
  inferInstanceAs (Decidable (_ ∧ _))

/-- An argument that is refused. -/
inductive Malformed : String → Prop
  /-- There is no equals sign in it. -/
  | sign {argument : String} : '=' ∉ argument.toList → Malformed argument
  /-- Nothing is before its first equals sign. -/
  | key {argument value : String} : Assigns argument "" value → Malformed argument
  /-- Nothing is behind its first equals sign. -/
  | value {argument key : String} : Assigns argument key "" → Malformed argument

variable {argument key value : String}

theorem splitAtFirst?_sign_iff :
    Text.splitAtFirst? '=' argument = some (key, value) ↔ Assigns argument key value := by
  have sign : "=" = String.singleton '=' := rfl
  rw [Assigns, sign]
  exact Text.splitAtFirst?_eq_some_iff

/-- An argument assigns one value to one key. -/
theorem Assigns.unique {other content : String} (assigns : Assigns argument key value)
    (again : Assigns argument other content) : key = other ∧ value = content := by
  rw [← splitAtFirst?_sign_iff] at assigns again
  exact Prod.mk.inj (Option.some.inj (assigns.symm.trans again))

/-- An argument assigns something, or there is no equals sign in it. -/
theorem assigns_or_absent (argument : String) :
    (∃ key value, Assigns argument key value) ∨ '=' ∉ argument.toList := by
  cases found : Text.splitAtFirst? '=' argument with
  | none => exact .inr (Text.splitAtFirst?_eq_none_iff.mp found)
  | some pair => exact .inl ⟨pair.1, pair.2, splitAtFirst?_sign_iff.mp found⟩

theorem splitArgument_of_assigns (assigns : Assigns argument key value) :
    splitArgument argument =
      if key = "" ∨ value = "" then .error (.usage .pairs) else .ok (key, value) := by
  rw [splitArgument, splitAtFirst?_sign_iff.mpr assigns]

theorem splitArgument_of_absent (absent : '=' ∉ argument.toList) :
    splitArgument argument = .error (.usage .pairs) := by
  rw [splitArgument, Text.splitAtFirst?_eq_none_iff.mpr absent]

/-- An argument is split into what it assigns, with something on either side. -/
theorem splitArgument_eq_ok_iff {pair : String × String} :
    splitArgument argument = .ok pair ↔
      Assigns argument pair.1 pair.2 ∧ pair.1 ≠ "" ∧ pair.2 ≠ "" := by
  constructor
  · intro accepted
    rcases assigns_or_absent argument with ⟨key, value, assigns⟩ | absent
    · rw [splitArgument_of_assigns assigns] at accepted
      split at accepted
      · cases accepted
      · next some_text =>
        cases accepted
        exact ⟨assigns, not_or.mp some_text⟩
    · rw [splitArgument_of_absent absent] at accepted
      cases accepted
  · rintro ⟨assigns, some_text⟩
    rw [splitArgument_of_assigns assigns, if_neg (not_or.mpr some_text)]

/-- Exactly the malformed arguments are refused, all of them alike. -/
theorem splitArgument_eq_error_iff {why : SpecError} :
    splitArgument argument = .error why ↔ Malformed argument ∧ why = .usage .pairs := by
  constructor
  · intro refused
    rcases assigns_or_absent argument with ⟨key, value, assigns⟩ | absent
    · rw [splitArgument_of_assigns assigns] at refused
      split at refused
      · next missing =>
        cases refused
        rcases missing with rfl | rfl
        · exact ⟨.key assigns, rfl⟩
        · exact ⟨.value assigns, rfl⟩
      · cases refused
    · rw [splitArgument_of_absent absent] at refused
      cases refused
      exact ⟨.sign absent, rfl⟩
  · rintro ⟨malformed, rfl⟩
    cases malformed with
    | sign absent => exact splitArgument_of_absent absent
    | key assigns => rw [splitArgument_of_assigns assigns, if_pos (.inl rfl)]
    | value assigns => rw [splitArgument_of_assigns assigns, if_pos (.inr rfl)]

/-- An argument is malformed exactly if it cannot be split. -/
theorem malformed_iff : (splitArgument argument).toOption = none ↔ Malformed argument := by
  cases outcome : splitArgument argument with
  | ok pair =>
    refine iff_of_false (by simp [Except.toOption]) fun malformed => ?_
    rw [splitArgument_eq_error_iff.mpr ⟨malformed, rfl⟩] at outcome
    cases outcome
  | error why => exact iff_of_true rfl (splitArgument_eq_error_iff.mp outcome).1

instance (argument : String) : Decidable (Malformed argument) :=
  decidable_of_iff _ malformed_iff

/-! ## Lists of arguments -/

/-- Some arguments assign the values of some pairs to their keys, in order. -/
def AssignAll (arguments : List String) (pairs : List (String × String)) : Prop :=
  List.Forall₂ (fun argument pair => Assigns argument pair.1 pair.2) arguments pairs

/-- Arguments assign one list of pairs. -/
theorem AssignAll.unique {arguments : List String} {pairs others : List (String × String)}
    (assigned : AssignAll arguments pairs) (again : AssignAll arguments others) : pairs = others :=
  List.right_unique_forall₂' (fun _ _ _ assigns again => Prod.ext_iff.mpr (assigns.unique again))
    assigned again

/-- The mount type is given, as a default or by an argument. -/
def Typed (arguments : List String) (defaultType : Option String) : Prop :=
  defaultType ≠ none ∨ ∃ argument ∈ arguments, ∃ mountType, Assigns argument typeKey mountType

/-- The pairs that count if there may be a default for the mount type: the default comes first, so
that any other type replaces it. -/
def behindDefault (defaultType : Option String) (pairs : List (String × String)) :
    List (String × String) :=
  (defaultType.map fun mountType => (typeKey, mountType)).toList ++ pairs

variable {arguments : List String} {pairs : List (String × String)} {defaultType : Option String}

/-- Arguments that are not malformed are split into what they assign. -/
theorem exists_split_iff : (∃ pairs, arguments.mapM splitArgument = .ok pairs) ↔
    ∀ argument ∈ arguments, ¬Malformed argument := by
  rw [Except.mapM_succeeds_iff]
  refine forall₂_congr fun argument _ => ?_
  rw [← malformed_iff]
  cases splitArgument argument with
  | ok pair => simp [Except.toOption]
  | error why => simp [Except.toOption]

theorem assignAll_of_split (split_up : arguments.mapM splitArgument = .ok pairs) :
    AssignAll arguments pairs :=
  (Except.mapM_eq_ok_iff.mp split_up).imp fun _ _ parts => (splitArgument_eq_ok_iff.mp parts).1

/-- There is something on either side of each argument that is split. -/
theorem filled_of_split (split_up : arguments.mapM splitArgument = .ok pairs) :
    ∀ pair ∈ pairs, pair.1 ≠ "" ∧ pair.2 ≠ "" := by
  intro pair given
  obtain ⟨argument, _, parts⟩ := (Except.mem_mapM_iff split_up).mp given
  exact (splitArgument_eq_ok_iff.mp parts).2

/-- The mount type is among the keys of arguments that are split exactly if an argument gives it. -/
theorem typed_iff (split_up : arguments.mapM splitArgument = .ok pairs) :
    Typed arguments defaultType ↔
      (defaultType.isSome || pairs.any (·.1 == typeKey)) = true := by
  rw [Bool.or_eq_true, Typed, Option.isSome_iff_ne_none, List.any_eq_true]
  refine or_congr_right ⟨?_, ?_⟩
  · rintro ⟨argument, given, mountType, assigns⟩
    obtain ⟨pair, parts⟩ := Except.mapM_succeeds_iff.mp ⟨pairs, split_up⟩ argument given
    have named := (assigns.unique (splitArgument_eq_ok_iff.mp parts).1).1
    exact ⟨pair, (Except.mem_mapM_iff split_up).mpr ⟨argument, given, parts⟩,
      beq_iff_eq.mpr named.symm⟩
  · rintro ⟨⟨key, mountType⟩, inside, named⟩
    obtain rfl : key = typeKey := beq_iff_eq.mp named
    obtain ⟨argument, given, parts⟩ := (Except.mem_mapM_iff split_up).mp inside
    exact ⟨argument, given, mountType, (splitArgument_eq_ok_iff.mp parts).1⟩

/-- To store pairs one after another is to collect them in bulk behind the default. -/
theorem foldl_set_ofType (pairs : List (String × String)) (defaultType : Option String) :
    pairs.foldl (fun spec pair => spec.set pair.1 pair.2) (ofType defaultType) =
      ⟨Params.ofPairs (behindDefault defaultType pairs), Path.root⟩ := by
  have stored (spec : Spec) (pairs : List (String × String)) :
      pairs.foldl (fun spec pair => spec.set pair.1 pair.2) spec =
        ⟨pairs.foldl (fun longer pair => Params.set longer pair.1 pair.2) spec.params,
          spec.scope⟩ := by
    induction pairs generalizing spec with
    | nil => rfl
    | cons pair pairs ih => exact ih (spec.set pair.1 pair.2)
  rw [Params.ofPairs_eq_foldl, behindDefault, List.foldl_append]
  cases defaultType with
  | none => exact stored blank pairs
  | some mountType => exact stored (blank.set typeKey mountType) pairs

/-- What arguments come to: a malformed one is blamed before a missing type is, and otherwise there
is a spec of all that they assign. -/
theorem ofArguments_cases (arguments : List String) (defaultType : Option String) :
    ((∃ argument ∈ arguments, Malformed argument) ∧
      ofArguments arguments defaultType = .error (.usage .pairs)) ∨
    (∃ pairs, arguments.mapM splitArgument = .ok pairs ∧ ¬Typed arguments defaultType ∧
      ofArguments arguments defaultType = .error .missingType) ∨
    ∃ pairs, arguments.mapM splitArgument = .ok pairs ∧ Typed arguments defaultType ∧
      ofArguments arguments defaultType =
        .ok ⟨Params.ofPairs (behindDefault defaultType pairs), Path.root⟩ := by
  cases split_up : arguments.mapM splitArgument with
  | error why =>
    -- All malformed arguments are refused alike, so it does not matter which one comes first.
    obtain ⟨earlier, bad, later, rfl, _, refused⟩ := Except.mapM_eq_error_iff.mp split_up
    obtain ⟨malformed, rfl⟩ := splitArgument_eq_error_iff.mp refused
    refine .inl ⟨⟨bad, by simp, malformed⟩, ?_⟩
    rw [ofArguments, split_up]
    rfl
  | ok pairs =>
    refine .inr ?_
    by_cases typed : Typed arguments defaultType
    · refine .inr ⟨pairs, rfl, typed, ?_⟩
      rw [ofArguments, split_up, ← foldl_set_ofType]
      exact if_pos ((typed_iff split_up).mp typed)
    · refine .inl ⟨pairs, rfl, typed, ?_⟩
      rw [ofArguments, split_up]
      exact if_neg fun given => typed ((typed_iff split_up).mpr given)

/-- Arguments that give a spec can be split, they give a mount type, and the spec is that of all
that they assign. -/
theorem exists_split_of_ofArguments {spec : Spec}
    (accepted : ofArguments arguments defaultType = .ok spec) :
    ∃ pairs, arguments.mapM splitArgument = .ok pairs ∧ Typed arguments defaultType ∧
      spec = ⟨Params.ofPairs (behindDefault defaultType pairs), Path.root⟩ := by
  rcases ofArguments_cases arguments defaultType with
    ⟨_, refused⟩ | ⟨_, _, _, refused⟩ | ⟨pairs, split_up, typed, outcome⟩
  · rw [accepted] at refused
    cases refused
  · rw [accepted] at refused
    cases refused
  · exact ⟨pairs, split_up, typed, Except.ok.inj (accepted.symm.trans outcome)⟩

/-- Arguments that are refused are held against whoever gave them. -/
theorem isInvalidArgument_of_ofArguments {why : SpecError}
    (refused : ofArguments arguments defaultType = .error why) : why.isInvalidArgument = true := by
  rcases ofArguments_cases arguments defaultType with
    ⟨_, outcome⟩ | ⟨_, _, _, outcome⟩ | ⟨_, _, _, outcome⟩
  · cases outcome.symm.trans refused
    rfl
  · cases outcome.symm.trans refused
    rfl
  · cases outcome.symm.trans refused

/-! ## What comes of arguments -/

/-- **Arguments are collected behind the default, unless one is malformed or no type is given.** -/
theorem arguments_collected (arguments : List String) (defaultType : Option String) :
    (ofArguments arguments defaultType = .error (.usage .pairs) ↔
      ∃ argument ∈ arguments, Malformed argument) ∧
    (ofArguments arguments defaultType = .error .missingType ↔
      (∀ argument ∈ arguments, ¬Malformed argument) ∧ defaultType = none ∧
        ∀ argument ∈ arguments, ∀ mountType, ¬Assigns argument typeKey mountType) ∧
    ((∀ argument ∈ arguments, ¬Malformed argument) →
      (defaultType ≠ none ∨
        ∃ argument ∈ arguments, ∃ mountType, Assigns argument typeKey mountType) →
      ∃ spec pairs, ofArguments arguments defaultType = .ok spec ∧ AssignAll arguments pairs ∧
        spec.scope = "/" ∧ spec.params = Params.ofPairs (behindDefault defaultType pairs) ∧
        ∀ key, spec.get? key = Keyed.last? ((behindDefault defaultType pairs).map fun pair =>
          (Text.untilNul pair.1, Text.untilNul pair.2)) key) := by
  have untyped_iff : ¬Typed arguments defaultType ↔ defaultType = none ∧
      ∀ argument ∈ arguments, ∀ mountType, ¬Assigns argument typeKey mountType := by
    simp [Typed]
  rw [← untyped_iff]
  rcases ofArguments_cases arguments defaultType with
    ⟨⟨argument, given, malformed⟩, refused⟩ | ⟨pairs, split_up, untyped, refused⟩ |
      ⟨pairs, split_up, typed, accepted⟩
  · refine ⟨iff_of_true refused ⟨argument, given, malformed⟩, iff_of_false ?_ ?_, fun fine => ?_⟩
    · simp [refused]
    · exact fun fine => fine.1 argument given malformed
    · exact absurd malformed (fine argument given)
  · have fine := exists_split_iff.mp ⟨pairs, split_up⟩
    refine ⟨iff_of_false ?_ ?_, iff_of_true refused ⟨fine, untyped⟩, fun _ typed => ?_⟩
    · simp [refused]
    · rintro ⟨argument, given, malformed⟩
      exact fine argument given malformed
    · exact absurd typed untyped
  · have fine := exists_split_iff.mp ⟨pairs, split_up⟩
    refine ⟨iff_of_false ?_ ?_, iff_of_false ?_ fun refused => refused.2 typed, fun _ _ => ?_⟩
    · simp [accepted]
    · rintro ⟨argument, given, malformed⟩
      exact fine argument given malformed
    · simp [accepted]
    · exact ⟨_, pairs, accepted, assignAll_of_split split_up, rfl, rfl,
        fun key => Keyed.get?_ofList _ key⟩

/-- Three command lines: the first has nothing behind an equals sign, the second names the mount
type only up to a NUL, and the third gives a host and a type twice. -/
theorem arguments_collected_hosts :
    ofArguments ["host=h", "type="] (some "ftp") = .error (.usage .pairs) ∧
    ofArguments ["type\x00x=ftp"] none = .error .missingType ∧
    ∃ spec, ofArguments ["host=a", "type=dav", "host\x00x=b=c"] (some "ftp") = .ok spec ∧
      spec.scope = "/" ∧ spec.get? "host" = some "b=c" ∧ spec.get? "type" = some "dav" := by
  obtain ⟨refuses, _⟩ := arguments_collected ["host=h", "type="] (some "ftp")
  obtain ⟨_, misses, _⟩ := arguments_collected ["type\x00x=ftp"] none
  obtain ⟨_, _, gives⟩ := arguments_collected ["host=a", "type=dav", "host\x00x=b=c"] (some "ftp")
  refine ⟨refuses.mpr (by decide +kernel), misses.mpr ⟨by decide +kernel, rfl, ?_⟩, ?_⟩
  · have assigns : Assigns "type\x00x=ftp" "type\x00x" "ftp" := by decide +kernel
    simp only [List.forall_mem_singleton]
    intro mountType again
    exact absurd (assigns.unique again).1 (by decide +kernel)
  · obtain ⟨spec, pairs, accepted, assigned, whole, _, found⟩ :=
      gives (by decide +kernel) (.inl (by simp))
    obtain rfl : pairs = [("host", "a"), ("type", "dav"), ("host\x00x", "b=c")] :=
      assigned.unique (by simp only [AssignAll, List.forall₂_cons]; decide +kernel)
    refine ⟨spec, accepted, whole, (found "host").trans ?_, (found "type").trans ?_⟩
    · decide +kernel
    · decide +kernel

/-! ## Parameters without text -/

/-- What is stored of a pair. -/
def cut (pair : String × String) : String × String :=
  (Text.untilNul pair.1, Text.untilNul pair.2)

/-- A key without text is stored exactly if some key begins with a NUL. -/
theorem last?_cut_ne_none_iff (filled : ∀ pair ∈ pairs, pair.1 ≠ "" ∧ pair.2 ≠ "") :
    Keyed.last? (pairs.map cut) "" ≠ none ↔
      ∃ pair ∈ pairs, pair.1.toList.head? = some Text.nul := by
  rw [Ne, Keyed.last?_eq_none_iff, List.forall_mem_map, not_forall₂]
  refine exists_congr fun pair => exists_prop.trans (and_congr_right fun given => ?_)
  rw [not_not, cut, Text.untilNul_eq_empty_iff, or_iff_right (filled pair given).1]

/-- A value without text is stored exactly if the last value for the key begins with a NUL. -/
theorem last?_cut_eq_empty_iff (filled : ∀ pair ∈ pairs, pair.1 ≠ "" ∧ pair.2 ≠ "")
    (key : String) : Keyed.last? (pairs.map cut) key = some "" ↔
      ∃ earlier pair later, pairs = earlier ++ pair :: later ∧
        (Text.untilNul pair.1 = key ∧ pair.2.toList.head? = some Text.nul) ∧
          ∀ other ∈ later, Text.untilNul other.1 ≠ key := by
  rw [Keyed.last?_eq_some_iff, Keyed.givesLast_map_iff]
  refine exists_congr fun earlier => exists_congr fun pair => exists_congr fun later =>
    and_congr_right fun split_up => and_congr_left fun _ => ?_
  have given : pair ∈ pairs := by simp [split_up]
  rw [cut, Prod.mk.injEq, Text.untilNul_eq_empty_iff, or_iff_right (filled pair given).2]

/-- Arguments that give a mount type leave one. -/
theorem last?_cut_typeKey_ne_none (split_up : arguments.mapM splitArgument = .ok pairs)
    (typed : Typed arguments none) : Keyed.last? (pairs.map cut) typeKey ≠ none := by
  rw [typed_iff split_up, Option.isSome_none, Bool.false_or, List.any_eq_true] at typed
  obtain ⟨pair, given, same⟩ := typed
  rw [Ne, Keyed.last?_eq_none_iff, List.forall_mem_map]
  intro others
  have whole : Text.untilNul typeKey = typeKey := by decide +kernel
  refine others pair given ?_
  rw [cut, beq_iff_eq.mp same]
  exact whole

/-- **Only a NUL empties a parameter**: one that a key begins with, or the value that is assigned
last to a key. -/
theorem emptied_only_by_nul {arguments : List String} {spec : Spec}
    (accepted : ofArguments arguments none = .ok spec) :
    ∃ pairs, AssignAll arguments pairs ∧ (∀ pair ∈ pairs, pair.1 ≠ "" ∧ pair.2 ≠ "") ∧
      spec.type? ≠ none ∧
      (spec.get? "" ≠ none ↔ ∃ pair ∈ pairs, pair.1.toList.head? = some Text.nul) ∧
      (∀ key, spec.get? key = some "" ↔ ∃ earlier pair later, pairs = earlier ++ pair :: later ∧
        (Text.untilNul pair.1 = key ∧ pair.2.toList.head? = some Text.nul) ∧
          ∀ other ∈ later, Text.untilNul other.1 ≠ key) ∧
      ((∀ pair ∈ pairs, pair.1.toList.head? ≠ some Text.nul ∧
          pair.2.toList.head? ≠ some Text.nul) →
        (∀ entry ∈ spec.params.entries, entry.1 ≠ "" ∧ entry.2 ≠ "") ∧
          ∃ mountType, spec.type? = some mountType ∧ mountType ≠ "") := by
  obtain ⟨pairs, split_up, typed, rfl⟩ := exists_split_of_ofArguments accepted
  have found (key : String) : (Params.ofPairs pairs).get? key = Keyed.last? (pairs.map cut) key :=
    Keyed.get?_ofList _ key
  have filled := filled_of_split split_up
  have empty_key := found "" ▸ last?_cut_ne_none_iff filled
  have empty_value (key : String) := found key ▸ last?_cut_eq_empty_iff filled key
  have named : (Params.ofPairs pairs).get? typeKey ≠ none :=
    found typeKey ▸ last?_cut_typeKey_ne_none split_up typed
  refine ⟨pairs, assignAll_of_split split_up, filled, named, empty_key, empty_value,
    fun clean => ?_⟩
  have filled_value {key value : String} (stored : (Params.ofPairs pairs).get? key = some value) :
      value ≠ "" := by
    rintro rfl
    obtain ⟨earlier, pair, later, rfl, ⟨_, emptied⟩, _⟩ := (empty_value key).mp stored
    exact (clean pair (by simp)).2 emptied
  constructor
  · rintro ⟨key, value⟩ entered
    have stored := Keyed.get?_eq_some_iff.mpr entered
    refine ⟨?_, filled_value stored⟩
    rintro rfl
    obtain ⟨pair, given, emptied⟩ := empty_key.mp (Option.ne_none_iff_exists'.mpr ⟨_, stored⟩)
    exact (clean pair given).1 emptied
  · obtain ⟨mountType, stored⟩ := Option.ne_none_iff_exists'.mp named
    exact ⟨mountType, stored, filled_value stored⟩

/-- A host that is given again as a NUL and what follows it is left without text. -/
theorem emptied_only_by_nul_host :
    ∃ spec, ofArguments ["host=h", "type=dav", "host=\x00x"] none = .ok spec ∧
      spec.get? "host" = some "" ∧ spec.type? ≠ none ∧ spec.get? "" = none := by
  obtain ⟨pairs, assigned, _, typed, empty_key, empty_value, _⟩ :=
    emptied_only_by_nul (rfl : ofArguments ["host=h", "type=dav", "host=\x00x"] none = .ok _)
  obtain rfl : pairs = [("host", "h"), ("type", "dav"), ("host", "\x00x")] :=
    assigned.unique (by simp only [AssignAll, List.forall₂_cons]; decide +kernel)
  refine ⟨_, rfl, (empty_value "host").mpr ?_, typed, not_ne_iff.mp (empty_key.not.mpr ?_)⟩
  · exact ⟨[("host", "h"), ("type", "dav")], ("host", "\x00x"), [], rfl, by decide +kernel,
      List.forall_mem_nil _⟩
  · decide +kernel

/-- A type that is nothing but a NUL is accepted, and it leaves an empty mount type. -/
theorem nul_leaves_empty_type : ∃ spec, ofArguments ["type=\x00"] none = .ok spec ∧
    ("type", "") ∈ spec.params.entries ∧ spec.type? = some "" := by
  have outcome : ofArguments ["type=\x00"] none =
      .ok ([("type", "\x00")].foldl (fun spec pair => spec.set pair.1 pair.2) (ofType none)) := rfl
  have stored : (Params.ofPairs [("type", "\x00")]).get? "type" = some "" :=
    (Keyed.get?_ofList _ "type").trans (by decide +kernel)
  rw [foldl_set_ofType] at outcome
  exact ⟨_, outcome, Keyed.get?_eq_some_iff.mp stored, stored⟩

end Spec

end Mounts
