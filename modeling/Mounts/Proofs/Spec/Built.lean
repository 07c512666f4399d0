import Mounts.Editor
import Mounts.Location
import Mounts.Proofs.Except
import Mounts.Proofs.Keyed
import Mounts.Spec.Textual

/-!
# The specs that can be built

Specs are built from nothing, from collected parameters, from arguments, from the compact form or
from a message, and then changed in place.  `Spec.Built` holds of whatever comes out of any finite
course of such steps, and `Params.Built` of the collections of parameters on the way.

Every built spec is valid (`Built.valid`): none of its texts holds a NUL.  Each operation that takes
texts from outside cuts them, whether the text comes from a caller or from a message of a peer that
did not keep to the rules.

Editing never leaves the specs that can be built: each edit keeps both specs of an editor among them
(`Editor.Built.apply`), and so all that is shown in its course is built (`Editor.Built.of_shown`).
-/

namespace Mounts

set_option autoImplicit false

/-! ## Validity -/

/-- Parameters without NUL. -/
def Params.Valid (params : Params) : Prop :=
  ∀ entry ∈ params.entries, Text.hasNul entry.1 = false ∧ Text.hasNul entry.2 = false

/-- A spec of valid parameters whose scope holds no NUL. -/
structure Spec.Valid (spec : Spec) : Prop where
  params : spec.params.Valid
  scope : Text.hasNul spec.scope = false

namespace Params

theorem valid_empty : Valid ∅ :=
  fun _ found => nomatch found

/-- Storing a value files it, cut at NUL, at the place of the key, cut at NUL. -/
theorem set_eq_insert (params : Params) (key value : String) :
    params.set key value = params.insert (Text.untilNul key) (Text.untilNul value) := by
  ext1
  rw [set, Keyed.entries_insert]
  split
  · next there =>
    rw [Keyed.get?, Option.isSome_map] at there
    exact Keyed.overwrite_eq_place params.increasing there
  · next missing =>
    have absent := Keyed.get?_eq_none_iff.mp (Option.not_isSome_iff_eq_none.mp missing)
    exact Keyed.sortByKey_append params.increasing absent

theorem valid_set {params : Params} (valid : params.Valid) (key value : String) :
    (params.set key value).Valid := by
  rw [set_eq_insert]
  intro entry found
  rcases Keyed.mem_place found with rfl | earlier
  · exact ⟨Text.hasNul_untilNul key, Text.hasNul_untilNul value⟩
  · exact valid entry earlier

theorem valid_setWithin {params : Params} (valid : params.Valid) (key value : String)
    (limit : Option Nat) : (params.setWithin key value limit).Valid := by
  cases limit with
  | none => exact valid_set valid key value
  | some limit => exact valid_set valid key _

theorem valid_ofPairs (pairs : List (String × String)) : (ofPairs pairs).Valid := by
  intro entry found
  obtain ⟨pair, _, rfl⟩ := List.mem_map.mp (Keyed.mem_ofList found)
  exact ⟨Text.hasNul_untilNul pair.1, Text.hasNul_untilNul pair.2⟩

/-- Nothing is cut from pairs without NUL. -/
theorem ofPairs_of_clean {pairs : List (String × String)}
    (clean : ∀ pair ∈ pairs, Text.hasNul pair.1 = false ∧ Text.hasNul pair.2 = false) :
    ofPairs pairs = Keyed.ofList pairs := by
  rw [ofPairs, List.map_congr_left (g := id), List.map_id]
  intro pair found
  obtain ⟨key, value⟩ := clean pair found
  rw [Text.untilNul_eq_self key, Text.untilNul_eq_self value]
  rfl

/-- Collecting the entries of valid parameters gives the parameters back. -/
theorem ofPairs_entries {params : Params} (valid : params.Valid) :
    ofPairs params.entries = params := by
  rw [ofPairs_of_clean valid, Keyed.ofList_entries]

/-- Storing pairs one after another files them, cut at NUL. -/
theorem foldl_set_eq (params : Params) (pairs : List (String × String)) :
    pairs.foldl (fun longer pair => set longer pair.1 pair.2) params =
      (pairs.map fun pair => (Text.untilNul pair.1, Text.untilNul pair.2)).foldl
        (fun longer entry => longer.insert entry.1 entry.2) params := by
  induction pairs generalizing params with
  | nil => rfl
  | cons pair pairs ih =>
    rw [List.foldl_cons, set_eq_insert, ih]
    rfl

/-- **Collecting pairs in bulk comes to the same as storing them one after another.** -/
theorem ofPairs_eq_foldl (pairs : List (String × String)) :
    ofPairs pairs = pairs.foldl (fun longer pair => set longer pair.1 pair.2) ∅ := by
  rw [foldl_set_eq]
  exact Keyed.ofList_eq_foldl _

theorem valid_erase {params : Params} (valid : params.Valid) (key : String) :
    Valid (params.erase key) :=
  fun entry found => valid entry (List.mem_filter.mp found).1

end Params

namespace Spec

theorem valid_set {spec : Spec} (valid : spec.Valid) (key value : String) :
    (spec.set key value).Valid :=
  ⟨Params.valid_set valid.params key value, valid.scope⟩

theorem valid_setWithin {spec : Spec} (valid : spec.Valid) (key value : String)
    (limit : Option Nat) : (spec.setWithin key value limit).Valid :=
  ⟨Params.valid_setWithin valid.params key value limit, valid.scope⟩

theorem valid_rescope {spec : Spec} (valid : spec.Valid) (scope : String) :
    (spec.rescope scope).Valid :=
  ⟨valid.params, Text.hasNul_untilNul scope⟩

theorem valid_ofType (mountType : Option String) : (ofType mountType).Valid := by
  have blank_valid : blank.Valid := ⟨Params.valid_empty, by decide⟩
  cases mountType with
  | none => exact blank_valid
  | some mountType => exact valid_set blank_valid typeKey mountType

theorem valid_ofParams {params : Params} (valid : params.Valid) (scope : Option String) :
    (ofParams params scope).Valid :=
  ⟨valid, Text.hasNul_untilNul _⟩

theorem valid_foldl_set {spec : Spec} (valid : spec.Valid) (pairs : List (String × String)) :
    (pairs.foldl (fun spec pair => spec.set pair.1 pair.2) spec).Valid := by
  induction pairs generalizing spec with
  | nil => exact valid
  | cons pair pairs ih => exact ih (valid_set valid pair.1 pair.2)

/-- A spec from a command line is that of the default type, with the pairs of the arguments stored
one after another. -/
theorem eq_foldl_set_of_ofArguments {arguments : List String} {defaultType : Option String}
    {spec : Spec} (accepted : ofArguments arguments defaultType = .ok spec) :
    ∃ pairs, arguments.mapM splitArgument = .ok pairs ∧
      spec = pairs.foldl (fun spec pair => spec.set pair.1 pair.2) (ofType defaultType) := by
  obtain ⟨pairs, split_up, typed⟩ := Except.bind_eq_ok_iff.mp accepted
  split at typed
  · cases typed
    exact ⟨pairs, split_up, rfl⟩
  · cases typed

theorem valid_ofArguments {arguments : List String} {defaultType : Option String} {spec : Spec}
    (accepted : ofArguments arguments defaultType = .ok spec) : spec.Valid := by
  obtain ⟨pairs, _, rfl⟩ := eq_foldl_set_of_ofArguments accepted
  exact valid_foldl_set (valid_ofType defaultType) pairs

theorem scope_foldl_set (pairs : List (String × String)) (spec : Spec) :
    (pairs.foldl (fun spec pair => spec.set pair.1 pair.2) spec).scope = spec.scope := by
  induction pairs generalizing spec with
  | nil => rfl
  | cons pair pairs ih => exact ih (spec.set pair.1 pair.2)

/-- A spec from a command line claims the whole tree. -/
theorem scope_ofArguments {arguments : List String} {defaultType : Option String} {spec : Spec}
    (accepted : ofArguments arguments defaultType = .ok spec) : spec.scope = Path.root := by
  obtain ⟨pairs, _, rfl⟩ := eq_foldl_set_of_ofArguments accepted
  rw [scope_foldl_set]
  cases defaultType with
  | none => rfl
  | some mountType => rfl

theorem valid_ofText {line : String} {spec : Spec} (accepted : ofText line = .ok spec) :
    spec.Valid := by
  obtain ⟨entries, _, found⟩ := Except.bind_eq_ok_iff.mp accepted
  split at found
  · next decoded claims =>
    cases found
    obtain ⟨claimed, _, rfl⟩ := Option.map_eq_some_iff.mp claims
    exact valid_ofParams (Params.valid_ofPairs _) _
  · cases found

theorem valid_readFields {fields : Message.Cursor} {spec : Spec}
    (accepted : readFields fields = .ok spec) : spec.Valid := by
  rw [readFields] at accepted
  split at accepted
  · cases accepted
  split at accepted
  · cases accepted
  split at accepted
  · cases accepted
    exact valid_ofParams (Params.valid_ofPairs _) _
  · cases accepted

theorem valid_read {cursor after : Message.Cursor} {spec : Spec}
    (accepted : read cursor = .ok (spec, after)) : spec.Valid := by
  rw [read] at accepted
  split at accepted
  · cases accepted
  · obtain ⟨inner, fields, ⟨⟩⟩ := Except.map_eq_ok_iff.mp accepted
    exact valid_readFields fields

end Spec

/-! ## Courses of operations -/

mutual

/-- Parameters that can be built. -/
inductive Params.Built : Params → Prop
  /-- None. -/
  | empty : Params.Built ∅
  /-- Those of a list of pairs. -/
  | ofPairs (pairs : List (String × String)) : Params.Built (Params.ofPairs pairs)
  /-- Built ones with a value stored. -/
  | set {params : Params} (key value : String) : params.Built → (params.set key value).Built
  /-- Built ones with the beginning of a value stored. -/
  | setWithin {params : Params} (key value : String) (limit : Option Nat) :
      params.Built → (params.setWithin key value limit).Built
  /-- A copy of those of a built spec. -/
  | ofSpec {spec : Spec} : spec.Built → spec.params.Built

/-- Specs that can be built. -/
inductive Spec.Built : Spec → Prop
  /-- One of a mount type, if any, without further parameters. -/
  | ofType (mountType : Option String) : (Spec.ofType mountType).Built
  /-- One of collected parameters. -/
  | ofParams {params : Params} (scope : Option String) :
      params.Built → (Spec.ofParams params scope).Built
  /-- A built one with a parameter stored. -/
  | set {spec : Spec} (key value : String) : spec.Built → (spec.set key value).Built
  /-- A built one with the beginning of a parameter stored. -/
  | setWithin {spec : Spec} (key value : String) (limit : Option Nat) :
      spec.Built → (spec.setWithin key value limit).Built
  /-- A built one that claims another path prefix. -/
  | rescope {spec : Spec} (scope : String) : spec.Built → (spec.rescope scope).Built
  /-- One that arguments give. -/
  | ofArguments {arguments : List String} {defaultType : Option String} {spec : Spec} :
      Spec.ofArguments arguments defaultType = .ok spec → spec.Built
  /-- One that a line gives. -/
  | ofText {line : String} {spec : Spec} : Spec.ofText line = .ok spec → spec.Built
  /-- One that is read anywhere in any message. -/
  | read {cursor after : Message.Cursor} {spec : Spec} :
      Spec.read cursor = .ok (spec, after) → spec.Built
  /-- A built one that claims the path of a location. -/
  | request {spec : Spec} (location : Location) : spec.Built → (location.requestSpec spec).Built

end

mutual

theorem Params.Built.valid : ∀ {params : Params}, params.Built → params.Valid
  | _, .empty => Params.valid_empty
  | _, .ofPairs pairs => Params.valid_ofPairs pairs
  | _, .set key value built => Params.valid_set built.valid key value
  | _, .setWithin key value limit built => Params.valid_setWithin built.valid key value limit
  | _, .ofSpec built => built.valid.params

/-- **Every spec that can be built is valid.** -/
theorem Spec.Built.valid : ∀ {spec : Spec}, spec.Built → spec.Valid
  | _, .ofType mountType => Spec.valid_ofType mountType
  | _, .ofParams scope built => Spec.valid_ofParams built.valid scope
  | _, .set key value built => Spec.valid_set built.valid key value
  | _, .setWithin key value limit built => Spec.valid_setWithin built.valid key value limit
  | _, .rescope scope built => Spec.valid_rescope built.valid scope
  | _, .ofArguments accepted => Spec.valid_ofArguments accepted
  | _, .ofText accepted => Spec.valid_ofText accepted
  | _, .read accepted => Spec.valid_read accepted
  | _, .request location built => Spec.valid_rescope built.valid location.path

end

/-- A spec of two parameters and a scope of its own. -/
def Spec.guest : Spec := ⟨⟨[("host", "h"), ("type", "ftp")], by decide +kernel⟩, "/pub"⟩

theorem Spec.guest_built : Spec.guest.Built := by
  have steps := ((Spec.Built.ofType (some "ftp")).set "host" "h").rescope "/pub"
  have first : Spec.blank.params.set typeKey "ftp" =
      Spec.blank.params.insert (Text.untilNul typeKey) (Text.untilNul "ftp") :=
    Params.set_eq_insert _ _ _
  have outcome : ((Spec.ofType (some "ftp")).set "host" "h").rescope "/pub" = guest := by
    rw [rescope, set, Params.set_eq_insert, ofType, set, first]
    decide +kernel
  rwa [outcome] at steps

/-! ## Editing -/

namespace Editor

variable {editor : Editor}

/-- Both specs of an editor can be built. -/
structure Built (editor : Editor) : Prop where
  current : editor.current.Built
  saved : ∀ spec ∈ editor.saved, spec.Built

theorem built_start (mountType : Option String) : (start mountType).Built :=
  ⟨.ofType mountType, fun _ kept => nomatch kept⟩

/-- An edit leaves nothing but specs that can be built, whatever it answers. -/
theorem Built.apply (built : editor.Built) (edit : Edit) : (editor.apply edit).2.Built := by
  cases edit with
  | set key value => exact ⟨built.current.set key value, built.saved⟩
  | setWithin key value limit => exact ⟨built.current.setWithin key value limit, built.saved⟩
  | rescope scope => exact ⟨built.current.rescope scope, built.saved⟩
  | get key => exact built
  | type => exact built
  | save => exact ⟨built.current, fun _ kept => Option.some.inj kept ▸ built.current⟩
  | swap =>
    have back : (editor.saved.getD editor.current).Built := by
      cases kept : editor.saved with
      | none => exact built.current
      | some spec => exact built.saved spec kept
    exact ⟨back, fun _ kept => Option.some.inj kept ▸ built.current⟩
  | same =>
    rw [Editor.apply]
    split
    · exact built
    · exact built
  | text => exact built
  | load line =>
    rw [Editor.apply]
    split
    · next accepted => exact ⟨.ofText accepted, built.saved⟩
    · exact built

/-- **Every spec that is shown in the course of editing can be built.** -/
theorem Built.of_shown (built : editor.Built) {edits : List Edit} {reply : EditReply} {spec : Spec}
    (shown : (reply, spec) ∈ editor.run edits) : spec.Built := by
  induction edits generalizing editor with
  | nil => cases shown
  | cons edit edits ih =>
    rcases List.mem_cons.mp shown with first | later
    · cases first
      exact (built.apply edit).current
    · exact ih (built.apply edit) later

/-- A line that gives no spec changes nothing. -/
theorem apply_of_failed {edit : Edit} {why : SpecError}
    (refused : (editor.apply edit).1 = .failed why) : (editor.apply edit).2 = editor := by
  cases edit with
  | load line =>
    rw [Editor.apply] at refused ⊢
    split
    · next accepted =>
      rw [accepted] at refused
      cases refused
    · rfl
  | get key => rfl
  | type => rfl
  | text => rfl
  | same =>
    rw [Editor.apply]
    split
    · rfl
    · rfl
  | set key value => cases refused
  | setWithin key value limit => cases refused
  | rescope scope => cases refused
  | save => cases refused
  | swap => cases refused

end Editor

end Mounts
