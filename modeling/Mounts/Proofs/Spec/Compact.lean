import Mounts.Proofs.Spec.Built
import Mounts.Proofs.Text.Escaping
import Mounts.Proofs.Text.Splitting

/-!
# Specs written in the compact form and read back

Escaped keys and values hold neither commas nor equals signs, so a line comes apart into the pieces
that it was put together from, and every piece into its key and its value.

The path prefix is written last, under a key of its own.  A parameter may have the same key: its
piece stands before that of the prefix and is taken for an earlier prefix, so it is the one thing
that is lost (`compact_round_trip`).

Even so the line tells a spec from every other one, and no text of a spec can bring in a separator
or an escape of its own: commas and equals signs are as many as the parameters ask for, two digits
stand behind every percent sign, and the line is never that of a missing spec
(`compact_form_unforgeable`).
-/

namespace Mounts.Spec

set_option autoImplicit false

/-! ## Pieces -/

theorem readToken_escape {text : String} (clean : Text.hasNul text = false) :
    readToken (Text.escape text) = .ok text := by
  rw [readToken, Text.unescape?_escape]
  dsimp only
  rw [clean, if_neg Bool.false_ne_true]

/-- A key and a value are read back from their piece. -/
theorem readPiece_piece {entry : String × String}
    (clean : Text.hasNul entry.1 = false ∧ Text.hasNul entry.2 = false) :
    readPiece (piece entry) = .ok entry := by
  have absent (text : String) : '=' ∉ (Text.escape text).toList :=
    Text.separator_not_mem_escape text (by decide) (by decide)
  have parts : Text.splitOn '=' (piece entry) = [Text.escape entry.1, Text.escape entry.2] :=
    (Text.splitOn_append (absent entry.1) _).trans
      (congrArg _ (Text.splitOn_of_absent (absent entry.2)))
  rw [readPiece, parts]
  dsimp only
  rw [readToken_escape clean.1, readToken_escape clean.2]
  rfl

theorem mapM_readPiece {entries : List (String × String)}
    (clean : ∀ entry ∈ entries, Text.hasNul entry.1 = false ∧ Text.hasNul entry.2 = false) :
    (entries.map piece).mapM readPiece = .ok entries := by
  induction entries with
  | nil => rfl
  | cons entry entries ih =>
    rw [List.forall_mem_cons] at clean
    rw [List.map_cons, List.mapM_cons, readPiece_piece clean.1, ih clean.2]
    rfl

theorem comma_not_mem_piece (entry : String × String) : ',' ∉ (piece entry).toList := by
  rw [piece, String.toList_append, String.toList_append, List.mem_append, List.mem_append, not_or,
    not_or]
  refine ⟨⟨?_, by decide⟩, ?_⟩
  · exact Text.separator_not_mem_escape entry.1 (by decide) (by decide)
  · exact Text.separator_not_mem_escape entry.2 (by decide) (by decide)

theorem piece_ne_empty (entry : String × String) : piece entry ≠ "" := by
  intro nothing
  have sign : '=' ∈ (piece entry).toList := by
    rw [piece, String.toList_append, String.toList_append]
    exact List.mem_append_left _ (List.mem_append_right _ (by decide))
  rw [nothing] at sign
  cases sign

/-! ## Lines -/

/-- A line comes apart at its commas into the pieces that it was put together from. -/
theorem splitOn_toText (spec : Spec) :
    Text.splitOn ',' spec.toText =
      (spec.params.entries ++ [(scopeKey, spec.scope)]).map piece := by
  refine Text.splitOn_intercalate (by simp) fun text found => ?_
  obtain ⟨entry, _, rfl⟩ := List.mem_map.mp found
  exact comma_not_mem_piece entry

theorem pieces_toText (spec : Spec) :
    pieces spec.toText = (spec.params.entries ++ [(scopeKey, spec.scope)]).map piece := by
  have some_text : spec.toText ≠ "" := by
    intro nothing
    have last : piece (scopeKey, spec.scope) ∈ Text.splitOn ',' spec.toText := by
      rw [splitOn_toText]
      exact List.mem_map_of_mem (List.mem_append_right _ List.mem_cons_self)
    rw [nothing] at last
    exact piece_ne_empty _ (List.mem_singleton.mp last)
  rw [pieces, if_neg some_text, splitOn_toText]

/-- What is read from a line is what was written in it. -/
theorem mapM_readPiece_toText {spec : Spec} (valid : spec.Valid) :
    (pieces spec.toText).mapM readPiece =
      .ok (spec.params.entries ++ [(scopeKey, spec.scope)]) := by
  have reserved : Text.hasNul scopeKey = false := by decide
  rw [pieces_toText]
  refine mapM_readPiece fun entry found => ?_
  rcases List.mem_append.mp found with earlier | last
  · exact valid.params entry earlier
  · obtain rfl := List.mem_singleton.mp last
    exact ⟨reserved, valid.scope⟩

/-- The entries of a line give the parameters of other keys than that of the prefix. -/
theorem ofEntries?_toText {spec : Spec} (valid : spec.Valid) :
    ofEntries? (spec.params.entries ++ [(scopeKey, spec.scope)]) =
      some ⟨spec.params.erase scopeKey, spec.scope⟩ := by
  have others : (spec.params.entries ++ [(scopeKey, spec.scope)]).filter (·.1 != scopeKey) =
      (spec.params.erase scopeKey).entries := by
    rw [List.filter_append, List.filter_cons_of_neg (by simp), List.filter_nil, List.append_nil]
    rfl
  -- The last claim of a prefix counts, and the spec's own is written last.
  have claim : (spec.params.entries ++ [(scopeKey, spec.scope)]).findRev? (·.1 == scopeKey) =
      some (scopeKey, spec.scope) := by
    rw [List.findRev?_eq_find?_reverse, List.reverse_append, List.reverse_singleton,
      List.singleton_append, List.find?_cons_of_pos (by simp)]
  rw [ofEntries?, claim, Option.map_some, others,
    Params.ofPairs_entries (Params.valid_erase valid.params scopeKey), ofParams, Option.getD_some,
    Text.untilNul_eq_self valid.scope]

theorem ofText_toText {spec : Spec} (valid : spec.Valid) :
    ofText spec.toText = .ok ⟨spec.params.erase scopeKey, spec.scope⟩ := by
  rw [ofText, mapM_readPiece_toText valid]
  rw [Except.ok_bind]
  rw [ofEntries?_toText valid]
  rfl

/-- **A spec that can be built is read back from its compact form but for a parameter under the key
of the path prefix, so it is read back whole exactly when it has none.** -/
theorem compact_round_trip {spec : Spec} (built : spec.Built) :
    ofText spec.toText = .ok ⟨spec.params.erase scopeKey, spec.scope⟩ ∧
      (ofText spec.toText = .ok spec ↔ spec.params.get? scopeKey = none) := by
  have outcome := ofText_toText built.valid
  refine ⟨outcome, ?_⟩
  rw [outcome]
  constructor
  · intro whole
    have kept : spec.params.erase scopeKey = spec.params :=
      congrArg Spec.params (Except.ok.inj whole)
    rw [← kept, Keyed.get?_erase, if_pos rfl]
  · intro absent
    rw [Keyed.erase_of_absent absent]

/-- The guest spec comes back whole, but not with a parameter under the key of the path prefix. -/
theorem compact_round_trip_guest : ofText guest.toText = .ok guest ∧
    ofText (guest.set scopeKey "x").toText ≠ .ok (guest.set scopeKey "x") := by
  obtain ⟨_, whole⟩ := compact_round_trip guest_built
  refine ⟨whole.mpr (by decide +kernel), fun same => ?_⟩
  have stored : (guest.set scopeKey "x").params.get? scopeKey = some "x" := by
    rw [set, Params.set_eq_insert]
    decide +kernel
  have missing := (compact_round_trip (guest_built.set scopeKey "x")).2.mp same
  rw [stored] at missing
  cases missing

/-! ## Lines that cannot be forged -/

/-- A line tells all entries that were written in it, also those that reading gives up. -/
theorem eq_of_toText_eq {first second : Spec} (valid : first.Valid) (valid_too : second.Valid)
    (same : first.toText = second.toText) : first = second := by
  have read := mapM_readPiece_toText valid
  rw [same, mapM_readPiece_toText valid_too] at read
  obtain ⟨entries, last⟩ := List.append_inj' (Except.ok.inj read) rfl
  have scope : second.scope = first.scope := congrArg Prod.snd (List.cons.inj last).1
  exact Spec.ext (Keyed.ext entries.symm) scope.symm

/-- A line is made of the letters of its pieces, with commas between the pieces. -/
theorem toList_toText (spec : Spec) :
    spec.toText.toList = [','].intercalate
      ((spec.params.entries ++ [(scopeKey, spec.scope)]).map
        fun entry => (piece entry).toList) := by
  rw [Text.toList_eq_intercalate ',', splitOn_toText, List.map_map]
  rfl

theorem toList_piece (entry : String × String) :
    (piece entry).toList =
      (Text.escape entry.1).toList ++ '=' :: (Text.escape entry.2).toList := by
  rw [piece, String.toList_append, String.toList_append, List.append_assoc]
  rfl

theorem count_sign_piece (entry : String × String) : (piece entry).toList.count '=' = 1 := by
  have absent (text : String) : (Text.escape text).toList.count '=' = 0 :=
    List.count_eq_zero.mpr (Text.separator_not_mem_escape text (by decide) (by decide))
  rw [toList_piece, List.count_append, List.count_cons_self, absent, absent]

theorem signsEscape_piece (entry : String × String) : Text.SignsEscape (piece entry).toList := by
  have sign : Text.SignsEscape ['='] := Text.signsEscape_of_absent (by decide)
  rw [toList_piece]
  exact (Text.signsEscape_escape entry.1).append (sign.append (Text.signsEscape_escape entry.2))

theorem signsEscape_toText (spec : Spec) : Text.SignsEscape spec.toText.toList := by
  have comma : Text.SignsEscape [','] := Text.signsEscape_of_absent (by decide)
  rw [toList_toText]
  cases spec.params.entries ++ [(scopeKey, spec.scope)] with
  | nil => exact Text.signsEscape_of_absent List.not_mem_nil
  | cons first others =>
    rw [List.map_cons, Text.intercalate_cons, List.flatMap_map]
    refine (signsEscape_piece first).append (Text.signsEscape_flatMap fun entry _ => ?_)
    exact comma.append (signsEscape_piece entry)

/-- A line is made of separators, of percent signs and of characters that stand for themselves. -/
theorem standsForItself_of_mem_toText {spec : Spec} {letter : Char}
    (found : letter ∈ spec.toText.toList) :
    letter = ',' ∨ letter = '=' ∨ letter = '%' ∨ Text.standsForItself letter = true := by
  have escaped {text : String} (inside : letter ∈ (Text.escape text).toList) :
      letter = '%' ∨ Text.standsForItself letter = true :=
    (Text.standsForItself_of_mem_escape inside).symm
  have in_piece {entry : String × String} (inside : letter ∈ (piece entry).toList) :
      letter = '=' ∨ letter = '%' ∨ Text.standsForItself letter = true := by
    rw [toList_piece, List.mem_append, List.mem_cons] at inside
    rcases inside with key | sign | value
    · exact .inr (escaped key)
    · exact .inl sign
    · exact .inr (escaped value)
  rw [toList_toText] at found
  cases parts : spec.params.entries ++ [(scopeKey, spec.scope)] with
  | nil =>
    rw [parts] at found
    cases found
  | cons first others =>
    rw [parts, List.map_cons, Text.intercalate_cons, List.flatMap_map, List.mem_append,
      List.mem_flatMap] at found
    rcases found with inside | ⟨entry, _, further⟩
    · exact .inr (in_piece inside)
    · rcases List.mem_cons.mp further with comma | inside
      · exact .inl comma
      · exact .inr (in_piece inside)

/-- **The compact form tells specs apart, and nothing in a spec can forge a part of it.** -/
theorem compact_form_unforgeable {spec : Spec} (built : spec.Built) :
    (∀ other : Spec, other.Built → other.toText = spec.toText → other = spec) ∧
      spec.toText.toList.count ',' = spec.params.size ∧
      spec.toText.toList.count '=' = spec.params.size + 1 ∧
      (∀ before after, spec.toText.toList = before ++ '%' :: after →
        ∃ high low rest, after = high :: low :: rest ∧
          Text.Hex.IsUpper high ∧ Text.Hex.IsUpper low) ∧
      (∀ letter ∈ spec.toText.toList, letter.toNat < 128 → letter ∉ [',', '=', '%'] →
        letter.isAlphanum = true ∨ letter ∈ ['-', '.', '_', '~']) ∧
      textOf (some spec) ≠ "(null)" := by
  have parts : (spec.params.entries ++ [(scopeKey, spec.scope)]).length = spec.params.size + 1 :=
    List.length_append
  have signs : spec.toText.toList.count '=' = spec.params.size + 1 := by
    rw [toList_toText, Text.count_intercalate (by decide), List.length_map, parts]
    exact List.forall_mem_map.mpr fun entry _ => count_sign_piece entry
  refine ⟨?injective, ?commas, signs, signsEscape_toText spec, ?others, ?missing⟩
  case injective =>
    intro other built_too same
    exact eq_of_toText_eq built_too.valid built.valid same
  case commas =>
    have pieces := congrArg List.length (splitOn_toText spec)
    rw [Text.length_splitOn, List.length_map, parts] at pieces
    exact Nat.succ.inj pieces
  case others =>
    intro letter found ascii separates
    rcases standsForItself_of_mem_toText found with rfl | rfl | rfl | itself
    · exact absurd (by simp) separates
    · exact absurd (by simp) separates
    · exact absurd (by simp) separates
    · exact (Text.standsForItself_iff_of_ascii ascii).mp itself
  case missing =>
    intro same
    have text : spec.toText = "(null)" := same
    have no_sign : "(null)".toList.count '=' = 0 := by decide
    rw [text, no_sign] at signs
    cases signs

/-- The guest spec with a user whose name looks like the end of a line. -/
def forger : Spec :=
  guest.set "user" "x,__mount_prefix=%2F"

/-- The name adds one parameter and no more, and is not taken for a path prefix. -/
theorem compact_form_unforgeable_forger :
    forger.toText.toList.count ',' = 3 ∧ forger.toText.toList.count '=' = 4 ∧
      forger.toText ≠ guest.toText := by
  have built : forger.Built := guest_built.set "user" "x,__mount_prefix=%2F"
  have size : forger.params.size = 3 := by
    rw [forger, set, Params.set_eq_insert]
    decide +kernel
  have other : forger.params.size ≠ guest.params.size := by
    rw [size]
    decide
  obtain ⟨injective, commas, signs, _⟩ := compact_form_unforgeable built
  rw [commas, signs, size]
  refine ⟨rfl, rfl, fun same => ?_⟩
  exact other (congrArg (·.params.size) (injective guest guest_built same.symm)).symm

end Mounts.Spec
