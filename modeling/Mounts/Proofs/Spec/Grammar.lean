import Mounts.Proofs.Spec.Built
import Mounts.Proofs.Text.Splitting
import Mounts.Proofs.Text.Escaping

/-!
# Which lines are read as specs

A line is cut at its commas.  Each piece has to be two tokens around the only equals sign in it, and
each token has to stand for a text without NUL.  Then the pieces give entries, and if the path
prefix is among them the entries give a spec, in which the last piece with a key counts.

`Gives` and `Spoils` tell good pieces from bad ones, each by rules of its own, and say what is wrong
with a bad one: the number of equals signs comes first, then the key, then the value.  Reading
follows these rules for every line whatsoever (`ofText_follows_grammar`): it accepts exactly the
lines of the grammar, and otherwise blames the leftmost bad piece, and with it whoever gave the line
(`isInvalidArgument_of_ofText`).
-/

namespace Mounts.Spec

set_option autoImplicit false

/-! ## Tokens -/

/-- A token stands for a text without NUL. -/
def StandsFor (token text : String) : Prop :=
  Text.Unescapes (Text.utf8 token) (Text.utf8 text) ∧ Text.hasNul text = false

theorem readToken_eq_ok_iff {token text : String} :
    readToken token = .ok text ↔ StandsFor token text := by
  rw [StandsFor, ← Text.unescape?_eq_some_iff, readToken]
  cases Text.unescape? token with
  | none => simp
  | some other =>
    dsimp only
    rw [Option.some.injEq]
    split
    · next holds =>
      refine iff_of_false (fun accepted => nomatch accepted) ?_
      rintro ⟨rfl, clean⟩
      rw [clean] at holds
      cases holds
    · next free =>
      rw [Except.ok.injEq]
      refine ⟨?_, And.left⟩
      rintro rfl
      exact ⟨rfl, Bool.eq_false_iff.mpr free⟩

theorem readToken_eq_error_iff {token : String} {why : SpecError} :
    readToken token = .error why ↔
      (∀ text, ¬ StandsFor token text) ∧ why = .invalidEscape token := by
  have blamed : ∀ other, readToken token = .error other → other = .invalidEscape token := by
    intro other refused
    rw [readToken] at refused
    split at refused
    · split at refused
      · exact (Except.error.inj refused).symm
      · cases refused
    · exact (Except.error.inj refused).symm
  simp only [← readToken_eq_ok_iff]
  cases outcome : readToken token with
  | ok text => simp
  | error other => simp [blamed other outcome, eq_comm]

/-! ## Pieces -/

/-- The entry that a good piece gives. -/
inductive Gives : String → String × String → Prop
  /-- Two tokens around an equals sign give what they stand for. -/
  | entry {key value name content : String} :
      '=' ∉ key.toList → '=' ∉ value.toList → StandsFor key name → StandsFor value content →
        Gives (key ++ "=" ++ value) (name, content)

/-- What is wrong with a bad piece. -/
inductive Spoils : String → SpecError → Prop
  /-- There is not exactly one equals sign. -/
  | signs {piece : String} : piece.toList.count '=' ≠ 1 → Spoils piece (.invalidPair piece)
  /-- The key stands for no text. -/
  | key {key value : String} :
      '=' ∉ key.toList → '=' ∉ value.toList → (∀ text, ¬ StandsFor key text) →
        Spoils (key ++ "=" ++ value) (.invalidEscape key)
  /-- The key is good, but the value stands for no text. -/
  | value {key value name : String} :
      '=' ∉ key.toList → '=' ∉ value.toList → StandsFor key name →
        (∀ text, ¬ StandsFor value text) → Spoils (key ++ "=" ++ value) (.invalidEscape value)

/-- A piece comes apart into two tokens exactly if these are around its only equals sign. -/
theorem splitOn_sign_iff {piece key value : String} : Text.splitOn '=' piece = [key, value] ↔
    piece = key ++ "=" ++ value ∧ '=' ∉ key.toList ∧ '=' ∉ value.toList := by
  have sign : "=" = String.singleton '=' := rfl
  rw [sign]
  exact Text.splitOn_eq_pair_iff

/-- A piece is read token by token if it has one equals sign. -/
theorem readPiece_around {key value : String} (key_free : '=' ∉ key.toList)
    (value_free : '=' ∉ value.toList) :
    readPiece (key ++ "=" ++ value) = do return (← readToken key, ← readToken value) := by
  rw [readPiece, splitOn_sign_iff.mpr ⟨rfl, key_free, value_free⟩]

/-- A piece is two tokens around its equals sign, or there is not exactly one such sign in it. -/
theorem around_or_count (piece : String) :
    (∃ key value, piece = key ++ "=" ++ value ∧ '=' ∉ key.toList ∧ '=' ∉ value.toList) ∨
      piece.toList.count '=' ≠ 1 := by
  have counted := Text.length_splitOn '=' piece
  by_cases once : piece.toList.count '=' = 1
  · rw [once] at counted
    obtain ⟨key, value, apart⟩ := List.length_eq_two.mp counted
    exact .inl ⟨key, value, splitOn_sign_iff.mp apart⟩
  · exact .inr once

theorem readPiece_of_count {piece : String} (signs : piece.toList.count '=' ≠ 1) :
    readPiece piece = .error (.invalidPair piece) := by
  have counted := Text.length_splitOn '=' piece
  rw [readPiece]
  split
  · next key value apart =>
    rw [apart] at counted
    exact absurd (Nat.succ.inj counted).symm signs
  · rfl

/-- A piece gives the entry that is read from it. -/
theorem readPiece_eq_ok_iff {piece : String} {entry : String × String} :
    readPiece piece = .ok entry ↔ Gives piece entry := by
  constructor
  · intro accepted
    rcases around_or_count piece with ⟨key, value, rfl, key_free, value_free⟩ | signs
    · rw [readPiece_around key_free value_free] at accepted
      cases first : readToken key with
      | error why =>
        rw [first] at accepted
        cases accepted
      | ok name =>
        cases second : readToken value with
        | error why =>
          rw [first, second] at accepted
          cases accepted
        | ok content =>
          rw [first, second] at accepted
          cases accepted
          exact .entry key_free value_free (readToken_eq_ok_iff.mp first)
            (readToken_eq_ok_iff.mp second)
    · rw [readPiece_of_count signs] at accepted
      cases accepted
  · rintro ⟨key_free, value_free, key_stands, value_stands⟩
    rw [readPiece_around key_free value_free, readToken_eq_ok_iff.mpr key_stands,
      readToken_eq_ok_iff.mpr value_stands]
    rfl

/-- A piece is refused for what is wrong with it. -/
theorem readPiece_eq_error_iff {piece : String} {why : SpecError} :
    readPiece piece = .error why ↔ Spoils piece why := by
  constructor
  · intro refused
    rcases around_or_count piece with ⟨key, value, rfl, key_free, value_free⟩ | signs
    · rw [readPiece_around key_free value_free] at refused
      cases first : readToken key with
      | error other =>
        rw [first] at refused
        cases refused
        obtain ⟨nothing, rfl⟩ := readToken_eq_error_iff.mp first
        exact .key key_free value_free nothing
      | ok name =>
        cases second : readToken value with
        | error other =>
          rw [first, second] at refused
          cases refused
          obtain ⟨nothing, rfl⟩ := readToken_eq_error_iff.mp second
          exact .value key_free value_free (readToken_eq_ok_iff.mp first) nothing
        | ok content =>
          rw [first, second] at refused
          cases refused
    · rw [readPiece_of_count signs] at refused
      cases refused
      exact .signs signs
  · intro spoils
    cases spoils with
    | signs signs => exact readPiece_of_count signs
    | key key_free value_free nothing =>
      rw [readPiece_around key_free value_free, readToken_eq_error_iff.mpr ⟨nothing, rfl⟩]
      rfl
    | value key_free value_free key_stands nothing =>
      rw [readPiece_around key_free value_free, readToken_eq_ok_iff.mpr key_stands,
        readToken_eq_error_iff.mpr ⟨nothing, rfl⟩]
      rfl

/-- No entry that a piece gives holds a NUL. -/
theorem Gives.clean {piece : String} {entry : String × String} (gives : Gives piece entry) :
    Text.hasNul entry.1 = false ∧ Text.hasNul entry.2 = false := by
  obtain ⟨_, _, key_stands, value_stands⟩ := gives
  exact ⟨key_stands.2, value_stands.2⟩

/-! ## Entries of several pieces -/

theorem mapM_readPiece_eq_ok_iff {parts : List String} {entries : List (String × String)} :
    parts.mapM readPiece = .ok entries ↔ List.Forall₂ Gives parts entries := by
  rw [Except.mapM_eq_ok_iff]
  simp only [readPiece_eq_ok_iff]

theorem exists_entries_iff {parts : List String} :
    (∃ entries, List.Forall₂ Gives parts entries) ↔ ∀ part ∈ parts, ∃ entry, Gives part entry := by
  simp only [← mapM_readPiece_eq_ok_iff, ← readPiece_eq_ok_iff]
  exact Except.mapM_succeeds_iff

/-- The entries of pieces are those that one of the pieces gives. -/
theorem mem_entries_iff {parts : List String} {entries : List (String × String)}
    (given : List.Forall₂ Gives parts entries) {entry : String × String} :
    entry ∈ entries ↔ ∃ part ∈ parts, Gives part entry := by
  simp only [← readPiece_eq_ok_iff]
  exact Except.mem_mapM_iff (mapM_readPiece_eq_ok_iff.mpr given)

theorem clean_of_gives {parts : List String} {entries : List (String × String)}
    (given : List.Forall₂ Gives parts entries) :
    ∀ entry ∈ entries, Text.hasNul entry.1 = false ∧ Text.hasNul entry.2 = false := by
  intro entry found
  obtain ⟨part, _, gives⟩ := (mem_entries_iff given).mp found
  exact gives.clean

/-! ## Lines -/

/-- Pieces without commas that make up a line when they are joined by commas.  The empty line has no
pieces. -/
structure CutAtCommas (line : String) (parts : List String) : Prop where
  joined : ",".intercalate parts = line
  free : ∀ part ∈ parts, ',' ∉ part.toList
  nothing : line = "" → parts = []

theorem cutAtCommas_pieces (line : String) : CutAtCommas line (pieces line) := by
  rw [pieces]
  split
  · next empty => exact ⟨empty.symm, List.forall_mem_nil _, fun _ => rfl⟩
  · next filled =>
    refine ⟨?_, fun part found => Text.separator_not_mem_of_mem_splitOn found,
      fun empty => absurd empty filled⟩
    apply String.toList_inj.mp
    rw [Text.toList_eq_intercalate ',' line, String.toList_intercalate]
    rfl

/-- There is one way to cut a line. -/
theorem cutAtCommas_iff {line : String} {parts : List String} :
    CutAtCommas line parts ↔ parts = pieces line := by
  constructor
  · intro cut
    have separator : "," = String.singleton ',' := rfl
    rw [pieces]
    split
    · next empty => exact cut.nothing empty
    · next filled =>
      have some_part : parts ≠ [] := by
        rintro rfl
        exact filled cut.joined.symm
      rw [← cut.joined, separator, Text.splitOn_intercalate some_part cut.free]
  · rintro rfl
    exact cutAtCommas_pieces line

/-- The entries of a line give a spec if the path prefix is among them. -/
theorem ofEntries?_eq_some_iff {entries : List (String × String)}
    (clean : ∀ entry ∈ entries, Text.hasNul entry.1 = false ∧ Text.hasNul entry.2 = false)
    {spec : Spec} :
    ofEntries? entries = some spec ↔ Keyed.GivesLast entries scopeKey spec.scope ∧
      ∀ key value, spec.params.get? key = some value ↔
        key ≠ scopeKey ∧ Keyed.GivesLast entries key value := by
  have claims : ofEntries? entries = (Keyed.last? entries scopeKey).map fun scope =>
      ofParams (Params.ofPairs (entries.filter (·.1 != scopeKey))) (some scope) := by
    rw [ofEntries?, Keyed.last?, Option.map_map]
    rfl
  have others : Params.ofPairs (entries.filter (·.1 != scopeKey)) =
      Keyed.ofList (entries.filter (·.1 != scopeKey)) :=
    Params.ofPairs_of_clean fun entry found => clean entry (List.mem_filter.mp found).1
  have found (key value : String) :
      (Keyed.ofList (entries.filter (·.1 != scopeKey))).get? key = some value ↔
        key ≠ scopeKey ∧ Keyed.GivesLast entries key value := by
    rw [Keyed.get?_ofList, Keyed.last?_filter, ← Keyed.last?_eq_some_iff]
    split
    · next same => simp [same]
    · next other => simp [other]
  have scope_clean {scope : String} (last : Keyed.GivesLast entries scopeKey scope) :
      Text.untilNul scope = scope := by
    obtain ⟨earlier, later, rfl, _⟩ := last
    exact Text.untilNul_eq_self (clean (scopeKey, scope) (by simp)).2
  rw [claims, others, Option.map_eq_some_iff]
  constructor
  · rintro ⟨scope, last, rfl⟩
    rw [Keyed.last?_eq_some_iff] at last
    rw [ofParams, Option.getD_some, scope_clean last]
    exact ⟨last, found⟩
  · rintro ⟨last, same⟩
    refine ⟨spec.scope, Keyed.last?_eq_some_iff.mpr last, ?_⟩
    have params : Keyed.ofList (entries.filter (·.1 != scopeKey)) = spec.params := by
      refine Keyed.ext_get? fun key => Option.ext fun value => ?_
      rw [found, same]
    rw [ofParams, Option.getD_some, scope_clean last, params]

theorem mapM_readPiece_eq_error_iff {parts : List String} {why : SpecError} :
    parts.mapM readPiece = .error why ↔ ∃ earlier bad later, parts = earlier ++ bad :: later ∧
      (∀ part ∈ earlier, ∃ entry, Gives part entry) ∧ Spoils bad why := by
  rw [Except.mapM_eq_error_iff]
  simp only [readPiece_eq_ok_iff, readPiece_eq_error_iff]

/-- A line is read as the spec of its entries. -/
theorem ofText_eq_ok_iff {line : String} {spec : Spec} :
    ofText line = .ok spec ↔
      ∃ entries, List.Forall₂ Gives (pieces line) entries ∧ ofEntries? entries = some spec := by
  simp only [← mapM_readPiece_eq_ok_iff]
  rw [ofText, Except.bind_eq_ok_iff]
  refine exists_congr fun entries => and_congr_right fun _ => ?_
  cases ofEntries? entries with
  | none => simp
  | some other => simp

/-- A line is refused for its leftmost bad piece, or for want of a path prefix. -/
theorem ofText_eq_error_iff {line : String} {why : SpecError} :
    ofText line = .error why ↔
      (∃ earlier bad later, pieces line = earlier ++ bad :: later ∧
        (∀ part ∈ earlier, ∃ entry, Gives part entry) ∧ Spoils bad why) ∨
      (∃ entries, List.Forall₂ Gives (pieces line) entries ∧ ofEntries? entries = none) ∧
        why = .missingScope line := by
  simp only [← mapM_readPiece_eq_error_iff, ← mapM_readPiece_eq_ok_iff, ← exists_and_right,
    and_assoc]
  rw [ofText, Except.bind_eq_error_iff]
  refine or_congr_right (exists_congr fun entries => and_congr_right fun _ => ?_)
  cases ofEntries? entries with
  | none => simp [eq_comm]
  | some other => simp

/-- A line that is refused is held against whoever gave it. -/
theorem isInvalidArgument_of_ofText {line : String} {why : SpecError}
    (refused : ofText line = .error why) : why.isInvalidArgument = true := by
  rcases ofText_eq_error_iff.mp refused with ⟨_, _, _, _, _, spoils⟩ | ⟨_, rfl⟩
  · cases spoils with
    | signs _ => rfl
    | key _ _ _ => rfl
    | value _ _ _ _ => rfl
  · rfl

theorem ofEntries?_eq_none_iff {entries : List (String × String)} :
    ofEntries? entries = none ↔ ∀ entry ∈ entries, entry.1 ≠ scopeKey := by
  rw [ofEntries?, Option.map_eq_none_iff, ← Keyed.last?_eq_none_iff, Keyed.last?,
    Option.map_eq_none_iff]

/-! ## Reading lines -/

/-- **Reading a line follows the grammar**, in what it accepts and in what it blames. -/
theorem ofText_follows_grammar (line : String) :
    ∃ parts, (∀ cut, CutAtCommas line cut ↔ cut = parts) ∧
      ((∃ spec, ofText line = .ok spec) ↔ (∀ part ∈ parts, ∃ entry, Gives part entry) ∧
        ∃ part ∈ parts, ∃ scope, Gives part (scopeKey, scope)) ∧
      (∀ spec, ofText line = .ok spec ↔ ∃ entries, List.Forall₂ Gives parts entries ∧
        Keyed.GivesLast entries scopeKey spec.scope ∧
          ∀ key value, spec.params.get? key = some value ↔
            key ≠ scopeKey ∧ Keyed.GivesLast entries key value) ∧
      (∀ why, ofText line = .error why ↔
        (∃ earlier bad later, parts = earlier ++ bad :: later ∧
          (∀ part ∈ earlier, ∃ entry, Gives part entry) ∧ Spoils bad why) ∨
        (∃ entries, List.Forall₂ Gives parts entries ∧
          ∀ entry ∈ entries, entry.1 ≠ scopeKey) ∧ why = .missingScope line) := by
  refine ⟨pieces line, fun cut => cutAtCommas_iff, ?accepts, ?reads, ?refuses⟩
  case accepts =>
    simp only [ofText_eq_ok_iff]
    constructor
    · rintro ⟨spec, entries, given, found⟩
      refine ⟨exists_entries_iff.mp ⟨entries, given⟩, ?_⟩
      obtain ⟨⟨earlier, later, split_up, _⟩, _⟩ :=
        (ofEntries?_eq_some_iff (clean_of_gives given)).mp found
      have entered : (scopeKey, spec.scope) ∈ entries := by simp [split_up]
      obtain ⟨part, inside, gives⟩ := (mem_entries_iff given).mp entered
      exact ⟨part, inside, spec.scope, gives⟩
    · rintro ⟨each, part, inside, scope, gives⟩
      obtain ⟨entries, given⟩ := exists_entries_iff.mpr each
      have entered := (mem_entries_iff given).mpr ⟨part, inside, gives⟩
      cases found : ofEntries? entries with
      | none => exact absurd rfl (ofEntries?_eq_none_iff.mp found _ entered)
      | some spec => exact ⟨spec, entries, given, found⟩
  case reads =>
    intro spec
    rw [ofText_eq_ok_iff]
    refine exists_congr fun entries => and_congr_right fun given => ?_
    exact ofEntries?_eq_some_iff (clean_of_gives given)
  case refuses =>
    intro why
    simp only [ofText_eq_error_iff, ofEntries?_eq_none_iff]

end Mounts.Spec
