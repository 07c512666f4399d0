import Mathlib.Data.List.Forall2

/-!
# Steps that may fail

Outcomes in `Except`, taken apart.  A step that goes on with the value of an earlier one, a refusal
under a condition, a change of the value or of the error, and a list whose members are read one
after another are told by an equivalence for success and one for failure.  A list is read exactly if
each member is (`mapM_eq_ok_iff`), and is refused for the first member that is refused
(`mapM_eq_error_iff`).
-/

namespace Mounts.Except

set_option autoImplicit false

variable {ε α β : Type}

/-! ## One step after another -/

@[simp]
theorem pure_eq_ok (value : α) : (pure value : Except ε α) = .ok value :=
  rfl

@[simp]
theorem ok_bind (value : α) (next : α → Except ε β) : (Except.ok value >>= next) = next value :=
  rfl

@[simp]
theorem error_bind (why : ε) (next : α → Except ε β) :
    ((Except.error why : Except ε α) >>= next) = .error why :=
  rfl

theorem bind_eq_ok_iff {first : Except ε α} {next : α → Except ε β} {result : β} :
    first >>= next = .ok result ↔ ∃ value, first = .ok value ∧ next value = .ok result := by
  cases first with
  | error why => simp
  | ok value => simp

theorem bind_eq_error_iff {first : Except ε α} {next : α → Except ε β} {why : ε} :
    first >>= next = .error why ↔
      first = .error why ∨ ∃ value, first = .ok value ∧ next value = .error why := by
  cases first with
  | error other => simp
  | ok value => simp

/-! ## Refusals under a condition -/

section

variable {condition : Prop} [Decidable condition] {refused why : ε} {value result : α}

theorem ite_eq_ok_iff : (if condition then .error refused else .ok value) = Except.ok result ↔
    ¬condition ∧ value = result := by
  split
  · next holds => simp [holds]
  · next fails => simp [fails]

theorem ite_eq_error_iff : (if condition then .error refused else .ok value) = Except.error why ↔
    condition ∧ refused = why := by
  split
  · next holds => simp [holds]
  · next fails => simp [fails]

end

/-! ## Changes of the value and of the error -/

/-- What is no failure after a change was none before. -/
theorem map_eq_ok_iff {outcome : Except ε α} {change : α → β} {result : β} :
    outcome.map change = .ok result ↔
      ∃ earlier, outcome = .ok earlier ∧ change earlier = result := by
  cases outcome with
  | error why => simp [Except.map]
  | ok earlier => simp [Except.map]

/-- A change leaves failures as they are. -/
theorem map_eq_error_iff {outcome : Except ε α} {change : α → β} {why : ε} :
    outcome.map change = .error why ↔ outcome = .error why := by
  cases outcome with
  | error other => simp [Except.map]
  | ok earlier => simp [Except.map]

/-- Other names for errors do not touch a value. -/
@[simp]
theorem mapError_ok (rename : ε → α) (value : β) :
    (Except.ok value).mapError rename = .ok value :=
  rfl

@[simp]
theorem mapError_error (rename : ε → α) (why : ε) :
    (Except.error why : Except ε β).mapError rename = .error (rename why) :=
  rfl

/-! ## The members of a list one after another -/

variable {read : α → Except ε β}

theorem mapM_cons_eq_ok_iff {item : α} {items : List α} {results : List β} :
    (item :: items).mapM read = .ok results ↔ ∃ result, read item = .ok result ∧
      ∃ others, items.mapM read = .ok others ∧ result :: others = results := by
  simp only [List.mapM_cons, bind_eq_ok_iff, pure_eq_ok, Except.ok.injEq]

theorem mapM_cons_eq_error_iff {item : α} {items : List α} {why : ε} :
    (item :: items).mapM read = .error why ↔ read item = .error why ∨
      (∃ result, read item = .ok result) ∧ items.mapM read = .error why := by
  simp [List.mapM_cons, bind_eq_error_iff]

/-- All members are read exactly if each of them is. -/
theorem mapM_eq_ok_iff {items : List α} {results : List β} :
    items.mapM read = .ok results ↔
      List.Forall₂ (fun item result => read item = .ok result) items results := by
  induction items generalizing results with
  | nil => simp [eq_comm]
  | cons item items ih =>
    simp only [mapM_cons_eq_ok_iff, List.forall₂_cons_left_iff, ih]
    exact ⟨fun ⟨result, first, others, more, whole⟩ => ⟨result, others, first, more, whole.symm⟩,
      fun ⟨result, others, first, more, whole⟩ => ⟨result, first, others, more, whole.symm⟩⟩

/-- All members are read if each of them can be. -/
theorem mapM_succeeds_iff {items : List α} : (∃ results, items.mapM read = .ok results) ↔
    ∀ item ∈ items, ∃ result, read item = .ok result := by
  induction items with
  | nil => simp
  | cons item items ih =>
    rw [List.forall_mem_cons, ← ih]
    simp only [mapM_cons_eq_ok_iff]
    constructor
    · rintro ⟨_, result, first, others, more, _⟩
      exact ⟨⟨result, first⟩, others, more⟩
    · rintro ⟨⟨result, first⟩, others, more⟩
      exact ⟨_, result, first, others, more, rfl⟩

/-- What is read of all members is what is read of each of them. -/
theorem mem_mapM_iff {items : List α} {results : List β}
    (accepted : items.mapM read = .ok results) {result : β} :
    result ∈ results ↔ ∃ item ∈ items, read item = .ok result := by
  rw [mapM_eq_ok_iff] at accepted
  induction accepted with
  | nil => simp
  | cons first _ ih => simp [ih, first, eq_comm]

/-- Reading is refused for the first member that is refused. -/
theorem mapM_eq_error_iff {items : List α} {why : ε} :
    items.mapM read = .error why ↔ ∃ earlier bad later, items = earlier ++ bad :: later ∧
      (∀ item ∈ earlier, ∃ result, read item = .ok result) ∧ read bad = .error why := by
  induction items with
  | nil => simp
  | cons item items ih =>
    rw [mapM_cons_eq_error_iff, ih]
    constructor
    · rintro (refused | ⟨accepted, earlier, bad, later, rfl, fine, refused⟩)
      · exact ⟨[], item, items, rfl, List.forall_mem_nil _, refused⟩
      · exact ⟨item :: earlier, bad, later, rfl, List.forall_mem_cons.mpr ⟨accepted, fine⟩,
          refused⟩
    · rintro ⟨earlier, bad, later, split_up, fine, refused⟩
      cases earlier with
      | nil =>
        cases split_up
        exact .inl refused
      | cons head earlier =>
        cases split_up
        rw [List.forall_mem_cons] at fine
        exact .inr ⟨fine.1, earlier, bad, later, rfl, fine.2, refused⟩

end Mounts.Except
