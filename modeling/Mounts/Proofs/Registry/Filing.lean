import Mounts.Registry

/-!
# What directories promise

`Files directory filing` says that a directory holds the references of a filing, each under the spec
that it was entered for.  A directory is lawful if it can be followed through its operations: an
entry is added, entries that fail a test are struck out, and a search for a spec goes through
entered references only, among them every one entered for that spec.

A sweep may be confined to the candidates for one spec, so it has to strike out the right entries
only if all that fail the test were entered for that spec.

Plain lists and buckets by digest are both lawful.  Of buckets this includes that no digest has two
of them and that none is empty.
-/

namespace Mounts

set_option autoImplicit false

/-- A directory whose operations do to its entries what they should. -/
class LawfulDirectory (D : Type) [Directory D] where
  /-- A directory holds the given references, each for a spec. -/
  Files : D → List (Ref × Spec) → Prop
  files_empty : Files Directory.empty []
  files_insert {directory : D} {filing : List (Ref × Spec)} (files : Files directory filing)
    (spec : Spec) (ref : Ref) :
    Files (Directory.insert directory spec ref) (filing ++ [(ref, spec)])
  files_sweep {directory : D} {filing : List (Ref × Spec)} (files : Files directory filing)
    {spec : Spec} {keep : Ref → Bool}
    (confined : ∀ entry ∈ filing, keep entry.1 = false → entry.2 = spec) :
    Files (Directory.sweep directory spec keep) (filing.filter fun entry => keep entry.1)
  candidates_subset {directory : D} {filing : List (Ref × Spec)} (files : Files directory filing)
    (spec : Spec) : Directory.candidates directory spec ⊆ filing.map (·.1)
  mem_candidates {directory : D} {filing : List (Ref × Spec)} (files : Files directory filing)
    {ref : Ref} {spec : Spec} (entered : (ref, spec) ∈ filing) :
    ref ∈ Directory.candidates directory spec

/-! ## Plain lists -/

instance : LawfulDirectory Roster where
  Files roster filing := roster.refs = filing.map (·.1)
  files_empty := rfl
  files_insert {roster filing} files spec ref := by
    change roster.refs ++ [ref] = _
    rw [files, List.map_append]
    rfl
  files_sweep {roster filing} files spec keep _ := by
    change roster.refs.filter keep = _
    rw [files, List.filter_map]
    rfl
  candidates_subset {roster filing} files _ := by
    change roster.refs ⊆ _
    rw [files]
    exact List.Subset.refl _
  mem_candidates {roster filing} files ref spec entered := by
    change ref ∈ roster.refs
    rw [files]
    exact List.mem_map_of_mem entered

namespace Buckets

/-! ## Buckets -/

/-- The digests for which there are buckets. -/
def digests (buckets : List (UInt32 × List Ref)) : List UInt32 :=
  buckets.map (·.1)

theorem bucket_cons (digest other : UInt32) (refs : List Ref) (rest : List (UInt32 × List Ref)) :
    bucket ⟨(other, refs) :: rest⟩ digest =
      if other = digest then refs else bucket ⟨rest⟩ digest := by
  rw [bucket, List.find?_cons]
  split
  · next same => rw [if_pos (beq_iff_eq.mp same)]; rfl
  · next differs => rw [if_neg (beq_eq_false_iff_ne.mp differs)]; rfl

theorem bucket_of_absent {buckets : List (UInt32 × List Ref)} {digest : UInt32}
    (absent : digest ∉ digests buckets) : bucket ⟨buckets⟩ digest = [] := by
  induction buckets with
  | nil => rfl
  | cons first rest ih =>
    rw [digests, List.map_cons, List.mem_cons, not_or] at absent
    rw [bucket_cons, if_neg (Ne.symm absent.1), ih absent.2]

theorem bucket_of_mem {buckets : List (UInt32 × List Ref)} (distinct : (digests buckets).Nodup)
    {held : UInt32 × List Ref} (found : held ∈ buckets) : bucket ⟨buckets⟩ held.1 = held.2 := by
  induction buckets with
  | nil => cases found
  | cons first rest ih =>
    obtain ⟨absent, further⟩ : first.1 ∉ digests rest ∧ (digests rest).Nodup :=
      List.nodup_cons.mp distinct
    rw [bucket_cons]
    rcases List.mem_cons.mp found with rfl | later
    · rw [if_pos rfl]
    · have apart : first.1 ≠ held.1 := by
        intro same
        rw [same] at absent
        exact absent (List.mem_map_of_mem later)
      rw [if_neg apart, ih further later]

theorem bucket_add (digest asked : UInt32) (ref : Ref) (buckets : List (UInt32 × List Ref)) :
    bucket ⟨add digest ref buckets⟩ asked =
      if digest = asked then bucket ⟨buckets⟩ asked ++ [ref] else bucket ⟨buckets⟩ asked := by
  induction buckets with
  | nil =>
    rw [add, bucket_cons]
    rfl
  | cons first rest ih =>
    obtain ⟨other, refs⟩ := first
    rw [add]
    split
    · next same =>
      subst same
      rw [bucket_cons, bucket_cons]
      split
      · rfl
      · rfl
    · next differs =>
      rw [bucket_cons, bucket_cons, ih]
      split
      · next here =>
        subst here
        rw [if_neg (Ne.symm differs)]
      · rfl

theorem mem_digests_add {digest asked : UInt32} {ref : Ref} {buckets : List (UInt32 × List Ref)} :
    asked ∈ digests (add digest ref buckets) ↔ asked = digest ∨ asked ∈ digests buckets := by
  induction buckets with
  | nil => rw [add, digests, List.map_singleton, List.mem_singleton]; simp [digests]
  | cons first rest ih =>
    obtain ⟨other, refs⟩ := first
    rw [add]
    split
    · next same =>
      subst same
      simp only [digests, List.map_cons, List.mem_cons, or_self_left]
    · simp only [digests, List.map_cons, List.mem_cons] at ih ⊢
      rw [ih]
      exact or_left_comm

theorem nodup_digests_add {digest : UInt32} {ref : Ref} {buckets : List (UInt32 × List Ref)}
    (distinct : (digests buckets).Nodup) : (digests (add digest ref buckets)).Nodup := by
  induction buckets with
  | nil => exact List.nodup_cons.mpr ⟨List.not_mem_nil, List.nodup_nil⟩
  | cons first rest ih =>
    obtain ⟨other, refs⟩ := first
    obtain ⟨absent, further⟩ := List.nodup_cons.mp distinct
    rw [add]
    split
    · exact distinct
    · next differs =>
      refine List.nodup_cons.mpr ⟨fun found => ?_, ih further⟩
      rcases mem_digests_add.mp found with same | later
      · exact differs same
      · exact absent later

theorem filled_add {digest : UInt32} {ref : Ref} {buckets : List (UInt32 × List Ref)}
    (filled : ∀ bucket ∈ buckets, bucket.2 ≠ []) :
    ∀ bucket ∈ add digest ref buckets, bucket.2 ≠ [] := by
  induction buckets with
  | nil => exact List.forall_mem_singleton.mpr (List.cons_ne_nil _ _)
  | cons first rest ih =>
    obtain ⟨other, refs⟩ := first
    rw [List.forall_mem_cons] at filled
    rw [add]
    split
    · exact List.forall_mem_cons.mpr ⟨List.append_ne_nil_of_right_ne_nil _ (List.cons_ne_nil _ _),
        filled.2⟩
    · exact List.forall_mem_cons.mpr ⟨filled.1, ih filled.2⟩

theorem bucket_sweep {digest : UInt32} {keep : Ref → Bool} {buckets : List (UInt32 × List Ref)}
    (distinct : (digests buckets).Nodup) (asked : UInt32) :
    bucket ⟨sweep digest keep buckets⟩ asked =
      if digest = asked then (bucket ⟨buckets⟩ asked).filter keep else bucket ⟨buckets⟩ asked := by
  induction buckets with
  | nil =>
    rw [sweep]
    split
    · rfl
    · rfl
  | cons first rest ih =>
    obtain ⟨other, refs⟩ := first
    obtain ⟨absent, further⟩ := List.nodup_cons.mp distinct
    rw [sweep]
    split
    · next same =>
      subst same
      split
      · next emptied =>
        rw [bucket_cons]
        split
        · next here =>
          subst here
          rw [emptied, bucket_of_absent absent]
        · rfl
      · rw [bucket_cons, bucket_cons]
        split
        · rfl
        · rfl
    · next differs =>
      rw [bucket_cons, bucket_cons, ih further]
      split
      · next here =>
        subst here
        rw [if_neg (Ne.symm differs)]
      · rfl

theorem digests_sweep_sublist (digest : UInt32) (keep : Ref → Bool)
    (buckets : List (UInt32 × List Ref)) :
    (digests (sweep digest keep buckets)).Sublist (digests buckets) := by
  induction buckets with
  | nil => exact List.Sublist.refl _
  | cons first rest ih =>
    obtain ⟨other, refs⟩ := first
    rw [sweep]
    split
    · split
      · exact List.sublist_cons_self _ _
      · exact List.Sublist.refl _
    · exact ih.cons_cons _

theorem filled_sweep {digest : UInt32} {keep : Ref → Bool} {buckets : List (UInt32 × List Ref)}
    (filled : ∀ bucket ∈ buckets, bucket.2 ≠ []) :
    ∀ bucket ∈ sweep digest keep buckets, bucket.2 ≠ [] := by
  induction buckets with
  | nil => exact filled
  | cons first rest ih =>
    obtain ⟨other, refs⟩ := first
    rw [List.forall_mem_cons] at filled
    rw [sweep]
    split
    · split
      · exact filled.2
      · next some_left =>
        exact List.forall_mem_cons.mpr ⟨some_left, filled.2⟩
    · exact List.forall_mem_cons.mpr ⟨filled.1, ih filled.2⟩

/-- The references of a filing that were entered for specs with a digest. -/
def withDigest (digest : UInt32) (filing : List (Ref × Spec)) : List Ref :=
  (filing.filter fun entry => decide (entry.2.digest = digest)).map (·.1)

theorem mem_withDigest {digest : UInt32} {filing : List (Ref × Spec)} {ref : Ref} :
    ref ∈ withDigest digest filing ↔ ∃ spec, (ref, spec) ∈ filing ∧ spec.digest = digest := by
  simp only [withDigest, List.mem_map, List.mem_filter, decide_eq_true_iff]
  constructor
  · rintro ⟨entry, ⟨entered, same⟩, rfl⟩
    exact ⟨entry.2, entered, same⟩
  · rintro ⟨spec, entered, same⟩
    exact ⟨(ref, spec), ⟨entered, same⟩, rfl⟩

theorem withDigest_append (digest : UInt32) (filing : List (Ref × Spec)) (ref : Ref) (spec : Spec) :
    withDigest digest (filing ++ [(ref, spec)]) =
      if spec.digest = digest then withDigest digest filing ++ [ref]
      else withDigest digest filing := by
  rw [withDigest, List.filter_append, List.map_append, List.filter_cons]
  by_cases same : spec.digest = digest
  · rw [if_pos same, if_pos (decide_eq_true same)]
    rfl
  · rw [if_neg same, if_neg (by simpa using same)]
    exact List.append_nil _

theorem withDigest_filter (digest : UInt32) (keep : Ref → Bool) (filing : List (Ref × Spec)) :
    withDigest digest (filing.filter fun entry => keep entry.1) =
      (withDigest digest filing).filter keep := by
  rw [withDigest, withDigest, List.filter_map, List.filter_filter, List.filter_filter]
  refine congrArg _ (List.filter_congr fun entry _ => ?_)
  exact Bool.and_comm _ _

/-- Buckets that hold exactly the references of a filing, in the buckets of their digests, each
bucket in the order of entry. -/
structure Files (directory : Buckets) (filing : List (Ref × Spec)) : Prop where
  distinct : (digests directory.buckets).Nodup
  filled : ∀ bucket ∈ directory.buckets, bucket.2 ≠ []
  found : ∀ digest, directory.bucket digest = withDigest digest filing

instance : LawfulDirectory Buckets where
  Files := Files
  files_empty := {
    distinct := List.nodup_nil
    filled := fun _ found => nomatch found
    found := fun _ => rfl }
  files_insert {directory filing} files spec ref := {
    distinct := nodup_digests_add files.distinct
    filled := filled_add files.filled
    found := fun digest => by
      change bucket ⟨add spec.digest ref directory.buckets⟩ digest = _
      rw [bucket_add, files.found, withDigest_append] }
  files_sweep {directory filing} files spec keep confined := {
    distinct := files.distinct.sublist (digests_sweep_sublist _ _ _)
    filled := filled_sweep files.filled
    found := fun digest => by
      change bucket ⟨sweep spec.digest keep directory.buckets⟩ digest = _
      rw [bucket_sweep files.distinct, files.found, withDigest_filter]
      split
      · rfl
      · next differs =>
        -- The entries that fail the test are all in another bucket.
        refine (List.filter_eq_self.mpr fun ref found => ?_).symm
        obtain ⟨other, entered, same⟩ := mem_withDigest.mp found
        cases kept : keep ref with
        | true => rfl
        | false => exact absurd ((confined _ entered kept) ▸ same) differs }
  candidates_subset {directory filing} files spec := by
    change bucket directory spec.digest ⊆ _
    rw [files.found]
    intro ref found
    obtain ⟨other, entered, _⟩ := mem_withDigest.mp found
    exact List.mem_map_of_mem entered
  mem_candidates {directory filing} files ref spec entered := by
    change ref ∈ bucket directory spec.digest
    rw [files.found]
    exact mem_withDigest.mpr ⟨spec, entered, rfl⟩

end Buckets

end Mounts
