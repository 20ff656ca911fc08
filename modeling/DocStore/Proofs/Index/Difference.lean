import DocStore.Index.Diff

/-! # What a difference holds

The descriptors to create are desired, stand for different indexes, and with the existing ones they
stand for everything desired; those to drop are the existing ones that nothing desired stands for.
Two lists have no difference exactly if they stand for the same indexes, and to apply a difference
leaves none. -/
set_option autoImplicit false

namespace DocStore.IndexDiff

/-- Whether an index is among those that a list describes. -/
def Describes (ds : List IndexDescriptor) (i : IndexKind × FieldPath) : Prop :=
  i ∈ ds.map IndexDescriptor.identity

instance (ds : List IndexDescriptor) (i : IndexKind × FieldPath) : Decidable (Describes ds i) :=
  inferInstanceAs (Decidable (i ∈ _))

theorem describes_of_mem {ds : List IndexDescriptor} {d : IndexDescriptor} (h : d ∈ ds) :
    Describes ds d.identity :=
  List.mem_map_of_mem h

theorem describes_append {ds es : List IndexDescriptor} {i : IndexKind × FieldPath} :
    Describes (ds ++ es) i ↔ Describes ds i ∨ Describes es i := by
  simp [Describes]

theorem covers_iff {ds : List IndexDescriptor} {d : IndexDescriptor} :
    covers ds d = true ↔ Describes ds d.identity := by
  rw [covers, List.any_eq_true, Describes, List.mem_map]
  constructor
  · rintro ⟨e, he, same⟩
    exact ⟨e, he, (eq_of_beq same).symm⟩
  · rintro ⟨e, he, same⟩
    exact ⟨e, he, beq_of_eq same.symm⟩

/-! ## First occurrences -/

variable {known ds : List IndexDescriptor}

theorem of_mem_firstsBeyond {d : IndexDescriptor} (h : d ∈ firstsBeyond known ds) :
    d ∈ ds ∧ ¬Describes known d.identity := by
  induction ds generalizing known with
  | nil => cases h
  | cons e ds ih =>
    rw [firstsBeyond] at h
    by_cases hk : covers known e = true
    · rw [if_pos hk] at h
      obtain ⟨mem, fresh⟩ := ih h
      exact ⟨List.mem_cons_of_mem e mem, fresh⟩
    · rw [if_neg hk] at h
      rcases List.mem_cons.mp h with rfl | h
      · exact ⟨List.mem_cons_self .., fun old => hk (covers_iff.mpr old)⟩
      · obtain ⟨mem, fresh⟩ := ih h
        exact ⟨List.mem_cons_of_mem e mem, fun old => fresh (describes_append.mpr (.inl old))⟩

theorem firstsBeyond_pairwise :
    (firstsBeyond known ds).Pairwise fun d e => d.identity ≠ e.identity := by
  induction ds generalizing known with
  | nil => exact List.Pairwise.nil
  | cons d ds ih =>
    rw [firstsBeyond]
    by_cases hk : covers known d = true
    · rw [if_pos hk]
      exact ih
    · rw [if_neg hk]
      refine List.pairwise_cons.mpr ⟨fun e he same => ?_, ih⟩
      refine (of_mem_firstsBeyond he).2 (describes_append.mpr (.inr ?_))
      exact same ▸ describes_of_mem (List.mem_cons_self ..)

theorem describes_firstsBeyond {i : IndexKind × FieldPath} (h : Describes ds i) :
    Describes known i ∨ Describes (firstsBeyond known ds) i := by
  induction ds generalizing known with
  | nil => cases h
  | cons d ds ih =>
    rw [firstsBeyond]
    by_cases hk : covers known d = true
    · rw [if_pos hk]
      rcases List.mem_cons.mp h with rfl | h
      · exact .inl (covers_iff.mp hk)
      · exact ih h
    · rw [if_neg hk]
      rcases List.mem_cons.mp h with rfl | h
      · exact .inr (List.mem_cons_self ..)
      · rcases @ih (known ++ [d]) h with old | new
        · rcases describes_append.mp old with old | this
          · exact .inl old
          · exact .inr (List.mem_cons.mpr (.inl (List.mem_singleton.mp this)))
        · exact .inr (List.mem_cons_of_mem _ new)

/-! ## Differences -/

variable {desired existing : List IndexDescriptor}

theorem of_mem_create {d : IndexDescriptor} (h : d ∈ (between desired existing).create) :
    d ∈ desired ∧ ¬Describes existing d.identity :=
  of_mem_firstsBeyond h

theorem mem_drop_iff {d : IndexDescriptor} :
    d ∈ (between desired existing).drop ↔ d ∈ existing ∧ ¬Describes desired d.identity := by
  simp [between, ← covers_iff]

/-- What is desired exists or is to be created. -/
theorem describes_create {i : IndexKind × FieldPath} (h : Describes desired i) :
    Describes existing i ∨ Describes (between desired existing).create i :=
  describes_firstsBeyond h

theorem between_eq_nil (h : ∀ i, Describes existing i ↔ Describes desired i) :
    between desired existing = ⟨[], []⟩ := by
  have create : (between desired existing).create = [] := by
    refine List.eq_nil_iff_forall_not_mem.mpr fun d hd => ?_
    obtain ⟨mem, fresh⟩ := of_mem_create hd
    exact fresh ((h _).mpr (describes_of_mem mem))
  have drop : (between desired existing).drop = [] := by
    refine List.eq_nil_iff_forall_not_mem.mpr fun d hd => ?_
    obtain ⟨mem, undesired⟩ := mem_drop_iff.mp hd
    exact undesired ((h _).mp (describes_of_mem mem))
  calc between desired existing
      = ⟨(between desired existing).create, (between desired existing).drop⟩ := rfl
    _ = ⟨[], []⟩ := by rw [create, drop]

/-! ## The difference as a whole -/

theorem firstsBeyond_congr {known' : List IndexDescriptor}
    (same : ∀ i, Describes known i ↔ Describes known' i) :
    firstsBeyond known ds = firstsBeyond known' ds := by
  induction ds generalizing known known' with
  | nil => rfl
  | cons d ds ih =>
    have cover : covers known d = covers known' d :=
      Bool.eq_iff_iff.mpr (covers_iff.trans ((same _).trans covers_iff.symm))
    have next : firstsBeyond (known ++ [d]) ds = firstsBeyond (known' ++ [d]) ds :=
      ih fun i => by rw [describes_append, describes_append, same]
    rw [firstsBeyond, firstsBeyond, cover, ih same, next]

/-- Whether nothing before a place of a list describes the index of a descriptor, and no known one
does. -/
def NewAt (known ds : List IndexDescriptor) (d : IndexDescriptor) (place : Nat) : Prop :=
  ¬Describes known d.identity ∧ ¬Describes (ds.take place) d.identity

instance (known ds : List IndexDescriptor) (d : IndexDescriptor) (place : Nat) :
    Decidable (NewAt known ds d place) :=
  inferInstanceAs (Decidable (_ ∧ _))

/-- The descriptors of a list that are the first of their index, without those of known ones. -/
def firstOccurrences (known ds : List IndexDescriptor) : List IndexDescriptor :=
  (ds.zipIdx.filter fun entry => NewAt known ds entry.1 entry.2).map Prod.fst

/-- What is found in the rest of a list is new in the whole list. -/
theorem firstsBeyond_append (before : List IndexDescriptor) :
    firstsBeyond (known ++ before) ds =
      ((ds.zipIdx before.length).filter fun entry =>
        NewAt known (before ++ ds) entry.1 entry.2).map Prod.fst := by
  induction ds generalizing before with
  | nil => rfl
  | cons d ds ih =>
    have next := ih (before ++ [d])
    rw [List.length_append, List.length_singleton, List.append_assoc before [d] ds,
      List.singleton_append, ← List.append_assoc known] at next
    have new_iff : NewAt known (before ++ d :: ds) d before.length ↔
        ¬covers (known ++ before) d = true := by
      rw [NewAt, List.take_left', covers_iff, describes_append, not_or]
      rfl
    rw [firstsBeyond, List.zipIdx_cons]
    by_cases old : covers (known ++ before) d = true
    · have unchanged (i : IndexKind × FieldPath) :
          Describes (known ++ before) i ↔ Describes (known ++ before ++ [d]) i := by
        refine ⟨fun h => describes_append.mpr (.inl h), fun h => ?_⟩
        refine (describes_append.mp h).elim id fun h => ?_
        obtain rfl : i = d.identity := List.mem_singleton.mp h
        exact covers_iff.mp old
      rw [if_pos old, List.filter_cons_of_neg (by simpa using fun new => new_iff.mp new old),
        firstsBeyond_congr unchanged, next]
    · rw [if_neg old, List.filter_cons_of_pos (by simpa using new_iff.mpr old), List.map_cons, next]

theorem create_eq_firstOccurrences :
    (between desired existing).create = firstOccurrences existing desired := by
  have whole := @firstsBeyond_append existing desired []
  rwa [List.append_nil] at whole

theorem describes_create_iff {i : IndexKind × FieldPath} :
    Describes (between desired existing).create i ↔
      Describes desired i ∧ ¬Describes existing i := by
  constructor
  · intro h
    obtain ⟨d, hd, rfl⟩ := List.mem_map.mp h
    obtain ⟨mem, fresh⟩ := of_mem_create hd
    exact ⟨describes_of_mem mem, fresh⟩
  · rintro ⟨wanted, fresh⟩
    exact (describes_create wanted).resolve_left fresh

theorem describes_drop_iff {i : IndexKind × FieldPath} :
    Describes (between desired existing).drop i ↔
      Describes existing i ∧ ¬Describes desired i := by
  constructor
  · intro h
    obtain ⟨d, hd, rfl⟩ := List.mem_map.mp h
    obtain ⟨mem, undesired⟩ := mem_drop_iff.mp hd
    exact ⟨describes_of_mem mem, undesired⟩
  · rintro ⟨old, undesired⟩
    obtain ⟨d, hd, rfl⟩ := List.mem_map.mp old
    exact describes_of_mem (mem_drop_iff.mpr ⟨hd, undesired⟩)

/-- A list without what a difference drops, followed by what it creates. -/
def applied (diff : IndexDiff) (existing : List IndexDescriptor) : List IndexDescriptor :=
  existing.filter (· ∉ diff.drop) ++ diff.create

theorem describes_applied {i : IndexKind × FieldPath} :
    Describes ((between desired existing).applied existing) i ↔ Describes desired i := by
  have kept : Describes (existing.filter (· ∉ (between desired existing).drop)) i ↔
      Describes existing i ∧ Describes desired i := by
    constructor
    · intro h
      obtain ⟨d, hd, rfl⟩ := List.mem_map.mp h
      obtain ⟨mem, stays⟩ := List.mem_filter.mp hd
      rw [decide_eq_true_eq, mem_drop_iff] at stays
      refine ⟨describes_of_mem mem, Decidable.byContradiction fun undesired => ?_⟩
      exact stays ⟨mem, undesired⟩
    · rintro ⟨old, wanted⟩
      obtain ⟨d, hd, rfl⟩ := List.mem_map.mp old
      refine describes_of_mem (List.mem_filter.mpr ⟨hd, ?_⟩)
      exact decide_eq_true fun dropped => (mem_drop_iff.mp dropped).2 wanted
  rw [applied, describes_append, kept, describes_create_iff]
  by_cases old : Describes existing i <;> simp [old]

theorem between_eq_nil_iff :
    between desired existing = ⟨[], []⟩ ↔ ∀ i, Describes desired i ↔ Describes existing i := by
  refine ⟨fun none i => ⟨fun wanted => ?_, fun old => ?_⟩,
    fun same => between_eq_nil fun i => (same i).symm⟩
  · refine Decidable.byContradiction fun new => ?_
    have created := describes_create_iff.mpr ⟨wanted, new⟩
    rw [none] at created
    cases created
  · refine Decidable.byContradiction fun undesired => ?_
    have dropped := describes_drop_iff.mpr ⟨old, undesired⟩
    rw [none] at dropped
    cases dropped

theorem isEmpty_iff {diff : IndexDiff} : diff.isEmpty = true ↔ diff = ⟨[], []⟩ := by
  obtain ⟨create, drop⟩ := diff
  simp [isEmpty]

/-- What is created is, in desired order and under the desired names, the first descriptor of each
desired index that does not exist; what is dropped is, in the given order and under the existing
names, every existing descriptor of an index that is not desired. No index is in both, applying the
difference leaves none, and there is none exactly if the same indexes are desired and exist. -/
theorem between_exact (desired existing : List IndexDescriptor) :
    (between desired existing).create = firstOccurrences existing desired ∧
    (between desired existing).create.Pairwise (fun d e => d.identity ≠ e.identity) ∧
    (between desired existing).drop =
      existing.filter (fun d => ¬Describes desired d.identity) ∧
    (∀ i, ¬(Describes (between desired existing).create i ∧
      Describes (between desired existing).drop i)) ∧
    (between desired ((between desired existing).applied existing)).isEmpty = true ∧
    ((between desired existing).isEmpty = true ↔
      ∀ i, Describes desired i ↔ Describes existing i) := by
  refine ⟨create_eq_firstOccurrences, firstsBeyond_pairwise, ?_, ?_, ?_, ?_⟩
  · refine List.filter_congr fun d _ => ?_
    rw [Bool.eq_iff_iff, Bool.not_eq_true', ← Bool.not_eq_true, covers_iff, decide_eq_true_eq]
  · rintro i ⟨create, drop⟩
    exact (describes_drop_iff.mp drop).2 (describes_create_iff.mp create).1
  · exact isEmpty_iff.mpr (between_eq_nil_iff.mpr fun i => describes_applied.symm)
  · exact isEmpty_iff.trans between_eq_nil_iff

example :
    between [⟨.path, ⟨"age"⟩, "a"⟩, ⟨.path, ⟨"city"⟩, "c"⟩, ⟨.path, ⟨"city"⟩, "d"⟩]
        [⟨.path, ⟨"age"⟩, "legacy"⟩, ⟨.unique, ⟨"city"⟩, "old"⟩] =
      ⟨[⟨.path, ⟨"city"⟩, "c"⟩], [⟨.unique, ⟨"city"⟩, "old"⟩]⟩ := by
  decide

end DocStore.IndexDiff
