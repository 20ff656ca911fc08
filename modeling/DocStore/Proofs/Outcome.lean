import Mathlib.Data.List.Forall2

/-! # Outcomes in sequence

A sequence of steps that may fail comes to a value exactly if each of its steps does. -/
set_option autoImplicit false

namespace DocStore.Outcome

variable {ε α β : Type}

@[simp] theorem ok_bind (a : α) (f : α → Except ε β) : (Except.ok a >>= f) = f a := rfl

@[simp] theorem error_bind (e : ε) (f : α → Except ε β) :
    (Except.error e >>= f) = Except.error e := rfl

theorem bind_eq_ok {x : Except ε α} {f : α → Except ε β} {b : β} :
    x >>= f = .ok b ↔ ∃ a, x = .ok a ∧ f a = .ok b := by
  cases x with
  | ok a => simp
  | error e => simp

theorem map_eq_ok {x : Except ε α} {f : α → β} {b : β} :
    x.map f = .ok b ↔ ∃ a, x = .ok a ∧ f a = b := by
  cases x with
  | ok a => simp [Except.map]
  | error e => simp [Except.map]

/-- What comes to a value after a test that may fail has passed the test. -/
theorem of_guarded {γ : Type} {c : Prop} [Decidable c] {e : ε} {k : γ → Except ε α}
    {x : Except ε α} {a : α} (h : (if c then throw e >>= k else x) = .ok a) : ¬c ∧ x = .ok a := by
  by_cases hc : c
  · rw [if_pos hc] at h
    cases h
  · rw [if_neg hc] at h
    exact ⟨hc, h⟩

theorem exists_of_isOk {σ : Type} {r : Except ε α × σ} (h : r.1.isOk = true) :
    ∃ a, r = (.ok a, r.2) := by
  obtain ⟨e | a, st⟩ := r
  · cases h
  · exact ⟨a, rfl⟩

theorem eq_of_toOption {σ : Type} {r : Except ε α × σ} {a : α} (h : r.1.toOption = some a) :
    r = (.ok a, r.2) := by
  obtain ⟨e | b, st⟩ := r
  · cases h
  · cases h
    rfl

/-! ## Lists of steps -/

variable {f : α → Except ε β} {l : List α} {bs : List β}

theorem mapM_cons_eq_ok {a : α} :
    (a :: l).mapM f = .ok bs ↔ ∃ b rest, f a = .ok b ∧ l.mapM f = .ok rest ∧ bs = b :: rest := by
  rw [List.mapM_cons, bind_eq_ok]
  constructor
  · rintro ⟨b, hb, h⟩
    obtain ⟨rest, hrest, e⟩ := bind_eq_ok.mp h
    exact ⟨b, rest, hb, hrest, (Except.ok.inj e).symm⟩
  · rintro ⟨b, rest, hb, hrest, rfl⟩
    exact ⟨b, hb, bind_eq_ok.mpr ⟨rest, hrest, rfl⟩⟩

theorem mapM_eq_ok_iff : l.mapM f = .ok bs ↔ List.Forall₂ (fun a b => f a = .ok b) l bs := by
  induction l generalizing bs with
  | nil =>
    rw [List.forall₂_nil_left_iff, List.mapM_nil]
    exact ⟨fun h => (Except.ok.inj h).symm, fun h => h ▸ rfl⟩
  | cons a l ih =>
    rw [mapM_cons_eq_ok, List.forall₂_cons_left_iff]
    simp only [ih, exists_and_left]

theorem mapM_map_eq_ok {γ : Type} {g : γ → α} {k : γ → β} {l : List γ}
    (h : ∀ c ∈ l, f (g c) = .ok (k c)) : (l.map g).mapM f = .ok (l.map k) := by
  induction l with
  | nil => rfl
  | cons c l ih =>
    have rest := ih fun c' hc => h c' (List.mem_cons_of_mem c hc)
    exact mapM_cons_eq_ok.mpr ⟨k c, l.map k, h c (List.mem_cons_self ..), rest, rfl⟩

/-- Steps on one of two lists that are related member by member. -/
theorem mapM_forall₂_eq_ok {γ δ : Type} {R : γ → δ → Prop} {g : γ → α} {k : δ → β} {cs : List γ}
    {ds : List δ} (related : List.Forall₂ R cs ds)
    (h : ∀ c, ∀ d ∈ ds, R c d → f (g c) = .ok (k d)) : (cs.map g).mapM f = .ok (ds.map k) := by
  induction related with
  | nil => rfl
  | cons first _ ih =>
    have rest := ih fun c d mem => h c d (List.mem_cons_of_mem _ mem)
    exact mapM_cons_eq_ok.mpr ⟨_, _, h _ _ (List.mem_cons_self ..) first, rest, rfl⟩

theorem mem_iff_of_mapM_eq_ok (h : l.mapM f = .ok bs) {b : β} :
    b ∈ bs ↔ ∃ a ∈ l, f a = .ok b := by
  induction l generalizing bs with
  | nil =>
    cases h
    simp
  | cons a l ih =>
    obtain ⟨b', rest, hb, hrest, rfl⟩ := mapM_cons_eq_ok.mp h
    rw [List.mem_cons, ih hrest]
    constructor
    · rintro (rfl | ⟨a', ha, e⟩)
      · exact ⟨a, List.mem_cons_self .., hb⟩
      · exact ⟨a', List.mem_cons_of_mem a ha, e⟩
    · rintro ⟨a', ha, e⟩
      rcases List.mem_cons.mp ha with rfl | ha
      · exact .inl (Except.ok.inj (e.symm.trans hb))
      · exact .inr ⟨a', ha, e⟩

theorem exists_of_mem_filterMap {f : α → Except ε (Option β)} {bs : List (Option β)}
    (h : l.mapM f = .ok bs) {b : β} (mem : b ∈ bs.filterMap id) : ∃ a ∈ l, f a = .ok (some b) := by
  obtain ⟨kept, hk, rfl⟩ := List.mem_filterMap.mp mem
  exact (mem_iff_of_mapM_eq_ok h).mp hk

theorem exists_of_mapM_eq_ok (h : l.mapM f = .ok bs) {a : α} (ha : a ∈ l) : ∃ b, f a = .ok b := by
  induction l generalizing bs with
  | nil => cases ha
  | cons a' l ih =>
    obtain ⟨b, rest, hb, hrest, -⟩ := mapM_cons_eq_ok.mp h
    rcases List.mem_cons.mp ha with rfl | ha
    · exact ⟨b, hb⟩
    · exact ih hrest ha

theorem exists_mapM_eq_ok (h : ∀ a ∈ l, ∃ b, f a = .ok b) : ∃ bs, l.mapM f = .ok bs := by
  induction l with
  | nil => exact ⟨[], rfl⟩
  | cons a l ih =>
    obtain ⟨b, hb⟩ := h a (List.mem_cons_self ..)
    obtain ⟨rest, hrest⟩ := ih fun a' ha => h a' (List.mem_cons_of_mem a ha)
    exact ⟨b :: rest, mapM_cons_eq_ok.mpr ⟨b, rest, hb, hrest, rfl⟩⟩

theorem mapM_append_error {before rest : List α} {a : α} {e : ε}
    (h : ∀ a ∈ before, ∃ b, f a = .ok b) (failed : f a = .error e) :
    (before ++ a :: rest).mapM f = .error e := by
  induction before with
  | nil =>
    rw [List.nil_append, List.mapM_cons, failed]
    rfl
  | cons a' before ih =>
    obtain ⟨⟨b, first⟩, others⟩ := List.forall_mem_cons.mp h
    rw [List.cons_append, List.mapM_cons, first, ih others]
    rfl

/-- A list of steps fails with the error of the first step that fails. -/
theorem mapM_eq_error_iff {e : ε} :
    l.mapM f = .error e ↔ ∃ before a after, l = before ++ a :: after ∧
      (∀ b ∈ before, ∃ r, f b = .ok r) ∧ f a = .error e := by
  constructor
  · intro h
    induction l with
    | nil => cases h
    | cons a l ih =>
      rw [List.mapM_cons] at h
      cases first : f a with
      | error e' =>
        rw [first] at h
        cases h
        exact ⟨[], a, l, rfl, nofun, first⟩
      | ok b =>
        cases others : l.mapM f with
        | error e' =>
          rw [first, others] at h
          cases h
          obtain ⟨before, a', after, rfl, passed, failed⟩ := ih others
          exact ⟨a :: before, a', after, rfl, List.forall_mem_cons.mpr ⟨⟨b, first⟩, passed⟩, failed⟩
        | ok bs =>
          rw [first, others] at h
          cases h
  · rintro ⟨before, a, after, rfl, passed, failed⟩
    exact mapM_append_error passed failed

theorem exists_of_mapM_eq_error {e : ε} (h : l.mapM f = .error e) : ∃ a ∈ l, f a = .error e := by
  obtain ⟨before, a, after, rfl, -, failed⟩ := mapM_eq_error_iff.mp h
  exact ⟨a, by simp, failed⟩

/-- Around a result that is kept the list falls into what came before and after it. -/
theorem exists_of_filterMap_eq_append {f : α → Except ε (Option β)} {bs : List (Option β)}
    (h : l.mapM f = .ok bs) {front back : List β} {b : β}
    (split : bs.filterMap id = front ++ b :: back) :
    ∃ before a after, l = before ++ a :: after ∧ f a = .ok (some b) ∧
      ∀ a' ∈ after, ∀ b', f a' = .ok (some b') → b' ∈ back := by
  induction l generalizing bs front with
  | nil =>
    cases h
    simp at split
  | cons a l ih =>
    obtain ⟨r, rest, first, others, rfl⟩ := mapM_cons_eq_ok.mp h
    have further {front : List β} (split : rest.filterMap id = front ++ b :: back) :
        ∃ before a' after, a :: l = before ++ a' :: after ∧ f a' = .ok (some b) ∧
          ∀ c ∈ after, ∀ b', f c = .ok (some b') → b' ∈ back := by
      obtain ⟨before, a', after, rfl, kept, later⟩ := ih others split
      exact ⟨a :: before, a', after, rfl, kept, later⟩
    cases r with
    | none => exact further split
    | some c =>
      cases front with
      | nil =>
        obtain ⟨rfl, rfl⟩ := List.cons.inj split
        refine ⟨[], a, l, rfl, first, fun a' mem b' kept => ?_⟩
        exact List.mem_filterMap.mpr ⟨_, (mem_iff_of_mapM_eq_ok others).mpr ⟨a', mem, kept⟩, rfl⟩
      | cons c' front => exact further (List.cons.inj split).2

/-- Steps that can fail in one way only, and of which some do, fail in that way. -/
theorem mapM_map_eq_error {γ : Type} {g : γ → α} {l : List γ} {e : ε}
    (h : ∀ c ∈ l, (∃ b, f (g c) = .ok b) ∨ f (g c) = .error e)
    (failed : ∃ c ∈ l, f (g c) = .error e) : (l.map g).mapM f = .error e := by
  induction l with
  | nil =>
    obtain ⟨c, mem, -⟩ := failed
    cases mem
  | cons c l ih =>
    obtain ⟨first, others⟩ := List.forall_mem_cons.mp h
    rw [List.map_cons, List.mapM_cons]
    rcases first with ⟨b, hb⟩ | hc
    · obtain ⟨c', mem, hc'⟩ := failed
      rcases List.mem_cons.mp mem with rfl | mem
      · rw [hc']
        rfl
      · rw [hb, ih others ⟨c', mem, hc'⟩]
        rfl
    · rw [hc]
      rfl

/-- What holds between the results holds between the elements that have them. -/
theorem pairwise_of_mapM_eq_ok {R : β → β → Prop} (h : l.mapM f = .ok bs) (hR : bs.Pairwise R) :
    l.Pairwise fun a a' => ∀ b b', f a = .ok b → f a' = .ok b' → R b b' := by
  induction l generalizing bs with
  | nil => exact .nil
  | cons a l ih =>
    obtain ⟨b, rest, hb, hrest, rfl⟩ := mapM_cons_eq_ok.mp h
    obtain ⟨first, others⟩ := List.pairwise_cons.mp hR
    refine List.pairwise_cons.mpr ⟨fun a' mem c c' hc hc' => ?_, ih hrest others⟩
    obtain rfl := Except.ok.inj (hb.symm.trans hc)
    exact first c' ((mem_iff_of_mapM_eq_ok hrest).mpr ⟨a', mem, hc'⟩)

end DocStore.Outcome
