/-!
# Tables

Association lists that keep the order in which their keys were first set.
-/

namespace DialectBench

/-- Tables in insertion order. -/
abbrev Table (κ α : Type) := List (κ × α)

/-- Sets the value at a key, which keeps its place if it is there and goes to the end if not. -/
def Table.set {κ α : Type} [BEq κ] (k : κ) (a : α) : Table κ α → Table κ α
  | [] => [(k, a)]
  | (k', a') :: rest => if k' == k then (k', a) :: rest else (k', a') :: Table.set k a rest

/-- What is found at a key after one key was set. -/
theorem Table.lookup_set {κ α : Type} [BEq κ] [LawfulBEq κ] (k j : κ) (a : α)
    (t : Table κ α) :
    (Table.set k a t).lookup j = if j == k then some a else t.lookup j := by
  induction t with
  | nil =>
    rw [Table.set, List.lookup_cons]
    cases j == k <;> rfl
  | cons e rest ih =>
    obtain ⟨k', a'⟩ := e
    rw [Table.set]
    by_cases hk : k' = k
    · subst hk
      rw [if_pos (beq_self_eq_true k'), List.lookup_cons, List.lookup_cons]
      cases j == k' <;> rfl
    · rw [if_neg (mt beq_iff_eq.mp hk), List.lookup_cons, List.lookup_cons, ih]
      by_cases h : j = k'
      · subst h
        rw [beq_self_eq_true, beq_eq_false_iff_ne.mpr hk]
        rfl
      · rw [beq_eq_false_iff_ne.mpr h]

/-- What is in a table after a key was set is what was set or was there before. -/
theorem Table.mem_set {κ α : Type} [BEq κ] {k k' : κ} {a a' : α} {t : Table κ α}
    (h : (k', a') ∈ Table.set k a t) : a' = a ∨ (k', a') ∈ t := by
  induction t with
  | nil =>
    cases List.mem_singleton.mp h
    exact .inl rfl
  | cons e rest ih =>
    obtain ⟨j, b⟩ := e
    rw [Table.set] at h
    by_cases hj : (j == k) = true
    · rw [if_pos hj] at h
      rcases List.mem_cons.mp h with heq | hmem
      · cases heq
        exact .inl rfl
      · exact .inr (List.mem_cons_of_mem _ hmem)
    · rw [if_neg hj] at h
      rcases List.mem_cons.mp h with heq | hmem
      · exact .inr (heq ▸ List.mem_cons_self)
      · rcases ih hmem with heq | hmem'
        · exact .inl heq
        · exact .inr (List.mem_cons_of_mem _ hmem')

/-- A key of a table after a key was set is that key or was there before. -/
theorem Table.mem_map_fst_set {κ α : Type} [BEq κ] {k k' : κ} {a : α} {t : Table κ α}
    (h : k' ∈ (Table.set k a t).map Prod.fst) : k' = k ∨ k' ∈ t.map Prod.fst := by
  induction t with
  | nil => exact .inl (List.mem_singleton.mp h)
  | cons e rest ih =>
    rw [Table.set] at h
    by_cases hj : (e.1 == k) = true
    · rw [if_pos hj] at h
      exact .inr h
    · rw [if_neg hj] at h
      rcases List.mem_cons.mp h with rfl | hmem
      · exact .inr List.mem_cons_self
      · exact (ih hmem).imp_right (List.mem_cons_of_mem _)

/-- Setting a key that is there keeps all keys in their places. -/
theorem Table.map_fst_set {κ α : Type} [BEq κ] [LawfulBEq κ] {k : κ} {a : α} {t : Table κ α}
    (h : k ∈ t.map Prod.fst) : (Table.set k a t).map Prod.fst = t.map Prod.fst := by
  induction t with
  | nil => exact nomatch h
  | cons e rest ih =>
    obtain ⟨k', a'⟩ := e
    rw [Table.set]
    by_cases hk : k' = k
    · subst hk
      rw [if_pos (beq_self_eq_true k')]
      rfl
    · rw [if_neg (mt beq_iff_eq.mp hk)]
      rcases List.mem_cons.mp h with heq | hmem
      · exact absurd heq.symm hk
      · exact congrArg (k' :: ·) (ih hmem)

/-- What is found at a key is in the table. -/
theorem Table.mem_of_lookup {κ α : Type} [BEq κ] [LawfulBEq κ] {k : κ} {a : α}
    {t : Table κ α} (h : t.lookup k = some a) : (k, a) ∈ t := by
  obtain ⟨before, after, rfl, _⟩ := List.lookup_eq_some_iff.mp h
  exact List.mem_append_right before List.mem_cons_self

/-- At a key that does not occur nothing is found. -/
theorem Table.lookup_eq_none {κ α : Type} [BEq κ] [LawfulBEq κ] {k : κ} {t : Table κ α}
    (h : k ∉ t.map Prod.fst) : t.lookup k = none := by
  rw [List.lookup_eq_none_iff]
  rintro ⟨k', a⟩ hmem
  rw [bne_iff_ne]
  rintro rfl
  exact h (List.mem_map.mpr ⟨_, hmem, rfl⟩)

/-- Where no key occurs twice, what is in the table is found. -/
theorem Table.lookup_of_mem {κ α : Type} [BEq κ] [LawfulBEq κ] {k : κ} {a : α}
    {t : Table κ α} (hd : (t.map Prod.fst).Nodup) (h : (k, a) ∈ t) : t.lookup k = some a := by
  induction t with
  | nil => exact nomatch h
  | cons e rest ih =>
    obtain ⟨k', a'⟩ := e
    obtain ⟨hk', hrest⟩ := List.nodup_cons.mp hd
    rw [List.lookup_cons]
    rcases List.mem_cons.mp h with heq | hmem
    · cases heq
      rw [beq_self_eq_true]
    · have hne : k ≠ k' := by
        rintro rfl
        exact hk' (List.mem_map.mpr ⟨(k, a), hmem, rfl⟩)
      rw [beq_eq_false_iff_ne.mpr hne]
      exact ih hrest hmem

end DialectBench
