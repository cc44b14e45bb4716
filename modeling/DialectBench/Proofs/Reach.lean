import DialectBench.Proofs.Sharing

/-!
# What data reach, and what work leaves alone

    A datum REACHES the cells in it, the cells in those, and so on.  It reads
    the same in two stores if the cells that it reaches hold the same in both:
    what a datum does not reach cannot change it.

    Work CHANGES ONLY some cells if it leaves all others of the store alone,
    whatever it does to these, and a datum is KEPT FROM cells if it reaches none
    of them.  Then the datum reads the same before and after.  What is put into
    a store is kept from all that was there, and a cell can be written without
    putting an object into itself as long as nothing that is written reaches the
    cell.
-/

namespace DialectBench

namespace Store

/-! ## Reaching -/

/-- A cell is in a datum, in a cell in it, or further down. -/
inductive Reaches (s : Store) : Datum → Nat → Prop where
  | here {d : Datum} {a : Nat} (mem : a ∈ d.addresses) : Reaches s d a
  | inside {d e : Datum} {a b : Nat} (mem : b ∈ d.addresses) (part : e ∈ (s.read b).parts)
      (further : Reaches s e a) : Reaches s d a

section

variable {s t u : Store} {d : Datum} {a b : Nat}

/-- What an object in a datum reaches the datum reaches. -/
theorem Reaches.of_object (h : s.Reaches (.object b) a) (hb : b ∈ d.addresses) :
    s.Reaches d a := by
  cases h with
  | here mem => exact .here (List.mem_singleton.mp mem ▸ hb)
  | inside mem part further => exact .inside (List.mem_singleton.mp mem ▸ hb) part further

/-- A datum reaches what an object in it reaches. -/
theorem Reaches.exists_object (h : s.Reaches d a) :
    ∃ b ∈ d.addresses, s.Reaches (.object b) a := by
  cases h with
  | here mem => exact ⟨a, mem, .here List.mem_cons_self⟩
  | @inside _ _ _ b mem part further => exact ⟨b, mem, .inside List.mem_cons_self part further⟩

theorem reaches_tuple {xs : List Datum} :
    s.Reaches (.tuple xs) a ↔ ∃ x ∈ xs, s.Reaches x a := by
  constructor
  · intro h
    obtain ⟨b, hb, hreach⟩ := h.exists_object
    obtain ⟨x, hx, hbx⟩ := Datum.mem_addressesAll.mp hb
    exact ⟨x, hx, hreach.of_object hbx⟩
  · rintro ⟨x, hx, h⟩
    obtain ⟨b, hb, hreach⟩ := h.exists_object
    exact hreach.of_object (Datum.mem_addressesAll.mpr ⟨x, hx, hb⟩)

/-- All cells that a datum of the store reaches are cells of the store. -/
theorem Reaches.lt (h : s.Reaches d a) (hs : s.Acyclic) (hd : s.Holds d) :
    a < s.cells.length := by
  induction h with
  | here mem => exact hd _ mem
  | inside mem part _ ih => exact ih (hs.holds_part (hd _ mem) part)

/-- Ranks fall on the way down. -/
theorem RankedBy.le_of_reaches {rank : Nat → Nat} (hs : s.RankedBy rank) (h : s.Reaches d a) :
    s.Holds d → ∃ b ∈ d.addresses, rank a ≤ rank b := by
  induction h with
  | here mem => exact fun _ => ⟨_, mem, Nat.le_refl _⟩
  | @inside d e a b mem part _ ih =>
      intro hd
      obtain ⟨c, hc, hle⟩ := ih fun x hx => (hs b (hd b mem) e part x hx).1
      exact ⟨b, mem, Nat.le_trans hle (Nat.le_of_lt (hs b (hd b mem) e part c hc).2)⟩

/-- No part of a cell reaches the cell. -/
theorem Acyclic.not_reaches_self (hs : s.Acyclic) (ha : a < s.cells.length)
    (hd : d ∈ (s.read a).parts) : ¬ s.Reaches d a := by
  intro h
  have hheld := hs.holds_part ha hd
  obtain ⟨rank, hrank⟩ := hs
  obtain ⟨b, hb, hle⟩ := hrank.le_of_reaches h hheld
  exact Nat.not_lt.mpr hle (hrank a ha d hd b hb).2

/-- A datum reaches what it reached, as long as the cells that it reached hold
    what they held. -/
theorem Reaches.of_read_eq (h : t.Reaches d a)
    (hread : ∀ c, s.Reaches d c → t.read c = s.read c) : s.Reaches d a := by
  induction h with
  | here mem => exact .here mem
  | inside mem part _ ih =>
      rw [hread _ (.here mem)] at part
      exact .inside mem part (ih fun c hc => hread c (.inside mem part hc))

/-- **READING WHAT WAS LEFT ALONE**: a datum reads as before if the cells that
    it reached hold what they held.  Induction on the ranks of the cells. -/
theorem Acyclic.freeze_eq_of_read_eq (hs : s.Acyclic) (ht : t.Acyclic)
    (hlen : s.cells.length ≤ t.cells.length) (hd : s.Holds d)
    (hread : ∀ b, s.Reaches d b → t.read b = s.read b) : t.freeze d = s.freeze d := by
  obtain ⟨rank, hrank⟩ := id hs
  have hobject : ∀ r b, rank b = r → b < s.cells.length →
      (∀ c, s.Reaches (.object b) c → t.read c = s.read c) →
      t.freeze (.object b) = s.freeze (.object b) := by
    intro r
    induction r using Nat.strongRecOn with
    | _ r ih =>
        rintro b rfl hb hreads
        have hself : b ∈ (Datum.object b).addresses := List.mem_singleton_self b
        rw [hs.freeze_object hb, ht.freeze_object (Nat.lt_of_lt_of_le hb hlen),
          hreads b (.here hself)]
        refine Cell.freezeWith_congr fun e he c hc => ?_
        obtain ⟨hlt, hlower⟩ := hrank b hb e he c hc
        exact ih (rank c) hlower c rfl hlt fun c' hc' =>
          hreads c' (.inside hself he (hc'.of_object hc))
  refine Datum.freezeWith_congr fun b hb => ?_
  exact hobject (rank b) b rfl (hd b hb) fun c hc => hread c (hc.of_object hb)

end

/-! ## Leaving cells alone -/

/-- Work that leads from one store to another changes at most these cells and
    adds new ones. -/
structure ChangesOnly (these : Nat → Prop) (s t : Store) : Prop where
  length_le : s.cells.length ≤ t.cells.length
  read_eq : ∀ b, b < s.cells.length → ¬ these b → t.read b = s.read b

/-- A datum is in the store and reaches none of these cells. -/
structure KeptFrom (these : Nat → Prop) (s : Store) (d : Datum) : Prop where
  held : s.Holds d
  apart : ∀ b, s.Reaches d b → ¬ these b

section

variable {s t u : Store} {these others : Nat → Prop} {d : Datum}

theorem Extends.changesOnly (h : s.Extends t) : s.ChangesOnly these t :=
  ⟨h.length_le, fun _ hb _ => h.read hb⟩

/-- Cells that are new at the second step do not count for the first. -/
theorem ChangesOnly.trans (h₁ : s.ChangesOnly these t) (h₂ : t.ChangesOnly others u)
    (hold : ∀ b, b < s.cells.length → others b → these b) : s.ChangesOnly these u := by
  refine ⟨Nat.le_trans h₁.length_le h₂.length_le, fun b hb hthese => ?_⟩
  have hothers : ¬ others b := fun h => hthese (hold b hb h)
  exact (h₂.read_eq b (Nat.lt_of_lt_of_le hb h₁.length_le) hothers).trans (h₁.read_eq b hb hthese)

theorem KeptFrom.read_eq (hd : s.KeptFrom these d) (hs : s.Acyclic) (h : s.ChangesOnly these t)
    {b : Nat} (hb : s.Reaches d b) : t.read b = s.read b :=
  h.read_eq b (hb.lt hs hd.held) (hd.apart b hb)

/-- A datum reads the same before and after work that it is kept from. -/
theorem KeptFrom.freeze_eq (hd : s.KeptFrom these d) (hs : s.Acyclic) (ht : t.Acyclic)
    (h : s.ChangesOnly these t) : t.freeze d = s.freeze d :=
  hs.freeze_eq_of_read_eq ht h.length_le hd.held fun _ hb => hd.read_eq hs h hb

/-- A datum stays kept from cells if the old ones among them are such as it was
    kept from. -/
theorem KeptFrom.mono (hd : s.KeptFrom these d) (hs : s.Acyclic) (h : s.ChangesOnly these t)
    (hold : ∀ b, b < s.cells.length → others b → these b) : t.KeptFrom others d := by
  refine ⟨hd.held.mono_length h.length_le, fun b hb hothers => ?_⟩
  have hreach : s.Reaches d b := hb.of_read_eq fun c hc => hd.read_eq hs h hc
  exact hd.apart b hreach (hold b (hreach.lt hs hd.held) hothers)

/-- New cells change nothing about what a datum is kept from. -/
theorem KeptFrom.extends (hd : s.KeptFrom these d) (hs : s.Acyclic) (h : s.Extends t) :
    t.KeptFrom these d := hd.mono hs h.changesOnly fun _ _ hb => hb

theorem keptFrom_tuple {xs : List Datum} (h : ∀ x ∈ xs, s.KeptFrom these x) :
    s.KeptFrom these (.tuple xs) := by
  refine ⟨holds_tuple.mpr fun x hx => (h x hx).held, fun b hb => ?_⟩
  obtain ⟨x, hx, hreach⟩ := reaches_tuple.mp hb
  exact (h x hx).apart b hreach

theorem keptFrom_leaf (v : Value) : s.KeptFrom these (.leaf v) := by
  refine ⟨holds_leaf v, fun b hb => ?_⟩
  obtain ⟨_, hmem, _⟩ := hb.exists_object
  exact nomatch hmem

/-- An object of parts that are kept from cells is kept from them in a new
    cell. -/
theorem KeptFrom.alloc (hs : s.Acyclic) {c : Cell} (h : ∀ d ∈ c.parts, s.KeptFrom these d)
    (hnew : ¬ these s.cells.length) :
    (s.alloc c).2.KeptFrom these (.object s.cells.length) := by
  have hlt : s.cells.length < (s.alloc c).2.cells.length := by
    rw [length_cells_alloc]
    exact Nat.lt_succ_self _
  refine ⟨holds_object.mpr hlt, fun b hb => ?_⟩
  cases hb with
  | here mem => exact List.mem_singleton.mp mem ▸ hnew
  | inside mem part further =>
      rw [List.mem_singleton.mp mem, read_alloc_self] at part
      exact ((h _ part).extends hs (extends_alloc s c)).apart b further

/-- The array in a cell is kept from what the object in it is kept from. -/
theorem KeptFrom.array {a : Nat} (h : s.KeptFrom these (.object a)) :
    s.KeptFrom these (.array a) := by
  refine ⟨h.held, fun b hb => ?_⟩
  obtain ⟨c, hc, hreach⟩ := hb.exists_object
  exact h.apart b (hreach.of_object hc)

end

/-! ## Writing -/

section

variable {s : Store} {a b : Nat} {c : Cell}

theorem length_cells_write : (s.write a c).cells.length = s.cells.length := List.length_set

theorem read_write_self (ha : a < s.cells.length) : (s.write a c).read a = c := by
  unfold Store.read Store.write
  rw [List.getElem?_set_self ha, Option.getD_some]

theorem read_write_ne (h : a ≠ b) : (s.write a c).read b = s.read b := by
  unfold Store.read Store.write
  rw [List.getElem?_set_ne h]

open Classical in
/-- **WRITING IN PLACE**: no object gets inside itself if nothing that is
    written reaches the cell.  The cells that reach it are ranked above all
    others. -/
theorem Acyclic.write (hs : s.Acyclic) (ha : a < s.cells.length)
    (hheld : ∀ d ∈ c.parts, s.Holds d) (hapart : ∀ d ∈ c.parts, ¬ s.Reaches d a) :
    (s.write a c).Acyclic := by
  obtain ⟨rank, hrank, hbound⟩ := hs.bounded
  have hself : s.Reaches (.object a) a := .here (List.mem_singleton_self a)
  refine ⟨fun b => if s.Reaches (.object b) a then rank b + s.cells.length else rank b, ?_⟩
  intro b hb d hd x hx
  rw [length_cells_write] at hb ⊢
  by_cases hab : a = b
  · subst hab
    rw [read_write_self ha] at hd
    have hx' : x < s.cells.length := hheld d hd x hx
    have hnot : ¬ s.Reaches (.object x) a := fun h => hapart d hd (h.of_object hx)
    have := hbound x hx'
    simp only [if_pos hself, if_neg hnot]
    omega
  · rw [read_write_ne hab] at hd
    obtain ⟨hx', hlt⟩ := hrank b hb d hd x hx
    refine ⟨hx', ?_⟩
    by_cases hxa : s.Reaches (.object x) a
    · have hba : s.Reaches (.object b) a :=
        .inside (List.mem_singleton_self b) hd (hxa.of_object hx)
      simp only [if_pos hxa, if_pos hba]
      omega
    · simp only [if_neg hxa]
      split <;> omega

end

end Store

/-! ## What is put into a store -/

mutual

/-- **WHAT IS PUT INTO A STORE IS NEW**: it reaches none of the cells that were
    there. -/
theorem Value.thaw_keptFrom {these : Nat → Prop} : ∀ (v : Value) {s : Store}, s.Acyclic →
    (∀ b, these b → b < s.cells.length) → (v.thaw s).2.KeptFrom these (v.thaw s).1
  | .list xs, s, hs, hold => by
      have hall := Value.thawAll_keptFrom xs hs hold
      have hgrows := (Value.thawAll_shows xs hs).1
      refine .alloc (c := .list _) hgrows.acyclic hall fun h => ?_
      exact Nat.not_lt.mpr hgrows.kept.length_le (hold _ h)
  | .tuple xs, s, hs, hold => Store.keptFrom_tuple (Value.thawAll_keptFrom xs hs hold)
  | .dict es, s, hs, hold => by
      have hall := Value.thawEntries_keptFrom es hs hold
      have hgrows := (Value.thawEntries_shows es hs).1
      refine .alloc (c := .dict _) hgrows.acyclic hall fun h => ?_
      exact Nat.not_lt.mpr hgrows.kept.length_le (hold _ h)
  | .tensor t, s, hs, hold =>
      .alloc hs (fun _ hd => (nomatch hd)) fun h => Nat.lt_irrefl _ (hold _ h)
  | .array t, s, hs, hold =>
      Store.KeptFrom.array
        (.alloc hs (fun _ hd => (nomatch hd)) fun h => Nat.lt_irrefl _ (hold _ h))
  | .none, _, _, _ | .bool _, _, _, _ | .int _, _, _, _ | .float _, _, _, _ | .str _, _, _, _
  | .dtype _, _, _, _ | .odd _, _, _, _ | .symbol _, _, _, _ => Store.keptFrom_leaf _

theorem Value.thawAll_keptFrom {these : Nat → Prop} : ∀ (xs : List Value) {s : Store},
    s.Acyclic → (∀ b, these b → b < s.cells.length) →
      ∀ d ∈ (Value.thawAll xs s).1, (Value.thawAll xs s).2.KeptFrom these d
  | [], _, _, _ => fun _ hd => (nomatch hd)
  | x :: xs, s, hs, hold => by
      have hgrows := (x.thaw_shows hs).1
      have hgrows' := (Value.thawAll_shows xs hgrows.acyclic).1
      refine List.forall_mem_cons.mpr ⟨?_, ?_⟩
      · exact (Value.thaw_keptFrom x hs hold).extends hgrows.acyclic hgrows'.kept
      · exact Value.thawAll_keptFrom xs hgrows.acyclic fun b hb =>
          Nat.lt_of_lt_of_le (hold b hb) hgrows.kept.length_le

theorem Value.thawEntries_keptFrom {these : Nat → Prop} :
    ∀ (es : List (Value × Value)) {s : Store}, s.Acyclic →
      (∀ b, these b → b < s.cells.length) →
        ∀ d ∈ (Value.thawEntries es s).1.map Prod.snd, (Value.thawEntries es s).2.KeptFrom these d
  | [], _, _, _ => fun _ hd => (nomatch hd)
  | (k, v) :: es, s, hs, hold => by
      have hgrows := (v.thaw_shows hs).1
      have hgrows' := (Value.thawEntries_shows es hgrows.acyclic).1
      refine List.forall_mem_cons.mpr ⟨?_, ?_⟩
      · exact (Value.thaw_keptFrom v hs hold).extends hgrows.acyclic hgrows'.kept
      · exact Value.thawEntries_keptFrom es hgrows.acyclic fun b hb =>
          Nat.lt_of_lt_of_le (hold b hb) hgrows.kept.length_le

end

end DialectBench
