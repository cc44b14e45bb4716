import Mathlib.Data.Finset.Card
import Mathlib.Data.Finset.Image
import Mathlib.Data.List.Forall2
import DialectBench.Bench.Store

/-!
# Data that are shown as values

    Lists, dictionaries and tensors lie in the cells of a store, and a datum
    holds their addresses.  No object of an ACYCLIC store is inside itself: its
    cells have ranks, and a cell holds only addresses of cells of lower rank.
    There reading comes to an end, and an object reads as what its parts read
    as.

    Reading is blind to addresses.  If the cells of one store are found in
    another under new addresses, a datum and its RENAMED copy read the same.  So
    data of different stores can be compared by the values that they SHOW.  What
    a datum shows does not change when the store is EXTENDED by new cells, and
    putting a value into a store extends it by a datum that shows the value.
-/

namespace DialectBench

/-! ## Addresses -/

mutual

/-- The addresses in a datum. -/
def Datum.addresses : Datum → List Nat
  | .leaf _ => []
  | .object a => [a]
  | .array a => [a]
  | .tuple xs => Datum.addressesAll xs

/-- The addresses in data. -/
def Datum.addressesAll : List Datum → List Nat
  | [] => []
  | x :: xs => x.addresses ++ Datum.addressesAll xs

end

theorem Datum.mem_addressesAll {b : Nat} {xs : List Datum} :
    b ∈ Datum.addressesAll xs ↔ ∃ x ∈ xs, b ∈ x.addresses := by
  induction xs with
  | nil => simp [Datum.addressesAll]
  | cons x xs ih => simp [Datum.addressesAll, ih]

/-- What holds of a datum whenever it holds of its parts holds of every
    datum. -/
theorem Datum.parts_induction {P : Datum → Prop} (leaf : ∀ v, P (.leaf v))
    (object : ∀ a, P (.object a)) (array : ∀ a, P (.array a))
    (tuple : ∀ xs, (∀ x ∈ xs, P x) → P (.tuple xs)) (d : Datum) : P d := by
  induction hn : sizeOf d using Nat.strongRecOn generalizing d with
  | _ n ih =>
      cases d with
      | leaf v => exact leaf v
      | object a => exact object a
      | array a => exact array a
      | tuple xs =>
          refine tuple xs fun x hx => ih (sizeOf x) ?_ x rfl
          have := List.sizeOf_lt_of_mem hx
          simp only [Datum.tuple.sizeOf_spec] at hn
          omega

/-- The data in a cell. -/
def Cell.parts : Cell → List Datum
  | .list xs => xs
  | .dict es => es.map Prod.snd
  | .tensor _ => []

/-- All addresses in a datum are in the store. -/
def Store.Holds (s : Store) (d : Datum) : Prop := ∀ a ∈ d.addresses, a < s.cells.length

theorem Store.holds_leaf {s : Store} (v : Value) : s.Holds (.leaf v) := fun _ ha => (nomatch ha)

theorem Store.holds_object {s : Store} {a : Nat} : s.Holds (.object a) ↔ a < s.cells.length :=
  List.forall_mem_singleton

theorem Store.holds_array {s : Store} {a : Nat} : s.Holds (.array a) ↔ a < s.cells.length :=
  List.forall_mem_singleton

theorem Store.holds_tuple {s : Store} {xs : List Datum} :
    s.Holds (.tuple xs) ↔ ∀ x ∈ xs, s.Holds x := by
  constructor
  · exact fun h x hx a ha => h a (Datum.mem_addressesAll.mpr ⟨x, hx, ha⟩)
  · intro h a ha
    obtain ⟨x, hx, hax⟩ := Datum.mem_addressesAll.mp ha
    exact h x hx a hax

/-! ## Reading -/

theorem Datum.freezeAllWith_eq_map (shown : Nat → Value) (xs : List Datum) :
    Datum.freezeAllWith shown xs = xs.map (Datum.freezeWith shown) := by
  induction xs with
  | nil => rfl
  | cons x xs ih => rw [Datum.freezeAllWith, ih, List.map_cons]

/-- Reading a datum needs the values of the cells in it only. -/
theorem Datum.freezeWith_congr {f g : Nat → Value} {d : Datum}
    (h : ∀ b ∈ d.addresses, f b = g b) : d.freezeWith f = d.freezeWith g := by
  induction d using Datum.parts_induction with
  | leaf v => rfl
  | object a => exact h a List.mem_cons_self
  | array a => exact congrArg Value.asArray (h a List.mem_cons_self)
  | tuple xs ih =>
      rw [Datum.freezeWith, Datum.freezeWith, Datum.freezeAllWith_eq_map,
        Datum.freezeAllWith_eq_map]
      exact congrArg Value.tuple (List.map_congr_left fun x hx =>
        ih x hx fun b hb => h b (Datum.mem_addressesAll.mpr ⟨x, hx, hb⟩))

/-- Reading a cell needs the values of the cells in it only. -/
theorem Cell.freezeWith_congr {f g : Nat → Value} {c : Cell}
    (h : ∀ d ∈ c.parts, ∀ b ∈ d.addresses, f b = g b) : c.freezeWith f = c.freezeWith g := by
  cases c with
  | list xs =>
      exact congrArg Value.list (List.map_congr_left fun d hd => Datum.freezeWith_congr (h d hd))
  | dict es =>
      exact congrArg Value.dict (List.map_congr_left fun e he => congrArg (Prod.mk e.1)
        (Datum.freezeWith_congr (h e.2 (List.mem_map_of_mem he))))
  | tensor t => rfl

namespace Store

/-- The value of a cell at this moment. -/
def freezeCell (s : Store) (c : Cell) : Value := c.freezeWith (s.cellValue s.cells.length)

@[simp] theorem freezeCell_list (s : Store) (xs : List Datum) :
    s.freezeCell (.list xs) = .list (xs.map s.freeze) := rfl

@[simp] theorem freezeCell_dict (s : Store) (es : List (Value × Datum)) :
    s.freezeCell (.dict es) = .dict (es.map fun e => (e.1, s.freeze e.2)) := rfl

@[simp] theorem freezeCell_tensor (s : Store) (t : Tensor) :
    s.freezeCell (.tensor t) = .tensor t := rfl

@[simp] theorem freeze_leaf (s : Store) (v : Value) : s.freeze (.leaf v) = v := rfl

theorem freeze_array (s : Store) (a : Nat) :
    s.freeze (.array a) = (s.freeze (.object a)).asArray := rfl

theorem freeze_tuple (s : Store) (xs : List Datum) :
    s.freeze (.tuple xs) = .tuple (xs.map s.freeze) := by
  rw [freeze, Datum.freezeWith, Datum.freezeAllWith_eq_map]
  rfl

end Store

/-! ## New addresses -/

mutual

/-- A datum with new addresses. -/
def Datum.rename (f : Nat → Nat) : Datum → Datum
  | .leaf v => .leaf v
  | .object a => .object (f a)
  | .array a => .array (f a)
  | .tuple xs => .tuple (Datum.renameAll f xs)

/-- Data with new addresses. -/
def Datum.renameAll (f : Nat → Nat) : List Datum → List Datum
  | [] => []
  | x :: xs => x.rename f :: Datum.renameAll f xs

end

/-- A cell with new addresses. -/
def Cell.rename (f : Nat → Nat) : Cell → Cell
  | .list xs => .list (xs.map (Datum.rename f))
  | .dict es => .dict (es.map fun e => (e.1, e.2.rename f))
  | .tensor t => .tensor t

theorem Datum.renameAll_eq_map (f : Nat → Nat) (xs : List Datum) :
    Datum.renameAll f xs = xs.map (Datum.rename f) := by
  induction xs with
  | nil => rfl
  | cons x xs ih => rw [Datum.renameAll, ih, List.map_cons]

theorem Datum.freezeWith_rename (f : Nat → Nat) (shown : Nat → Value) (d : Datum) :
    (d.rename f).freezeWith shown = d.freezeWith fun a => shown (f a) := by
  induction d using Datum.parts_induction with
  | leaf v => rfl
  | object a => rfl
  | array a => rfl
  | tuple xs ih =>
      simp only [Datum.rename, Datum.freezeWith, Datum.renameAll_eq_map,
        Datum.freezeAllWith_eq_map, List.map_map]
      exact congrArg Value.tuple (List.map_congr_left ih)

theorem Cell.freezeWith_rename (f : Nat → Nat) (shown : Nat → Value) (c : Cell) :
    (c.rename f).freezeWith shown = c.freezeWith fun a => shown (f a) := by
  cases c with
  | list xs =>
      simp only [Cell.rename, Cell.freezeWith, List.map_map]
      exact congrArg Value.list
        (List.map_congr_left fun d _ => Datum.freezeWith_rename f shown d)
  | dict es =>
      simp only [Cell.rename, Cell.freezeWith, List.map_map]
      exact congrArg Value.dict (List.map_congr_left fun e _ =>
        congrArg (Prod.mk e.1) (Datum.freezeWith_rename f shown e.2))
  | tensor t => rfl

theorem Datum.mem_addresses_rename {f : Nat → Nat} {b : Nat} {d : Datum} :
    b ∈ (d.rename f).addresses ↔ ∃ a ∈ d.addresses, f a = b := by
  induction d using Datum.parts_induction with
  | leaf v => simp [Datum.rename, Datum.addresses]
  | object a => simp [Datum.rename, Datum.addresses, eq_comm]
  | array a => simp [Datum.rename, Datum.addresses, eq_comm]
  | tuple xs ih =>
      rw [Datum.rename, Datum.addresses, Datum.addresses, Datum.renameAll_eq_map]
      simp only [Datum.mem_addressesAll, List.mem_map]
      constructor
      · rintro ⟨_, ⟨x, hx, rfl⟩, hb⟩
        obtain ⟨a, ha, hab⟩ := (ih x hx).mp hb
        exact ⟨a, ⟨x, hx, ha⟩, hab⟩
      · rintro ⟨a, ⟨x, hx, ha⟩, hab⟩
        exact ⟨_, ⟨x, hx, rfl⟩, (ih x hx).mpr ⟨a, ha, hab⟩⟩

theorem Datum.rename_id (d : Datum) : d.rename id = d := by
  induction d using Datum.parts_induction with
  | leaf v => rfl
  | object a => rfl
  | array a => rfl
  | tuple xs ih =>
      rw [Datum.rename, Datum.renameAll_eq_map, List.map_congr_left ih, List.map_id']

theorem Cell.rename_id (c : Cell) : c.rename id = c := by
  cases c with
  | list xs =>
      rw [Cell.rename, List.map_congr_left fun d _ => Datum.rename_id d, List.map_id']
  | dict es =>
      rw [Cell.rename, List.map_congr_left fun e _ => congrArg (Prod.mk e.1) (Datum.rename_id e.2),
        List.map_id']
  | tensor t => rfl

/-! ## Ranks -/

namespace Store

/-- The cells of a store hold addresses of cells of lower rank only. -/
def RankedBy (s : Store) (rank : Nat → Nat) : Prop :=
  ∀ a, a < s.cells.length → ∀ d ∈ (s.read a).parts, ∀ b ∈ d.addresses,
    b < s.cells.length ∧ rank b < rank a

/-- No object is inside itself. -/
def Acyclic (s : Store) : Prop := ∃ rank, s.RankedBy rank

theorem acyclic_empty : empty.Acyclic := ⟨id, fun _ ha => (nomatch ha)⟩

theorem Acyclic.of_cells_eq {s t : Store} (hs : s.Acyclic) (h : t.cells = s.cells) :
    t.Acyclic := by
  obtain ⟨rank, hrank⟩ := hs
  refine ⟨rank, ?_⟩
  unfold RankedBy Store.read at hrank ⊢
  rw [h]
  exact hrank

theorem Acyclic.holds_part {s : Store} (hs : s.Acyclic) {a : Nat} (ha : a < s.cells.length)
    {d : Datum} (hd : d ∈ (s.read a).parts) : s.Holds d := by
  obtain ⟨rank, hrank⟩ := hs
  exact fun b hb => (hrank a ha d hd b hb).1

/-- The ranks that cells have, counted below a rank. -/
def rankAmong (s : Store) (rank : Nat → Nat) (a : Nat) : Nat :=
  (((Finset.range s.cells.length).image rank).filter (· < rank a)).card

theorem rankAmong_lt {s : Store} {rank : Nat → Nat} {a b : Nat} (hb : b < s.cells.length)
    (h : rank b < rank a) : s.rankAmong rank b < s.rankAmong rank a := by
  have hmem : rank b ∈ (Finset.range s.cells.length).image rank :=
    Finset.mem_image_of_mem _ (Finset.mem_range.mpr hb)
  refine Finset.card_lt_card (Finset.ssubset_iff_of_subset ?_ |>.mpr ⟨rank b, ?_, ?_⟩)
  · intro r hr
    obtain ⟨hr, hlt⟩ := Finset.mem_filter.mp hr
    exact Finset.mem_filter.mpr ⟨hr, Nat.lt_trans hlt h⟩
  · exact Finset.mem_filter.mpr ⟨hmem, h⟩
  · exact fun hr => Nat.lt_irrefl _ (Finset.mem_filter.mp hr).2

/-- **RANKS ARE FEW**: the cells of an acyclic store can be given ranks below
    their number, since no more ranks than cells are in use. -/
theorem Acyclic.bounded {s : Store} (hs : s.Acyclic) :
    ∃ rank, s.RankedBy rank ∧ ∀ a, a < s.cells.length → rank a < s.cells.length := by
  obtain ⟨rank, hrank⟩ := hs
  refine ⟨s.rankAmong rank, ?_, ?_⟩
  · intro a ha d hd b hb
    obtain ⟨hb', hlt⟩ := hrank a ha d hd b hb
    exact ⟨hb', rankAmong_lt hb' hlt⟩
  · intro a ha
    have hmem : rank a ∈ (Finset.range s.cells.length).image rank :=
      Finset.mem_image_of_mem _ (Finset.mem_range.mpr ha)
    calc s.rankAmong rank a
        < ((Finset.range s.cells.length).image rank).card := by
          refine Finset.card_lt_card (Finset.filter_ssubset.mpr ⟨rank a, hmem, ?_⟩)
          exact Nat.lt_irrefl _
      _ ≤ (Finset.range s.cells.length).card := Finset.card_image_le
      _ = s.cells.length := Finset.card_range _

/-- The cells of a store are found in another under new addresses. -/
structure Embeds (f : Nat → Nat) (s t : Store) : Prop where
  length_le : s.cells.length ≤ t.cells.length
  read_eq : ∀ a, a < s.cells.length → t.read (f a) = (s.read a).rename f

theorem Embeds.of_read_eq {s t : Store} (hlen : s.cells.length ≤ t.cells.length)
    (h : ∀ a, a < s.cells.length → t.read a = s.read a) : Embeds id s t :=
  ⟨hlen, fun a ha => (h a ha).trans (Cell.rename_id _).symm⟩

/-- **READING IS BLIND TO ADDRESSES**: any depth beyond the rank of a cell reads
    it to its end, at the old address and at the new one.  Induction on the
    rank. -/
theorem RankedBy.cellValue_eq {s t : Store} {rank : Nat → Nat} (hs : s.RankedBy rank)
    {f : Nat → Nat} (h : Embeds f s t) :
    ∀ (r a : Nat), rank a = r → a < s.cells.length → ∀ {k l : Nat}, r < k → r < l →
      t.cellValue l (f a) = s.cellValue k a := by
  intro r
  induction r using Nat.strongRecOn with
  | _ r ih =>
      rintro a rfl ha k l hk hl
      obtain ⟨k, rfl⟩ : ∃ k', k = k' + 1 := ⟨k - 1, by omega⟩
      obtain ⟨l, rfl⟩ : ∃ l', l = l' + 1 := ⟨l - 1, by omega⟩
      rw [cellValue, cellValue, h.read_eq a ha, Cell.freezeWith_rename]
      refine Cell.freezeWith_congr fun d hd b hb => ?_
      obtain ⟨hb', hlt⟩ := hs a ha d hd b hb
      exact ih (rank b) hlt b rfl hb' (by omega) (by omega)

/-- A renamed datum reads as the datum. -/
theorem Acyclic.freeze_rename {s t : Store} (hs : s.Acyclic) {f : Nat → Nat}
    (h : Embeds f s t) {d : Datum} (hd : s.Holds d) : t.freeze (d.rename f) = s.freeze d := by
  obtain ⟨rank, hrank, hbound⟩ := hs.bounded
  unfold freeze
  rw [Datum.freezeWith_rename]
  refine Datum.freezeWith_congr fun b hb => ?_
  have hlt := hbound b (hd b hb)
  exact hrank.cellValue_eq h (rank b) b rfl (hd b hb) hlt (Nat.lt_of_lt_of_le hlt h.length_le)

/-- An object reads as what is in its cell. -/
theorem Acyclic.freeze_object {s : Store} (hs : s.Acyclic) {a : Nat} (ha : a < s.cells.length) :
    s.freeze (.object a) = s.freezeCell (s.read a) := by
  obtain ⟨rank, hrank, hbound⟩ := hs.bounded
  obtain ⟨n, hn⟩ : ∃ n, s.cells.length = n + 1 := ⟨s.cells.length - 1, by omega⟩
  have hembeds : Embeds id s s := Embeds.of_read_eq (Nat.le_refl _) fun _ _ => rfl
  show s.cellValue s.cells.length a = (s.read a).freezeWith (s.cellValue s.cells.length)
  -- the parts rank below the cell, so that one depth less reads them to their end, too
  rw [hn, cellValue]
  refine Cell.freezeWith_congr fun d hd b hb => ?_
  obtain ⟨hb', hlt⟩ := hrank a ha d hd b hb
  have hlt' := hbound a ha
  exact hrank.cellValue_eq hembeds (rank b) b rfl hb' (by omega) (by omega)

/-! ## Stores that are extended -/

/-- A store is extended by new cells; the old ones are not touched. -/
def Extends (s t : Store) : Prop := s.cells <+: t.cells

theorem Extends.refl (s : Store) : s.Extends s := List.prefix_rfl

theorem Extends.trans {s t r : Store} (h₁ : s.Extends t) (h₂ : t.Extends r) : s.Extends r :=
  List.IsPrefix.trans h₁ h₂

/-- A store in which only the log differs is extended by nothing. -/
theorem Extends.of_cells_eq {s t : Store} (h : t.cells = s.cells) : s.Extends t :=
  ⟨[], by rw [h, List.append_nil]⟩

theorem Extends.length_le {s t : Store} (h : s.Extends t) : s.cells.length ≤ t.cells.length :=
  List.IsPrefix.length_le h

theorem Extends.read {s t : Store} (h : s.Extends t) {a : Nat} (ha : a < s.cells.length) :
    t.read a = s.read a := by
  obtain ⟨more, hmore⟩ := h
  unfold Store.read
  rw [← hmore, List.getElem?_append_left ha]

theorem Holds.mono_length {s t : Store} (h : s.cells.length ≤ t.cells.length) {d : Datum}
    (hd : s.Holds d) : t.Holds d := fun a ha => Nat.lt_of_lt_of_le (hd a ha) h

/-- What a datum reads as does not change when new cells come. -/
theorem Acyclic.freeze_extends {s t : Store} (hs : s.Acyclic) (h : s.Extends t) {d : Datum}
    (hd : s.Holds d) : t.freeze d = s.freeze d := by
  have hembeds : Embeds id s t := Embeds.of_read_eq h.length_le fun _ ha => h.read ha
  have := hs.freeze_rename hembeds hd
  rwa [Datum.rename_id] at this

/-! ## What data show -/

/-- A datum shows a value: its addresses are in the store, and reading it gives
    the value. -/
structure Shows (s : Store) (d : Datum) (v : Value) : Prop where
  held : s.Holds d
  freeze_eq : s.freeze d = v

/-- What a datum shows is not changed by an extension. -/
theorem Shows.mono {s t : Store} (hs : s.Acyclic) (h : s.Extends t) {d : Datum} {v : Value}
    (hd : s.Shows d v) : t.Shows d v :=
  ⟨hd.held.mono_length h.length_le, (hs.freeze_extends h hd.held).trans hd.freeze_eq⟩

/-- Data show values one by one exactly if they are held and are read as the
    values. -/
theorem forall₂_shows_iff {s : Store} {ds : List Datum} {vs : List Value} :
    List.Forall₂ s.Shows ds vs ↔ (∀ d ∈ ds, s.Holds d) ∧ ds.map s.freeze = vs := by
  constructor
  · intro h
    induction h with
    | nil => exact ⟨fun d hd => (nomatch hd), rfl⟩
    | cons hd _ ih =>
        refine ⟨List.forall_mem_cons.mpr ⟨hd.held, ih.1⟩, ?_⟩
        rw [List.map_cons, hd.freeze_eq, ih.2]
  · rintro ⟨h, rfl⟩
    induction ds with
    | nil => exact .nil
    | cons d ds ih =>
        obtain ⟨hd, hds⟩ := List.forall_mem_cons.mp h
        exact .cons ⟨hd, rfl⟩ (ih hds)

theorem shows_leaf {s : Store} (v : Value) : s.Shows (.leaf v) v := ⟨holds_leaf v, rfl⟩

theorem shows_tuple {s : Store} {ds : List Datum} {vs : List Value}
    (h : List.Forall₂ s.Shows ds vs) : s.Shows (.tuple ds) (.tuple vs) := by
  obtain ⟨hheld, hvs⟩ := forall₂_shows_iff.mp h
  exact ⟨holds_tuple.mpr hheld, (freeze_tuple s ds).trans (congrArg Value.tuple hvs)⟩

/-! ## Putting values into a store -/

/-- A store grows: it is extended, and no object is inside itself. -/
structure Grows (s t : Store) : Prop where
  kept : s.Extends t
  acyclic : t.Acyclic

theorem Grows.refl {s : Store} (hs : s.Acyclic) : s.Grows s := ⟨Extends.refl s, hs⟩

theorem Grows.trans {s t r : Store} (h₁ : s.Grows t) (h₂ : t.Grows r) : s.Grows r :=
  ⟨h₁.kept.trans h₂.kept, h₂.acyclic⟩

theorem Grows.of_cells_eq {s t : Store} (hs : s.Acyclic) (h : t.cells = s.cells) : s.Grows t :=
  ⟨.of_cells_eq h, hs.of_cells_eq h⟩

theorem cells_alloc (s : Store) (c : Cell) : (s.alloc c).2.cells = s.cells ++ [c] := rfl

theorem length_cells_alloc (s : Store) (c : Cell) :
    (s.alloc c).2.cells.length = s.cells.length + 1 := by
  rw [cells_alloc, List.length_append, List.length_singleton]

theorem read_alloc_self (s : Store) (c : Cell) : (s.alloc c).2.read s.cells.length = c := by
  unfold Store.read
  rw [cells_alloc, List.getElem?_concat_length, Option.getD_some]

theorem extends_alloc (s : Store) (c : Cell) : s.Extends (s.alloc c).2 :=
  ⟨[c], (cells_alloc s c).symm⟩

/-- An object of held data can be put into a new cell. -/
theorem Acyclic.alloc {s : Store} (hs : s.Acyclic) {c : Cell} (h : ∀ d ∈ c.parts, s.Holds d) :
    s.Grows (s.alloc c).2 := by
  refine ⟨extends_alloc s c, ?_⟩
  obtain ⟨rank, hrank, hbound⟩ := hs.bounded
  -- the new cell ranks above all others
  refine ⟨fun a => if a < s.cells.length then rank a else s.cells.length, ?_⟩
  intro a ha d hd b hb
  rw [length_cells_alloc] at ha ⊢
  rcases Nat.lt_or_ge a s.cells.length with hlt | hge
  · rw [(extends_alloc s c).read hlt] at hd
    obtain ⟨hb', hlt'⟩ := hrank a hlt d hd b hb
    simp only [if_pos hlt, if_pos hb']
    exact ⟨by omega, hlt'⟩
  · obtain rfl : a = s.cells.length := by omega
    rw [read_alloc_self] at hd
    have hb' := h d hd b hb
    simp only [if_neg (Nat.lt_irrefl _), if_pos hb']
    exact ⟨by omega, hbound b hb'⟩

/-- The new object reads as what was put into it. -/
theorem Acyclic.freeze_alloc {s : Store} (hs : s.Acyclic) {c : Cell}
    (h : ∀ d ∈ c.parts, s.Holds d) :
    (s.alloc c).2.freeze (.object s.cells.length) = s.freezeCell c := by
  have hgrows := hs.alloc h
  have hlt : s.cells.length < (s.alloc c).2.cells.length := by
    rw [length_cells_alloc]
    exact Nat.lt_succ_self _
  rw [hgrows.acyclic.freeze_object hlt, read_alloc_self]
  exact Cell.freezeWith_congr fun d hd b hb =>
    hs.freeze_extends hgrows.kept (d := .object b) (holds_object.mpr (h d hd b hb))

theorem Acyclic.alloc_shows {s : Store} (hs : s.Acyclic) {c : Cell}
    (h : ∀ d ∈ c.parts, s.Holds d) :
    (s.alloc c).2.Shows (.object s.cells.length) (s.freezeCell c) := by
  refine ⟨holds_object.mpr ?_, hs.freeze_alloc h⟩
  rw [length_cells_alloc]
  exact Nat.lt_succ_self _

end Store

mutual

/-- **WHAT IS PUT INTO A STORE IS SHOWN THERE**, and the store only grows. -/
theorem Value.thaw_shows : ∀ (v : Value) {s : Store}, s.Acyclic →
    s.Grows (v.thaw s).2 ∧ (v.thaw s).2.Shows (v.thaw s).1 v
  | .list xs, s, hs => by
      obtain ⟨hgrows, hshows⟩ := Value.thawAll_shows xs hs
      obtain ⟨hheld, hvs⟩ := Store.forall₂_shows_iff.mp hshows
      refine ⟨hgrows.trans (hgrows.acyclic.alloc (c := .list _) hheld), ?_⟩
      have := hgrows.acyclic.alloc_shows (c := .list _) hheld
      rwa [Store.freezeCell_list, hvs] at this
  | .tuple xs, s, hs => by
      obtain ⟨hgrows, hshows⟩ := Value.thawAll_shows xs hs
      exact ⟨hgrows, Store.shows_tuple hshows⟩
  | .dict es, s, hs => by
      obtain ⟨hgrows, hheld, hvs⟩ := Value.thawEntries_shows es hs
      refine ⟨hgrows.trans (hgrows.acyclic.alloc (c := .dict _) hheld), ?_⟩
      have := hgrows.acyclic.alloc_shows (c := .dict _) hheld
      rwa [Store.freezeCell_dict, hvs] at this
  | .tensor t, s, hs =>
      ⟨hs.alloc fun _ hd => (nomatch hd), hs.alloc_shows fun _ hd => (nomatch hd)⟩
  | .array t, s, hs => by
      have hshows := hs.alloc_shows (c := .tensor t) fun _ hd => (nomatch hd)
      exact ⟨hs.alloc fun _ hd => (nomatch hd),
        ⟨hshows.held, congrArg Value.asArray hshows.freeze_eq⟩⟩
  | .none, _, hs | .bool _, _, hs | .int _, _, hs | .float _, _, hs | .str _, _, hs
  | .dtype _, _, hs | .odd _, _, hs | .symbol _, _, hs =>
      ⟨Store.Grows.refl hs, Store.shows_leaf _⟩

theorem Value.thawAll_shows : ∀ (xs : List Value) {s : Store}, s.Acyclic →
    s.Grows (Value.thawAll xs s).2 ∧
      List.Forall₂ (Value.thawAll xs s).2.Shows (Value.thawAll xs s).1 xs
  | [], _, hs => ⟨Store.Grows.refl hs, .nil⟩
  | x :: xs, s, hs => by
      obtain ⟨hgrows, hshows⟩ := Value.thaw_shows x hs
      obtain ⟨hgrows', hshows'⟩ := Value.thawAll_shows xs hgrows.acyclic
      exact ⟨hgrows.trans hgrows', .cons (hshows.mono hgrows.acyclic hgrows'.kept) hshows'⟩

theorem Value.thawEntries_shows : ∀ (es : List (Value × Value)) {s : Store}, s.Acyclic →
    s.Grows (Value.thawEntries es s).2 ∧
      (∀ d ∈ (Value.thawEntries es s).1.map Prod.snd, (Value.thawEntries es s).2.Holds d) ∧
      (Value.thawEntries es s).1.map
        (fun e => (e.1, (Value.thawEntries es s).2.freeze e.2)) = es
  | [], _, hs => ⟨Store.Grows.refl hs, fun _ hd => (nomatch hd), rfl⟩
  | (k, v) :: es, s, hs => by
      obtain ⟨hgrows, hshows⟩ := Value.thaw_shows v hs
      obtain ⟨hgrows', hheld, hvs⟩ := Value.thawEntries_shows es hgrows.acyclic
      have hfirst := hshows.mono hgrows.acyclic hgrows'.kept
      refine ⟨hgrows.trans hgrows', List.forall_mem_cons.mpr ⟨hfirst.held, hheld⟩, ?_⟩
      exact congrArg₂ List.cons (congrArg (Prod.mk k) hfirst.freeze_eq) hvs

end

end DialectBench
