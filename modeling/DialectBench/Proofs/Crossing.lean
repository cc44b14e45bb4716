import DialectBench.Proofs.Relocation
import DialectBench.Bench.Border

/-!
# What crosses the border

    Converting a datum does to the store what converting its value does to
    values: it stops with the same fault or returns a datum that shows the
    converted value.  In both cases the store only grows.

    What is returned is NOT NEW: the lists and dictionaries are, but a tensor
    and its array lie in one cell.  So the outcome shares with what was there
    exactly such tensors as the datum reached, and nothing else.

    On top of other cells a conversion does the same.
-/

namespace DialectBench

namespace Store

/-- A cell holds a tensor. -/
def IsTensor (s : Store) (b : Nat) : Prop := ∃ t, s.read b = .tensor t

/-- The cells of a store that a conversion of a datum shares nothing with: all
    but the tensors that the datum reaches. -/
def Unshared (s : Store) (x : Datum) (b : Nat) : Prop :=
  b < s.cells.length ∧ ¬ (s.Reaches x b ∧ s.IsTensor b)

/-- A tensor has no parts, so that nothing but itself is reached from it, seen as
    an array or not. -/
theorem Reaches.eq_of_tensor {s : Store} {y : Datum} {a b : Nat} {tensor : Tensor}
    (hread : s.read a = .tensor tensor) (hy : y.addresses = [a]) (hb : s.Reaches y b) : b = a := by
  cases hb with
  | here mem =>
      rw [hy] at mem
      exact List.mem_singleton.mp mem
  | inside mem part _ =>
      rw [hy] at mem
      rw [List.mem_singleton.mp mem, hread] at part
      exact absurd part List.not_mem_nil

theorem Unshared.of_reaches {s : Store} {x y : Datum} (h : ∀ b, s.Reaches y b → s.Reaches x b)
    {b : Nat} (hb : s.Unshared x b) : s.Unshared y b :=
  ⟨hb.1, fun ⟨hreach, htensor⟩ => hb.2 ⟨h b hreach, htensor⟩⟩

end Store

/-- A datum of a store was converted: in a later store the outcome shows a
    value and shares tensors at most. -/
structure Image (s : Store) (x : Datum) (t : Store) (y : Datum) (v : Value) : Prop where
  shows : t.Shows y v
  kept : t.KeptFrom (s.Unshared x) y

/-- Data of a store were converted one by one. -/
structure Images (s : Store) (xs : List Datum) (t : Store) (ys : List Datum)
    (vs : List Value) : Prop where
  length_eq : ys.length = xs.length
  shows : List.Forall₂ t.Shows ys vs
  kept : ∀ y ∈ ys, t.KeptFrom (s.Unshared (.tuple xs)) y

section

variable {s t u : Store} {x y : Datum} {xs ys : List Datum} {v : Value} {vs : List Value}

/-- What shares with a datum at most shares at most with one that reaches more. -/
theorem Image.of_reaches {x' : Datum} (h : Image s x t y v) (ht : t.Acyclic)
    (hreach : ∀ b, s.Reaches x b → s.Reaches x' b) : Image s x' t y v :=
  ⟨h.shows, h.kept.mono ht (Store.Extends.refl t).changesOnly fun _ _ hb => hb.of_reaches hreach⟩

theorem Images.tuple (h : Images s xs t ys vs) : Image s (.tuple xs) t (.tuple ys) (.tuple vs) :=
  ⟨Store.shows_tuple h.shows, Store.keptFrom_tuple h.kept⟩

theorem Images.nil : Images s [] t [] [] := ⟨rfl, .nil, fun _ hy => (nomatch hy)⟩

theorem Images.cons (h : Image s x t y v) (ht : t.Acyclic) (htu : t.Grows u)
    (hs : Images s xs u ys vs) : Images s (x :: xs) u (y :: ys) (v :: vs) := by
  refine ⟨congrArg (· + 1) hs.length_eq, .cons (h.shows.mono ht htu.kept) hs.shows,
    List.forall_mem_cons.mpr ⟨?_, ?_⟩⟩
  · refine h.kept.mono ht htu.kept.changesOnly fun b _ hb => hb.of_reaches fun c hc => ?_
    exact Store.reaches_tuple.mpr ⟨x, List.mem_cons_self, hc⟩
  · intro y' hy'
    refine (hs.kept y' hy').mono htu.acyclic (Store.Extends.refl u).changesOnly
      fun b _ hb => hb.of_reaches fun c hc => ?_
    obtain ⟨x', hx', hreach⟩ := Store.reaches_tuple.mp hc
    exact Store.reaches_tuple.mpr ⟨x', List.mem_cons_of_mem _ hx', hreach⟩

/-- A container is rebuilt in a new cell from the conversions of its parts. -/
theorem Images.alloc {a : Nat} {c : Cell} (h : Images s (s.read a).parts t c.parts vs)
    (hst : s.Grows t) (hv : t.freezeCell c = v) :
    Image s (.object a) (t.alloc c).2 (.object t.cells.length) v := by
  have hheld : ∀ d ∈ c.parts, t.Holds d := (Store.forall₂_shows_iff.mp h.shows).1
  refine ⟨hv ▸ hst.acyclic.alloc_shows hheld, .alloc hst.acyclic (fun d hd => ?_) fun hnew => ?_⟩
  · refine (h.kept d hd).mono hst.acyclic (Store.Extends.refl t).changesOnly
      fun b _ hb => hb.of_reaches fun c hc => ?_
    obtain ⟨e, he, hreach⟩ := Store.reaches_tuple.mp hc
    exact .inside (List.mem_singleton_self a) he hreach
  · exact Nat.not_lt.mpr hst.kept.length_le hnew.1

/-- A tensor stays where it is, seen as an array or not. -/
theorem image_tensor {a : Nat} {tensor : Tensor} (hx : s.Reaches x a)
    (hread : s.read a = .tensor tensor) (hy : y = .object a ∨ y = .array a)
    (h : t.Shows y v) (hst : s.Extends t) (ha : a < s.cells.length) : Image s x t y v := by
  refine ⟨h, h.held, fun b hb hunshared => hunshared.2 ?_⟩
  have haddress : y.addresses = [a] := by rcases hy with rfl | rfl <;> rfl
  obtain rfl := hb.eq_of_tensor ((hst.read ha).trans hread) haddress
  exact ⟨hx, tensor, hread⟩

end

/-! ## Work that follows a function of values -/

/-- Work on a store follows what is wanted: it grows the store, stops with the
    wanted fault, and returns something that is good for the wanted value. -/
structure Tracks {α β : Type} (want : Except Fault β) (good : Store → α → β → Prop)
    (r : Run Store α) (t : Store) : Prop where
  grows : t.Grows (r t).2
  stops : ∀ e, want = .error e → (r t).1 = .error e
  returns : ∀ b, want = .ok b → ∃ a, (r t).1 = .ok a ∧ good (r t).2 a b

section

variable {α β γ δ : Type} {want : Except Fault β} {good : Store → α → β → Prop}
  {good' : Store → γ → δ → Prop} {t : Store}

theorem Tracks.pure (ht : t.Acyclic) {a : α} {b : β} (h : good t a b) :
    Tracks (.ok b) good (pure a) t := by
  refine ⟨Store.Grows.refl ht, fun e he => (nomatch he), fun b' hb' => ?_⟩
  cases hb'
  exact ⟨a, rfl, h⟩

theorem Tracks.throw (ht : t.Acyclic) (e : Fault) :
    Tracks (.error e : Except Fault β) good (throw e) t := by
  refine ⟨Store.Grows.refl ht, fun e' he' => ?_, fun b hb => (nomatch hb)⟩
  cases he'
  rfl

/-- Only what work does in the store counts. -/
theorem Tracks.of_eq {x y : Run Store α} (h : x t = y t) (hy : Tracks want good y t) :
    Tracks want good x t := by
  obtain ⟨hgrows, hstops, hreturns⟩ := hy
  rw [← h] at hgrows hstops hreturns
  exact ⟨hgrows, hstops, hreturns⟩

theorem Tracks.bind {x : Run Store α} {f : α → Run Store γ} {next : β → Except Fault δ}
    (hx : Tracks want good x t)
    (hf : ∀ a b t', t.Grows t' → good t' a b → Tracks (next b) good' (f a) t') :
    Tracks (want.bind next) good' (x >>= f) t := by
  obtain ⟨hgrows, hstops, hreturns⟩ := hx
  rcases h : x t with ⟨r, t'⟩
  rw [h] at hgrows hstops hreturns
  cases want with
  | error e =>
      obtain rfl : r = .error e := hstops e rfl
      refine .of_eq (y := fun _ => (.error e, t')) (Run.bind_of_error h) ⟨hgrows, ?_, ?_⟩
      · rintro e' ⟨⟩
        rfl
      · exact fun b hb => (nomatch hb)
  | ok b =>
      obtain ⟨a, rfl, ha⟩ := hreturns b rfl
      obtain ⟨hgrows', hstops', hreturns'⟩ := hf a b t' hgrows ha
      exact .of_eq (y := fun _ => f a t') (Run.bind_of_ok h)
        ⟨hgrows.trans hgrows', hstops', hreturns'⟩

end

/-! ## Conversions follow those of values -/

theorem Value.convertAll_cons (d : Direction) (x : Value) (xs : List Value) :
    Value.convertAll d (x :: xs) = (x.convert d).bind fun y =>
      (Value.convertAll d xs).bind fun ys => .ok (y :: ys) := by
  rw [Value.convertAll]
  cases x.convert d with
  | error e => rfl
  | ok y => cases Value.convertAll d xs <;> rfl

/-- Entries are converted by their values; keys are left alone. -/
theorem Value.convertEntries_eq (d : Direction) (es : List (Value × Value)) :
    Value.convertEntries d es = (Value.convertAll d (es.map Prod.snd)).bind fun vs =>
      .ok ((es.map Prod.fst).zip vs) := by
  induction es with
  | nil => rfl
  | cons e es ih =>
      obtain ⟨k, v⟩ := e
      rw [Value.convertEntries, List.map_cons, Value.convertAll_cons, ih]
      cases v.convert d with
      | error e => rfl
      | ok w => cases Value.convertAll d (es.map Prod.snd) <;> rfl

theorem Value.convert_tuple (d : Direction) (xs : List Value) :
    (Value.tuple xs).convert d = (Value.convertAll d xs).bind fun vs => .ok (.tuple vs) := by
  rw [Value.convert]
  cases Value.convertAll d xs <;> rfl

theorem Value.convert_list (d : Direction) (xs : List Value) :
    (Value.list xs).convert d = (Value.convertAll d xs).bind fun vs => .ok (.list vs) := by
  rw [Value.convert]
  cases Value.convertAll d xs <;> rfl

theorem Value.convert_dict (d : Direction) (es : List (Value × Value)) :
    (Value.dict es).convert d = (Value.convertAll d (es.map Prod.snd)).bind fun vs =>
      .ok (.dict ((es.map Prod.fst).zip vs)) := by
  rw [Value.convert, Value.convertEntries_eq]
  cases Value.convertAll d (es.map Prod.snd) <;> rfl

section

variable {d : Direction} {s : Store} {cell : Nat → Run Store Datum}

theorem Datum.convertAllWith_tracks {xs : List Datum}
    (h : ∀ x ∈ xs, ∀ t, s.Grows t →
      Tracks ((s.freeze x).convert d) (Image s x) (x.convertWith d cell) t)
    {t : Store} (ht : s.Grows t) :
    Tracks (Value.convertAll d (xs.map s.freeze)) (Images s xs)
      (Datum.convertAllWith d cell xs) t := by
  induction xs generalizing t with
  | nil => exact .pure ht.acyclic .nil
  | cons x xs ih =>
      obtain ⟨hx, hxs⟩ := List.forall_mem_cons.mp h
      rw [List.map_cons, Value.convertAll_cons]
      refine (hx t ht).bind fun y v t₁ h₁ hy => ?_
      refine (ih hxs (ht.trans h₁)).bind fun ys vs t₂ h₂ hys => ?_
      exact .pure h₂.acyclic (.cons hy h₁.acyclic h₂ hys)

/-- The array in a cell is converted as its value is, if the object there is. -/
theorem Cell.convertArray_tracks (hs : s.Acyclic) {a : Nat} (ha : a < s.cells.length) {t : Store}
    (ht : s.Grows t)
    (hcell : Tracks ((s.freeze (.object a)).convert d) (Image s (.object a)) (cell a) t) :
    Tracks ((s.freeze (.array a)).convert d) (Image s (.array a))
      ((s.read a).convertArray d cell a) t := by
  have hmem : a ∈ (Datum.array a).addresses := List.mem_singleton_self a
  have hobject : s.freeze (.object a) = s.freezeCell (s.read a) := hs.freeze_object ha
  -- where there is no tensor, the array is the object
  have hother :
      Tracks ((s.freezeCell (s.read a)).convert d) (Image s (.array a)) (cell a) t := by
    rw [← hobject]
    obtain ⟨hgrows, hstops, hreturns⟩ := hcell
    refine ⟨hgrows, hstops, fun v hv => ?_⟩
    obtain ⟨y, hy, himage⟩ := hreturns v hv
    exact ⟨y, hy, himage.of_reaches hgrows.acyclic fun b hb => hb.of_object hmem⟩
  rw [Store.freeze_array, hobject]
  cases hcontents : s.read a with
  | list xs =>
      rw [hcontents] at hother
      exact hother
  | dict es =>
      rw [hcontents] at hother
      exact hother
  | tensor tensor =>
      cases d with
      | toArrays => exact .throw ht.acyclic _
      | fromArrays =>
          have hshows : s.Shows (.object a) (.tensor tensor) :=
            ⟨Store.holds_object.mpr ha, hobject.trans (congrArg s.freezeCell hcontents)⟩
          exact .pure ht.acyclic (image_tensor (.here hmem) hcontents (.inl rfl)
            (hshows.mono hs ht.kept) ht.kept ha)

/-- **A DATUM IS CONVERTED AS ITS VALUE IS**, if what is in its cells is. -/
theorem Datum.convertWith_tracks (hs : s.Acyclic) (x : Datum) (hx : s.Holds x)
    (hcell : ∀ a ∈ x.addresses, ∀ t, s.Grows t →
      Tracks ((s.freeze (.object a)).convert d) (Image s (.object a)) (cell a) t) :
    ∀ t, s.Grows t → Tracks ((s.freeze x).convert d) (Image s x) (x.convertWith d cell) t := by
  induction x using Datum.parts_induction with
  | leaf v =>
      intro t ht
      rw [Datum.convertWith, Store.freeze_leaf]
      cases hv : v.convert d with
      | error e => exact .throw ht.acyclic e
      | ok w => exact .pure ht.acyclic ⟨Store.shows_leaf w, Store.keptFrom_leaf w⟩
  | object a => exact hcell a (List.mem_singleton_self a)
  | array a =>
      intro t ht
      have ha : a < s.cells.length := Store.holds_array.mp hx
      refine .of_eq (y := (s.read a).convertArray d cell a) ?_ ?_
      · rw [← ht.kept.read ha]
        rfl
      · exact Cell.convertArray_tracks hs ha ht (hcell a (List.mem_singleton_self a) t ht)
  | tuple xs ih =>
      intro t ht
      have hall : ∀ x ∈ xs, ∀ t, s.Grows t →
          Tracks ((s.freeze x).convert d) (Image s x) (x.convertWith d cell) t := by
        intro x hmem
        refine ih x hmem (Store.holds_tuple.mp hx x hmem) fun a ha => ?_
        exact hcell a (Datum.mem_addressesAll.mpr ⟨x, hmem, ha⟩)
      rw [Store.freeze_tuple, Value.convert_tuple, Datum.convertWith]
      exact (Datum.convertAllWith_tracks hall ht).bind fun ys vs t' h' hys =>
        .pure h'.acyclic hys.tuple

/-- Putting the parts of a container together in a new cell. -/
theorem allocIn_tracks {t : Store} (hst : s.Grows t) {a : Nat} {c : Cell} {vs : List Value}
    {v : Value} (h : Images s (s.read a).parts t c.parts vs) (hv : t.freezeCell c = v) :
    Tracks (.ok v) (Image s (.object a)) (allocIn c) t := by
  have himage := h.alloc hst hv
  refine ⟨hst.acyclic.alloc (Store.forall₂_shows_iff.mp h.shows).1, fun e he => (nomatch he), ?_⟩
  rintro _ ⟨⟩
  exact ⟨_, rfl, himage⟩

/-- The object in a cell is converted as its value is, if its parts are. -/
theorem Cell.convertObject_tracks (hs : s.Acyclic) {a : Nat} (ha : a < s.cells.length)
    (hparts : ∀ x ∈ (s.read a).parts, ∀ t, s.Grows t →
      Tracks ((s.freeze x).convert d) (Image s x) (x.convertWith d cell) t)
    {t : Store} (ht : s.Grows t) :
    Tracks ((s.freeze (.object a)).convert d) (Image s (.object a))
      ((s.read a).convertObject d cell a) t := by
  rw [hs.freeze_object ha]
  cases hcontents : s.read a with
  | list xs =>
      rw [hcontents] at hparts
      rw [Store.freezeCell_list, Value.convert_list]
      refine (Datum.convertAllWith_tracks hparts ht).bind fun ys vs t' h' hys => ?_
      refine allocIn_tracks (ht.trans h') (hcontents ▸ hys) ?_
      rw [Store.freezeCell_list, (Store.forall₂_shows_iff.mp hys.shows).2]
  | dict es =>
      rw [hcontents] at hparts
      have hkeys : (es.map fun e => (e.1, s.freeze e.2)).map Prod.fst = es.map Prod.fst := by
        rw [List.map_map]
        rfl
      have hvalues : (es.map fun e => (e.1, s.freeze e.2)).map Prod.snd
          = (es.map Prod.snd).map s.freeze := by
        rw [List.map_map, List.map_map]
        rfl
      rw [Store.freezeCell_dict, Value.convert_dict, hkeys, hvalues]
      refine (Datum.convertAllWith_tracks hparts ht).bind fun ys vs t' h' hys => ?_
      have hrebuilt : (Cell.dict ((es.map Prod.fst).zip ys)).parts = ys := by
        refine List.map_snd_zip (Nat.le_of_eq ?_)
        rw [hys.length_eq, List.length_map]
        exact List.length_map _
      refine allocIn_tracks (ht.trans h') (hrebuilt.symm ▸ hcontents ▸ hys) ?_
      rw [Store.freezeCell_dict, ← (Store.forall₂_shows_iff.mp hys.shows).2, List.zip_map_right]
      rfl
  | tensor tensor =>
      cases d with
      | toArrays =>
          have hobject : s.freeze (.object a) = .tensor tensor :=
            (hs.freeze_object ha).trans (congrArg s.freezeCell hcontents)
          have harray : s.Shows (.array a) (.array tensor) :=
            ⟨Store.holds_array.mpr ha, congrArg Value.asArray hobject⟩
          exact .pure ht.acyclic (image_tensor (.here (List.mem_singleton_self a)) hcontents
            (.inr rfl) (harray.mono hs ht.kept) ht.kept ha)
      | fromArrays => exact .throw ht.acyclic _

end

/-- **WHAT IS IN A CELL IS CONVERTED AS ITS VALUE IS**, to any depth beyond the
    rank of the cell.  Induction on the rank. -/
theorem convertCell_tracks {s : Store} (hs : s.Acyclic) {rank : Nat → Nat}
    (hrank : s.RankedBy rank) (d : Direction) : ∀ (r a : Nat), rank a = r →
      a < s.cells.length → ∀ {depth : Nat}, r < depth → ∀ t, s.Grows t →
        Tracks ((s.freeze (.object a)).convert d) (Image s (.object a))
          (convertCell d depth a) t := by
  intro r
  induction r using Nat.strongRecOn with
  | _ r ih =>
      rintro a rfl ha depth hdepth t ht
      obtain ⟨depth, rfl⟩ : ∃ k, depth = k + 1 := ⟨depth - 1, by omega⟩
      refine .of_eq (y := (s.read a).convertObject d (convertCell d depth) a) ?_
        (Cell.convertObject_tracks hs ha (fun x hx => ?_) ht)
      · rw [← ht.kept.read ha]
        rfl
      · refine Datum.convertWith_tracks hs x (hs.holds_part ha hx) fun b hb => ?_
        obtain ⟨hlt, hlower⟩ := hrank a ha x hx b hb
        exact ih (rank b) hlower b rfl hlt (by omega)

/-- **CONVERTING A DATUM FOLLOWS CONVERTING ITS VALUE**, and what comes of it
    shares nothing with the store but tensors that the datum reached. -/
theorem Datum.convert_tracks (d : Direction) {x : Datum} {s : Store} (hs : s.Acyclic)
    (hx : s.Holds x) : Tracks ((s.freeze x).convert d) (Image s x) (x.convert d) s := by
  obtain ⟨rank, hrank, hbound⟩ := hs.bounded
  refine .of_eq (y := x.convertWith d (convertCell d s.cells.length)) rfl
    (Datum.convertWith_tracks hs x hx (fun a ha => ?_) s (Store.Grows.refl hs))
  exact convertCell_tracks hs hrank d (rank a) a rfl (hx a ha) (hbound a (hx a ha))

/-! ## On top of other cells -/

section

variable {base : List Cell} {d : Direction} {s₀ : Store} {cell cell' : Nat → Run Store Datum}

theorem Datum.convertAllWith_alike {xs : List Datum}
    (htracks : ∀ x ∈ xs, ∀ s, s₀.Grows s →
      Tracks ((s₀.freeze x).convert d) (Image s₀ x) (x.convertWith d cell) s)
    (halike : ∀ x ∈ xs, ∀ s t, s₀.Grows s → Store.OnTop base s t →
      Alike id base (Datum.above base) (x.convertWith d cell)
        ((x.above base).convertWith d cell') s t)
    {s t : Store} (hs : s₀.Grows s) (h : Store.OnTop base s t) :
    Alike id base (List.map (Datum.above base)) (Datum.convertAllWith d cell xs)
      (Datum.convertAllWith d cell' (xs.map (Datum.above base))) s t := by
  induction xs generalizing s t with
  | nil => exact .pure h rfl
  | cons x xs ih =>
      obtain ⟨hx, hxs⟩ := List.forall_mem_cons.mp htracks
      obtain ⟨hx', hxs'⟩ := List.forall_mem_cons.mp halike
      refine (hx' s t hs h).bind fun y s₁ t₁ hy h₁ => ?_
      have hgrows := (hx s hs).grows
      rw [hy] at hgrows
      exact (ih hxs hxs' (hs.trans hgrows) h₁).bind fun _ _ _ _ h₂ => .pure h₂ rfl

theorem Datum.convertWith_alike (hs₀ : s₀.Acyclic) (x : Datum) (hx : s₀.Holds x)
    (htracks : ∀ a ∈ x.addresses, ∀ s, s₀.Grows s →
      Tracks ((s₀.freeze (.object a)).convert d) (Image s₀ (.object a)) (cell a) s)
    (halike : ∀ a ∈ x.addresses, ∀ s t, s₀.Grows s → Store.OnTop base s t →
      Alike id base (Datum.above base) (cell a) (cell' (a + base.length)) s t) :
    ∀ s t, s₀.Grows s → Store.OnTop base s t →
      Alike id base (Datum.above base) (x.convertWith d cell)
        ((x.above base).convertWith d cell') s t := by
  induction x using Datum.parts_induction with
  | leaf v =>
      intro s t _ h
      show Alike id base _ ((Datum.leaf v).convertWith d cell) ((Datum.leaf v).convertWith d cell')
        s t
      rw [Datum.convertWith, Datum.convertWith]
      cases v.convert d with
      | error e => exact .throw h e
      | ok w => exact .pure h rfl
  | object a => exact halike a (List.mem_singleton_self a)
  | array a =>
      intro s t hs h
      have hother := halike a (List.mem_singleton_self a) s t hs h
      refine .of_eq (u := (s.read a).convertArray d cell a)
        (v := ((s.read a).rename (· + base.length)).convertArray d cell' (a + base.length))
        rfl ?_ ?_
      · rw [← h.read]
        rfl
      cases s.read a with
      | list xs => exact hother
      | dict es => exact hother
      | tensor u =>
          cases d with
          | toArrays => exact .throw h _
          | fromArrays => exact .pure h rfl
  | tuple xs ih =>
      intro s t hs h
      have hmem : ∀ x ∈ xs, ∀ a ∈ x.addresses, a ∈ (Datum.tuple xs).addresses :=
        fun x hx a ha => Datum.mem_addressesAll.mpr ⟨x, hx, ha⟩
      have hheld := Store.holds_tuple.mp hx
      have hmoved : (Datum.tuple xs).above base = .tuple (xs.map (Datum.above base)) :=
        congrArg Datum.tuple (Datum.renameAll_eq_map _ xs)
      rw [hmoved, Datum.convertWith, Datum.convertWith]
      refine (Datum.convertAllWith_alike (fun x hx => ?_) (fun x hx => ?_) hs h).bind
        fun ys _ _ _ h₁ => .pure h₁ ?_
      · exact Datum.convertWith_tracks hs₀ x (hheld x hx) fun a ha => htracks a (hmem x hx a ha)
      · exact ih x hx (hheld x hx) (fun a ha => htracks a (hmem x hx a ha))
          fun a ha => halike a (hmem x hx a ha)
      · exact congrArg Datum.tuple (Datum.renameAll_eq_map _ ys).symm

/-- The object in a cell is converted alike if its parts are. -/
theorem Cell.convertObject_alike {a : Nat} {c : Cell}
    (htracks : ∀ x ∈ c.parts, ∀ s, s₀.Grows s →
      Tracks ((s₀.freeze x).convert d) (Image s₀ x) (x.convertWith d cell) s)
    (halike : ∀ x ∈ c.parts, ∀ s t, s₀.Grows s → Store.OnTop base s t →
      Alike id base (Datum.above base) (x.convertWith d cell)
        ((x.above base).convertWith d cell') s t)
    {s t : Store} (hs : s₀.Grows s) (h : Store.OnTop base s t) :
    Alike id base (Datum.above base) (c.convertObject d cell a)
      ((c.rename (· + base.length)).convertObject d cell' (a + base.length)) s t := by
  cases c with
  | list xs =>
      exact (Datum.convertAllWith_alike htracks halike hs h).bind
        fun ys _ _ _ h₁ => allocIn_alike h₁ (.list ys)
  | dict es =>
      have hvalues : (es.map fun e => (e.1, e.2.rename (· + base.length))).map Prod.snd
          = (es.map Prod.snd).map (Datum.above base) := by
        rw [List.map_map, List.map_map]
        rfl
      have hkeys : (es.map fun e => (e.1, e.2.rename (· + base.length))).map Prod.fst
          = es.map Prod.fst := by
        rw [List.map_map]
        rfl
      rw [Cell.rename, Cell.convertObject, Cell.convertObject, hvalues, hkeys]
      refine (Datum.convertAllWith_alike htracks halike hs h).bind fun ys _ _ _ h₁ => ?_
      have halloc := allocIn_alike h₁ (.dict ((es.map Prod.fst).zip ys))
      have hentries : ((es.map Prod.fst).zip ys).map
          (fun e => (e.1, e.2.rename (· + base.length)))
          = (es.map Prod.fst).zip (ys.map (Datum.above base)) := by
        rw [List.zip_map_right]
        rfl
      rwa [Cell.rename, hentries] at halloc
  | tensor u =>
      cases d with
      | toArrays => exact .pure h rfl
      | fromArrays => exact .throw h _

/-- What is in a cell is converted alike to all depths beyond the rank of the
    cell.  Induction on the rank. -/
theorem convertCell_alike (hs₀ : s₀.Acyclic) {rank : Nat → Nat} (hrank : s₀.RankedBy rank)
    (d : Direction) : ∀ (r a : Nat), rank a = r → a < s₀.cells.length → ∀ {k l : Nat},
      r < k → r < l → ∀ s t, s₀.Grows s → Store.OnTop base s t →
        Alike id base (Datum.above base) (convertCell d k a)
          (convertCell d l (a + base.length)) s t := by
  intro r
  induction r using Nat.strongRecOn with
  | _ r ih =>
      rintro a rfl ha k l hk hl s t hs h
      obtain ⟨k, rfl⟩ : ∃ k', k = k' + 1 := ⟨k - 1, by omega⟩
      obtain ⟨l, rfl⟩ : ∃ l', l = l' + 1 := ⟨l - 1, by omega⟩
      have htracks : ∀ x ∈ (s₀.read a).parts, ∀ b ∈ x.addresses, ∀ s, s₀.Grows s →
          Tracks ((s₀.freeze (.object b)).convert d) (Image s₀ (.object b))
            (convertCell d k b) s := by
        intro x hx b hb
        obtain ⟨hlt, hlower⟩ := hrank a ha x hx b hb
        exact convertCell_tracks hs₀ hrank d (rank b) b rfl hlt (by omega)
      refine .of_eq (u := (s₀.read a).convertObject d (convertCell d k) a)
        (v := ((s₀.read a).rename (· + base.length)).convertObject d (convertCell d l)
          (a + base.length)) ?_ ?_
        (Cell.convertObject_alike (fun x hx => ?_) (fun x hx => ?_) hs h)
      · rw [← hs.kept.read ha]
        rfl
      · rw [← hs.kept.read ha, ← h.read]
        rfl
      · exact Datum.convertWith_tracks hs₀ x (hs₀.holds_part ha hx) (htracks x hx)
      · refine Datum.convertWith_alike hs₀ x (hs₀.holds_part ha hx) (htracks x hx) fun b hb => ?_
        obtain ⟨hlt, hlower⟩ := hrank a ha x hx b hb
        exact ih (rank b) hlower b rfl hlt (by omega) (by omega)

/-- **A CONVERSION DOES THE SAME ON TOP OF OTHER CELLS.** -/
theorem Datum.convert_alike {x : Datum} {s t : Store} (hs : s.Acyclic) (hx : s.Holds x)
    (h : Store.OnTop base s t) :
    Alike id base (Datum.above base) (x.convert d) ((x.above base).convert d) s t := by
  obtain ⟨rank, hrank, hbound⟩ := hs.bounded
  have hlen : s.cells.length ≤ t.cells.length := h.embeds.length_le
  refine .of_eq (u := x.convertWith d (convertCell d s.cells.length))
    (v := (x.above base).convertWith d (convertCell d t.cells.length)) rfl rfl
    (Datum.convertWith_alike hs x hx (fun a ha => ?_) (fun a ha => ?_) s t (.refl hs) h)
  · exact convertCell_tracks hs hrank d (rank a) a rfl (hx a ha) (hbound a (hx a ha))
  · have hlt := hbound a (hx a ha)
    exact convertCell_alike hs hrank d (rank a) a rfl (hx a ha) hlt (Nat.lt_of_lt_of_le hlt hlen)

end

end DialectBench
