import DialectBench.Proofs.Calls

/-!
# What changes in place do

    Programs change objects in place: they append to lists, add entries to
    dictionaries and write over tensors.  So a store MOVES ON: objects are added,
    lists and dictionaries that were there have what they had and perhaps more,
    and tensors may hold anything.  No call into a module puts an object into
    itself, because what is appended was made for it.

    As a store moves on, a datum reads as before exactly if none of the objects
    that it reached was changed: an element or entry that is there once is there
    for good, so that no later change hides an earlier one, and a tensor shows
    all that it holds.
-/

namespace DialectBench

/-- What a cell may hold later. -/
inductive Cell.Later : Cell → Cell → Prop where
  | list {xs ys : List Datum} (kept : xs <+: ys) : Cell.Later (.list xs) (.list ys)
  | dict {es fs : List (Value × Datum)} (kept : es <+: fs) : Cell.Later (.dict es) (.dict fs)
  /-- A tensor may be written over. -/
  | tensor (t u : Tensor) : Cell.Later (.tensor t) (.tensor u)

theorem Cell.Later.refl (c : Cell) : c.Later c := by
  cases c with
  | list xs => exact .list List.prefix_rfl
  | dict es => exact .dict List.prefix_rfl
  | tensor t => exact .tensor t t

theorem Cell.Later.trans {b c d : Cell} (h₁ : b.Later c) (h₂ : c.Later d) : b.Later d := by
  cases h₁ with
  | list kept =>
      cases h₂ with
      | list kept' => exact .list (kept.trans kept')
  | dict kept =>
      cases h₂ with
      | dict kept' => exact .dict (kept.trans kept')
  | tensor t u =>
      cases h₂ with
      | tensor _ v => exact .tensor t v

/-- **EVERY CHANGE SHOWS**: a cell shows what it showed exactly if it was not
    changed and its parts show what they showed. -/
theorem Cell.Later.freezeWith_eq_iff {c c' : Cell} (h : c.Later c') {f g : Nat → Value} :
    c'.freezeWith g = c.freezeWith f ↔
      c' = c ∧ ∀ d ∈ c.parts, d.freezeWith g = d.freezeWith f := by
  cases h with
  | @list xs ys kept =>
      simp only [Cell.freezeWith, Value.list.injEq, Cell.list.injEq, Cell.parts]
      constructor
      · intro heq
        obtain rfl : xs = ys := kept.eq_of_length (by simpa using congrArg List.length heq.symm)
        exact ⟨rfl, List.map_inj_left.mp heq⟩
      · rintro ⟨rfl, hparts⟩
        exact List.map_congr_left hparts
  | @dict es fs kept =>
      simp only [Cell.freezeWith, Value.dict.injEq, Cell.dict.injEq, Cell.parts,
        List.forall_mem_map]
      constructor
      · intro heq
        obtain rfl : es = fs := kept.eq_of_length (by simpa using congrArg List.length heq.symm)
        exact ⟨rfl, fun e he => congrArg Prod.snd (List.map_inj_left.mp heq e he)⟩
      · rintro ⟨rfl, hparts⟩
        exact List.map_congr_left fun e he => congrArg (Prod.mk e.1) (hparts e he)
  | tensor t u => simp [Cell.freezeWith, Cell.parts]

/-- No object is an array, so that nothing is lost where one is seen as an
    array. -/
theorem Cell.asArray_freezeWith_inj {c c' : Cell} {f g : Nat → Value}
    (h : (c'.freezeWith g).asArray = (c.freezeWith f).asArray) :
    c'.freezeWith g = c.freezeWith f := by
  cases c <;> cases c' <;> simp_all [Cell.freezeWith, Value.asArray]

namespace Store

/-! ## Later stores -/

/-- Objects were added and changed in place. -/
structure Later (s t : Store) : Prop where
  length_le : s.cells.length ≤ t.cells.length
  kept : ∀ a, a < s.cells.length → (s.read a).Later (t.read a)

/-- A store moves on, and no object is inside itself. -/
structure Moves (s t : Store) : Prop extends Later s t where
  acyclic : t.Acyclic

theorem Later.trans {s t u : Store} (h₁ : s.Later t) (h₂ : t.Later u) : s.Later u :=
  ⟨Nat.le_trans h₁.length_le h₂.length_le, fun a ha =>
    (h₁.kept a ha).trans (h₂.kept a (Nat.lt_of_lt_of_le ha h₁.length_le))⟩

theorem Moves.refl {s : Store} (hs : s.Acyclic) : s.Moves s :=
  ⟨⟨Nat.le_refl _, fun a _ => Cell.Later.refl (s.read a)⟩, hs⟩

theorem Moves.trans {s t u : Store} (h₁ : s.Moves t) (h₂ : t.Moves u) : s.Moves u :=
  ⟨h₁.toLater.trans h₂.toLater, h₂.acyclic⟩

theorem Extends.later {s t : Store} (h : s.Extends t) : s.Later t :=
  ⟨h.length_le, fun a ha => (h.read ha).symm ▸ Cell.Later.refl (s.read a)⟩

theorem Grows.moves {s t : Store} (h : s.Grows t) : s.Moves t := ⟨h.kept.later, h.acyclic⟩

theorem Holds.mono {s t : Store} (h : s.Later t) {d : Datum} (hd : s.Holds d) : t.Holds d :=
  hd.mono_length h.length_le

/-- Writing a cell that may come later. -/
theorem later_write {s : Store} {a : Nat} {c : Cell} (ha : a < s.cells.length)
    (h : (s.read a).Later c) : s.Later (s.write a c) := by
  refine ⟨Nat.le_of_eq length_cells_write.symm, fun b _ => ?_⟩
  by_cases hab : a = b
  · subst hab
    rw [read_write_self ha]
    exact h
  · rw [read_write_ne hab]
    exact .refl _

section

variable {s t : Store}

/-- An object reads as before exactly if it was not changed and its parts read
    as before. -/
theorem Later.freeze_object_eq_iff (h : s.Later t) (hs : s.Acyclic) (ht : t.Acyclic) {b : Nat}
    (hb : b < s.cells.length) : t.freeze (.object b) = s.freeze (.object b) ↔
      t.read b = s.read b ∧ ∀ e ∈ (s.read b).parts, t.freeze e = s.freeze e := by
  rw [hs.freeze_object hb, ht.freeze_object (Nat.lt_of_lt_of_le hb h.length_le)]
  exact (h.kept b hb).freezeWith_eq_iff

/-- A datum reads as before only if the objects in it do. -/
theorem Later.freeze_object_eq (h : s.Later t) (hs : s.Acyclic) (ht : t.Acyclic) {d : Datum}
    (hd : s.Holds d) (heq : t.freeze d = s.freeze d) :
    ∀ b ∈ d.addresses, t.freeze (.object b) = s.freeze (.object b) := by
  induction d using Datum.parts_induction with
  | leaf v => exact fun b hb => (nomatch hb)
  | object a =>
      intro b hb
      rw [List.mem_singleton.mp hb]
      exact heq
  | array a =>
      intro b hb
      rw [List.mem_singleton.mp hb]
      have ha : a < s.cells.length := holds_array.mp hd
      rw [freeze_array, freeze_array, hs.freeze_object ha,
        ht.freeze_object (Nat.lt_of_lt_of_le ha h.length_le)] at heq
      rw [hs.freeze_object ha, ht.freeze_object (Nat.lt_of_lt_of_le ha h.length_le)]
      exact Cell.asArray_freezeWith_inj heq
  | tuple xs ih =>
      intro b hb
      obtain ⟨x, hx, hbx⟩ := Datum.mem_addressesAll.mp hb
      rw [freeze_tuple, freeze_tuple, Value.tuple.injEq, List.map_inj_left] at heq
      exact ih x hx (holds_tuple.mp hd x hx) (heq x hx) b hbx

/-- **ONLY CHANGES SHOW, AND ALL OF THEM DO**: as a store moves on, a datum reads
    as before exactly if no object that it reached was changed. -/
theorem Later.freeze_eq_iff_reaches (h : s.Later t) (hs : s.Acyclic) (ht : t.Acyclic)
    {d : Datum} (hd : s.Holds d) :
    t.freeze d = s.freeze d ↔ ∀ a, s.Reaches d a → t.read a = s.read a := by
  constructor
  · intro heq a hreach
    induction hreach with
    | @here d a mem =>
        have hobject := h.freeze_object_eq hs ht hd heq a mem
        exact ((h.freeze_object_eq_iff hs ht (hd a mem)).mp hobject).1
    | @inside d e a b mem part _ ih =>
        have hb : b < s.cells.length := hd b mem
        have hobject := h.freeze_object_eq hs ht hd heq b mem
        exact ih (hs.holds_part hb part) (((h.freeze_object_eq_iff hs ht hb).mp hobject).2 e part)
  · exact hs.freeze_eq_of_read_eq ht h.length_le hd

end

/-- Putting a value into a store adds objects. -/
theorem Acyclic.thaw {s : Store} (hs : s.Acyclic) (v : Value) :
    s.Moves (v.thaw s).2 ∧ (v.thaw s).2.Holds (v.thaw s).1 :=
  ⟨(v.thaw_shows hs).1.moves, (v.thaw_shows hs).2.held⟩

/-- Appending a value that is put into the store for it does not put a list
    into itself. -/
theorem Acyclic.append_thaw {s : Store} (hs : s.Acyclic) {a : Nat} {items : List Datum}
    (ha : a < s.cells.length) (hread : s.read a = .list items) (v : Value) :
    s.Moves ((v.thaw s).2.write a (.list (items ++ [(v.thaw s).1]))) := by
  have hgrows := (v.thaw_shows hs).1
  have hkept : (v.thaw s).2.KeptFrom (· < s.cells.length) (v.thaw s).1 :=
    v.thaw_keptFrom hs fun _ hb => hb
  have ha' : a < (v.thaw s).2.cells.length := Nat.lt_of_lt_of_le ha hgrows.kept.length_le
  have hread' : (v.thaw s).2.read a = .list items := (hgrows.kept.read ha).trans hread
  have hitem : ∀ d ∈ items, d ∈ ((v.thaw s).2.read a).parts := by
    rw [hread']
    exact fun _ hd => hd
  refine ⟨hgrows.kept.later.trans (later_write ha' (hread' ▸ .list (List.prefix_append ..))),
    hgrows.acyclic.write ha' ?_ ?_⟩
  · intro d hd
    rcases List.mem_append.mp hd with hold | hnew
    · exact hgrows.acyclic.holds_part ha' (hitem d hold)
    · rw [List.mem_singleton.mp hnew]
      exact hkept.held
  · intro d hd
    rcases List.mem_append.mp hd with hold | hnew
    · exact hgrows.acyclic.not_reaches_self ha' (hitem d hold)
    · rw [List.mem_singleton.mp hnew]
      exact fun hreach => hkept.apart a hreach ha

end Store

/-! ## Work that moves the store on -/

section

variable {ω α β : Type} {part : ω → Store}

/-- Work moves the store on, whether it returns or stops, and what it returns
    is in order. -/
structure Advances (part : ω → Store) (good : Store → α → Prop) (r : Run ω α) (w : ω) :
    Prop where
  moves : (part w).Moves (part (r w).2)
  returns : ∀ a, (r w).1 = .ok a → good (part (r w).2) a

variable {good : Store → α → Prop} {good' : Store → β → Prop} {w : ω}

theorem Advances.pure (hw : (part w).Acyclic) {a : α} (ha : good (part w) a) :
    Advances part good (pure a) w := by
  refine ⟨Store.Moves.refl hw, fun b hb => ?_⟩
  cases hb
  exact ha

theorem Advances.throw (hw : (part w).Acyclic) (e : Fault) :
    Advances part good (throw e : Run ω α) w :=
  ⟨Store.Moves.refl hw, fun _ hb => (nomatch hb)⟩

/-- Only what work does in the world counts. -/
theorem Advances.of_eq {x y : Run ω α} (h : x w = y w) (hy : Advances part good y w) :
    Advances part good x w := by
  obtain ⟨hmoves, hgood⟩ := hy
  rw [← h] at hmoves hgood
  exact ⟨hmoves, hgood⟩

theorem Advances.moves_to {x : Run ω α} {r : Except Fault α} {w' : ω}
    (h : Advances part good x w) (hx : x w = (r, w')) : (part w).Moves (part w') := by
  have := h.moves
  rwa [hx] at this

theorem Advances.good_of_ok {x : Run ω α} {a : α} {w' : ω} (h : Advances part good x w)
    (hx : x w = (.ok a, w')) : good (part w') a := by
  have := h.returns a
  rw [hx] at this
  exact this rfl

theorem Advances.bind {x : Run ω α} {f : α → Run ω β} (hx : Advances part good x w)
    (hf : ∀ a w', (part w).Moves (part w') → good (part w') a → Advances part good' (f a) w') :
    Advances part good' (x >>= f) w := by
  obtain ⟨hmoves, hgood⟩ := hx
  rcases h : x w with ⟨r, w'⟩
  rw [h] at hmoves hgood
  cases r with
  | error e =>
      refine ⟨?_, ?_⟩
      · rw [Run.bind_of_error h]
        exact hmoves
      · rw [Run.bind_of_error h]
        exact fun b hb => (nomatch hb)
  | ok a =>
      obtain ⟨hmoves', hgood'⟩ := hf a w' hmoves (hgood a rfl)
      refine ⟨?_, ?_⟩
      · rw [Run.bind_of_ok h]
        exact hmoves.trans hmoves'
      · rw [Run.bind_of_ok h]
        exact hgood'

end

theorem thawIn_advances {s : Store} (hs : s.Acyclic) (v : Value) :
    Advances id Store.Holds (thawIn v) s := by
  obtain ⟨hmoves, hheld⟩ := hs.thaw v
  refine ⟨hmoves, fun d hd => ?_⟩
  cases hd
  exact hheld

/-- Work on the log moves the store on by nothing. -/
theorem onLog_advances {α : Type} (r : Run Log α) {s : Store} (hs : s.Acyclic) :
    Advances id (fun _ _ => True) (onLog r) s := by
  have hcells : (onLog r s).2.cells = s.cells := rfl
  exact ⟨(Store.Grows.of_cells_eq hs hcells).moves, fun _ _ => trivial⟩

theorem allocIn_advances {s : Store} (hs : s.Acyclic) {c : Cell} (h : ∀ d ∈ c.parts, s.Holds d) :
    Advances id Store.Holds (allocIn c) s := by
  refine ⟨(hs.alloc h).moves, fun d hd => ?_⟩
  cases hd
  exact (hs.alloc_shows h).held

/-! ## Calls move the store on -/

/-- The arguments of a call are in the store. -/
structure Arguments.Held (s : Store) (a : Arguments) : Prop where
  positional : ∀ d ∈ a.positional, s.Holds d
  keywords : ∀ k ∈ a.keywords, s.Holds k.2

section

variable {s : Store} {a : Arguments}

theorem Body.act_advances (run : Body) (before : Nat) (fields : List (String × Value))
    (hs : s.Acyclic) :
    Advances id (fun s r => s.Holds r.1) ((Behaviour.body run).act before fields a) s := by
  rcases Behaviour.act_body_cases run before fields a s with hact | hact
  · refine .of_eq hact ((onLog_advances _ hs).bind fun r s₁ hmoves _ => ?_)
    exact (thawIn_advances hmoves.acyclic r.1).bind fun d s₂ hmoves' hd =>
      .pure hmoves'.acyclic hd
  · exact .of_eq hact (.throw hs .wrongType)

/-- **WHAT A METHOD DOES MOVES THE STORE ON.** -/
theorem Behaviour.act_advances (b : Behaviour) (before : Nat) (fields : List (String × Value))
    (hs : s.Acyclic) (ha : a.Held s) :
    Advances id (fun s r => s.Holds r.1) (b.act before fields a) s := by
  cases b with
  | const v =>
      exact (thawIn_advances hs v).bind fun d s₁ hmoves hd => .pure hmoves.acyclic hd
  | echo => exact .pure hs (Store.holds_tuple.mpr ha.positional)
  | first =>
      obtain ⟨positional, keywords⟩ := a
      cases positional with
      | nil => exact .throw hs _
      | cons d ds => exact .pure hs (ha.positional d List.mem_cons_self)
  | arity => exact .pure hs (Store.holds_leaf _)
  | keywords =>
      have hparts : ∀ d ∈ (Cell.dict (a.keywords.map fun k => (.str k.1, k.2))).parts,
          s.Holds d := by
        simp only [Cell.parts, List.map_map, List.forall_mem_map]
        exact ha.keywords
      exact (allocIn_advances hs hparts).bind fun d s₁ hmoves hd => .pure hmoves.acyclic hd
  | counter => exact .pure hs (Store.holds_leaf _)
  | append v =>
      rcases Behaviour.act_append v before fields a s with
        ⟨address, items, ds, hpositional, hread, hact⟩ | ⟨e, hact⟩
      · have haddress : s.Holds (.object address) :=
          ha.positional _ (hpositional ▸ List.mem_cons_self)
        have hmoves := hs.append_thaw (Store.holds_object.mp haddress) hread v
        refine ⟨?_, fun r hr => ?_⟩
        · rw [hact]
          exact hmoves
        · rw [hact] at hr ⊢
          cases hr
          exact haddress.mono hmoves.toLater
      · exact .of_eq hact (.throw hs e)
  | raise f => exact .throw hs f
  | body run => exact Body.act_advances run before fields hs

theorem Method.call_advances (m : Method) (fields : List (String × Value)) (hs : s.Acyclic)
    (ha : a.Held s) : Advances id (fun s r => s.Holds r.1) (m.call fields a) s :=
  (m.behaviour.act_advances m.calls fields hs ha).bind fun _ _ hmoves hheld =>
    .pure hmoves.acyclic hheld

theorem Value.callMember_advances (v : Value) (path : List String) (hs : s.Acyclic) :
    Advances id Store.Holds (v.callMember path a) s := by
  unfold Value.callMember
  split
  · exact .throw hs _
  · split
    · exact .pure hs (Store.holds_leaf _)
    · exact .throw hs _
  · exact .throw hs _

end

/-- **CALLS MOVE THE STORE ON**: whatever a path leads to, objects are only added
    and changed in place, and what is returned is in the store. -/
theorem Module.call_advances (m : Module) : ∀ (path : List String) {a : Arguments} {s : Store},
    s.Acyclic → a.Held s → Advances id (fun s r => s.Holds r.1) (m.call path a) s := by
  induction m using Module.tree_induction with
  | step m ih =>
      intro path a s hs ha
      rcases m.call_cases path with ⟨name, method, _, heq⟩ | ⟨name, method, _, heq⟩ |
        ⟨v, rest, heq⟩ | ⟨before, name, child, after, rest, hch, heq⟩ | ⟨f, heq⟩
      · rw [heq]
        exact (method.call_advances _ hs ha).bind fun _ _ hmoves hheld =>
          .pure hmoves.acyclic hheld
      · rw [heq]
        exact (method.call_advances _ hs ha).bind fun _ _ hmoves hheld =>
          .pure hmoves.acyclic hheld
      · rw [heq]
        exact (v.callMember_advances rest hs).bind fun _ _ hmoves hheld =>
          .pure hmoves.acyclic hheld
      · rw [heq]
        have hmem : (name, child) ∈ m.children :=
          hch ▸ List.mem_append_right before List.mem_cons_self
        exact (ih name child hmem rest hs ha).bind fun _ _ hmoves hheld =>
          .pure hmoves.acyclic hheld
      · rw [heq]
        exact .throw hs f

/-! ## Calls change at most what they are given -/

/-- Work on a store changes at most these cells of it. -/
def Run.ChangesOnly {α : Type} (these : Nat → Prop) (r : Run Store α) (s : Store) : Prop :=
  s.ChangesOnly these (r s).2

section

variable {α β : Type} {these : Nat → Prop} {s : Store}

theorem Run.ChangesOnly.bind {x : Run Store α} {f : α → Run Store β}
    (hx : Run.ChangesOnly these x s)
    (hf : ∀ a t, x s = (.ok a, t) → Run.ChangesOnly these (f a) t) :
    Run.ChangesOnly these (x >>= f) s := by
  unfold Run.ChangesOnly at hx ⊢
  rcases h : x s with ⟨r, t⟩
  rw [h] at hx
  cases r with
  | error e =>
      rw [Run.bind_of_error h]
      exact hx
  | ok a =>
      rw [Run.bind_of_ok h]
      exact hx.trans (hf a t h) fun _ _ hb => hb

variable {a : Arguments}

end

end DialectBench
