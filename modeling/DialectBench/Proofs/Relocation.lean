import DialectBench.Proofs.InPlace

/-!
# The same work on top of other cells

    A store ON TOP of other cells comes after them, with its addresses moved up
    by their number.  Work that only uses objects it was given or made itself
    does not notice where in the store they are, or what other cells there are.
    Done in a store and in the same store on top of other cells, it is ALIKE: it
    ends with the same outcome, up to where the objects are, leaves stores of
    which one is again on top of the same other cells, and so has not touched
    these.

    Calls into modules are of this kind, as long as no method in them is told by
    the log of library calls.
-/

namespace DialectBench

/-! ## On top of other cells -/

namespace Store

/-- A store on top of other cells. -/
def OnTop (base : List Cell) (s t : Store) : Prop :=
  t.cells = base ++ s.cells.map (Cell.rename (· + base.length))

section

variable {base : List Cell} {s t : Store}

theorem onTop_empty (s : Store) : OnTop s.cells empty s := (List.append_nil _).symm

theorem OnTop.length_eq (h : OnTop base s t) :
    t.cells.length = s.cells.length + base.length := by
  rw [h, List.length_append, List.length_map, Nat.add_comm]

theorem OnTop.read (h : OnTop base s t) (a : Nat) :
    t.read (a + base.length) = (s.read a).rename (· + base.length) := by
  unfold Store.read
  rw [h, List.getElem?_append_right (Nat.le_add_left ..), Nat.add_sub_cancel, List.getElem?_map]
  cases s.cells[a]? <;> rfl

theorem OnTop.embeds (h : OnTop base s t) : Embeds (· + base.length) s t :=
  ⟨h.length_eq ▸ Nat.le_add_right .., fun a _ => h.read a⟩

theorem OnTop.holds_rename (h : OnTop base s t) {d : Datum} (hd : s.Holds d) :
    t.Holds (d.rename (· + base.length)) := by
  intro b hb
  obtain ⟨c, hc, rfl⟩ := Datum.mem_addresses_rename.mp hb
  rw [h.length_eq]
  exact Nat.add_lt_add_right (hd c hc) _

/-- The cells below stay as they are. -/
theorem OnTop.extends_base (h : OnTop base s t) {b : Store} (hb : b.cells = base) :
    b.Extends t := ⟨_, hb ▸ h.symm⟩

theorem OnTop.alloc (h : OnTop base s t) (c : Cell) :
    OnTop base (s.alloc c).2 (t.alloc (c.rename (· + base.length))).2 := by
  unfold OnTop
  rw [cells_alloc, cells_alloc, h, List.map_append, List.append_assoc]
  rfl

theorem OnTop.write (h : OnTop base s t) (a : Nat) (c : Cell) :
    OnTop base (s.write a c) (t.write (a + base.length) (c.rename (· + base.length))) := by
  unfold OnTop Store.write
  rw [h, List.set_append_right _ _ (Nat.le_add_left ..), Nat.add_sub_cancel, List.map_set]

end

end Store

mutual

/-- **THE SAME ON TOP OF OTHER CELLS**: putting a value into a store does the
    same on top of other cells. -/
theorem Value.thaw_onTop {base : List Cell} : ∀ (v : Value) {s t : Store},
    Store.OnTop base s t → Store.OnTop base (v.thaw s).2 (v.thaw t).2 ∧
      (v.thaw t).1 = (v.thaw s).1.rename (· + base.length)
  | .list xs, s, t, h => by
      obtain ⟨htop, hitems⟩ := Value.thawAll_onTop xs h
      -- the address of the new object is the number of cells before it
      refine ⟨?_, congrArg Datum.object htop.length_eq⟩
      show Store.OnTop base ((Value.thawAll xs s).2.alloc (.list (Value.thawAll xs s).1)).2
        ((Value.thawAll xs t).2.alloc (.list (Value.thawAll xs t).1)).2
      rw [hitems]
      exact htop.alloc (.list (Value.thawAll xs s).1)
  | .tuple xs, s, t, h => by
      obtain ⟨htop, hitems⟩ := Value.thawAll_onTop xs h
      refine ⟨htop, ?_⟩
      show Datum.tuple (Value.thawAll xs t).1 = Datum.tuple (Datum.renameAll _ _)
      rw [hitems, Datum.renameAll_eq_map]
  | .dict es, s, t, h => by
      obtain ⟨htop, hentries⟩ := Value.thawEntries_onTop es h
      refine ⟨?_, congrArg Datum.object htop.length_eq⟩
      show Store.OnTop base ((Value.thawEntries es s).2.alloc (.dict (Value.thawEntries es s).1)).2
        ((Value.thawEntries es t).2.alloc (.dict (Value.thawEntries es t).1)).2
      rw [hentries]
      exact htop.alloc (.dict (Value.thawEntries es s).1)
  | .tensor c, _, _, h => ⟨h.alloc (.tensor c), congrArg Datum.object h.length_eq⟩
  | .array c, _, _, h => ⟨h.alloc (.tensor c), congrArg Datum.array h.length_eq⟩
  | .none, _, _, h | .bool _, _, _, h | .int _, _, _, h | .float _, _, _, h | .str _, _, _, h
  | .dtype _, _, _, h | .odd _, _, _, h | .symbol _, _, _, h => ⟨h, rfl⟩

theorem Value.thawAll_onTop {base : List Cell} : ∀ (xs : List Value) {s t : Store},
    Store.OnTop base s t → Store.OnTop base (Value.thawAll xs s).2 (Value.thawAll xs t).2 ∧
      (Value.thawAll xs t).1 = (Value.thawAll xs s).1.map (Datum.rename (· + base.length))
  | [], _, _, h => ⟨h, rfl⟩
  | x :: xs, _, _, h => by
      obtain ⟨htop, hx⟩ := Value.thaw_onTop x h
      obtain ⟨htop', hxs⟩ := Value.thawAll_onTop xs htop
      exact ⟨htop', congrArg₂ List.cons hx hxs⟩

theorem Value.thawEntries_onTop {base : List Cell} :
    ∀ (es : List (Value × Value)) {s t : Store}, Store.OnTop base s t →
      Store.OnTop base (Value.thawEntries es s).2 (Value.thawEntries es t).2 ∧
      (Value.thawEntries es t).1
        = (Value.thawEntries es s).1.map fun e => (e.1, e.2.rename (· + base.length))
  | [], _, _, h => ⟨h, rfl⟩
  | (k, v) :: es, _, _, h => by
      obtain ⟨htop, hv⟩ := Value.thaw_onTop v h
      obtain ⟨htop', hes⟩ := Value.thawEntries_onTop es htop
      exact ⟨htop', congrArg₂ List.cons (congrArg (Prod.mk k) hv) hes⟩

end

/-- A datum of a store as it is found on top of other cells. -/
abbrev Datum.above (base : List Cell) : Datum → Datum := Datum.rename (· + base.length)

/-! ## Work that is alike -/

section

variable {ω α β : Type} {part : ω → Store} {base : List Cell} {moved : α → α}
  {moved' : β → β} {w w' : ω}

/-- Work ends alike in a world and in one on top of other cells. -/
structure Alike (part : ω → Store) (base : List Cell) (moved : α → α) (x y : Run ω α)
    (w w' : ω) : Prop where
  onTop : Store.OnTop base (part (x w).2) (part (y w').2)
  outcome : (y w').1 = (x w).1.map moved

theorem Alike.pure (h : Store.OnTop base (part w) (part w')) {a b : α} (hab : b = moved a) :
    Alike part base moved (pure a) (pure b) w w' := ⟨h, congrArg Except.ok hab⟩

theorem Alike.throw (h : Store.OnTop base (part w) (part w')) (e : Fault) :
    Alike part base moved (throw e) (throw e) w w' := ⟨h, rfl⟩

/-- Only what work does in the two worlds counts. -/
theorem Alike.of_eq {x u y v : Run ω α} (hx : x w = u w) (hy : y w' = v w')
    (h : Alike part base moved u v w w') : Alike part base moved x y w w' := by
  obtain ⟨htop, hout⟩ := h
  rw [← hx, ← hy] at htop hout
  exact ⟨htop, hout⟩

theorem Alike.bind {x y : Run ω α} {f g : α → Run ω β} (hx : Alike part base moved x y w w')
    (hf : ∀ a w₁ w₁', x w = (.ok a, w₁) → Store.OnTop base (part w₁) (part w₁') →
      Alike part base moved' (f a) (g (moved a)) w₁ w₁') :
    Alike part base moved' (x >>= f) (y >>= g) w w' := by
  obtain ⟨htop, hout⟩ := hx
  rcases hxw : x w with ⟨r, w₁⟩
  rcases hyw : y w' with ⟨r', w₁'⟩
  rw [hxw, hyw] at htop hout
  cases r with
  | error e =>
      obtain rfl : r' = .error e := hout
      refine ⟨?_, ?_⟩
      · rw [Run.bind_of_error hxw, Run.bind_of_error hyw]
        exact htop
      · rw [Run.bind_of_error hxw, Run.bind_of_error hyw]
        rfl
  | ok a =>
      obtain rfl : r' = .ok (moved a) := hout
      obtain ⟨htop', hout'⟩ := hf a w₁ w₁' hxw htop
      refine ⟨?_, ?_⟩
      · rw [Run.bind_of_ok hxw, Run.bind_of_ok hyw]
        exact htop'
      · rw [Run.bind_of_ok hxw, Run.bind_of_ok hyw]
        exact hout'

end

section

variable {base : List Cell} {s t : Store}

theorem thawIn_alike (h : Store.OnTop base s t) (v : Value) :
    Alike id base (Datum.above base) (thawIn v) (thawIn v) s t := by
  obtain ⟨htop, hdatum⟩ := v.thaw_onTop h
  exact ⟨htop, congrArg Except.ok hdatum⟩

theorem allocIn_alike (h : Store.OnTop base s t) (c : Cell) :
    Alike id base (Datum.above base) (allocIn c) (allocIn (c.rename (· + base.length))) s t :=
  ⟨h.alloc c, congrArg (fun a => Except.ok (Datum.object a)) h.length_eq⟩

/-- Work that is not told by the log does the same everywhere. -/
theorem onLog_alike {α : Type} {r : Run Log α} (hr : r.Unaware) (h : Store.OnTop base s t) :
    Alike id base id (onLog r) (onLog r) s t := by
  refine ⟨h, ?_⟩
  show (r t.log).1 = (r s.log).1.map id
  rw [hr t.log s.log]
  cases (r s.log).1 <;> rfl

/-! ## Calls -/

/-- The arguments of a call as they are found on top of other cells. -/
def Arguments.above (base : List Cell) (a : Arguments) : Arguments :=
  ⟨a.positional.map (Datum.above base), a.keywords.map fun k => (k.1, k.2.above base)⟩

/-- Data on top of other cells read as they did. -/
theorem Store.OnTop.map_freeze (h : Store.OnTop base s t) (hs : s.Acyclic) {ds : List Datum}
    (hds : ∀ d ∈ ds, s.Holds d) : (ds.map (Datum.above base)).map t.freeze = ds.map s.freeze := by
  rw [List.map_map]
  exact List.map_congr_left fun d hd => hs.freeze_rename h.embeds (hds d hd)

/-- What a method returns as it is found on top of other cells; the values that
    it sets hold no addresses. -/
abbrev resultAbove {α : Type} (base : List Cell) (r : Datum × α) : Datum × α :=
  (r.1.above base, r.2)

variable {a : Arguments}

theorem Body.act_alike {run : Body} (hrun : Body.Deterministic run) (before : Nat)
    (fields : List (String × Value)) (h : Store.OnTop base s t) (hs : s.Acyclic)
    (ha : a.Held s) :
    Alike id base (resultAbove base) ((Behaviour.body run).act before fields a)
      ((Behaviour.body run).act before fields (a.above base)) s t := by
  obtain ⟨positional, keywords⟩ := a
  cases keywords with
  | cons k ks => exact .throw h .wrongType
  | nil =>
      -- a body is given values and not addresses, and the arguments read the same in both stores
      have hargs : (positional.map (Datum.above base)).map t.freeze = positional.map s.freeze :=
        h.map_freeze hs ha.positional
      let again : Run Store (Datum × List (String × Value)) :=
        onLog (run fields (positional.map s.freeze)) >>= fun r => do return (← thawIn r.1, r.2)
      have hact : (Behaviour.body run).act before fields ⟨positional, []⟩ s = again s := rfl
      have hact' : (Behaviour.body run).act before fields (Arguments.above base ⟨positional, []⟩) t
          = again t := by
        show _ = (onLog (run fields (positional.map s.freeze)) >>= fun r => do
          return (← thawIn r.1, r.2)) t
        rw [← hargs]
        rfl
      refine .of_eq hact hact' ((onLog_alike (hrun fields _) h).bind fun r s₁ t₁ _ h₁ => ?_)
      exact (thawIn_alike h₁ r.1).bind fun _ _ _ _ h₂ => .pure h₂ rfl

theorem append_alike (v : Value) (before : Nat) (fields : List (String × Value))
    (h : Store.OnTop base s t) :
    Alike id base (resultAbove base) ((Behaviour.append v).act before fields a)
      ((Behaviour.append v).act before fields (a.above base)) s t := by
  obtain ⟨positional, keywords⟩ := a
  cases positional with
  | nil => exact .throw h _
  | cons d ds =>
      cases d with
      | leaf _ => exact .throw h _
      | tuple _ => exact .throw h _
      | array _ => exact .throw h _
      | object address =>
          have hact := Behaviour.act_append_object v before fields address ds keywords s
          have hact' := Behaviour.act_append_object v before fields (address + base.length)
            (ds.map (Datum.above base)) (keywords.map fun k => (k.1, k.2.above base)) t
          rw [h.read] at hact'
          cases hread : s.read address with
          | dict _ =>
              rw [hread] at hact hact'
              exact .of_eq hact hact' (.throw h .noAttribute)
          | tensor _ =>
              rw [hread] at hact hact'
              exact .of_eq hact hact' (.throw h .noAttribute)
          | list items =>
              -- the value gets cells of its own, above the others, before it is appended
              rw [hread] at hact hact'
              obtain ⟨htop, hdatum⟩ := v.thaw_onTop h
              have hcell : Cell.rename (· + base.length) (.list (items ++ [(v.thaw s).1]))
                  = .list (items.map (Datum.above base) ++ [(v.thaw t).1]) := by
                rw [hdatum, Cell.rename, List.map_append, List.map_singleton]
              have hwrite := htop.write address (.list (items ++ [(v.thaw s).1]))
              rw [hcell] at hwrite
              exact ⟨by rw [hact]; exact hact' ▸ hwrite, by rw [hact]; exact hact' ▸ rfl⟩

/-- **A METHOD DOES THE SAME ON TOP OF OTHER CELLS.** -/
theorem Behaviour.act_alike {b : Behaviour} (hb : b.Deterministic) (before : Nat)
    (fields : List (String × Value)) (h : Store.OnTop base s t) (hs : s.Acyclic)
    (ha : a.Held s) :
    Alike id base (resultAbove base) (b.act before fields a)
      (b.act before fields (a.above base)) s t := by
  cases b with
  | const v => exact (thawIn_alike h v).bind fun _ _ _ _ h₁ => .pure h₁ rfl
  | echo =>
      refine .pure h (congrArg (fun d => (d, [])) ?_)
      exact congrArg Datum.tuple (Datum.renameAll_eq_map _ _).symm
  | first =>
      obtain ⟨positional, keywords⟩ := a
      cases positional with
      | nil => exact .throw h _
      | cons d ds => exact .pure h rfl
  | arity =>
      refine .pure h (congrArg (fun d => (d, [])) ?_)
      show Datum.leaf _ = Datum.leaf _
      rw [Arguments.above, List.length_map, List.length_map]
  | keywords =>
      have hcell : Cell.rename (· + base.length) (.dict (a.keywords.map fun k => (.str k.1, k.2)))
          = .dict ((a.above base).keywords.map fun k => (.str k.1, k.2)) := by
        rw [Cell.rename, Arguments.above, List.map_map, List.map_map]
        rfl
      have halloc := allocIn_alike h (.dict (a.keywords.map fun k => (.str k.1, k.2)))
      rw [hcell] at halloc
      exact halloc.bind fun _ _ _ _ h₁ => .pure h₁ rfl
  | counter => exact .pure h rfl
  | append v => exact append_alike v before fields h
  | raise f => exact .throw h f
  | body run => exact Body.act_alike hb before fields h hs ha

theorem Method.call_alike {m : Method} (hm : m.behaviour.Deterministic)
    (fields : List (String × Value)) (h : Store.OnTop base s t) (hs : s.Acyclic)
    (ha : a.Held s) :
    Alike id base (resultAbove base) (m.call fields a) (m.call fields (a.above base)) s t :=
  (Behaviour.act_alike hm m.calls fields h hs ha).bind fun _ _ _ _ h₁ => .pure h₁ rfl

theorem Value.callMember_alike (v : Value) (path : List String) (h : Store.OnTop base s t) :
    Alike id base (Datum.above base) (v.callMember path a)
      (v.callMember path (a.above base)) s t := by
  have hone : ((a.above base).positional.length == 1 && (a.above base).keywords.isEmpty)
      = (a.positional.length == 1 && a.keywords.isEmpty) := by
    rw [Arguments.above, List.length_map, List.isEmpty_map]
  unfold Value.callMember
  split
  · exact .throw h _
  · rw [hone]
    split
    · exact .pure h rfl
    · exact .throw h _
  · exact .throw h _

end

/-- **A CALL DOES THE SAME ON TOP OF OTHER CELLS**: it returns or stops alike,
    and the module is left in the same state. -/
theorem Module.call_alike (m : Module) : ∀ (path : List String) {a : Arguments}
    {base : List Cell} {s t : Store}, m.Deterministic → Store.OnTop base s t →
      s.Acyclic → a.Held s →
        Alike id base (resultAbove base) (m.call path a) (m.call path (a.above base)) s t := by
  induction m using Module.tree_induction with
  | step m ih =>
      intro path a base s t hdet h hs ha
      obtain ⟨hmembers, hclass, hchildren⟩ := hdet
      rcases m.call_cases path with ⟨name, method, hmem, heq⟩ | ⟨name, method, hmem, heq⟩ |
        ⟨v, rest, heq⟩ | ⟨before, name, child, after, rest, hch, heq⟩ | ⟨f, heq⟩
      · rw [heq, heq]
        exact (Method.call_alike (hmembers name method hmem) _ h hs ha).bind
          fun _ _ _ _ h₁ => .pure h₁ rfl
      · rw [heq, heq]
        exact (Method.call_alike (hclass name method hmem) _ h hs ha).bind
          fun _ _ _ _ h₁ => .pure h₁ rfl
      · rw [heq, heq]
        exact (v.callMember_alike rest h).bind fun _ _ _ _ h₁ => .pure h₁ rfl
      · rw [heq, heq]
        have hmem : (name, child) ∈ m.children :=
          hch ▸ List.mem_append_right before List.mem_cons_self
        exact (ih name child hmem rest (hchildren name child hmem) h hs ha).bind
          fun _ _ _ _ h₁ => .pure h₁ rfl
      · rw [heq, heq]
        exact .throw h f

end DialectBench
