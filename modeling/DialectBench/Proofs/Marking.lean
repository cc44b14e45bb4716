import DialectBench.Proofs.SameBehaviour

/-!
# What applying annotations does

    Annotations FIT a tree of modules if they speak of methods and children
    that the tree has, each of them once.  Annotations that fit are applied
    without a fault, and what is left has a closed form: every method takes the
    annotations under its own name, every child those under its own name, and
    nothing moves.

    From the closed form follow the two facts that other modules use: what a
    method at a path carries afterwards, and that applying the same annotations
    again changes nothing.
-/

namespace DialectBench

/-! ## Tables seen entry by entry -/

/-- A table with every value seen through a function of its key. -/
def Table.mapEntries {κ α β : Type} (f : κ → α → β) (t : Table κ α) : Table κ β :=
  t.map fun e => (e.1, f e.1 e.2)

section

variable {κ α β γ : Type}

@[simp] theorem Table.map_fst_mapEntries (f : κ → α → β) (t : Table κ α) :
    (t.mapEntries f).map Prod.fst = t.map Prod.fst := by
  simp [Table.mapEntries]

theorem Table.mapEntries_mapEntries (g : κ → β → γ) (f : κ → α → β) (t : Table κ α) :
    (t.mapEntries f).mapEntries g = t.mapEntries fun k a => g k (f k a) := by
  simp [Table.mapEntries]

theorem Table.mapEntries_congr {f g : κ → α → β} {t : Table κ α}
    (h : ∀ k a, (k, a) ∈ t → f k a = g k a) : t.mapEntries f = t.mapEntries g := by
  refine List.map_congr_left ?_
  rintro ⟨k, a⟩ hmem
  rw [h k a hmem]

theorem Table.mapEntries_eq_self {f : κ → α → α} {t : Table κ α}
    (h : ∀ k a, (k, a) ∈ t → f k a = a) : t.mapEntries f = t := by
  rw [Table.mapEntries_congr h]
  simp [Table.mapEntries]

theorem Table.mem_mapEntries {f : κ → α → β} {t : Table κ α} {k : κ} {b : β} :
    (k, b) ∈ t.mapEntries f ↔ ∃ a, (k, a) ∈ t ∧ f k a = b := by
  unfold Table.mapEntries
  rw [List.mem_map]
  constructor
  · rintro ⟨⟨k', a⟩, hmem, heq⟩
    cases heq
    exact ⟨a, hmem, rfl⟩
  · rintro ⟨a, hmem, rfl⟩
    exact ⟨(k, a), hmem, rfl⟩

/-- Two tables with the same keys in the same order look the same if they do at
    every key. -/
theorem Table.mapEntries_eq_mapEntries {δ : Type} {f : κ → α → γ} {g : κ → δ → γ}
    {t : Table κ α} {u : Table κ δ} (hkeys : t.map Prod.fst = u.map Prod.fst)
    (h : ∀ k a b, (k, a) ∈ t → (k, b) ∈ u → f k a = g k b) : t.mapEntries f = u.mapEntries g := by
  induction t generalizing u with
  | nil =>
      cases u with
      | nil => rfl
      | cons e rest => exact nomatch hkeys
  | cons e rest ih =>
      cases u with
      | nil => exact nomatch hkeys
      | cons e' rest' =>
          obtain ⟨k, a⟩ := e
          obtain ⟨k', b⟩ := e'
          obtain ⟨rfl, hrest⟩ := List.cons.inj hkeys
          have hfirst := h k a b List.mem_cons_self List.mem_cons_self
          have hothers := ih hrest fun j c d hc hd =>
            h j c d (List.mem_cons_of_mem _ hc) (List.mem_cons_of_mem _ hd)
          show (k, f k a) :: Table.mapEntries f rest = (k, g k b) :: Table.mapEntries g rest'
          rw [hfirst, hothers]

variable [BEq κ] [LawfulBEq κ]

theorem Table.lookup_cons_of_ne {j k : κ} (h : j ≠ k) (a : α) (t : Table κ α) :
    List.lookup j ((k, a) :: t) = t.lookup j := by
  rw [List.lookup_cons, beq_eq_false_iff_ne.mpr h]

/-- Something is found at a key exactly if the key occurs. -/
theorem Table.isSome_lookup_iff {k : κ} {t : Table κ α} :
    (t.lookup k).isSome = true ↔ k ∈ t.map Prod.fst := by
  constructor
  · intro h
    obtain ⟨a, ha⟩ := Option.isSome_iff_exists.mp h
    exact List.mem_map.mpr ⟨_, Table.mem_of_lookup ha, rfl⟩
  · intro h
    by_contra hnone
    rw [Option.not_isSome_iff_eq_none, List.lookup_eq_none_iff] at hnone
    obtain ⟨e, he, rfl⟩ := List.mem_map.mp h
    exact absurd (beq_self_eq_true e.1) (by simpa using hnone e he)

theorem Table.lookup_mapEntries (f : κ → α → β) (k : κ) (t : Table κ α) :
    (t.mapEntries f).lookup k = (t.lookup k).map (f k) := by
  induction t with
  | nil => rfl
  | cons e rest ih =>
      obtain ⟨k', a⟩ := e
      show List.lookup k ((k', f k' a) :: Table.mapEntries f rest) = _
      rw [List.lookup_cons, List.lookup_cons, ih]
      by_cases hk : k = k'
      · subst hk
        rw [beq_self_eq_true]
        rfl
      · rw [beq_eq_false_iff_ne.mpr hk]

/-- Setting a key that is there once is a change of all entries that gives the
    new value at this key and leaves the others alone. -/
theorem Table.set_eq_mapEntries {k : κ} {a : α} {f : κ → α → α} {t : Table κ α}
    (hd : (t.map Prod.fst).Nodup) (hat : ∃ b, (k, b) ∈ t ∧ f k b = a)
    (hothers : ∀ j b, j ≠ k → f j b = b) : Table.set k a t = t.mapEntries f := by
  obtain ⟨b, hmem, hb⟩ := hat
  induction t with
  | nil => exact absurd hmem List.not_mem_nil
  | cons e rest ih =>
      obtain ⟨k', a'⟩ := e
      obtain ⟨hfirst, hrest⟩ := List.nodup_cons.mp hd
      have hcons : Table.mapEntries f ((k', a') :: rest)
          = (k', f k' a') :: Table.mapEntries f rest := rfl
      rw [hcons, Table.set]
      by_cases h : k' = k
      · subst h
        have hid : Table.mapEntries f rest = rest := by
          refine Table.mapEntries_eq_self ?_
          intro j c hc
          refine hothers j c ?_
          rintro rfl
          exact hfirst (List.mem_map.mpr ⟨_, hc, rfl⟩)
        rcases List.mem_cons.mp hmem with heq | hlater
        · cases heq
          rw [if_pos (beq_self_eq_true k'), hid, hb]
        · exact absurd (List.mem_map.mpr ⟨_, hlater, rfl⟩) hfirst
      · rcases List.mem_cons.mp hmem with heq | hlater
        · exact absurd (congrArg Prod.fst heq).symm h
        · rw [if_neg (mt beq_iff_eq.mp h), hothers k' a' h, ih hrest hlater]

theorem Table.set_set (k : κ) (a b : α) (t : Table κ α) :
    Table.set k b (Table.set k a t) = Table.set k b t := by
  induction t with
  | nil => simp [Table.set]
  | cons e rest ih =>
      obtain ⟨k', a'⟩ := e
      by_cases h : k' = k
      · simp [Table.set, h]
      · simp [Table.set, h, ih]

end

/-! ## Methods of a tree -/

/-- The method that a member is. -/
def Member.method? : Member → Option Method
  | .method m => some m
  | .value _ => none

/-- The methods among members. -/
def memberMethods (members : Table String Member) : Table String Method :=
  members.filterMap fun m => m.2.method?.map fun x => (m.1, x)

/-- The methods of a module itself, in order. -/
def Module.methods (m : Module) : Table String Method := memberMethods m.members

/-- The method of a name in the module at a path of child names. -/
def Module.methodAt : Module → List String → String → Option Method
  | m, [], name => m.methods.lookup name
  | m, child :: path, name => (m.children.lookup child).bind fun c => c.methodAt path name

theorem mem_memberMethods {members : Table String Member} {name : String} {x : Method} :
    (name, x) ∈ memberMethods members ↔ (name, .method x) ∈ members := by
  unfold memberMethods
  rw [List.mem_filterMap]
  constructor
  · rintro ⟨⟨k, member⟩, hmem, heq⟩
    cases member with
    | value v => exact nomatch heq
    | method y =>
        cases heq
        exact hmem
  · intro hmem
    exact ⟨_, hmem, rfl⟩

/-- The names of the methods are among the names of the members, in their
    order. -/
theorem names_memberMethods_sublist (members : Table String Member) :
    List.Sublist ((memberMethods members).map Prod.fst) (members.map Prod.fst) := by
  induction members with
  | nil => exact List.Sublist.refl _
  | cons e rest ih =>
      obtain ⟨k, member⟩ := e
      cases member with
      | value v => exact ih.cons k
      | method x => exact ih.cons_cons k

/-! ## Notes on methods -/

/-- A method with a note written onto it: parts of the note that are nothing
    leave the method as it is. -/
def MethodNote.onto (n : MethodNote) (m : Method) : Method :=
  { m with
    exportMark := if n.exportMark.isNone then m.exportMark else some (.bool true)
    argTypes := if n.argTypes.isNone then m.argTypes else some n.argTypes }

/-- A method with a note, if there is one. -/
def Method.noted (note : Option MethodNote) (m : Method) : Method :=
  match note with
  | none => m
  | some n => n.onto m

/-- A member with a note, if there is one; values take none. -/
def Member.noted (note : Option MethodNote) : Member → Member
  | .method m => .method (m.noted note)
  | .value v => .value v

theorem Method.noted_noted (note : Option MethodNote) (m : Method) :
    (m.noted note).noted note = m.noted note := by
  cases note with
  | none => rfl
  | some n =>
      by_cases he : n.exportMark.isNone = true <;> by_cases ha : n.argTypes.isNone = true <;>
        simp [Method.noted, MethodNote.onto, he, ha]

theorem Member.noted_noted (note : Option MethodNote) (e : Member) :
    (e.noted note).noted note = e.noted note := by
  cases e with
  | value v => rfl
  | method m => exact congrArg Member.method (m.noted_noted note)

theorem memberMethods_noted (f : String → Option MethodNote) (members : Table String Member) :
    memberMethods (members.mapEntries fun k e => e.noted (f k))
      = (memberMethods members).mapEntries fun k x => x.noted (f k) := by
  unfold memberMethods Table.mapEntries
  rw [List.filterMap_map, List.map_filterMap]
  refine List.filterMap_congr ?_
  rintro ⟨k, member⟩ _
  cases member <;> rfl

namespace Notes

/-- The note on a name. -/
def noteFor (notes : List MethodNote) (name : String) : Option MethodNote :=
  notes.find? fun n => n.name == name

theorem noteFor_eq_none {notes : List MethodNote} {name : String}
    (h : name ∉ notes.map MethodNote.name) : noteFor notes name = none := by
  unfold noteFor
  rw [List.find?_eq_none]
  intro n hn heq
  exact h (List.mem_map.mpr ⟨n, hn, beq_iff_eq.mp heq⟩)

/-! ## One step -/

/-- The edit of a method that is there changes this method only. -/
theorem editMethod_of_method {m : Module} {name : String} {x : Method}
    (h : m.members.lookup name = some (.method x)) (f : Method → Method) :
    editMethod name f m
      = (.ok (), { m with members := Table.set name (.method (f x)) m.members }) := by
  have hget : (get : Edit Module) m = (.ok m, m) := rfl
  unfold editMethod
  rw [Run.bind_of_ok hget, h]
  rfl

/-- A note on a method that is there is written onto it. -/
theorem applyNote_of_method {m : Module} {n : MethodNote} {x : Method}
    (h : m.members.lookup n.name = some (.method x)) :
    applyNote n m
      = (.ok (), { m with members := Table.set n.name (.method (n.onto x)) m.members }) := by
  -- the second edit finds what the first has left
  have hmark := editMethod_of_method h fun x => { x with exportMark := some (.bool true) }
  have hagain : (Table.set n.name (.method { x with exportMark := some (.bool true) })
      m.members).lookup n.name = some (.method { x with exportMark := some (.bool true) }) := by
    rw [Table.lookup_set, if_pos (beq_self_eq_true _)]
  unfold applyNote markExported setArgTypes
  by_cases he : n.exportMark.isNone = true <;> by_cases ha : n.argTypes.isNone = true
  · have hsame : n.onto x = x := by simp [MethodNote.onto, he, ha]
    rw [hsame, Table.set_of_lookup h]
    simp only [he, ha, Bool.not_true, Bool.false_eq_true, if_false]
    cases m
    rfl
  · simp [he, ha]
    rw [editMethod_of_method h]
    simp [MethodNote.onto, he, ha]
  · simp [he, ha]
    rw [hmark]
    simp [MethodNote.onto, he, ha]
  · simp [he, ha]
    rw [Run.bind_of_ok hmark, editMethod_of_method hagain]
    simp [MethodNote.onto, he, ha, Table.set_set]

/-- Work on a child that is there and not hidden changes this child only. -/
theorem onChild_of_child {m : Module} {name : String} {child child' : Module} {edit : Edit Unit}
    (hmember : m.members.lookup name = none) (hclass : m.classMethods.lookup name = none)
    (hchild : m.children.lookup name = some child) (hedit : edit child = (.ok (), child')) :
    onChild name edit m
      = (.ok (), { m with children := Table.set name child' m.children }) := by
  simp only [onChild, hmember, hclass, hchild, hedit]

/-! ## Whole lists -/

theorem noteFor_cons (n : MethodNote) (rest : List MethodNote) (name : String) :
    noteFor (n :: rest) name = if n.name = name then some n else noteFor rest name := by
  by_cases h : n.name = name <;> simp [noteFor, h]

/-- A note on a method that is there, seen over all members. -/
theorem set_onto_eq {members : Table String Member} {n : MethodNote} {x : Method}
    (hd : (members.map Prod.fst).Nodup) (h : (n.name, .method x) ∈ members) :
    Table.set n.name (.method (n.onto x)) members
      = members.mapEntries fun k e => e.noted (noteFor [n] k) := by
  refine Table.set_eq_mapEntries hd ⟨_, h, ?_⟩ ?_
  · simp [noteFor, Member.noted, Method.noted]
  · intro k e hk
    rw [noteFor_cons, if_neg (Ne.symm hk)]
    cases e <;> rfl

/-- Notes on different methods that are there are all written, each onto the
    method of its name. -/
theorem applyNotes_eq {notes : List MethodNote} {m : Module}
    (hnotes : (notes.map MethodNote.name).Nodup) (hmembers : (m.members.map Prod.fst).Nodup)
    (hthere : ∀ n ∈ notes, n.name ∈ m.methods.map Prod.fst) :
    applyNotes notes m
      = (.ok (), { m with
          members := m.members.mapEntries fun k e => e.noted (noteFor notes k) }) := by
  induction notes generalizing m with
  | nil =>
      have hid : m.members.mapEntries (fun k e => e.noted (noteFor [] k)) = m.members := by
        refine Table.mapEntries_eq_self ?_
        rintro k e -
        cases e <;> rfl
      rw [hid]
      cases m
      rfl
  | cons n rest ih =>
      obtain ⟨hfirst, hrest⟩ := List.nodup_cons.mp hnotes
      obtain ⟨hn, htail⟩ := List.forall_mem_cons.mp hthere
      obtain ⟨⟨name, x⟩, hx, rfl⟩ := List.mem_map.mp hn
      have hmem : (n.name, .method x) ∈ m.members := mem_memberMethods.mp hx
      have hstep := applyNote_of_method (Table.lookup_of_mem hmembers hmem)
      rw [set_onto_eq hmembers hmem] at hstep
      -- the first note moves no name, so the others still find their methods
      have hmethods : ∀ f : String → Option MethodNote,
          (memberMethods (m.members.mapEntries fun k e => e.noted (f k))).map Prod.fst
            = m.methods.map Prod.fst := by
        intro f
        rw [memberMethods_noted, Table.map_fst_mapEntries]
        rfl
      rw [applyNotes, Run.bind_of_ok hstep, ih hrest]
      · rw [Table.mapEntries_mapEntries]
        congr 2
        refine Table.mapEntries_congr ?_
        intro k e _
        by_cases hk : n.name = k
        · subst hk
          rw [noteFor_eq_none hfirst, noteFor_cons, noteFor_cons, if_pos rfl, if_pos rfl]
          cases e <;> rfl
        · rw [noteFor_cons, noteFor_cons, if_neg hk, if_neg hk]
          cases e <;> rfl
      · rw [Table.map_fst_mapEntries]
        exact hmembers
      · intro n' hn'
        show n'.name ∈ (memberMethods _).map Prod.fst
        rw [hmethods]
        exact htail n' hn'

/-- A module with the annotations of a tree, if there are any. -/
def notedModule (notes : Option ModuleNotes) (m : Module) : Module :=
  match notes with
  | none => m
  | some notes => (apply notes m).2

/-- Annotations applied to one child, seen over all children. -/
theorem set_apply_eq {children : List (String × Module)} {name : String} {a : ModuleNotes}
    {c : Module} (hd : (children.map Prod.fst).Nodup) (h : (name, c) ∈ children) :
    Table.set name (apply a c).2 children
      = Table.mapEntries (fun k c => notedModule (List.lookup k [(name, a)]) c) children := by
  refine Table.set_eq_mapEntries hd ⟨c, h, ?_⟩ ?_
  · simp [notedModule]
  · intro k d hk
    rw [Table.lookup_cons_of_ne hk]
    rfl

/-- Annotations on different children that are there and take theirs without a
    fault are all applied, each to the child of its name. -/
theorem applyAll_eq {notes : List (String × ModuleNotes)} {m : Module}
    (hnotes : (notes.map Prod.fst).Nodup) (hchildren : (m.children.map Prod.fst).Nodup)
    (hthere : ∀ k ∈ notes.map Prod.fst, k ∈ m.children.map Prod.fst ∧
      k ∉ m.members.map Prod.fst ∧ k ∉ m.classMethods.map Prod.fst)
    (hok : ∀ k a c, (k, a) ∈ notes → (k, c) ∈ m.children → (apply a c).1 = .ok ()) :
    applyAll notes m = (.ok (), { m with
      children := Table.mapEntries (fun k c => notedModule (notes.lookup k) c) m.children }) := by
  induction notes generalizing m with
  | nil =>
      have hid : Table.mapEntries (fun k c => notedModule (List.lookup k []) c) m.children
          = m.children := Table.mapEntries_eq_self fun k c _ => rfl
      rw [hid]
      cases m
      rfl
  | cons e rest ih =>
      obtain ⟨name, a⟩ := e
      obtain ⟨hfirst, hrest⟩ := List.nodup_cons.mp hnotes
      obtain ⟨⟨hn, hmember, hclass⟩, htail⟩ := List.forall_mem_cons.mp hthere
      obtain ⟨⟨k, c⟩, hc, rfl⟩ := List.mem_map.mp hn
      have happly : apply a c = (.ok (), (apply a c).2) :=
        Prod.ext (hok k a c List.mem_cons_self hc) rfl
      have hstep := onChild_of_child (Table.lookup_eq_none hmember) (Table.lookup_eq_none hclass)
        (Table.lookup_of_mem hchildren hc) happly
      rw [set_apply_eq hchildren hc] at hstep
      rw [applyAll, Run.bind_of_ok hstep, ih hrest]
      · rw [Table.mapEntries_mapEntries]
        congr 2
        refine Table.mapEntries_congr ?_
        intro j d _
        by_cases hj : j = k
        · subst hj
          rw [Table.lookup_eq_none hfirst]
          simp [notedModule]
        · rw [Table.lookup_cons_of_ne hj, Table.lookup_cons_of_ne hj]
          rfl
      · rw [Table.map_fst_mapEntries]
        exact hchildren
      · intro j hj
        rw [Table.map_fst_mapEntries]
        exact htail j hj
      · intro j b d hb hd
        -- the other children are as they were
        have hj : j ≠ k := by
          rintro rfl
          exact hfirst (List.mem_map.mpr ⟨_, hb, rfl⟩)
        have hmapped : (j, d) ∈ Table.mapEntries
            (fun k' c => notedModule (List.lookup k' [(k, a)]) c) m.children := hd
        obtain ⟨d', hd', heq⟩ := Table.mem_mapEntries.mp hmapped
        rw [Table.lookup_cons_of_ne hj] at heq
        exact hok j b d (List.mem_cons_of_mem _ hb) (heq ▸ hd')

/-! ## Annotations that fit -/

/-- Annotations that FIT a tree of modules: they speak of methods and children
    that are there, of each once, and no child of which they speak is hidden by
    a member. -/
inductive Fits : ModuleNotes → Module → Prop where
  | node {methods : List MethodNote} {children : List (String × ModuleNotes)} {m : Module}
      (distinctMethods : (methods.map MethodNote.name).Nodup)
      (distinctMembers : (m.members.map Prod.fst).Nodup)
      (onMethods : ∀ n ∈ methods, n.name ∈ m.methods.map Prod.fst)
      (distinctNotes : (children.map Prod.fst).Nodup)
      (distinctChildren : (m.children.map Prod.fst).Nodup)
      (onChildren : ∀ k ∈ children.map Prod.fst, k ∈ m.children.map Prod.fst ∧
        k ∉ m.members.map Prod.fst ∧ k ∉ m.classMethods.map Prod.fst)
      (below : ∀ k a c, (k, a) ∈ children → (k, c) ∈ m.children → Fits a c) :
      Fits (.node methods children) m

/-- One level of applying annotations, the levels below it taken as done. -/
theorem apply_node {methods : List MethodNote} {children : List (String × ModuleNotes)}
    {m : Module} (h : Fits (.node methods children) m)
    (hbelow : ∀ k a c, (k, a) ∈ children → (k, c) ∈ m.children → (apply a c).1 = .ok ()) :
    apply (.node methods children) m = (.ok (), { m with
      members := m.members.mapEntries fun k e => e.noted (noteFor methods k)
      children :=
        Table.mapEntries (fun k c => notedModule (children.lookup k) c) m.children }) := by
  cases h with
  | node hmethods hmembers honMethods hnotes hchildren honChildren _ =>
      rw [apply, Run.bind_of_ok (applyNotes_eq hmethods hmembers honMethods)]
      refine applyAll_eq hnotes hchildren ?_ hbelow
      intro k hk
      rw [Table.map_fst_mapEntries]
      exact honChildren k hk

/-- Annotations that fit are applied without a fault. -/
theorem Fits.outcome {a : ModuleNotes} {m : Module} (h : Fits a m) : (apply a m).1 = .ok () := by
  induction h with
  | node hmethods hmembers honMethods hnotes hchildren honChildren hbelow ih =>
      have hfits := Fits.node hmethods hmembers honMethods hnotes hchildren honChildren hbelow
      rw [apply_node hfits ih]

/-- **THE CLOSED FORM**: annotations that fit are written onto every method and
    every child, each under its own name, and nothing moves. -/
theorem Fits.apply_eq {methods : List MethodNote} {children : List (String × ModuleNotes)}
    {m : Module} (h : Fits (.node methods children) m) :
    apply (.node methods children) m = (.ok (), { m with
      members := m.members.mapEntries fun k e => e.noted (noteFor methods k)
      children :=
        Table.mapEntries (fun k c => notedModule (children.lookup k) c) m.children }) := by
  refine apply_node h ?_
  intro k a c ha hc
  cases h with
  | node _ _ _ _ _ _ hbelow => exact (hbelow k a c ha hc).outcome

/-! ## Afterwards -/

/-- The note on the method of a name in the module at a path of child names. -/
def noteAt : ModuleNotes → List String → String → Option MethodNote
  | .node methods _, [], name => noteFor methods name
  | .node _ children, child :: path, name =>
    (children.lookup child).bind fun a => noteAt a path name

/-- What a method carries after annotations that fit were applied: the note on
    its path and name, and what it carried before where there is none. -/
theorem Fits.methodAt_apply {a : ModuleNotes} {m : Module} (h : Fits a m) (path : List String)
    (name : String) :
    (apply a m).2.methodAt path name
      = (m.methodAt path name).map (·.noted (noteAt a path name)) := by
  induction path generalizing a m with
  | nil =>
      obtain ⟨methods, children⟩ := a
      rw [h.apply_eq]
      show (memberMethods _).lookup name = _
      rw [memberMethods_noted, Table.lookup_mapEntries]
      rfl
  | cons child path ih =>
      obtain ⟨methods, children⟩ := a
      rw [h.apply_eq]
      simp only [Module.methodAt, noteAt, Table.lookup_mapEntries]
      cases hc : m.children.lookup child with
      | none => rfl
      | some c =>
          cases ha : children.lookup child with
          | none => exact (congrFun Option.map_id (c.methodAt path name)).symm
          | some b =>
              have hfits : Fits b c := by
                cases h with
                | node _ _ _ _ _ _ hbelow =>
                    exact hbelow child b c (Table.mem_of_lookup ha) (Table.mem_of_lookup hc)
              exact ih hfits

/-- What is left still fits. -/
theorem Fits.apply_fits {a : ModuleNotes} {m : Module} (h : Fits a m) : Fits a (apply a m).2 := by
  induction h with
  | @node methods children m hmethods hmembers honMethods hnotes hchildren honChildren hbelow ih =>
      have hfits := Fits.node hmethods hmembers honMethods hnotes hchildren honChildren hbelow
      rw [hfits.apply_eq]
      refine .node hmethods ?_ ?_ hnotes ?_ ?_ ?_
      · rw [Table.map_fst_mapEntries]
        exact hmembers
      · intro n hn
        show n.name ∈ (memberMethods _).map Prod.fst
        rw [memberMethods_noted, Table.map_fst_mapEntries]
        exact honMethods n hn
      · rw [Table.map_fst_mapEntries]
        exact hchildren
      · intro k hk
        rw [Table.map_fst_mapEntries, Table.map_fst_mapEntries]
        exact honChildren k hk
      · intro k a c ha hc
        have hmapped : (k, c) ∈ Table.mapEntries
            (fun k c => notedModule (children.lookup k) c) m.children := hc
        obtain ⟨d, hd, rfl⟩ := Table.mem_mapEntries.mp hmapped
        rw [Table.lookup_of_mem hnotes ha]
        exact ih k a d ha hd

/-- **APPLYING TWICE IS APPLYING ONCE.** -/
theorem Fits.apply_apply {a : ModuleNotes} {m : Module} (h : Fits a m) :
    apply a (apply a m).2 = (.ok (), (apply a m).2) := by
  refine Prod.ext h.apply_fits.outcome ?_
  induction h with
  | @node methods children m hmethods hmembers honMethods hnotes hchildren honChildren hbelow ih =>
      have hfits := Fits.node hmethods hmembers honMethods hnotes hchildren honChildren hbelow
      show (apply _ _).2 = (apply _ m).2
      rw [hfits.apply_fits.apply_eq, hfits.apply_eq]
      simp only [Table.mapEntries_mapEntries, Member.noted_noted]
      congr 1
      refine Table.mapEntries_congr ?_
      intro k c hc
      cases ha : children.lookup k with
      | none => rfl
      | some a => exact ih k a c (Table.mem_of_lookup ha) hc

end Notes

end DialectBench
