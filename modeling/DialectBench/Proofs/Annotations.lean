import DialectBench.Proofs.Marking

/-!
# Annotations taken out of one tree and put onto another

    Annotations are taken out of a tree of modules and applied to a tree that
    has the same methods and children and carries no marks.  This always
    succeeds.  What survives is decided method by method: a method is recorded
    only if it carries BOTH an export mark and argument types, so one that
    carries both gets both, and one that carries only one of them loses it.

    On the trees that come out, taking the annotations out again gives the same
    annotations, provided that export marks are plain ones and that the two
    trees list their methods and children in the same order.
-/

namespace DialectBench

/-! ## Trees with the same names -/

/-- Two trees of modules MATCH if their modules have the same methods and
    children; `same` says when two lists of names count as the same. -/
inductive Module.Matches (same : List String → List String → Prop) : Module → Module → Prop where
  | node {m n : Module} (methods : same (m.methods.map Prod.fst) (n.methods.map Prod.fst))
      (children : same (m.children.map Prod.fst) (n.children.map Prod.fst))
      (below : ∀ k c d, (k, c) ∈ m.children → (k, d) ∈ n.children → Matches same c d) :
      Matches same m n

/-- A tree of modules whose names are distinct within each module, so that a
    name leads to the member or to the child that it was given to. -/
inductive Module.DistinctNames : Module → Prop where
  | node {m : Module} (distinct : (m.members.map Prod.fst ++ m.children.map Prod.fst).Nodup)
      (unhidden : ∀ k ∈ m.children.map Prod.fst, k ∉ m.classMethods.map Prod.fst)
      (below : ∀ k c, (k, c) ∈ m.children → DistinctNames c) : DistinctNames m

/-- What holds of every method in a tree of modules. -/
def Module.AllMethods (P : Method → Prop) (m : Module) : Prop :=
  ∀ path name x, m.methodAt path name = some x → P x

theorem Module.Matches.mono {R S : List String → List String → Prop}
    (h : ∀ xs ys, R xs ys → S xs ys) {m n : Module} (hm : m.Matches R n) : m.Matches S n := by
  induction hm with
  | node methods children _ ih => exact .node (h _ _ methods) (h _ _ children) ih

theorem Module.Matches.perm {m n : Module} (h : m.Matches Eq n) : m.Matches List.Perm n :=
  h.mono fun _ _ heq => heq ▸ List.Perm.refl _

theorem Module.DistinctNames.nodup_members {m : Module} (h : m.DistinctNames) :
    (m.members.map Prod.fst).Nodup := by
  cases h with
  | node distinct _ _ => exact (List.nodup_append.mp distinct).1

theorem Module.DistinctNames.nodup_methods {m : Module} (h : m.DistinctNames) :
    (m.methods.map Prod.fst).Nodup :=
  h.nodup_members.sublist (names_memberMethods_sublist m.members)

theorem Module.DistinctNames.nodup_children {m : Module} (h : m.DistinctNames) :
    (m.children.map Prod.fst).Nodup := by
  cases h with
  | node distinct _ _ => exact (List.nodup_append.mp distinct).2.1

theorem Module.AllMethods.own {P : Method → Prop} {m : Module} (h : m.AllMethods P)
    (hd : (m.methods.map Prod.fst).Nodup) {k : String} {x : Method} (hx : (k, x) ∈ m.methods) :
    P x :=
  h [] k x (Table.lookup_of_mem hd hx)

theorem Module.AllMethods.below {P : Method → Prop} {m : Module} (h : m.AllMethods P)
    (hd : (m.children.map Prod.fst).Nodup) {k : String} {c : Module} (hc : (k, c) ∈ m.children) :
    c.AllMethods P := by
  intro path name x hx
  refine h (k :: path) name x ?_
  rw [Module.methodAt, Table.lookup_of_mem hd hc]
  exact hx

/-- What holds of the methods of a module itself and of those below its children
    holds of all. -/
theorem Module.allMethods_of {P : Method → Prop} {m : Module}
    (own : ∀ k x, (k, x) ∈ m.methods → P x)
    (below : ∀ k c, (k, c) ∈ m.children → c.AllMethods P) : m.AllMethods P := by
  intro path name x hx
  cases path with
  | nil => exact own name x (Table.mem_of_lookup hx)
  | cons k path =>
      rw [Module.methodAt] at hx
      obtain ⟨c, hc, hxc⟩ := Option.bind_eq_some_iff.mp hx
      exact below k c (Table.mem_of_lookup hc) path name x hxc

section

variable {m n : Module}

theorem Module.Matches.mem_methods (h : m.Matches List.Perm n) {k : String} :
    k ∈ m.methods.map Prod.fst ↔ k ∈ n.methods.map Prod.fst := by
  cases h with
  | node methods _ _ => exact methods.mem_iff

theorem Module.Matches.mem_children (h : m.Matches List.Perm n) {k : String} :
    k ∈ m.children.map Prod.fst ↔ k ∈ n.children.map Prod.fst := by
  cases h with
  | node _ children _ => exact children.mem_iff

/-- A name leads to matching children, or to none in both trees. -/
theorem Module.Matches.lookup_children (h : m.Matches List.Perm n) (k : String) :
    (m.children.lookup k = none ∧ n.children.lookup k = none) ∨
      ∃ c d, m.children.lookup k = some c ∧ n.children.lookup k = some d ∧
        c.Matches List.Perm d := by
  have hiff : (m.children.lookup k).isSome = true ↔ (n.children.lookup k).isSome = true := by
    rw [Table.isSome_lookup_iff, Table.isSome_lookup_iff]
    exact h.mem_children
  cases hm : m.children.lookup k with
  | none =>
      cases hn : n.children.lookup k with
      | none => exact .inl ⟨rfl, rfl⟩
      | some d => simp [hm, hn] at hiff
  | some c =>
      cases hn : n.children.lookup k with
      | none => simp [hm, hn] at hiff
      | some d =>
          cases h with
          | node _ _ below =>
              exact .inr ⟨c, d, rfl, rfl,
                below k c d (Table.mem_of_lookup hm) (Table.mem_of_lookup hn)⟩

/-- Matching trees have methods at the same paths and names. -/
theorem Module.Matches.isSome_methodAt (h : m.Matches List.Perm n) (path : List String)
    (name : String) : (m.methodAt path name).isSome = (n.methodAt path name).isSome := by
  induction path generalizing m n with
  | nil =>
      rw [Bool.eq_iff_iff]
      show (m.methods.lookup name).isSome = true ↔ (n.methods.lookup name).isSome = true
      rw [Table.isSome_lookup_iff, Table.isSome_lookup_iff]
      exact h.mem_methods
  | cons k path ih =>
      rw [Module.methodAt, Module.methodAt]
      rcases h.lookup_children k with ⟨hm, hn⟩ | ⟨c, d, hm, hn, hcd⟩
      · rw [hm, hn]
      · rw [hm, hn]
        exact ih hcd

end

/-! ## Marks -/

/-- A method without marks. -/
def Method.Bare (x : Method) : Prop := x.exportMark = none ∧ x.argTypes = none

/-- A method with an export mark and with argument types, neither of them
    nothing. -/
def Method.FullyMarked (x : Method) : Prop :=
  ∃ e a, x.exportMark = some e ∧ x.argTypes = some a ∧ e.isNone = false ∧ a.isNone = false

/-- A method whose export mark, if it has one, is the plain one. -/
def Method.PlainlyExported (x : Method) : Prop :=
  x.exportMark = none ∨ x.exportMark = some (.bool true)

/-- Two methods carry the same marks: both are exported or neither is, and the
    argument types are equal. -/
def Method.SameMarks (x y : Method) : Prop :=
  x.exportMark.isSome = y.exportMark.isSome ∧ x.argTypes = y.argTypes

namespace Notes

/-- The note that is taken of a method. -/
def taken (name : String) (x : Method) : Option MethodNote := note? name (.method x)

theorem extractAll_eq (children : List (String × Module)) :
    extractAll children = Table.mapEntries (fun _ c => extract c) children := by
  induction children with
  | nil => rfl
  | cons e rest ih =>
      rw [extractAll, ih]
      rfl

/-- The annotations of a tree, method by method and child by child. -/
theorem extract_eq (m : Module) :
    extract m = .node (m.methods.filterMap fun e => taken e.1 e.2)
      (Table.mapEntries (fun _ c => extract c) m.children) := by
  obtain ⟨className, members, classMethods, children, sourceName, isScripted⟩ := m
  rw [extract, extractAll_eq]
  congr 1
  show _ = (memberMethods members).filterMap _
  unfold memberMethods
  rw [List.filterMap_filterMap]
  refine List.filterMap_congr ?_
  rintro ⟨k, member⟩ _
  cases member <;> rfl

/-- A note is taken of a method that carries both marks, neither of them
    nothing. -/
theorem taken_eq_some_iff {name : String} {x : Method} {note : MethodNote} :
    taken name x = some note ↔ ∃ e a, x.exportMark = some e ∧ x.argTypes = some a ∧
      e.isNone = false ∧ a.isNone = false ∧ note = ⟨name, e, a⟩ := by
  obtain ⟨behaviour, exportMark, argTypes, isScripted, calls⟩ := x
  cases exportMark with
  | none => simp [taken, note?]
  | some e =>
      cases argTypes with
      | none => simp [taken, note?]
      | some a =>
          cases hne : e.isNone <;> cases hna : a.isNone <;> simp [taken, note?, hne, hna]
          exact eq_comm

theorem name_of_taken {name : String} {x : Method} {note : MethodNote}
    (h : taken name x = some note) : note.name = name := by
  obtain ⟨e, a, _, _, _, _, rfl⟩ := taken_eq_some_iff.mp h
  rfl

/-- The names of the notes taken are names of methods, in their order. -/
theorem names_taken_sublist (methods : Table String Method) :
    List.Sublist ((methods.filterMap fun e => taken e.1 e.2).map MethodNote.name)
      (methods.map Prod.fst) := by
  induction methods with
  | nil => exact List.Sublist.refl _
  | cons e rest ih =>
      obtain ⟨k, x⟩ := e
      cases hx : taken k x with
      | none =>
          simp only [List.filterMap_cons, hx]
          exact ih.cons k
      | some note =>
          simp only [List.filterMap_cons, hx, List.map_cons, name_of_taken hx]
          exact ih.cons_cons k

/-- The note on a name is the one taken of the method of that name. -/
theorem noteFor_taken {methods : Table String Method} (hd : (methods.map Prod.fst).Nodup)
    (name : String) :
    noteFor (methods.filterMap fun e => taken e.1 e.2) name
      = (methods.lookup name).bind (taken name) := by
  induction methods with
  | nil => rfl
  | cons e rest ih =>
      obtain ⟨k, x⟩ := e
      obtain ⟨hk, hrest⟩ := List.nodup_cons.mp hd
      by_cases hname : name = k
      · subst hname
        have hnone : noteFor (rest.filterMap fun e => taken e.1 e.2) name = none :=
          noteFor_eq_none fun hmem => hk ((names_taken_sublist rest).subset hmem)
        cases hx : taken name x with
        | none => simp [hx, hnone]
        | some note => simp [hx, noteFor_cons, name_of_taken hx]
      · rw [Table.lookup_cons_of_ne hname, ← ih hrest]
        cases hx : taken k x with
        | none => simp only [List.filterMap_cons, hx]
        | some note =>
            have hne : note.name ≠ name := by
              rw [name_of_taken hx]
              exact Ne.symm hname
            simp only [List.filterMap_cons, hx, noteFor_cons, if_neg hne]

section

variable {m n : Module}

/-- The annotations of a tree fit every tree that matches it. -/
theorem fits_extract (h : m.Matches List.Perm n) (hd : n.DistinctNames) : Fits (extract m) n := by
  induction h with
  | @node m n methods children below ih =>
      rw [extract_eq]
      have hmethods : (m.methods.map Prod.fst).Nodup := methods.nodup_iff.mpr hd.nodup_methods
      have hchildren : (m.children.map Prod.fst).Nodup := children.nodup_iff.mpr hd.nodup_children
      refine .node (hmethods.sublist (names_taken_sublist m.methods)) hd.nodup_members ?_ ?_
        hd.nodup_children ?_ ?_
      · intro note hnote
        exact methods.mem_iff.mp
          ((names_taken_sublist m.methods).subset (List.mem_map.mpr ⟨note, hnote, rfl⟩))
      · rw [Table.map_fst_mapEntries]
        exact hchildren
      · intro k hk
        rw [Table.map_fst_mapEntries] at hk
        have hkn : k ∈ n.children.map Prod.fst := children.mem_iff.mp hk
        cases hd with
        | node distinct unhidden _ =>
            refine ⟨hkn, fun hmember => ?_, unhidden k hkn⟩
            exact (List.nodup_append.mp distinct).2.2 k hmember k hkn rfl
      · intro k a d ha hdk
        obtain ⟨c, hc, rfl⟩ := Table.mem_mapEntries.mp ha
        cases hd with
        | node _ _ distinctBelow => exact ih k c d hc hdk (distinctBelow k d hdk)

/-- The note on a path and name is the one taken of the method there. -/
theorem noteAt_extract (h : m.Matches List.Perm n) (hd : n.DistinctNames) (path : List String)
    (name : String) : noteAt (extract m) path name = (m.methodAt path name).bind (taken name) := by
  induction path generalizing m n with
  | nil =>
      rw [extract_eq]
      refine noteFor_taken ?_ name
      cases h with
      | node methods _ _ => exact methods.nodup_iff.mpr hd.nodup_methods
  | cons k path ih =>
      rw [extract_eq, noteAt, Table.lookup_mapEntries, Module.methodAt]
      rcases h.lookup_children k with ⟨hm, _⟩ | ⟨c, d, hm, hn, hcd⟩
      · rw [hm]
        rfl
      · rw [hm]
        cases hd with
        | node _ _ below => exact ih hcd (below k d (Table.mem_of_lookup hn))

end

/-! ## What survives -/

/-- A method that was bare carries the marks of another after it took the note
    on it exactly if the other carries both marks or none. -/
theorem sameMarks_noted_iff {x y : Method} (hy : y.Bare) (name : String) :
    x.SameMarks (y.noted (taken name x)) ↔ x.FullyMarked ∨ x.Bare := by
  obtain ⟨hexport, htypes⟩ := hy
  cases h : taken name x with
  | some note =>
      obtain ⟨e, a, he, ha, hne, hna, rfl⟩ := taken_eq_some_iff.mp h
      constructor
      · intro _
        exact .inl ⟨e, a, he, ha, hne, hna⟩
      · intro _
        simp [Method.SameMarks, Method.noted, MethodNote.onto, he, ha, hne, hna]
  | none =>
      constructor
      · rintro ⟨hexports, hargs⟩
        rw [Method.noted, hexport] at hexports
        rw [Method.noted, htypes] at hargs
        exact .inr ⟨Option.isSome_eq_false_iff.mp hexports |> Option.isNone_iff_eq_none.mp, hargs⟩
      · rintro (⟨e, a, he, ha, hne, hna⟩ | ⟨he, ha⟩)
        · rw [taken_eq_some_iff.mpr ⟨e, a, he, ha, hne, hna, rfl⟩] at h
          exact absurd h (Option.some_ne_none _)
        · exact ⟨by rw [Method.noted, he, hexport], by rw [Method.noted, ha, htypes]⟩

/-- **WHICH MARKS SURVIVE**: annotations taken out of a tree are applied to a
    matching tree without marks, and every method takes the note on its
    counterpart.  So all marks arrive exactly if every method of the first tree
    carries both marks or none. -/
theorem marks_survive_iff {m n : Module} (h : m.Matches List.Perm n) (hd : n.DistinctNames)
    (hbare : n.AllMethods Method.Bare) :
    ∃ n', apply (extract m) n = (.ok (), n') ∧
      (∀ path name, n'.methodAt path name
        = (n.methodAt path name).map (·.noted ((m.methodAt path name).bind (taken name)))) ∧
      ((∀ path name, Option.Rel Method.SameMarks (m.methodAt path name) (n'.methodAt path name)) ↔
        m.AllMethods fun x => x.FullyMarked ∨ x.Bare) := by
  have hfits : Fits (extract m) n := fits_extract h hd
  have hafter : ∀ path name, (apply (extract m) n).2.methodAt path name
      = (n.methodAt path name).map (·.noted ((m.methodAt path name).bind (taken name))) := by
    intro path name
    rw [hfits.methodAt_apply, noteAt_extract h hd]
  refine ⟨_, Prod.ext hfits.outcome rfl, hafter, ?_⟩
  constructor
  · intro hrel path name x hx
    have hxy := hrel path name
    rw [hafter, hx] at hxy
    cases hy : n.methodAt path name with
    | none =>
        rw [hy] at hxy
        exact nomatch hxy
    | some y =>
        rw [hy] at hxy
        cases hxy with
        | some hsame => exact (sameMarks_noted_iff (hbare path name y hy) name).mp hsame
  · intro hall path name
    have hsome := h.isSome_methodAt path name
    rw [hafter]
    cases hx : m.methodAt path name with
    | none =>
        rw [hx] at hsome
        rw [Option.isNone_iff_eq_none.mp (Option.isSome_eq_false_iff.mp hsome.symm)]
        exact .none
    | some x =>
        rw [hx] at hsome
        obtain ⟨y, hy⟩ := Option.isSome_iff_exists.mp hsome.symm
        rw [hy]
        exact .some ((sameMarks_noted_iff (hbare path name y hy) name).mpr (hall path name x hx))

/-- A tree with a child, some of whose methods carry both marks. -/
def markedPair : Module :=
  ⟨"Pair", [("forward", .method ⟨.echo, some (.bool true), some (.list [.none, .int 2]), false, 0⟩),
      ("scale", .value (.int 3)), ("reset", .method ⟨.counter, none, none, false, 0⟩)], [],
    [("inner", ⟨"Inner", [("run", .method ⟨.first, some (.bool true), some (.list []), false, 0⟩)],
      [], [], "Inner", false⟩)], "Pair", false⟩

/-- The same tree without marks and without the value. -/
def barePair : Module :=
  ⟨"Pair", [("forward", .method ⟨.echo, none, none, false, 0⟩),
      ("reset", .method ⟨.counter, none, none, false, 0⟩)], [],
    [("inner", ⟨"Inner", [("run", .method ⟨.first, none, none, false, 0⟩)], [], [], "Inner",
      false⟩)], "Pair", false⟩

theorem markedPair_matches : markedPair.Matches Eq barePair := by
  refine .node (by decide) (by decide) ?_
  intro k c d hc hd
  cases List.mem_singleton.mp hc
  cases List.mem_singleton.mp hd
  exact .node (by decide) (by decide) fun k c d hc => nomatch hc

theorem barePair_distinctNames : barePair.DistinctNames := by
  refine .node (by decide) (by decide) ?_
  intro k c hc
  cases List.mem_singleton.mp hc
  exact .node (by decide) (by decide) fun k c hc => nomatch hc

theorem barePair_bare : barePair.AllMethods Method.Bare := by
  refine Module.allMethods_of ?_ ?_
  · intro k x hx
    rcases List.mem_cons.mp hx with heq | hx
    · cases heq
      exact ⟨rfl, rfl⟩
    · cases List.mem_singleton.mp hx
      exact ⟨rfl, rfl⟩
  · intro k c hc
    cases List.mem_singleton.mp hc
    refine Module.allMethods_of ?_ fun k c hc => nomatch hc
    intro k x hx
    cases List.mem_singleton.mp hx
    exact ⟨rfl, rfl⟩

theorem markedPair_marks :
    markedPair.AllMethods fun x => (x.FullyMarked ∨ x.Bare) ∧ x.PlainlyExported := by
  refine Module.allMethods_of ?_ ?_
  · intro k x hx
    rcases List.mem_cons.mp hx with heq | hx
    · cases heq
      exact ⟨.inl ⟨_, _, rfl, rfl, rfl, rfl⟩, .inr rfl⟩
    · cases List.mem_singleton.mp hx
      exact ⟨.inr ⟨rfl, rfl⟩, .inl rfl⟩
  · intro k c hc
    cases List.mem_singleton.mp hc
    refine Module.allMethods_of ?_ fun k c hc => nomatch hc
    intro k x hx
    cases List.mem_singleton.mp hx
    exact ⟨.inl ⟨_, _, rfl, rfl, rfl, rfl⟩, .inr rfl⟩

theorem marks_survive_iff_markedPair :
    ∃ n', apply (extract markedPair) barePair = (.ok (), n') ∧
      ∀ path name, Option.Rel Method.SameMarks (markedPair.methodAt path name)
        (n'.methodAt path name) := by
  obtain ⟨n', happly, _, hiff⟩ :=
    marks_survive_iff markedPair_matches.perm barePair_distinctNames barePair_bare
  exact ⟨n', happly, hiff.mpr fun path name x hx => (markedPair_marks path name x hx).1⟩

/-- A module with one method, which carries the given marks. -/
def single (exportMark argTypes : Option Value) : Module :=
  ⟨"Single", [("forward", .method ⟨.echo, exportMark, argTypes, false, 0⟩)], [], [], "Single",
    false⟩

/-- **A LONE EXPORT MARK IS LOST**: not all marks survive in all trees.  A method
    with an export mark and no argument types arrives without the mark. -/
theorem lone_export_mark_lost :
    ¬ ∀ m n : Module, m.Matches List.Perm n → n.DistinctNames → n.AllMethods Method.Bare →
      ∀ path name, Option.Rel Method.SameMarks (m.methodAt path name)
        ((apply (extract m) n).2.methodAt path name) := by
  intro h
  have hmatch : (single (some (.bool true)) none).Matches List.Perm (single none none) :=
    .node (by decide) (by decide) fun k c d hc => nomatch hc
  have hnames : (single none none).DistinctNames :=
    .node (by decide) (by decide) fun k c hc => nomatch hc
  have hbare : (single none none).AllMethods Method.Bare := by
    refine Module.allMethods_of ?_ fun k c hc => nomatch hc
    intro k x hx
    cases List.mem_singleton.mp hx
    exact ⟨rfl, rfl⟩
  have hrel : Option.Rel Method.SameMarks (some ⟨.echo, some (.bool true), none, false, 0⟩)
      (some ⟨.echo, none, none, false, 0⟩) := h _ _ hmatch hnames hbare [] "forward"
  cases hrel with
  | some hsame => exact nomatch hsame.1

/-! ## There and back -/

/-- A bare method that takes a note of a plainly exported one gives the same
    note back. -/
theorem taken_noted {x y : Method} (hx : x.PlainlyExported) (hy : y.Bare) (name : String) :
    taken name (y.noted (taken name x)) = taken name x := by
  cases h : taken name x with
  | none =>
      show taken name y = none
      cases hy' : taken name y with
      | none => rfl
      | some note =>
          obtain ⟨e, _, he, _⟩ := taken_eq_some_iff.mp hy'
          rw [hy.1] at he
          exact nomatch he
  | some note =>
      obtain ⟨e, a, he, ha, hne, hna, rfl⟩ := taken_eq_some_iff.mp h
      have hplain : e = .bool true := by
        rcases hx with hnone | hsome
        · rw [he] at hnone
          exact nomatch hnone
        · rw [he] at hsome
          exact Option.some.inj hsome
      subst hplain
      refine taken_eq_some_iff.mpr ⟨.bool true, a, ?_, ?_, rfl, hna, rfl⟩
      · simp [Method.noted, MethodNote.onto, hne]
      · simp [Method.noted, MethodNote.onto, hna]

/-- The notes taken of methods that took theirs from methods of the same names
    in the same order. -/
theorem filterMap_taken_noted {methods bare : Table String Method}
    (hnames : methods.map Prod.fst = bare.map Prod.fst) (hd : (bare.map Prod.fst).Nodup)
    (hplain : ∀ k x, (k, x) ∈ methods → x.PlainlyExported)
    (hbare : ∀ k y, (k, y) ∈ bare → y.Bare) :
    (bare.mapEntries fun k y =>
        y.noted (noteFor (methods.filterMap fun e => taken e.1 e.2) k)).filterMap
        (fun e => taken e.1 e.2)
      = methods.filterMap fun e => taken e.1 e.2 := by
  have hentries : (bare.mapEntries fun k y =>
        taken k (y.noted (noteFor (methods.filterMap fun e => taken e.1 e.2) k)))
      = methods.mapEntries fun k x => taken k x := by
    refine Table.mapEntries_eq_mapEntries hnames.symm ?_
    intro k y x hy hx
    rw [noteFor_taken (hnames ▸ hd), Table.lookup_of_mem (hnames ▸ hd) hx]
    exact taken_noted (hplain k x hx) (hbare k y hy) k
  have hvalues : ∀ {β : Type} (f : String → Method → Option β) (t : Table String Method),
      t.filterMap (fun e => f e.1 e.2) = (t.mapEntries f).filterMap Prod.snd := by
    intro β f t
    unfold Table.mapEntries
    rw [List.filterMap_map]
    rfl
  rw [hvalues taken, Table.mapEntries_mapEntries, hentries, ← hvalues taken]

/-- Taking annotations out undoes applying them. -/
theorem extract_apply {m n : Module} (h : m.Matches Eq n) (hd : n.DistinctNames)
    (hbare : n.AllMethods Method.Bare) (hplain : m.AllMethods Method.PlainlyExported) :
    extract (apply (extract m) n).2 = extract m := by
  induction h with
  | @node m n methods children below ih =>
      have hfits := fits_extract (Module.Matches.node methods children below).perm hd
      have hmethods : (m.methods.map Prod.fst).Nodup := methods ▸ hd.nodup_methods
      have hchildren : (m.children.map Prod.fst).Nodup := children ▸ hd.nodup_children
      rw [extract_eq m] at hfits ⊢
      rw [hfits.apply_eq, extract_eq]
      congr 1
      · show (memberMethods _).filterMap _ = _
        rw [memberMethods_noted]
        exact filterMap_taken_noted methods hd.nodup_methods
          (fun k x hx => hplain.own hmethods hx) fun k y hy => hbare.own hd.nodup_methods hy
      · simp only [Table.mapEntries_mapEntries]
        refine Table.mapEntries_eq_mapEntries children.symm ?_
        intro k d c hdk hck
        rw [Table.lookup_mapEntries, Table.lookup_of_mem hchildren hck]
        cases hd with
        | node distinct unhidden distinctBelow =>
            have hnodup := (List.nodup_append.mp distinct).2.1
            exact ih k c d hck hdk (distinctBelow k d hdk) (hbare.below hnodup hdk)
              (hplain.below hchildren hck)

/-- **THERE AND BACK**: annotations of a tree whose export marks are plain, put
    onto a matching tree without marks that lists its methods and children in
    the same order, can be taken out again as they were, and putting them on
    once more changes nothing. -/
theorem annotations_return {m n : Module} (h : m.Matches Eq n) (hd : n.DistinctNames)
    (hbare : n.AllMethods Method.Bare) (hplain : m.AllMethods Method.PlainlyExported) :
    ∃ n', apply (extract m) n = (.ok (), n') ∧ extract n' = extract m ∧
      apply (extract m) n' = (.ok (), n') := by
  have hfits : Fits (extract m) n := fits_extract h.perm hd
  exact ⟨_, Prod.ext hfits.outcome rfl, extract_apply h hd hbare hplain, hfits.apply_apply⟩

theorem annotations_return_markedPair :
    ∃ n', apply (extract markedPair) barePair = (.ok (), n') ∧ extract n' = extract markedPair ∧
      apply (extract markedPair) n' = (.ok (), n') :=
  annotations_return markedPair_matches barePair_distinctNames barePair_bare
    fun path name x hx => (markedPair_marks path name x hx).2

end Notes

end DialectBench
