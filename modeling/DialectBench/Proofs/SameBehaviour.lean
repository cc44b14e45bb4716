import DialectBench.Proofs.Calls
import DialectBench.Notes.Basic

/-!
# Modules of the same behaviour

    Two modules have the SAME BEHAVIOUR if no sequence of calls tells them
    apart: every call gives the same outcome, does the same to the store, and
    leaves modules of the same behaviour.

    The marks of methods are not behaviour.  Erasing all marks of a tree of
    modules commutes with calling into it, and putting annotations onto a tree
    changes nothing but marks; so a module with annotations behaves as the
    module without.
-/

namespace DialectBench

/-! ## Bisimulation -/

/-- Two outcomes of a call are the same up to a relation between the modules
    that are left. -/
def SameOutcome (R : Module → Module → Prop) :
    Except Fault (Datum × Module) → Except Fault (Datum × Module) → Prop
  | .ok r, .ok r' => r.1 = r'.1 ∧ R r.2 r'.2
  | .error e, .error e' => e = e'
  | _, _ => False

/-- A relation between modules that calls cannot break. -/
def Bisimulation (R : Module → Module → Prop) : Prop :=
  ∀ m n, R m n → ∀ path a s, SameOutcome R (m.call path a s).1 (n.call path a s).1 ∧
    (m.call path a s).2 = (n.call path a s).2

/-- Two modules that no sequence of calls tells apart. -/
def SameBehaviour (m n : Module) : Prop := ∃ R, Bisimulation R ∧ R m n

/-- A call that returns into one module returns into the other, with the same
    result. -/
theorem SameBehaviour.call_eq_ok {m n : Module} (h : SameBehaviour m n) {path : List String}
    {a : Arguments} {s s' : Store} {out : Datum} {m' : Module}
    (hm : m.call path a s = (.ok (out, m'), s')) :
    ∃ n', n.call path a s = (.ok (out, n'), s') ∧ SameBehaviour m' n' := by
  obtain ⟨R, hR, hmn⟩ := h
  obtain ⟨hout, hstore⟩ := hR m n hmn path a s
  rw [hm] at hout hstore
  rcases hn : n.call path a s with ⟨r, s₁⟩
  rw [hn] at hout hstore
  cases r with
  | error e => exact hout.elim
  | ok r =>
      obtain ⟨o, n'⟩ := r
      obtain ⟨rfl, hrel⟩ := hout
      cases hstore
      exact ⟨n', rfl, R, hR, hrel⟩

/-- A call that stops in one module stops in the other, with the same fault. -/
theorem SameBehaviour.call_eq_error {m n : Module} (h : SameBehaviour m n) {path : List String}
    {a : Arguments} {s s' : Store} {e : Fault} (hm : m.call path a s = (.error e, s')) :
    n.call path a s = (.error e, s') := by
  obtain ⟨R, hR, hmn⟩ := h
  obtain ⟨hout, hstore⟩ := hR m n hmn path a s
  rw [hm] at hout hstore
  rcases hn : n.call path a s with ⟨r, s₁⟩
  rw [hn] at hout hstore
  cases r with
  | ok r => exact hout.elim
  | error e' =>
      obtain rfl : e = e' := hout
      cases hstore
      rfl

theorem sameBehaviour_refl (m : Module) : SameBehaviour m m := by
  refine ⟨Eq, ?_, rfl⟩
  rintro m n rfl path a s
  refine ⟨?_, rfl⟩
  cases (m.call path a s).1 with
  | error e => exact rfl
  | ok r => exact ⟨rfl, rfl⟩

theorem SameOutcome.trans {R R' : Module → Module → Prop}
    {x y z : Except Fault (Datum × Module)} (h : SameOutcome R x y) (h' : SameOutcome R' y z) :
    SameOutcome (fun m k => ∃ n, R m n ∧ R' n k) x z := by
  cases x with
  | error e =>
      cases y with
      | error e' =>
          cases z with
          | error e'' => exact Eq.trans h h'
          | ok r => exact h'.elim
      | ok r => exact h.elim
  | ok r =>
      cases y with
      | error e => exact h.elim
      | ok r' =>
          cases z with
          | error e => exact h'.elim
          | ok r'' => exact ⟨h.1.trans h'.1, r'.2, h.2, h'.2⟩

theorem SameBehaviour.trans {m n k : Module} (h : SameBehaviour m n) (h' : SameBehaviour n k) :
    SameBehaviour m k := by
  obtain ⟨R, hR, hmn⟩ := h
  obtain ⟨R', hR', hnk⟩ := h'
  refine ⟨fun m k => ∃ n, R m n ∧ R' n k, ?_, n, hmn, hnk⟩
  rintro m k ⟨n, hmn, hnk⟩ path a s
  obtain ⟨hout, hstore⟩ := hR m n hmn path a s
  obtain ⟨hout', hstore'⟩ := hR' n k hnk path a s
  exact ⟨hout.trans hout', hstore.trans hstore'⟩

/-! ## Erasing marks -/

/-- A table with its values seen through a function. -/
def Table.mapValues {κ α β : Type} (f : α → β) (t : Table κ α) : Table κ β :=
  t.map fun e => (e.1, f e.2)

section

variable {κ α β : Type} [BEq κ] (f : α → β) (k : κ)

theorem Table.lookup_mapValues (t : Table κ α) :
    (t.mapValues f).lookup k = (t.lookup k).map f := by
  induction t with
  | nil => rfl
  | cons e rest ih =>
      obtain ⟨k', a⟩ := e
      show List.lookup k ((k', f a) :: Table.mapValues f rest) = _
      rw [List.lookup_cons, List.lookup_cons, ih]
      cases k == k' <;> rfl

theorem Table.set_mapValues (a : α) (t : Table κ α) :
    Table.set k (f a) (t.mapValues f) = (Table.set k a t).mapValues f := by
  induction t with
  | nil => rfl
  | cons e rest ih =>
      obtain ⟨k', a'⟩ := e
      show Table.set k (f a) ((k', f a') :: Table.mapValues f rest) = _
      rw [Table.set, Table.set, ih]
      cases k' == k <;> rfl

/-- Setting a key to the value that is there changes nothing. -/
theorem Table.set_of_lookup [LawfulBEq κ] {k : κ} {a : α} {t : Table κ α}
    (h : t.lookup k = some a) : Table.set k a t = t := by
  induction t with
  | nil => exact nomatch h
  | cons e rest ih =>
      obtain ⟨k', a'⟩ := e
      rw [List.lookup_cons] at h
      rw [Table.set]
      by_cases hk : k' = k
      · subst hk
        rw [beq_self_eq_true] at h
        cases h
        rw [if_pos (beq_self_eq_true k')]
      · rw [beq_eq_false_iff_ne.mpr (Ne.symm hk)] at h
        rw [if_neg (mt beq_iff_eq.mp hk), ih h]

/-- Setting a key to a value that looks like the one there changes nothing that
    can be seen. -/
theorem Table.mapValues_set [LawfulBEq κ] {k : κ} {a b : α} {t : Table κ α}
    (h : t.lookup k = some a) (hf : f b = f a) :
    (Table.set k b t).mapValues f = t.mapValues f := by
  rw [← Table.set_mapValues, hf]
  refine Table.set_of_lookup ?_
  rw [Table.lookup_mapValues, h]
  rfl

end

/-- A method without marks. -/
def Method.unmarked (m : Method) : Method := { m with exportMark := none, argTypes := none }

/-- A member without marks. -/
def Member.unmarked : Member → Member
  | .method m => .method m.unmarked
  | .value v => .value v

mutual

/-- A tree of modules without marks. -/
def Module.unmarked : Module → Module
  | ⟨className, members, classMethods, children, sourceName, isScripted⟩ =>
    ⟨className, members.mapValues Member.unmarked, classMethods.mapValues Method.unmarked,
      Module.unmarkedAll children, sourceName, isScripted⟩

/-- Child modules without marks. -/
def Module.unmarkedAll : List (String × Module) → List (String × Module)
  | [] => []
  | (name, m) :: rest => (name, m.unmarked) :: Module.unmarkedAll rest

end

theorem Module.unmarkedAll_eq (children : List (String × Module)) :
    Module.unmarkedAll children = Table.mapValues Module.unmarked children := by
  induction children with
  | nil => rfl
  | cons e rest ih =>
      rw [Module.unmarkedAll, ih]
      rfl

/-- The values of a module carry no marks. -/
theorem memberValues_unmarked (members : Table String Member) :
    memberValues (members.mapValues Member.unmarked) = memberValues members := by
  unfold memberValues Table.mapValues
  rw [List.filterMap_map]
  refine List.filterMap_congr ?_
  rintro ⟨name, member⟩ _
  cases member <;> rfl

/-- Values that are set carry no marks. -/
theorem setValues_unmarked (members : Table String Member) (fields : List (String × Value)) :
    setValues (members.mapValues Member.unmarked) fields
      = (setValues members fields).mapValues Member.unmarked := by
  induction fields generalizing members with
  | nil => rfl
  | cons f fields ih =>
      have hset : setValue (members.mapValues Member.unmarked) f
          = (setValue members f).mapValues Member.unmarked := by
        unfold setValue
        split
        · rfl
        · exact Table.set_mapValues Member.unmarked f.1 (.value f.2) members
      show setValues (setValue (members.mapValues Member.unmarked) f) fields = _
      rw [hset, ih]
      rfl

/-! ## Calls do not look at marks -/

/-- The result of a call with the marks of the module that is left erased. -/
def erased (r : Datum × Module) : Datum × Module := (r.1, r.2.unmarked)

theorem Method.call_unmarked (m : Method) (fields : List (String × Value)) (a : Arguments) :
    m.unmarked.call fields a
      = m.call fields a >>= fun r => pure (r.1, r.2.1.unmarked, r.2.2) := by
  show (m.behaviour.act m.calls fields a >>= fun r => pure (r.1, _, r.2))
    = (m.behaviour.act m.calls fields a >>= fun r => pure (r.1, _, r.2)) >>= _
  rw [bind_assoc]
  rfl

mutual

/-- **CALLS DO NOT LOOK AT MARKS**: calling into the tree without marks is
    calling into the tree and erasing the marks of what is left. -/
theorem Module.call_unmarked : ∀ (m : Module) (path : List String) (a : Arguments),
    m.unmarked.call path a = m.call path a >>= fun r => pure (erased r)
  | ⟨className, members, classMethods, children, sourceName, isScripted⟩, path, a => by
      -- marks do not change which names there are, so both trees take the same case
      rcases hp : splitPath path with ⟨name, rest⟩
      cases hm : members.lookup name with
      | some member =>
          cases member with
          | value v =>
              simp only [Module.unmarked, Module.call, hp, Table.lookup_mapValues, hm,
                Option.map_some, Member.unmarked, bind_assoc]
              rfl
          | method method =>
              by_cases hr : (!rest.isEmpty) = true
              · simp only [Module.unmarked, Module.call, hp, Table.lookup_mapValues, hm,
                  Option.map_some, Member.unmarked, if_pos hr]
                rfl
              · simp only [Module.unmarked, Module.call, hp, Table.lookup_mapValues, hm,
                  Option.map_some, Member.unmarked, if_neg hr, memberValues_unmarked,
                  Method.call_unmarked, bind_assoc, pure_bind, erased,
                  ← Table.set_mapValues, ← setValues_unmarked]
      | none =>
          cases hc : classMethods.lookup name with
          | some method =>
              by_cases hr : (!rest.isEmpty) = true
              · simp only [Module.unmarked, Module.call, hp, Table.lookup_mapValues, hm, hc,
                  Option.map_some, Option.map_none, if_pos hr]
                rfl
              · simp only [Module.unmarked, Module.call, hp, Table.lookup_mapValues, hm, hc,
                  Option.map_some, Option.map_none, if_neg hr, memberValues_unmarked,
                  Method.call_unmarked, bind_assoc, pure_bind, erased,
                  ← Table.set_mapValues, ← setValues_unmarked]
          | none =>
              simp only [Module.unmarked, Module.call, hp, Table.lookup_mapValues, hm, hc,
                Option.map_none, Module.callChild_unmarked children name rest a, bind_assoc,
                pure_bind]
              rfl

theorem Module.callChild_unmarked : ∀ (children : List (String × Module)) (name : String)
    (rest : List String) (a : Arguments),
    Module.callChild (Module.unmarkedAll children) name rest a
      = Module.callChild children name rest a >>= fun r => pure (r.1, Module.unmarkedAll r.2)
  | [], name, rest, a => by
      rw [Module.unmarkedAll, Module.callChild]
      rfl
  | (n, m) :: more, name, rest, a => by
      rw [Module.unmarkedAll, Module.callChild, Module.callChild]
      by_cases hn : (n == name) = true
      · rw [if_pos hn, if_pos hn, Module.call_unmarked m rest a, bind_assoc, bind_assoc]
        rfl
      · rw [if_neg hn, if_neg hn, Module.callChild_unmarked more name rest a, bind_assoc,
          bind_assoc]
        rfl

end

/-- What a call into the tree without marks gives, outcome and store. -/
theorem Module.call_unmarked_apply (m : Module) (path : List String) (a : Arguments)
    (s : Store) :
    m.unmarked.call path a s = ((m.call path a s).1.map erased, (m.call path a s).2) := by
  rw [Module.call_unmarked]
  rcases h : m.call path a s with ⟨r, s'⟩
  cases r with
  | error e => rw [Run.bind_of_error h]; rfl
  | ok r => rw [Run.bind_of_ok h]; rfl

/-- **MARKS ARE NOT BEHAVIOUR**: trees that differ in marks only behave the
    same. -/
theorem sameBehaviour_of_unmarked_eq {m n : Module} (h : m.unmarked = n.unmarked) :
    SameBehaviour m n := by
  refine ⟨fun m n => m.unmarked = n.unmarked, ?_, h⟩
  intro m n h path a s
  have hcall := congrArg (fun k : Module => k.call path a s) h
  simp only [Module.call_unmarked_apply] at hcall
  have hout := congrArg Prod.fst hcall
  have hstore := congrArg Prod.snd hcall
  refine ⟨?_, hstore⟩
  cases hm : (m.call path a s).1 with
  | error e =>
      cases hn : (n.call path a s).1 with
      | error e' =>
          rw [hm, hn] at hout
          cases hout
          exact rfl
      | ok r =>
          rw [hm, hn] at hout
          exact nomatch hout
  | ok r =>
      cases hn : (n.call path a s).1 with
      | error e' =>
          rw [hm, hn] at hout
          exact nomatch hout
      | ok r' =>
          rw [hm, hn] at hout
          simp only [Except.map, Except.ok.injEq, erased, Prod.mk.injEq] at hout
          exact hout

/-! ## Annotations change nothing but marks -/

namespace Notes

/-- Work on a tree of modules that changes nothing but marks. -/
abbrev KeepsRest (e : Edit Unit) : Prop := Run.Keeps Module.unmarked e

theorem editMethod_keepsRest {f : Method → Method} (hf : ∀ old, (f old).unmarked = old.unmarked)
    (name : String) : KeepsRest (editMethod name f) := by
  intro m
  have hget : (get : Edit Module) m = (.ok m, m) := rfl
  unfold editMethod
  rw [Run.bind_of_ok hget]
  obtain ⟨className, members, classMethods, children, sourceName, isScripted⟩ := m
  cases hm : members.lookup name with
  | some member =>
      cases member with
      | value v => rfl
      | method old =>
          -- the one case that changes the tree, and it changes marks only
          have hset : (Table.set name (.method (f old)) members).mapValues Member.unmarked
              = members.mapValues Member.unmarked :=
            Table.mapValues_set Member.unmarked hm (congrArg Member.method (hf old))
          show Module.unmarked ⟨className, Table.set name (.method (f old)) members,
            classMethods, children, sourceName, isScripted⟩ = _
          rw [Module.unmarked, hset, Module.unmarked]
  | none =>
      cases classMethods.lookup name with
      | some method => rfl
      | none => cases children.lookup name <;> rfl

theorem applyNote_keepsRest (n : MethodNote) : KeepsRest (applyNote n) := by
  have hmark : KeepsRest (markExported n.name) :=
    editMethod_keepsRest (f := fun m => { m with exportMark := some (.bool true) })
      (fun _ => rfl) n.name
  have htypes : KeepsRest (setArgTypes n.name n.argTypes) :=
    editMethod_keepsRest (f := fun m => { m with argTypes := some n.argTypes })
      (fun _ => rfl) n.name
  unfold applyNote
  by_cases he : (!n.exportMark.isNone) = true <;> by_cases ha : (!n.argTypes.isNone) = true
  · simp only [if_pos he, if_pos ha]
    exact hmark.bind fun _ => htypes
  · simp only [if_pos he, if_neg ha]
    exact hmark.bind fun _ => Run.keeps_pure ()
  · simp only [if_neg he, if_pos ha]
    exact htypes
  · simp only [if_neg he, if_neg ha]
    exact Run.keeps_pure ()

theorem applyNotes_keepsRest (notes : List MethodNote) : KeepsRest (applyNotes notes) := by
  induction notes with
  | nil => exact Run.keeps_pure ()
  | cons n rest ih => exact (applyNote_keepsRest n).bind fun _ => ih

theorem onChild_keepsRest {name : String} {edit : Edit Unit} (h : KeepsRest edit) :
    KeepsRest (onChild name edit) := by
  intro m
  unfold onChild
  split
  · rename_i child _ _ hc
    have hchild : (edit child).2.unmarked = child.unmarked := h child
    obtain ⟨className, members, classMethods, children, sourceName, isScripted⟩ := m
    have hset : Table.mapValues Module.unmarked (Table.set name (edit child).2 children)
        = Table.mapValues Module.unmarked children :=
      Table.mapValues_set Module.unmarked hc hchild
    show Module.unmarked ⟨className, members, classMethods,
      Table.set name (edit child).2 children, sourceName, isScripted⟩ = _
    rw [Module.unmarked, Module.unmarkedAll_eq, hset, ← Module.unmarkedAll_eq, Module.unmarked]
  · rfl

mutual

theorem apply_keepsRest : ∀ notes : ModuleNotes, KeepsRest (apply notes)
  | .node methods children =>
      (applyNotes_keepsRest methods).bind fun _ => applyAll_keepsRest children

theorem applyAll_keepsRest : ∀ children : List (String × ModuleNotes), KeepsRest (applyAll children)
  | [] => Run.keeps_pure ()
  | (_, notes) :: rest =>
      (onChild_keepsRest (apply_keepsRest notes)).bind fun _ => applyAll_keepsRest rest

end

/-- **ANNOTATIONS DO NOT CHANGE BEHAVIOUR.** -/
theorem apply_sameBehaviour (notes : ModuleNotes) (m : Module) :
    SameBehaviour m (apply notes m).2 :=
  sameBehaviour_of_unmarked_eq (apply_keepsRest notes m).symm

end Notes

end DialectBench
