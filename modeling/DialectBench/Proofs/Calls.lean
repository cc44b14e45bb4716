import DialectBench.Proofs.Reach
import DialectBench.Bench.Module

/-!
# Calls that can be repeated

    A call that returned and did not change its arguments in place CAN BE
    REPEATED: in any acyclic store, on any data that show the same values, the
    same method returns again, the datum it returns shows the same value, and
    the module is left in the same state.  So what a call does is a matter of
    values, although programs pass addresses around.

    The one exception is a method that is told by the log of library calls;
    DETERMINISTIC methods are those that are not.  All code over a library whose
    results do not depend on its log is deterministic, however much state it
    keeps in its module.
-/

namespace DialectBench

/-! ## Work on a world -/

section

variable {ω α β : Type}

/-- Work goes on where the first part returned. -/
theorem Run.bind_of_ok {x : Run ω α} {f : α → Run ω β} {w w' : ω} {a : α}
    (h : x w = (.ok a, w')) : (x >>= f) w = f a w' := by
  show (ExceptT.bind x f) w = _
  unfold ExceptT.bind ExceptT.mk
  show (ExceptT.bindCont f (x w).1) (x w).2 = _
  rw [h]
  rfl

/-- Work stops where the first part stopped. -/
theorem Run.bind_of_error {x : Run ω α} {f : α → Run ω β} {w w' : ω} {e : Fault}
    (h : x w = (.error e, w')) : (x >>= f) w = (.error e, w') := by
  show (ExceptT.bind x f) w = _
  unfold ExceptT.bind ExceptT.mk
  show (ExceptT.bindCont f (x w).1) (x w).2 = _
  rw [h]
  rfl

/-- Work that returned went through its first part. -/
theorem Run.bind_eq_ok {x : Run ω α} {f : α → Run ω β} {w w' : ω} {b : β}
    (h : (x >>= f) w = (.ok b, w')) :
    ∃ a w₁, x w = (.ok a, w₁) ∧ f a w₁ = (.ok b, w') := by
  rcases hx : x w with ⟨r, w₁⟩
  cases r with
  | error e =>
      rw [Run.bind_of_error hx] at h
      exact nomatch h
  | ok a =>
      rw [Run.bind_of_ok hx] at h
      exact ⟨a, w₁, rfl, h⟩

/-- How work goes on is decided by how its first part ended. -/
theorem Run.bind_congr {x y : Run ω α} {f : α → Run ω β} {w₁ w₂ : ω} (h : x w₁ = y w₂) :
    (x >>= f) w₁ = (y >>= f) w₂ := by
  rcases hy : y w₂ with ⟨r, w'⟩
  rw [hy] at h
  cases r with
  | error e => rw [Run.bind_of_error h, Run.bind_of_error hy]
  | ok a => rw [Run.bind_of_ok h, Run.bind_of_ok hy]

/-- Work that leaves a part of the world as it was, whether it returns or
    stops. -/
def Run.Keeps {γ : Type} (part : ω → γ) (r : Run ω α) : Prop := ∀ w, part (r w).2 = part w

variable {γ : Type} {part : ω → γ}

theorem Run.keeps_pure (a : α) : Run.Keeps part (pure a : Run ω α) := fun _ => rfl

theorem Run.Keeps.bind {x : Run ω α} {f : α → Run ω β} (hx : Run.Keeps part x)
    (hf : ∀ a, Run.Keeps part (f a)) : Run.Keeps part (x >>= f) := by
  intro w
  have hw := hx w
  rcases h : x w with ⟨r, w'⟩
  rw [h] at hw
  cases r with
  | error e =>
      rw [Run.bind_of_error h]
      exact hw
  | ok a =>
      rw [Run.bind_of_ok h, hf a w']
      exact hw

end

/-! ## Work that is not told by its world -/

/-- The outcome of work is the same in all worlds. -/
def Run.Unaware {ω α : Type} (r : Run ω α) : Prop := ∀ w w', (r w).1 = (r w').1

section

variable {ω α β : Type}

theorem Run.unaware_pure (a : α) : Run.Unaware (pure a : Run ω α) := fun _ _ => rfl

theorem Run.unaware_throw (e : Fault) : Run.Unaware (throw e : Run ω α) := fun _ _ => rfl

theorem Run.Unaware.bind {x : Run ω α} {f : α → Run ω β} (hx : x.Unaware)
    (hf : ∀ a, (f a).Unaware) : (x >>= f).Unaware := by
  intro w w'
  have hout := hx w w'
  rcases h : x w with ⟨r, w₁⟩
  rcases h' : x w' with ⟨r', w₁'⟩
  rw [h, h'] at hout
  obtain rfl : r = r' := hout
  cases r with
  | error e => rw [Run.bind_of_error h, Run.bind_of_error h']
  | ok a =>
      rw [Run.bind_of_ok h, Run.bind_of_ok h']
      exact hf a w₁ w₁'

end

/-- What a library call gives is not told by the log. -/
def Library.Steady (lib : Library) : Prop := ∀ c log log', (lib.call c log).1 = (lib.call c log').1

theorem Library.steady_symbolic : Library.symbolic.Steady := fun _ _ _ => rfl

section

variable {lib : Library}

/-- A library call is arithmetic, or the library's own. -/
theorem LibraryCall.make_cases (lib : Library) (c : LibraryCall) :
    (∃ v, c.make lib = pure v) ∨ c.make lib = lib.call c := by
  unfold LibraryCall.make
  split
  · exact .inl ⟨_, rfl⟩
  · exact .inr rfl

theorem LibraryCall.make_unaware (hlib : lib.Steady) (c : LibraryCall) :
    Run.Unaware (c.make lib : Run Log Value) := by
  intro log log'
  show Except.ok (c.make lib log).1 = Except.ok (c.make lib log').1
  rcases c.make_cases lib with ⟨v, hv⟩ | hcall
  · rw [hv]
    rfl
  · rw [hcall, hlib c log log']

mutual

/-- **CODE OVER A STEADY LIBRARY IS NOT TOLD BY THE LOG.**  Each part of an
    expression gives the same with any log, so that the next one is in the same
    scope. -/
theorem Expr.eval_unaware (hlib : lib.Steady) (scope : Scope) :
    ∀ e : Expr, (e.eval lib scope).Unaware
  | .value v => Run.unaware_pure v
  | .var x => by
      rw [Expr.eval]
      cases scope.vars.lookup x with
      | none => exact Run.unaware_throw _
      | some v => exact Run.unaware_pure v
  | .field x => by
      rw [Expr.eval]
      cases scope.fields.lookup x with
      | none => exact Run.unaware_throw _
      | some v => exact Run.unaware_pure v
  | .list es => by
      rw [Expr.eval]
      exact (Expr.evalAll_unaware hlib scope es).bind fun vs => Run.unaware_pure _
  | .tuple es => by
      rw [Expr.eval]
      exact (Expr.evalAll_unaware hlib scope es).bind fun vs => Run.unaware_pure _
  | .dict ks => by
      rw [Expr.eval]
      exact (Expr.evalKeywords_unaware hlib scope ks).bind fun vs => Run.unaware_pure _
  | .member e name => by
      rw [Expr.eval]
      refine (Expr.eval_unaware hlib scope e).bind fun v => ?_
      cases lib.member name v with
      | error f => exact Run.unaware_throw f
      | ok w => exact Run.unaware_pure w
  | .call f es ks => by
      rw [Expr.eval]
      exact (Expr.evalAll_unaware hlib scope es).bind fun args =>
        (Expr.evalKeywords_unaware hlib scope ks).bind fun keywords =>
          LibraryCall.make_unaware hlib ⟨f, args, keywords⟩

theorem Expr.evalAll_unaware (hlib : lib.Steady) (scope : Scope) :
    ∀ es : List Expr, (Expr.evalAll lib scope es).Unaware
  | [] => Run.unaware_pure []
  | e :: es => by
      rw [Expr.evalAll]
      exact (Expr.eval_unaware hlib scope e).bind fun v =>
        (Expr.evalAll_unaware hlib scope es).bind fun vs => Run.unaware_pure _

theorem Expr.evalKeywords_unaware (hlib : lib.Steady) (scope : Scope) :
    ∀ ks : List (String × Expr), (Expr.evalKeywords lib scope ks).Unaware
  | [] => Run.unaware_pure []
  | (k, e) :: ks => by
      rw [Expr.evalKeywords]
      exact (Expr.eval_unaware hlib scope e).bind fun v =>
        (Expr.evalKeywords_unaware hlib scope ks).bind fun vs => Run.unaware_pure _

end

theorem Stmt.exec_unaware (hlib : lib.Steady) (scope : Scope) (st : Stmt) :
    (st.exec lib scope).Unaware := by
  cases st with
  | set x e => exact (Expr.eval_unaware hlib scope e).bind fun v => Run.unaware_pure _
  | setField x e => exact (Expr.eval_unaware hlib scope e).bind fun v => Run.unaware_pure _
  | run e => exact (Expr.eval_unaware hlib scope e).bind fun v => Run.unaware_pure _

theorem Stmt.execAll_unaware (hlib : lib.Steady) (body : List Stmt) (scope : Scope) :
    (Stmt.execAll lib body scope).Unaware := by
  induction body generalizing scope with
  | nil => exact Run.unaware_pure scope
  | cons st body ih => exact (Stmt.exec_unaware hlib scope st).bind ih

end

/-! ## Repeating what a method does -/

/-- What the body of a method gives is not told by the log. -/
def Body.Deterministic (run : Body) : Prop := ∀ fields args, (run fields args).Unaware

/-- **CODE OVER A STEADY LIBRARY IS DETERMINISTIC**, operator calls and members
    that it sets included. -/
theorem Code.deterministic_run {lib : Library} (hlib : lib.Steady) (c : Code) :
    Body.Deterministic (c.run lib) := by
  intro fields args
  have hrest : (do
      let scope ← Stmt.execAll lib c.body ⟨c.params.zip args, fields, []⟩
      return (← c.result.eval lib scope, scope.assigned) :
        Run Log (Value × List (String × Value))).Unaware :=
    (Stmt.execAll_unaware hlib _ _).bind fun scope =>
      (Expr.eval_unaware hlib scope _).bind fun v => Run.unaware_pure _
  unfold Code.run
  by_cases h : c.params.length ≠ args.length
  · rw [if_pos h]
    exact (Run.unaware_throw _).bind fun _ => hrest
  · rw [if_neg h]
    exact hrest

/-- What a method does is a matter of its arguments, of the values of its module
    and of how often it was called. -/
def Behaviour.Deterministic : Behaviour → Prop
  | .body run => Body.Deterministic run
  | _ => True

/-- On all data that show some values, work returns, lets the store grow and
    ends in a certain way. -/
def Repeats {α : Type} (f : List Datum → Run Store α) (vs : List Value)
    (ends : Store → α → Prop) : Prop :=
  ∀ t es, t.Acyclic → List.Forall₂ t.Shows es vs →
    ∃ a t', f es t = (.ok a, t') ∧ t.Grows t' ∧ ends t' a

/-- Putting a result into shape changes neither the store nor whether there is
    a result. -/
theorem Repeats.map {α β : Type} {f : List Datum → Run Store α} {vs : List Value}
    {P : Store → α → Prop} {Q : Store → β → Prop} {g : α → β} (h : Repeats f vs P)
    (hPQ : ∀ t a, P t a → Q t (g a)) : Repeats (fun es => f es >>= fun a => pure (g a)) vs Q := by
  intro t es ht hes
  obtain ⟨a, t', hf, hgrows, hP⟩ := h t es ht hes
  exact ⟨g a, t', Run.bind_of_ok hf, hgrows, hPQ t' a hP⟩

/-- A value can be put into every store. -/
theorem repeats_thawIn (v : Value) (vs : List Value) :
    Repeats (fun _ => thawIn v) vs fun t o => t.Shows o v := by
  intro t es ht _
  obtain ⟨hgrows, hshows⟩ := v.thaw_shows ht
  exact ⟨(v.thaw t).1, (v.thaw t).2, rfl, hgrows, hshows⟩

/-- How many values a list shows. -/
theorem Store.freeze_list_length {s : Store} {a : Nat} {items : List Datum}
    (hs : 0 < s.cells.length) (h : s.read a = .list items) :
    ∃ vs, s.freeze (.object a) = .list vs ∧ vs.length = items.length := by
  obtain ⟨n, hn⟩ : ∃ n, s.cells.length = n + 1 := ⟨s.cells.length - 1, by omega⟩
  refine ⟨items.map (Datum.freezeWith (s.cellValue n)), ?_, List.length_map _⟩
  show s.cellValue s.cells.length a = _
  rw [hn, Store.cellValue, h]
  rfl

/-- **APPENDING SHOWS**: a list that is appended to does not show what it
    showed before. -/
theorem Store.freeze_append_ne {s t : Store} (h : s.Extends t) {a : Nat} {items : List Datum}
    (ha : a < s.cells.length) (hread : s.read a = .list items) (d : Datum) :
    (t.write a (.list (items ++ [d]))).freeze (.object a) ≠ s.freeze (.object a) := by
  intro heq
  have hat : a < t.cells.length := Nat.lt_of_lt_of_le ha h.length_le
  have hpos : 0 < (t.write a (.list (items ++ [d]))).cells.length := by
    rw [Store.length_cells_write]
    omega
  obtain ⟨vs, hvs, hlen⟩ := Store.freeze_list_length (by omega) hread
  obtain ⟨vs', hvs', hlen'⟩ := Store.freeze_list_length hpos (Store.read_write_self hat)
  rw [hvs, hvs'] at heq
  cases heq
  rw [List.length_append, List.length_singleton] at hlen'
  omega

section

variable {ds : List Datum} {vs : List Value} {s s' : Store} {out : Datum}
  {assigned : List (String × Value)}

/-- Work on the log leaves the cells alone. -/
theorem onLog_of_eq {α : Type} {r : Run Log α} {s : Store} {a : Except Fault α} {log : Log}
    (h : r s.log = (a, log)) : onLog r s = (a, { s with log }) := by
  unfold onLog
  rw [h]

/-- Appending to the first argument, which has to be a list. -/
theorem Behaviour.act_append_object (v : Value) (before : Nat) (fields : List (String × Value))
    (address : Nat) (ds : List Datum) (keywords : List (String × Datum)) (s : Store) :
    (Behaviour.append v).act before fields ⟨.object address :: ds, keywords⟩ s
      = match s.read address with
        | .list items => (.ok (.object address, []),
            (v.thaw s).2.write address (.list (items ++ [(v.thaw s).1])))
        | _ => (.error .noAttribute, s) := by
  have hact : (Behaviour.append v).act before fields ⟨.object address :: ds, keywords⟩ s
      = (match s.read address with
        | .list items => do
          let d ← thawIn v
          modify fun s => s.write address (.list (items ++ [d]))
          return (.object address, [])
        | _ => throw .noAttribute : Run Store (Datum × List (String × Value))) s := rfl
  rw [hact]
  cases s.read address <;> rfl

/-- What appending does: there is a list to append to, or the call is refused. -/
theorem Behaviour.act_append (v : Value) (before : Nat) (fields : List (String × Value))
    (a : Arguments) (s : Store) :
    (∃ address items ds, a.positional = .object address :: ds ∧ s.read address = .list items ∧
      (Behaviour.append v).act before fields a s = (.ok (.object address, []),
        (v.thaw s).2.write address (.list (items ++ [(v.thaw s).1])))) ∨
    ∃ e, (Behaviour.append v).act before fields a s = (.error e, s) := by
  obtain ⟨positional, keywords⟩ := a
  cases positional with
  | nil => exact .inr ⟨_, rfl⟩
  | cons d ds =>
      cases d with
      | leaf _ => exact .inr ⟨_, rfl⟩
      | tuple _ => exact .inr ⟨_, rfl⟩
      | array _ => exact .inr ⟨_, rfl⟩
      | object address =>
          rw [Behaviour.act_append_object]
          cases hread : s.read address with
          | dict _ => exact .inr ⟨_, rfl⟩
          | tensor _ => exact .inr ⟨_, rfl⟩
          | list items => exact .inl ⟨address, items, ds, rfl, hread, rfl⟩

/-- A body reads its arguments, or refuses the call. -/
theorem Behaviour.act_body_cases (run : Body) (before : Nat) (fields : List (String × Value))
    (a : Arguments) (s : Store) :
    (Behaviour.body run).act before fields a s
        = (onLog (run fields (a.positional.map s.freeze)) >>= fun r => do
          return (← thawIn r.1, r.2)) s ∨
      (Behaviour.body run).act before fields a s = (.error .wrongType, s) := by
  obtain ⟨positional, keywords⟩ := a
  cases keywords with
  | nil => exact .inl rfl
  | cons k ks => exact .inr rfl

/-- A body that ran on some values runs on them again. -/
theorem Body.act_repeats {run : Body} (hrun : Body.Deterministic run) {before : Nat}
    {fields : List (String × Value)} (hds : List.Forall₂ s.Shows ds vs)
    (h : (Behaviour.body run).act before fields ⟨ds, []⟩ s = (.ok (out, assigned), s')) :
    ∃ w, Repeats (fun es => (Behaviour.body run).act before fields ⟨es, []⟩) vs
      fun t r => t.Shows r.1 w ∧ r.2 = assigned := by
  have hact : ∀ (ds : List Datum) (s : Store), (Behaviour.body run).act before fields ⟨ds, []⟩ s
      = (onLog (run fields (ds.map s.freeze)) >>= fun r => do return (← thawIn r.1, r.2)) s :=
    fun _ _ => rfl
  rw [hact, (Store.forall₂_shows_iff.mp hds).2] at h
  obtain ⟨⟨w, set⟩, s₁, hout, hrest⟩ := Run.bind_eq_ok h
  obtain ⟨o, s₂, _, hpure⟩ := Run.bind_eq_ok hrest
  obtain rfl : set = assigned := congrArg Prod.snd (Except.ok.inj (congrArg Prod.fst hpure))
  refine ⟨w, fun t es ht hes => ?_⟩
  -- the same comes out with the other log
  have hsame : (run fields vs t.log).1 = .ok (w, set) := by
    rw [hrun fields vs t.log s.log]
    exact congrArg Prod.fst hout
  rcases hagain : run fields vs t.log with ⟨r, log⟩
  rw [hagain] at hsame
  cases hsame
  have hcells : ({ t with log := log } : Store).cells = t.cells := rfl
  obtain ⟨hgrows, hshows⟩ := w.thaw_shows (ht.of_cells_eq hcells)
  refine ⟨((w.thaw { t with log }).1, set), _, ?_,
    (Store.Grows.of_cells_eq ht hcells).trans hgrows, hshows, rfl⟩
  show (Behaviour.body run).act before fields ⟨es, []⟩ t = _
  rw [hact, (Store.forall₂_shows_iff.mp hes).2, Run.bind_of_ok (onLog_of_eq hagain)]
  rfl

/-- What a method did without changing its arguments it does again. -/
theorem Behaviour.act_repeats {b : Behaviour} (hb : b.Deterministic) {before : Nat}
    {fields : List (String × Value)} (hds : List.Forall₂ s.Shows ds vs)
    (h : b.act before fields ⟨ds, []⟩ s = (.ok (out, assigned), s'))
    (hkept : ∀ d ∈ ds, s'.freeze d = s.freeze d) (hs : s.Acyclic) :
    ∃ w, Repeats (fun es => b.act before fields ⟨es, []⟩) vs
      fun t r => t.Shows r.1 w ∧ r.2 = assigned := by
  cases b with
  | const v =>
      cases h
      exact ⟨v, (repeats_thawIn v vs).map fun t o ho => ⟨ho, rfl⟩⟩
  | echo =>
      cases h
      refine ⟨.tuple vs, ?_⟩
      exact fun t es ht hes => ⟨_, t, rfl, Store.Grows.refl ht, Store.shows_tuple hes, rfl⟩
  | first =>
      cases hds with
      | nil => exact nomatch h
      | cons hd hrest =>
          rename_i d v ds vs
          cases h
          refine ⟨v, ?_⟩
          intro t es ht hes
          cases hes with
          | cons he _ => exact ⟨_, t, rfl, Store.Grows.refl ht, he, rfl⟩
  | arity =>
      cases h
      refine ⟨.int (vs.length + ([] : List (String × Datum)).length), ?_⟩
      intro t es ht hes
      rw [← hes.length_eq]
      exact ⟨_, t, rfl, Store.Grows.refl ht, Store.shows_leaf _, rfl⟩
  | keywords =>
      cases h
      refine ⟨.dict [], fun t es ht _ => ?_⟩
      exact ⟨_, _, rfl, ht.alloc fun _ hd => (nomatch hd),
        ht.alloc_shows (c := .dict []) fun _ hd => (nomatch hd), rfl⟩
  | counter =>
      cases h
      exact ⟨.int (before + 1), fun t es ht _ =>
        ⟨_, t, rfl, Store.Grows.refl ht, Store.shows_leaf _, rfl⟩⟩
  | append v =>
      rcases Behaviour.act_append v before fields ⟨ds, []⟩ s with
        ⟨address, items, rest, hpositional, hread, hact⟩ | ⟨e, hact⟩
      · -- the list that is appended to is the first argument
        obtain rfl : ds = .object address :: rest := hpositional
        rw [hact] at h
        cases h
        have haddress : s.Holds (.object address) :=
          (Store.forall₂_shows_iff.mp hds).1 _ List.mem_cons_self
        exact absurd (hkept _ List.mem_cons_self) (Store.freeze_append_ne
          (v.thaw_shows hs).1.kept (Store.holds_object.mp haddress) hread _)
      · rw [hact] at h
        exact nomatch h
  | raise f => exact nomatch h
  | body run => exact Body.act_repeats hb hds h

end

/-! ## What a path leads to -/

/-- What holds of a module whenever it holds of its children holds of every
    module. -/
theorem Module.tree_induction {P : Module → Prop}
    (step : ∀ m : Module, (∀ name c, (name, c) ∈ m.children → P c) → P m) (m : Module) : P m := by
  induction hn : sizeOf m using Nat.strongRecOn generalizing m with
  | _ n ih =>
      refine step m ?_
      intro name c hc
      have hlt : sizeOf c < sizeOf m := by
        have := List.sizeOf_lt_of_mem hc
        cases m
        simp only [Prod.mk.sizeOf_spec, Module.mk.sizeOf_spec] at *
        omega
      exact ih (sizeOf c) (hn ▸ hlt) c rfl

/-- A name leads to the first child of that name, or to none. -/
theorem Module.callChild_cases (name : String) (rest : List String)
    (children : List (String × Module)) :
    (∃ before child after, children = before ++ (name, child) :: after ∧
      ∀ a, Module.callChild children name rest a
        = child.call rest a >>= fun r => pure (r.1, before ++ (name, r.2) :: after)) ∨
    ∀ a, Module.callChild children name rest a = throw .noAttribute := by
  induction children with
  | nil => exact .inr fun a => by rw [Module.callChild]
  | cons e more ih =>
      obtain ⟨n, m⟩ := e
      by_cases hn : (n == name) = true
      · refine .inl ⟨[], m, more, by rw [beq_iff_eq.mp hn]; rfl, ?_⟩
        intro a
        rw [Module.callChild, if_pos hn, beq_iff_eq.mp hn]
        rfl
      · rcases ih with ⟨before, child, after, rfl, heq⟩ | hnone
        · refine .inl ⟨(n, m) :: before, child, after, rfl, ?_⟩
          intro a
          rw [Module.callChild, if_neg hn, heq, bind_assoc]
          rfl
        · refine .inr fun a => ?_
          rw [Module.callChild, if_neg hn, hnone]
          rfl

/-- The module after a call of a method of its instance. -/
def Module.withMethod (m : Module) (name : String) (method : Method)
    (assigned : List (String × Value)) : Module :=
  { m with members := setValues (Table.set name (.method method) m.members) assigned }

/-- The module after a call of a method of its class. -/
def Module.withClassMethod (m : Module) (name : String) (method : Method)
    (assigned : List (String × Value)) : Module :=
  { m with
    members := setValues m.members assigned
    classMethods := Table.set name method m.classMethods }

/-- **WHAT A PATH LEADS TO**: a method of the instance, a method of the class,
    a value, something in a child module, or nothing.  A call puts back what it
    changed and leaves the rest of the module alone. -/
theorem Module.call_cases (m : Module) (path : List String) :
    (∃ name method, (name, .method method) ∈ m.members ∧
      ∀ a, m.call path a = method.call (memberValues m.members) a >>= fun r =>
        pure (r.1, m.withMethod name r.2.1 r.2.2)) ∨
    (∃ name method, (name, method) ∈ m.classMethods ∧
      ∀ a, m.call path a = method.call (memberValues m.members) a >>= fun r =>
        pure (r.1, m.withClassMethod name r.2.1 r.2.2)) ∨
    (∃ v rest, ∀ a, m.call path a = Value.callMember v rest a >>= fun o => pure (o, m)) ∨
    (∃ before name child after rest, m.children = before ++ (name, child) :: after ∧
      ∀ a, m.call path a = child.call rest a >>= fun r =>
        pure (r.1, { m with children := before ++ (name, r.2) :: after })) ∨
    ∃ f, ∀ a, m.call path a = throw f := by
  obtain ⟨className, members, classMethods, children, sourceName, isScripted⟩ := m
  rcases hp : splitPath path with ⟨name, rest⟩
  cases hm : members.lookup name with
  | some member =>
      cases member with
      | value v =>
          refine .inr (.inr (.inl ⟨v, rest, ?_⟩))
          intro a
          simp only [Module.call, hp, hm]
      | method method =>
          by_cases hr : (!rest.isEmpty) = true
          · refine .inr (.inr (.inr (.inr ⟨.noAttribute, fun a => ?_⟩)))
            simp only [Module.call, hp, hm, if_pos hr]
            rfl
          · refine .inl ⟨name, method, Table.mem_of_lookup hm, fun a => ?_⟩
            simp only [Module.call, hp, hm, if_neg hr]
            rfl
  | none =>
      cases hc : classMethods.lookup name with
      | some method =>
          by_cases hr : (!rest.isEmpty) = true
          · refine .inr (.inr (.inr (.inr ⟨.noAttribute, fun a => ?_⟩)))
            simp only [Module.call, hp, hm, hc, if_pos hr]
            rfl
          · refine .inr (.inl ⟨name, method, Table.mem_of_lookup hc, fun a => ?_⟩)
            simp only [Module.call, hp, hm, hc, if_neg hr]
            rfl
      | none =>
          rcases Module.callChild_cases name rest children with
            ⟨before, child, after, hch, heq⟩ | hnone
          · refine .inr (.inr (.inr (.inl ⟨before, name, child, after, rest, hch, fun a => ?_⟩)))
            simp only [Module.call, hp, hm, hc, heq, bind_assoc]
            rfl
          · refine .inr (.inr (.inr (.inr ⟨.noAttribute, fun a => ?_⟩)))
            simp only [Module.call, hp, hm, hc, hnone]
            rfl

/-! ## Repeating calls into modules -/

/-- All methods in a tree of modules are deterministic. -/
inductive Module.Deterministic : Module → Prop where
  | intro {m : Module}
      (members : ∀ name method, (name, Member.method method) ∈ m.members →
        method.behaviour.Deterministic)
      (classMethods : ∀ name method, (name, method) ∈ m.classMethods →
        method.behaviour.Deterministic)
      (children : ∀ name c, (name, c) ∈ m.children → c.Deterministic) : m.Deterministic

/-- A call of a method counts it and changes nothing else of it. -/
theorem Method.call_eq_ok {method method' : Method} {fields assigned : List (String × Value)}
    {a : Arguments} {s s' : Store} {out : Datum}
    (h : method.call fields a s = (.ok (out, method', assigned), s')) :
    method.behaviour.act method.calls fields a s = (.ok (out, assigned), s') ∧
      method' = { method with calls := method.calls + 1 } := by
  obtain ⟨o, s₁, hact, hpure⟩ := Run.bind_eq_ok h
  cases hpure
  exact ⟨hact, rfl⟩

/-- Setting values adds no methods. -/
theorem mem_of_mem_setValues {members : Table String Member} {fields : List (String × Value)}
    {name : String} {method : Method} (h : (name, .method method) ∈ setValues members fields) :
    (name, .method method) ∈ members := by
  induction fields generalizing members with
  | nil => exact h
  | cons f fields ih =>
      have hmem := ih h
      unfold setValue at hmem
      split at hmem
      · exact hmem
      · rcases Table.mem_set hmem with heq | hold
        · exact nomatch heq
        · exact hold

section

variable {ds : List Datum} {vs : List Value} {s s' : Store} {out : Datum}

theorem Method.call_repeats {method method' : Method} (hm : method.behaviour.Deterministic)
    {fields assigned : List (String × Value)} (hs : s.Acyclic)
    (hds : List.Forall₂ s.Shows ds vs)
    (h : method.call fields ⟨ds, []⟩ s = (.ok (out, method', assigned), s'))
    (hkept : ∀ d ∈ ds, s'.freeze d = s.freeze d) :
    ∃ w, Repeats (fun es => method.call fields ⟨es, []⟩) vs
      fun t r => t.Shows r.1 w ∧ r.2 = (method', assigned) := by
  obtain ⟨hact, rfl⟩ := Method.call_eq_ok h
  obtain ⟨w, hw⟩ := Behaviour.act_repeats hm hds hact hkept hs
  exact ⟨w, hw.map fun t r hr => ⟨hr.1, by rw [hr.2]⟩⟩

/-- The one member of values that can be called gives nothing. -/
theorem Value.callMember_repeats {v : Value} {path : List String}
    (hds : List.Forall₂ s.Shows ds vs)
    (h : Value.callMember v path ⟨ds, []⟩ s = (.ok out, s')) :
    ∃ w, Repeats (fun es => Value.callMember v path ⟨es, []⟩) vs fun t o => t.Shows o w := by
  refine ⟨.none, ?_⟩
  intro t es ht hes
  have hlen : es.length = ds.length := hes.length_eq.trans hds.length_eq.symm
  unfold Value.callMember at h ⊢
  split at h
  · exact nomatch h
  · split at h
    · rename_i hone
      have hone' : (es.length == 1 && ([] : List (String × Datum)).isEmpty) = true := by
        rw [hlen]
        exact hone
      exact ⟨.leaf .none, t, congrFun (if_pos hone') t, Store.Grows.refl ht,
        Store.shows_leaf _⟩
    · exact nomatch h
  · exact nomatch h

end

/-- Calls count and set values, so that methods stay deterministic. -/
theorem Module.Deterministic.call {m : Module} (hm : m.Deterministic) :
    ∀ {path : List String} {a : Arguments} {s s' : Store} {out : Datum} {m' : Module},
      m.call path a s = (.ok (out, m'), s') → m'.Deterministic := by
  induction hm with
  | intro hmembers hclass hchildren ih =>
      rename_i m
      intro path a s s' out m' h
      rcases m.call_cases path with ⟨name, method, hmem, heq⟩ | ⟨name, method, hmem, heq⟩ |
        ⟨v, rest, heq⟩ | ⟨before, name, child, after, rest, hch, heq⟩ | ⟨f, heq⟩
      · rw [heq] at h
        obtain ⟨⟨o, method', assigned⟩, s₁, hcall, hpure⟩ := Run.bind_eq_ok h
        cases hpure
        obtain ⟨_, rfl⟩ := Method.call_eq_ok hcall
        refine ⟨?_, hclass, hchildren⟩
        intro name' method' hmem'
        rcases Table.mem_set (mem_of_mem_setValues hmem') with heq' | hold
        · cases heq'
          exact hmembers name method hmem
        · exact hmembers name' method' hold
      · rw [heq] at h
        obtain ⟨⟨o, method', assigned⟩, s₁, hcall, hpure⟩ := Run.bind_eq_ok h
        cases hpure
        obtain ⟨_, rfl⟩ := Method.call_eq_ok hcall
        refine ⟨fun name' method' hmem' =>
          hmembers name' method' (mem_of_mem_setValues hmem'), ?_, hchildren⟩
        intro name' method' hmem'
        rcases Table.mem_set hmem' with heq' | hold
        · cases heq'
          exact hclass name method hmem
        · exact hclass name' method' hold
      · rw [heq] at h
        obtain ⟨o, s₁, _, hpure⟩ := Run.bind_eq_ok h
        cases hpure
        exact ⟨hmembers, hclass, hchildren⟩
      · rw [heq] at h
        obtain ⟨⟨o, child'⟩, s₁, hcall, hpure⟩ := Run.bind_eq_ok h
        cases hpure
        rw [hch] at hchildren ih
        refine ⟨hmembers, hclass, ?_⟩
        intro name' c hc
        rcases List.mem_append.mp hc with hbefore | hrest
        · exact hchildren name' c (List.mem_append_left _ hbefore)
        · rcases List.mem_cons.mp hrest with hself | hafter
          · cases hself
            exact ih name child (List.mem_append_right _ List.mem_cons_self) hcall
          · exact hchildren name' c (List.mem_append_right _ (List.mem_cons_of_mem _ hafter))
      · rw [heq] at h
        exact nomatch h

/-- **CALLS CAN BE REPEATED**: a call into a module with deterministic methods
    that returned and left its arguments as they were returns on all data that
    show the same values, with a result that shows the same value and the same
    next state of the module. -/
theorem Module.call_repeats (m : Module) :
    ∀ {path : List String} {ds : List Datum} {vs : List Value} {s s' : Store} {out : Datum}
      {m' : Module}, m.Deterministic → s.Acyclic → List.Forall₂ s.Shows ds vs →
      m.call path ⟨ds, []⟩ s = (.ok (out, m'), s') →
      (∀ d ∈ ds, s'.freeze d = s.freeze d) →
        ∃ w, Repeats (fun es => m.call path ⟨es, []⟩) vs
          fun t r => t.Shows r.1 w ∧ r.2 = m' := by
  induction m using Module.tree_induction with
  | step m ih =>
      intro path ds vs s s' out m' hdet hs hds h hkept
      obtain ⟨hmembers, hclass, hchildren⟩ := hdet
      rcases m.call_cases path with ⟨name, method, hmem, heq⟩ | ⟨name, method, hmem, heq⟩ |
        ⟨v, rest, heq⟩ | ⟨before, name, child, after, rest, hch, heq⟩ | ⟨f, heq⟩
      · simp only [heq] at h ⊢
        obtain ⟨⟨o, method', assigned⟩, s₁, hcall, hpure⟩ := Run.bind_eq_ok h
        cases hpure
        obtain ⟨w, hw⟩ := Method.call_repeats (hmembers name method hmem) hs hds hcall hkept
        exact ⟨w, hw.map fun t r hr => ⟨hr.1, by rw [hr.2]⟩⟩
      · simp only [heq] at h ⊢
        obtain ⟨⟨o, method', assigned⟩, s₁, hcall, hpure⟩ := Run.bind_eq_ok h
        cases hpure
        obtain ⟨w, hw⟩ := Method.call_repeats (hclass name method hmem) hs hds hcall hkept
        exact ⟨w, hw.map fun t r hr => ⟨hr.1, by rw [hr.2]⟩⟩
      · simp only [heq] at h ⊢
        obtain ⟨o, s₁, hcall, hpure⟩ := Run.bind_eq_ok h
        cases hpure
        obtain ⟨w, hw⟩ := Value.callMember_repeats hds hcall
        exact ⟨w, hw.map fun t o ho => ⟨ho, rfl⟩⟩
      · simp only [heq] at h ⊢
        obtain ⟨⟨o, child'⟩, s₁, hcall, hpure⟩ := Run.bind_eq_ok h
        cases hpure
        have hmem : (name, child) ∈ m.children :=
          hch ▸ List.mem_append_right before List.mem_cons_self
        obtain ⟨w, hw⟩ := ih name child hmem (hchildren name child hmem) hs hds hcall hkept
        exact ⟨w, hw.map fun t r hr => ⟨hr.1, by rw [hr.2]⟩⟩
      · rw [heq] at h
        exact nomatch h

end DialectBench
