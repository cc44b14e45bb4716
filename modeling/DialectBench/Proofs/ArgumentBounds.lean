import Mathlib.Data.List.Forall2
import DialectBench.Graph.Bounds

/-!
# Setting bounds touches one attribute of one function

    Types are turned into bounds one after the other, and the first tensor type
    that has no type in the dialect ends the work (`bounds_cases`).  Nothing is
    written before all of them are there, and what is written is one attribute of
    the first function of the name (`annotate_cases`).  So setting bounds does
    all of it or nothing, whatever else the module holds and wherever the function
    and the type stand (`annotate_all_or_nothing`).
-/

namespace DialectBench.Graph

variable {parse : String → Except Fault String}

/-! ## Bounds of types -/

/-- Whether a type is that of a tensor. -/
def ArgType.isTensor : ArgType → Bool
  | .tensor _ _ => true
  | .plain _ => false
  | .module _ => false
  | .bare _ => false

/-- The dictionary that bounds an argument: it holds the type of a tensor, and nothing
    for all else. -/
inductive Bounds (parse : String → Except Fault String) : ArgType → Attribute → Prop where
  | tensor {t : ArgType} {asm : String} (ht : t.isTensor = true) (hasm : t.typed parse = .ok asm) :
    Bounds parse t (.dict [("torch.type_bound", .type asm)])
  | other {t : ArgType} (ht : t.isTensor = false) : Bounds parse t (.dict [])

/-- A tensor type that has no type in the dialect. -/
def Refused (parse : String → Except Fault String) (t : ArgType) (e : Fault) : Prop :=
  t.isTensor = true ∧ t.typed parse = .error e

theorem bound_of_tensor {t : ArgType} (ht : t.isTensor = true) :
    bound parse t = (t.typed parse).map fun asm => .dict [(boundName, .type asm)] := by
  cases t with
  | tensor shape dtype => rfl
  | plain c => exact nomatch ht
  | module name => exact nomatch ht
  | bare c => exact nomatch ht

theorem bound_of_other {t : ArgType} (ht : t.isTensor = false) :
    bound parse t = .ok (.dict []) := by
  cases t with
  | tensor shape dtype => exact nomatch ht
  | plain c => rfl
  | module name => rfl
  | bare c => rfl

/-- **A TYPE IS BOUNDED OR REFUSED**, and refused only if it is that of a tensor. -/
theorem bound_cases (parse : String → Except Fault String) (t : ArgType) :
    (∃ a, bound parse t = .ok a ∧ Bounds parse t a) ∨
      ∃ e, bound parse t = .error e ∧ Refused parse t e := by
  cases ht : t.isTensor with
  | false => exact .inl ⟨_, bound_of_other ht, .other ht⟩
  | true =>
      rw [bound_of_tensor ht]
      cases hasm : t.typed parse with
      | ok asm => exact .inl ⟨_, rfl, .tensor ht hasm⟩
      | error e => exact .inr ⟨e, rfl, ht, hasm⟩

theorem Bounds.not_refused {t : ArgType} {a : Attribute} (h : Bounds parse t a) (e : Fault) :
    ¬ Refused parse t e := by
  rintro ⟨ht, he⟩
  cases h with
  | tensor _ hasm => exact nomatch hasm.symm.trans he
  | other hother => exact nomatch hother.symm.trans ht

/-- **TYPES ARE BOUNDED ALL TOGETHER OR UP TO THE FIRST THAT IS REFUSED.** -/
theorem bounds_cases (parse : String → Except Fault String) (types : List ArgType) :
    (∃ bs, bounds parse types = .ok bs ∧ List.Forall₂ (Bounds parse) types bs) ∨
      ∃ e earlier t later, bounds parse types = .error e ∧ types = earlier ++ t :: later ∧
        (∀ u ∈ earlier, ∀ e', ¬ Refused parse u e') ∧ Refused parse t e := by
  induction types with
  | nil => exact .inl ⟨[], rfl, .nil⟩
  | cons t ts ih =>
      rw [bounds]
      rcases bound_cases parse t with ⟨a, hbound, ha⟩ | ⟨e, hbound, he⟩
      · rw [hbound]
        rcases ih with ⟨bs, hbs, hall⟩ | ⟨e, earlier, u, later, hfault, rfl, hearlier, hu⟩
        · exact .inl ⟨a :: bs, by rw [hbs]; rfl, .cons ha hall⟩
        · refine .inr ⟨e, t :: earlier, u, later, by rw [hfault]; rfl, rfl, ?_, hu⟩
          exact List.forall_mem_cons.mpr ⟨ha.not_refused, hearlier⟩
      · -- the types behind one that is refused are not looked at
        rw [hbound]
        exact .inr ⟨e, [], t, ts, rfl, rfl, nofun, he⟩

/-! ## The first function of a name -/

/-- What a search finds is the first of its kind, and a change at its place changes
    nothing else. -/
theorem exists_split_of_findIdx? {α : Type} {p : α → Bool} {xs : List α} {i : Nat}
    (h : xs.findIdx? p = some i) :
    ∃ before x after, xs = before ++ x :: after ∧ (∀ y ∈ before, p y = false) ∧ p x = true ∧
      ∀ f : α → α, xs.modify i f = before ++ f x :: after := by
  obtain ⟨hlt, hp, hbefore⟩ := List.findIdx?_eq_some_iff_getElem.mp h
  refine ⟨xs.take i, xs[i], xs.drop (i + 1), ?_, ?_, hp, ?_⟩
  · rw [← List.drop_eq_getElem_cons hlt, List.take_append_drop]
  · intro y hy
    obtain ⟨j, hj, rfl⟩ := List.mem_take_iff_getElem.mp hy
    exact Bool.eq_false_iff.mpr (hbefore j (by omega))
  · intro f
    exact List.modify_eq_take_cons_drop hlt

/-! ## Setting bounds -/

/-- **THE THREE WAYS IN WHICH SETTING BOUNDS CAN END.** -/
theorem annotate_cases (parse : String → Except Fault String) (name : String)
    (types : List ArgType) (ops : List TopOp) :
    ((∀ op ∈ ops, op.isNamed name = false) ∧
      annotate parse name types ops = (.error missingFunction, ops)) ∨
    ∃ before op after, ops = before ++ op :: after ∧ (∀ o ∈ before, o.isNamed name = false) ∧
      op.isNamed name = true ∧
      ((∃ bs, List.Forall₂ (Bounds parse) types bs ∧
          annotate parse name types ops
            = (.ok (), before ++ op.put boundsName (.array bs) :: after)) ∨
        ∃ e earlier t later, types = earlier ++ t :: later ∧
          (∀ u ∈ earlier, ∀ e', ¬ Refused parse u e') ∧ Refused parse t e ∧
          annotate parse name types ops = (.error e, ops)) := by
  unfold annotate
  cases hfind : ops.findIdx? (·.isNamed name) with
  | none => exact .inl ⟨List.findIdx?_eq_none_iff.mp hfind, rfl⟩
  | some i =>
      obtain ⟨before, op, after, rfl, hbefore, hop, hmodify⟩ := exists_split_of_findIdx? hfind
      refine .inr ⟨before, op, after, rfl, hbefore, hop, ?_⟩
      rcases bounds_cases parse types with
        ⟨bs, hbs, hall⟩ | ⟨e, earlier, t, later, hfault, hsplit, hearlier, ht⟩
      · refine .inl ⟨bs, hall, ?_⟩
        simp only [hbs, hmodify]
      · refine .inr ⟨e, earlier, t, later, hsplit, hearlier, ht, ?_⟩
        simp only [hfault]

theorem TopOp.lookup_put (op : TopOp) (key key' : String) (a : Attribute) :
    (op.put key a).attributes.lookup key'
      = if key' = key then some a else op.attributes.lookup key' := by
  show (Table.set key a op.attributes).lookup key' = _
  rw [Table.lookup_set]
  simp only [beq_iff_eq]

/-- **BOUNDS ARE SET ALL OR NOT AT ALL.**  Setting bounds succeeds exactly if there is a
    function of the name and no tensor type is refused.  Then the first function of
    the name has the bounds, one dictionary a type and in their order, and all its
    other attributes and all other operations are as before.  Otherwise all operations
    are as before, and the fault is that of the missing function, or else that of the
    first tensor type that is refused. -/
theorem annotate_all_or_nothing (parse : String → Except Fault String) (name : String)
    (types : List ArgType) (ops : List TopOp) :
    ((annotate parse name types ops).1 = .ok () ↔
      (∃ op ∈ ops, op.isNamed name = true) ∧ ∀ t ∈ types, ∀ e, ¬ Refused parse t e) ∧
    ((annotate parse name types ops).1 = .ok () →
      ∃ before op op' after bs, ops = before ++ op :: after ∧
        (annotate parse name types ops).2 = before ++ op' :: after ∧
        (∀ o ∈ before, o.isNamed name = false) ∧ op.isNamed name = true ∧
        op'.name = op.name ∧ op'.isFunction = op.isFunction ∧
        op'.attributes.lookup "arg_attrs" = some (.array bs) ∧
        (∀ key, key ≠ "arg_attrs" → op'.attributes.lookup key = op.attributes.lookup key) ∧
        List.Forall₂ (Bounds parse) types bs) ∧
    ∀ e, (annotate parse name types ops).1 = .error e →
      (annotate parse name types ops).2 = ops ∧
      (((∀ op ∈ ops, op.isNamed name = false) ∧ e = missingFunction) ∨
        (∃ op ∈ ops, op.isNamed name = true) ∧
          ∃ earlier t later, types = earlier ++ t :: later ∧
            (∀ u ∈ earlier, ∀ e', ¬ Refused parse u e') ∧ Refused parse t e) := by
  rcases annotate_cases parse name types ops with
    ⟨hnone, hrun⟩ | ⟨before, op, after, rfl, hbefore, hop, hend⟩
  · rw [hrun]
    refine ⟨iff_of_false nofun ?_, nofun, ?_⟩
    · rintro ⟨⟨op, hmem, hop⟩, -⟩
      exact Bool.false_ne_true ((hnone op hmem).symm.trans hop)
    · intro e he
      exact ⟨rfl, .inl ⟨hnone, (Except.error.inj he).symm⟩⟩
  · have hmem : op ∈ before ++ op :: after := List.mem_append_right _ List.mem_cons_self
    rcases hend with ⟨bs, hall, hrun⟩ | ⟨e, earlier, t, later, rfl, hearlier, ht, hrun⟩
    · rw [hrun]
      refine ⟨iff_of_true rfl ⟨⟨op, hmem, hop⟩, ?_⟩, fun _ => ?_, nofun⟩
      · intro t ht
        obtain ⟨k, hk, rfl⟩ := List.mem_iff_getElem.mp ht
        exact (hall.get hk (hall.length_eq ▸ hk)).not_refused
      · refine ⟨before, op, op.put boundsName (.array bs), after, bs, rfl, rfl, hbefore, hop, rfl,
          rfl, ?_, ?_, hall⟩
        · rw [TopOp.lookup_put]
          exact if_pos rfl
        · intro key hkey
          rw [TopOp.lookup_put]
          exact if_neg hkey
    · rw [hrun]
      refine ⟨iff_of_false nofun ?_, nofun, ?_⟩
      · rintro ⟨-, hnone⟩
        exact hnone t (List.mem_append_right _ List.mem_cons_self) e ht
      · intro e' he'
        cases he'
        exact ⟨rfl, .inr ⟨⟨op, hmem, hop⟩, earlier, t, later, rfl, hearlier, ht⟩⟩

/-- A module in which two functions are called `f`, and so is an operation that is no function. -/
def crowded : List TopOp :=
  [⟨"f", false, []⟩, ⟨"g", true, []⟩, ⟨"f", true, [("sym_visibility", .other "private")]⟩,
    ⟨"f", true, []⟩]

/-- A tensor of known shape, an integer, and a tensor of which nothing is known. -/
def mixedTypes : List ArgType :=
  [.tensor (.list [.int 2, .none]) (.dtype "float32"), .plain .int, .tensor .none .none]

/-- The bounds go to the third operation, behind what it has. -/
example : annotate .ok "f" mixedTypes crowded
    = (.ok (), [⟨"f", false, []⟩, ⟨"g", true, []⟩,
        ⟨"f", true, [("sym_visibility", .other "private"),
          ("arg_attrs", .array [.dict [("torch.type_bound", .type "!torch.vtensor<[2,?],f32>")],
            .dict [], .dict [("torch.type_bound", .type "!torch.tensor")]])]⟩,
        ⟨"f", true, []⟩]) := rfl

/-- All is set, or with an element type that is not supported, at the end of the types, nothing. -/
theorem annotate_all_or_nothing_crowded :
    (∃ before op op' after bs, crowded = before ++ op :: after ∧
      (annotate .ok "f" mixedTypes crowded).2 = before ++ op' :: after ∧
      op'.attributes.lookup "arg_attrs" = some (.array bs) ∧
      op'.attributes.lookup "sym_visibility" = op.attributes.lookup "sym_visibility" ∧
      List.Forall₂ (Bounds .ok) mixedTypes bs) ∧
    (annotate .ok "f" (mixedTypes ++ [.tensor .none (.dtype "int64")]) crowded).2 = crowded := by
  obtain ⟨-, hset, -⟩ := annotate_all_or_nothing .ok "f" mixedTypes crowded
  obtain ⟨before, op, op', after, bs, hops, hafter, -, -, -, -, hbounds, hothers, hall⟩ := hset rfl
  obtain ⟨-, -, hkept⟩ := annotate_all_or_nothing .ok "f"
    (mixedTypes ++ [.tensor .none (.dtype "int64")]) crowded
  exact ⟨⟨before, op, op', after, bs, hops, hafter, hbounds, hothers _ (by decide), hall⟩,
    (hkept (.unsupported "Unsupported dtype: torch.int64") rfl).1⟩

end DialectBench.Graph
