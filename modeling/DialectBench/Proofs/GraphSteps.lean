import Mathlib.Data.List.Forall2
import DialectBench.Graph.Build

/-!
# What the builders do, step by step

    The builders put operations at four insertion points of one module.  An
    INVERSION LEMMA for each of them says everything that it can do when it does
    not fail: which operands a node finds, what a call emits, how the walk over
    the nodes goes on after a node, where the parts of an attribute are put.

    Read together they give the LAYOUT of a built module (`build_cases`), and
    the body of its function as a TRANSLATION of the nodes.  The proofs about
    built modules rest on these two and do not open the builders.
-/

namespace DialectBench.Graph

/-! ## Steps of a builder -/

section

variable {α β : Type} {d d' : Draft}

/-- A builder that does not fail has done its first step and then the rest. -/
theorem bind_eq_ok {x : Builder α} {f : α → Builder β} {r : β × Draft}
    (h : (x >>= f) d = .ok r) : ∃ a d₁, x d = .ok (a, d₁) ∧ f a d₁ = .ok r := by
  have hbind : (x >>= f) d = (x d).bind fun p => f p.1 p.2 := rfl
  rw [hbind] at h
  cases hx : x d with
  | error e => rw [hx] at h; exact nomatch h
  | ok p =>
      rw [hx] at h
      exact ⟨p.1, p.2, rfl, h⟩

/-- What is computed apart from the module leaves it alone. -/
theorem lift_eq_ok {x : Except Fault α} {a : α} (h : (liftM x : Builder α) d = .ok (a, d')) :
    x = .ok a ∧ d' = d := by
  cases x with
  | error e => exact nomatch h
  | ok b =>
      cases h
      exact ⟨rfl, rfl⟩

end

/-! ## Operands -/

/-- An operand that is found among those of a call is that of a node which the
    call gives under the keyword. -/
theorem mem_of_lookupKwargs {all : List Node} {env : Env} {k : String} {x : Operand} :
    ∀ {kwargs : List (String × NodeArg)} {ops : List (String × Operand)},
      lookupKwargs all env kwargs = .ok ops → (k, x) ∈ ops →
        ∃ j, (k, NodeArg.node j) ∈ kwargs ∧ env.lookup j = some x := by
  intro kwargs
  induction kwargs with
  | nil =>
      intro ops h hx
      cases h
      exact nomatch hx
  | cons e rest ih =>
      intro ops h hx
      obtain ⟨name, a⟩ := e
      cases a with
      | value v =>
          obtain ⟨j, hj, hxj⟩ := ih h hx
          exact ⟨j, List.mem_cons_of_mem _ hj, hxj⟩
      | node j =>
          rw [lookupKwargs, lookupArg] at h
          cases hj : env.lookup j with
          | none =>
              rw [hj] at h
              exact nomatch h
          | some y =>
              rw [hj] at h
              cases hr : lookupKwargs all env rest with
              | error e => rw [hr] at h; exact nomatch h
              | ok ops' =>
                  rw [hr] at h
                  cases h
                  rcases List.mem_cons.mp hx with heq | hmem
                  · cases heq
                    exact ⟨j, List.mem_cons_self, hj⟩
                  · obtain ⟨j', hj', hxj⟩ := ih hr hmem
                    exact ⟨j', List.mem_cons_of_mem _ hj', hxj⟩

/-- The operands of an output are those of the nodes that it uses, in order. -/
theorem forall₂_of_lookupArgs {all : List Node} {env : Env} :
    ∀ {args : List NodeArg} {xs : List Operand}, lookupArgs all env args = .ok xs →
      List.Forall₂ (fun a x => ∃ j, a = NodeArg.node j ∧ env.lookup j = some x) args xs := by
  intro args
  induction args with
  | nil =>
      intro xs h
      cases h
      exact .nil
  | cons a rest ih =>
      intro xs h
      rw [lookupArgs] at h
      cases a with
      | value v => exact nomatch h
      | node j =>
          rw [lookupArg] at h
          cases hj : env.lookup j with
          | none => rw [hj] at h; exact nomatch h
          | some y =>
              rw [hj] at h
              cases hr : lookupArgs all env rest with
              | error e => rw [hr] at h; exact nomatch h
              | ok ys =>
                  rw [hr] at h
                  cases h
                  exact .cons ⟨j, rfl, hj⟩ (ih hr)

/-- Every operand of an output is that of a node which it uses. -/
theorem mem_of_lookupArgs {all : List Node} {env : Env} {args : List NodeArg}
    {xs : List Operand} (h : lookupArgs all env args = .ok xs) {x : Operand} (hx : x ∈ xs) :
    ∃ j, NodeArg.node j ∈ args ∧ env.lookup j = some x := by
  have hall := forall₂_of_lookupArgs h
  clear h
  induction hall with
  | nil => exact nomatch hx
  | cons ha _ ih =>
      rcases List.mem_cons.mp hx with rfl | hx
      · obtain ⟨j, rfl, hj⟩ := ha
        exact ⟨j, List.mem_cons_self, hj⟩
      · obtain ⟨j, hmem, hj⟩ := ih hx
        exact ⟨j, List.mem_cons_of_mem _ hmem, hj⟩

/-! ## Calls -/

/-- A draft with more instructions in its function. -/
def Draft.withBody (d : Draft) (is : List Instr) (next : Nat) : Draft :=
  { d with funcBody := d.funcBody ++ is, next := next }

theorem Draft.withBody_withBody (d : Draft) (is js : List Instr) (n m : Nat) :
    (d.withBody is n).withBody js m = d.withBody (is ++ js) m := by
  unfold Draft.withBody
  rw [List.append_assoc]

/-- The instructions of a call, which depend on its operator, and the number of
    its result. -/
inductive Emits (ops : List (String × Operand)) (next : Nat) : Target → List Instr → Nat → Prop
  | sigmoid {x : Operand} (hx : ops.lookup "input" = some x) :
      Emits ops next (.operator "sigmoid") [.sigmoid next x] next
  | tanh {x : Operand} (hx : ops.lookup "input" = some x) :
      Emits ops next (.operator "tanh") [.tanh next x] next
  | add {x y : Operand} (hx : ops.lookup "input" = some x) (hy : ops.lookup "other" = some y) :
      Emits ops next (.operator "add")
        [.constantInt next 1, .add (next + 1) x y (.result next)] (next + 1)

section

variable {ops : List (String × Operand)} {d d' : Draft} {r : Nat}

theorem insertUnary_cases {make : Nat → Operand → Instr}
    (h : insertUnary make ops d = .ok (r, d')) :
    ∃ x, ops.lookup "input" = some x ∧ r = d.next ∧ d' = d.withBody [make r x] (r + 1) := by
  unfold insertUnary at h
  cases hx : ops.lookup "input" with
  | none => rw [hx] at h; exact nomatch h
  | some x =>
      rw [hx] at h
      cases h
      exact ⟨x, rfl, rfl, rfl⟩

theorem insertAdd_cases (h : insertAdd ops d = .ok (r, d')) :
    ∃ x y, ops.lookup "input" = some x ∧ ops.lookup "other" = some y ∧ r = d.next + 1 ∧
      d' = d.withBody [.constantInt d.next 1, .add r x y (.result d.next)] (r + 1) := by
  unfold insertAdd at h
  cases hx : ops.lookup "input" with
  | none => rw [hx] at h; exact nomatch h
  | some x =>
      cases hy : ops.lookup "other" with
      | none => rw [hx, hy] at h; exact nomatch h
      | some y =>
          rw [hx, hy] at h
          cases h
          refine ⟨x, y, rfl, rfl, rfl, ?_⟩
          rw [Draft.withBody]
          exact congrArg (Draft.mk _ _ _ · _) (List.append_assoc _ _ _)

/-- **A CALL** puts its instructions at the end of the function and touches
    nothing else. -/
theorem insertCall_cases {target : Target} (h : insertCall target ops d = .ok (r, d')) :
    ∃ is, Emits ops d.next target is r ∧ d' = d.withBody is (r + 1) := by
  unfold insertCall at h
  split at h
  -- a missing target and a bare name are refused, as are all but three operators
  · exact nomatch h
  · obtain ⟨x, hx, rfl, rfl⟩ := insertUnary_cases h
    exact ⟨_, .sigmoid hx, rfl⟩
  · obtain ⟨x, hx, rfl, rfl⟩ := insertUnary_cases h
    exact ⟨_, .tanh hx, rfl⟩
  · obtain ⟨x, y, hx, hy, rfl, rfl⟩ := insertAdd_cases h
    exact ⟨_, .add hx hy, rfl⟩
  · exact nomatch h
  · exact nomatch h

end

/-! ## Nodes -/

/-- The instructions of nodes from a position on, given the values of earlier
    nodes and the next free number. -/
inductive Translates (all : List Node) : Nat → Env → Nat → List Node → List Instr → Prop
  | nil {i : Nat} {env : Env} {next : Nat} : Translates all i env next [] []
  | placeholder {i : Nat} {env : Env} {next : Nat} {n : Node} {rest : List Node}
      {body : List Instr} (hsort : n.sort = "placeholder")
      (hrest : Translates all (i + 1) env next rest body) :
      Translates all i env next (n :: rest) body
  | output {i : Nat} {env : Env} {next : Nat} {n : Node} {rest : List Node} {body : List Instr}
      {xs : List Operand} (hsort : n.sort = "output") (hargs : lookupArgs all env n.args = .ok xs)
      (hrest : Translates all (i + 1) env next rest body) :
      Translates all i env next (n :: rest) (.ret xs :: body)
  | call {i : Nat} {env : Env} {next : Nat} {n : Node} {rest : List Node} {body : List Instr}
      {ops : List (String × Operand)} {is : List Instr} {r : Nat}
      (hsort : n.sort = "call_function") (hkwargs : lookupKwargs all env n.kwargs = .ok ops)
      (hcall : Emits ops next n.target is r)
      (hrest : Translates all (i + 1) (Table.set i (.result r) env) (r + 1) rest body) :
      Translates all i env next (n :: rest) (is ++ body)

/-- **THE WALK OVER THE NODES** puts their translation at the end of the
    function and touches nothing else. -/
theorem insertNodes_cases {all nodes : List Node} {i : Nat} {env : Env} {d d' : Draft}
    (h : insertNodes all i env nodes d = .ok ((), d')) :
    ∃ body next, Translates all i env d.next nodes body ∧ d' = d.withBody body next := by
  induction nodes generalizing i env d with
  | nil =>
      cases h
      refine ⟨[], d'.next, .nil, ?_⟩
      rw [Draft.withBody, List.append_nil]
  | cons n rest ih =>
      rw [insertNodes] at h
      generalize hsort : n.sort = sort at h
      split at h
      · obtain ⟨ops, d₁, hops, h⟩ := bind_eq_ok h
        obtain ⟨r, d₂, hcall, h⟩ := bind_eq_ok h
        obtain ⟨hkwargs, rfl⟩ := lift_eq_ok hops
        obtain ⟨is, hemits, rfl⟩ := insertCall_cases hcall
        obtain ⟨body, next, hbody, rfl⟩ := ih h
        exact ⟨is ++ body, next, .call hsort hkwargs hemits hbody, d₁.withBody_withBody _ _ _ _⟩
      · obtain ⟨xs, d₁, hxs, h⟩ := bind_eq_ok h
        obtain ⟨_, d₂, hret, h⟩ := bind_eq_ok h
        obtain ⟨hargs, rfl⟩ := lift_eq_ok hxs
        cases hret
        obtain ⟨body, next, hbody, rfl⟩ := ih h
        exact ⟨.ret xs :: body, next, .output hsort hargs hbody,
          d₁.withBody_withBody [.ret xs] body d₁.next next⟩
      · obtain ⟨body, next, hbody, rfl⟩ := ih h
        exact ⟨body, next, .placeholder hsort hbody, rfl⟩
      · exact nomatch h

/-! ## Attributes -/

/-- The constants of truth values, numbered from a number on. -/
def constantsFrom (i : Nat) (truths : List (String × Bool)) : List (Nat × Bool) :=
  (truths.zipIdx i).map fun t => (t.2, t.1.2)

/-- The slots of truth values, numbered from a number on. -/
def slotsFrom (i : Nat) (truths : List (String × Bool)) : List (String × Operand) :=
  (truths.zipIdx i).map fun t => (t.1.1, .result t.2)

/-- Truth values as attributes. -/
def ofTruths (truths : List (String × Bool)) : List (String × Value) :=
  truths.map fun t => (t.1, .bool t.2)

/-- A draft with more attributes: each is declared in the class, has a slot in
    the instance, and a constant at the top holds its value. -/
def Draft.withAttributes (d : Draft) (truths : List (String × Bool)) : Draft where
  top := d.top ++ (constantsFrom d.next truths).map fun c => .constantBool c.1 c.2
  classBody := d.classBody ++ truths.map fun t => .attribute t.1 truthAsm true
  instanceBody := d.instanceBody ++ (slotsFrom d.next truths).map fun s => .slot s.1 s.2
  funcBody := d.funcBody
  next := d.next + truths.length

theorem Draft.withAttributes_cons (d : Draft) (t : String × Bool) (truths : List (String × Bool)) :
    (d.withAttributes [t]).withAttributes truths = d.withAttributes (t :: truths) := by
  simp [Draft.withAttributes, constantsFrom, slotsFrom, List.zipIdx_cons, Nat.add_assoc,
    Nat.add_comm 1]

theorem insertAttribute_cases {a : String × Value} {d d' : Draft}
    (h : insertAttribute a d = .ok ((), d')) :
    ∃ b, a.2 = .bool b ∧ d' = d.withAttributes [(a.1, b)] := by
  obtain ⟨name, v⟩ := a
  cases v with
  | bool b =>
      cases h
      exact ⟨b, rfl, rfl⟩
  | _ => exact nomatch h

/-- **THE WALK OVER THE ATTRIBUTES** meets truth values only. -/
theorem insertAttributes_cases {attributes : List (String × Value)} {d d' : Draft}
    (h : insertAttributes attributes d = .ok ((), d')) :
    ∃ truths, attributes = ofTruths truths ∧ d' = d.withAttributes truths := by
  induction attributes generalizing d with
  | nil =>
      cases h
      refine ⟨[], rfl, ?_⟩
      simp [Draft.withAttributes, constantsFrom, slotsFrom]
  | cons a rest ih =>
      obtain ⟨_, d₁, hfirst, h⟩ := bind_eq_ok h
      obtain ⟨b, hb, rfl⟩ := insertAttribute_cases hfirst
      obtain ⟨truths, rfl, rfl⟩ := ih h
      refine ⟨(a.1, b) :: truths, ?_, d.withAttributes_cons (a.1, b) truths⟩
      show a :: ofTruths truths = (a.1, .bool b) :: ofTruths truths
      rw [← hb]

/-! ## The layout of a built module -/

/-- The body of the class: the attributes, then the method. -/
def classBody (g : GraphModule) (truths : List (String × Bool)) : List ClassOp :=
  truths.map (fun t => .attribute t.1 truthAsm true) ++
    (if g.hasForward then [.method "forward" (symbolOf (forwardName g.className)) false] else []) ++
    [.terminator]

/-- The body of the instance: a slot for each attribute. -/
def instanceBody (truths : List (String × Bool)) : List InstanceOp :=
  (slotsFrom 0 truths).map (fun s => .slot s.1 s.2) ++ [.terminator]

/-- The function of a module, which returns a tensor of which nothing is known. -/
def forwardFunc (g : GraphModule) (types : List String) (body : List Instr) : Func :=
  ⟨forwardName g.className, ArgType.moduleAsm g.className :: types, [ArgType.anyTensor], body⟩

/-- The operations of a module: the class and its instance, then the constants
    in the slots, then the function. -/
def layout (g : GraphModule) (truths : List (String × Bool)) (f : Func) : List ModuleOp :=
  .classType g.className (classBody g truths) ::
    .nnModule (ArgType.moduleAsm g.className) (instanceBody truths) ::
      ((constantsFrom 0 truths).map (fun c => .constantBool c.1 c.2) ++ [.func f])

/-- The function that an operation is, if any. -/
def ModuleOp.func? : ModuleOp → Option Func
  | .func f => some f
  | _ => none

/-- The functions of a module. -/
def functions (ops : List ModuleOp) : List Func := ops.filterMap ModuleOp.func?

theorem functions_layout (g : GraphModule) (truths : List (String × Bool)) (f : Func) :
    functions (layout g truths f) = [f] := by
  simp [functions, layout, List.filterMap_cons, List.filterMap_append, List.filterMap_map,
    Function.comp_def, ModuleOp.func?]

/-- The draft after the class is built. -/
def classDraft (g : GraphModule) (truths : List (String × Bool)) : Draft where
  top := [.classType g.className, .nnModule (ArgType.moduleAsm g.className)] ++
    (constantsFrom 0 truths).map fun c => .constantBool c.1 c.2
  classBody := classBody g truths
  instanceBody := instanceBody truths
  funcBody := []
  next := truths.length

theorem buildClass_cases {g : GraphModule} {d : Draft} (h : buildClass g .empty = .ok ((), d)) :
    ∃ truths, g.visible = ofTruths truths ∧ d = classDraft g truths := by
  obtain ⟨_, d₁, hopened, h⟩ := bind_eq_ok h
  obtain ⟨_, d₂, hboth, h⟩ := bind_eq_ok h
  obtain ⟨_, d₃, hattributes, h⟩ := bind_eq_ok h
  cases hopened
  cases hboth
  obtain ⟨truths, hvisible, rfl⟩ := insertAttributes_cases hattributes
  refine ⟨truths, hvisible, ?_⟩
  cases hforward : g.hasForward <;> rw [hforward] at h <;> cases h <;>
    simp [classDraft, classBody, instanceBody, Draft.withAttributes, Draft.empty, hforward]

theorem buildFunction_cases {g : GraphModule} {d d' : Draft}
    (h : buildFunction g d = .ok ((), d')) :
    ∃ types body next, placeholderTypes g.nodes = .ok types ∧
      Translates g.nodes 0
        (initialEnv (ArgType.moduleAsm g.className)
          (ArgType.moduleAsm g.className :: types) g.nodes)
        d.next g.nodes body ∧
      d' = Draft.withBody { d with top := d.top ++ [.func (forwardName g.className)
        (ArgType.moduleAsm g.className :: types) [ArgType.anyTensor]] } body next := by
  obtain ⟨types, d₁, hlift, h⟩ := bind_eq_ok h
  obtain ⟨_, d₂, hopened, h⟩ := bind_eq_ok h
  obtain ⟨htypes, rfl⟩ := lift_eq_ok hlift
  cases hopened
  obtain ⟨body, next, hbody, rfl⟩ := insertNodes_cases h
  exact ⟨types, body, next, htypes, hbody, rfl⟩

theorem exists_built {g : GraphModule} (h : (build g).isOk = true) : ∃ ops, build g = .ok ops := by
  cases hb : build g with
  | error e => rw [hb] at h; exact nomatch h
  | ok ops => exact ⟨ops, rfl⟩

/-- **A BUILT MODULE** is laid out with its attributes, which are truth values,
    and the function that the nodes translate to. -/
theorem build_cases {g : GraphModule} {ops : List ModuleOp} (h : build g = .ok ops) :
    ∃ truths types body, g.visible = ofTruths truths ∧
      placeholderTypes g.nodes = .ok types ∧
      Translates g.nodes 0
        (initialEnv (ArgType.moduleAsm g.className)
          (ArgType.moduleAsm g.className :: types) g.nodes)
        truths.length g.nodes body ∧
      ops = layout g truths (forwardFunc g types body) := by
  have hrun : build g = ((buildClass g >>= fun _ => buildFunction g) .empty).map
      fun p => p.2.ops := rfl
  rw [hrun] at h
  cases hd : (buildClass g >>= fun _ => buildFunction g) .empty with
  | error e => rw [hd] at h; exact nomatch h
  | ok p =>
      rw [hd] at h
      cases h
      obtain ⟨_, d₁, hclass, hfunction⟩ := bind_eq_ok hd
      obtain ⟨truths, hvisible, rfl⟩ := buildClass_cases hclass
      obtain ⟨types, body, next, htypes, hbody, hp⟩ := buildFunction_cases hfunction
      refine ⟨truths, types, body, hvisible, htypes, hbody, ?_⟩
      simp [hp, layout, forwardFunc, classDraft, Draft.ops, Draft.withBody, Draft.complete,
        Function.comp_def]

end DialectBench.Graph
