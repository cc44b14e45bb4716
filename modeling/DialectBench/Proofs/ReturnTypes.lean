import DialectBench.Proofs.Translation

/-!
# Types at the return

    The type of an operand is read off the function that it stands in: an
    argument has the type that the function declares for it, a result has the
    type that the instruction gives it.  A built function always declares ONE
    result, a tensor of which nothing is known, before its body is looked at.
    What it returns is decided by the output of the graph.

    The route is a TYPING of the environment along the list of nodes: what a
    node was given has the type of the node.  The types at a return are then
    the types of the nodes that the output uses, and the return fits the
    declaration for exactly those outputs that use one node, a call or a
    placeholder said to be a tensor of which nothing is known.
-/

namespace DialectBench.Graph

/-! ## Types of operands and of nodes -/

/-- The results of an instruction, each with its type. -/
def Instr.typedResults (i : Instr) : Table Nat String := i.results.zip i.resultTypes

/-- The type of an operand in a function. -/
def Func.typeOf (f : Func) : Operand → Option String
  | .arg n => f.argTypes[n]?
  | .result r => (f.body.flatMap Instr.typedResults).lookup r

/-- The operands that an instruction returns, if it is a return. -/
def Instr.returned? : Instr → Option (List Operand)
  | .ret xs => some xs
  | _ => none

/-- The operands of the returns of a function, in order. -/
def Func.returns (f : Func) : List (List Operand) := f.body.filterMap Instr.returned?

/-- Whether a node is an output. -/
def Node.isOutput (n : Node) : Bool := n.sort == "output"

/-- The type of what a node stands for: of a placeholder, what was said about
    it; of a call, the tensor of which nothing is known. -/
def Node.valueType (n : Node) : Option String :=
  match n.sort with
  | "placeholder" => n.argType.bind fun t => t.asm.toOption
  | "call_function" => some ArgType.anyTensor
  | _ => none

/-- A node that stands for a tensor of which nothing is known. -/
def Node.OpenTensor (n : Node) : Prop :=
  n.isCall = true ∨ (n.isPlaceholder = true ∧ ∃ shape, n.argType = some (.tensor shape .none))

theorem Node.valueType_placeholder {n : Node} (h : n.isPlaceholder = true) :
    n.valueType = n.argType.bind fun t => t.asm.toOption := by
  have hs : n.sort = "placeholder" := beq_iff_eq.mp h
  simp only [Node.valueType, hs]

theorem Node.valueType_call {n : Node} (h : n.isCall = true) :
    n.valueType = some ArgType.anyTensor := by
  have hs : n.sort = "call_function" := beq_iff_eq.mp h
  simp only [Node.valueType, hs]

/-- Only placeholders and calls stand for something that has a type. -/
theorem Node.sort_of_valueType {n : Node} {s : String} (h : n.valueType = some s) :
    n.isPlaceholder = true ∨ n.isCall = true := by
  unfold Node.valueType at h
  split at h
  · rename_i hs
    exact .inl (beq_iff_eq.mpr hs)
  · rename_i hs
    exact .inr (beq_iff_eq.mpr hs)
  · exact nomatch h

/-- The type of a tensor or of plain values is the tensor of which nothing is
    known only where no element type is said. -/
theorem asm_eq_anyTensor_iff {t : ArgType} (ht : t.isData = true) :
    t.asm = .ok ArgType.anyTensor ↔ ∃ shape, t = .tensor shape .none := by
  constructor
  · intro h
    cases t with
    | module name => exact nomatch ht
    | bare c => exact nomatch ht
    | plain c =>
        -- the plain classes that have a type have another one
        cases c with
        | bool => exact absurd (Except.ok.inj h) (by decide)
        | int => exact absurd (Except.ok.inj h) (by decide)
        | none => exact absurd (Except.ok.inj h) (by decide)
        | _ => exact nomatch h
    | tensor shape dtype =>
        rcases asm_tensor_cases h with ⟨rfl, _⟩ | ⟨sh, d, hs⟩
        · exact ⟨shape, rfl⟩
        · have htake := take_vtensor sh d
          rw [← hs] at htake
          exact absurd htake (by decide)
  · rintro ⟨shape, rfl⟩
    rfl

/-- A typed node stands for a tensor of which nothing is known exactly if that
    is its type. -/
theorem openTensor_iff {nodes : List Node} (hdata : DataArguments nodes) {n : Node}
    (hn : n ∈ nodes) : n.OpenTensor ↔ n.valueType = some ArgType.anyTensor := by
  constructor
  · rintro (hcall | ⟨hp, shape, ht⟩)
    · exact Node.valueType_call hcall
    · rw [Node.valueType_placeholder hp, ht]
      rfl
  · intro h
    rcases Node.sort_of_valueType h with hp | hcall
    · right
      refine ⟨hp, ?_⟩
      obtain ⟨t, ht, hd⟩ := hdata n hn hp
      rw [Node.valueType_placeholder hp, ht, Option.bind_some] at h
      cases hasm : t.asm with
      | error e => rw [hasm] at h; exact nomatch h
      | ok s =>
          rw [hasm] at h
          cases h
          obtain ⟨shape, rfl⟩ := (asm_eq_anyTensor_iff hd).mp hasm
          exact ⟨shape, ht⟩
    · exact .inl hcall

/-! ## The typing of the environment -/

/-- An operand of a type, given the types of the arguments and of the results
    assigned so far. -/
def HasType (argTypes : List String) (assigned : Table Nat String) : Operand → String → Prop
  | .arg n, s => argTypes[n]? = some s
  | .result r, s => (r, s) ∈ assigned

theorem HasType.append {argTypes : List String} {assigned : Table Nat String} {x : Operand}
    {s : String} (h : HasType argTypes assigned x s) (more : Table Nat String) :
    HasType argTypes (assigned ++ more) x s := by
  cases x with
  | arg n => exact h
  | result r => exact List.mem_append_left more h

/-- Operands that have the type of the node that they were given to. -/
def StandsFor (all : List Node) (argTypes : List String) (assigned : Table Nat String)
    (j : Nat) (x : Operand) : Prop :=
  ∃ n s, all[j]? = some n ∧ n.valueType = some s ∧ HasType argTypes assigned x s

theorem StandsFor.append {all : List Node} {argTypes : List String}
    {assigned : Table Nat String} {j : Nat} {x : Operand}
    (h : StandsFor all argTypes assigned j x) (more : Table Nat String) :
    StandsFor all argTypes (assigned ++ more) j x := by
  obtain ⟨n, s, hn, hs, hx⟩ := h
  exact ⟨n, s, hn, hs, hx.append more⟩

section

variable {ops : List (String × Operand)} {next r : Nat} {target : Target} {is : List Instr}

/-- The result that stands for a call is a tensor of which nothing is known. -/
theorem Emits.typed (h : Emits ops next target is r) :
    (r, ArgType.anyTensor) ∈ is.flatMap Instr.typedResults := by
  cases h with
  | sigmoid _ => exact List.mem_cons_self
  | tanh _ => exact List.mem_cons_self
  -- the scale stands in front of the sum
  | add _ _ => exact List.mem_cons_of_mem _ List.mem_cons_self

/-- A call returns nothing. -/
theorem Emits.returned (h : Emits ops next target is r) :
    is.filterMap Instr.returned? = [] := by
  cases h <;> rfl

/-- **THE STEP**: a call keeps the environment typed, as its node now stands for
    what the call has assigned. -/
theorem Emits.standsFor (h : Emits ops next target is r) {all : List Node}
    {argTypes : List String} {assigned : Table Nat String} {env : Env} {i : Nat} {n : Node}
    (hn : all[i]? = some n) (hcall : n.isCall = true)
    (henv : ∀ j x, env.lookup j = some x → StandsFor all argTypes assigned j x) (j : Nat)
    (x : Operand) (hj : (Table.set i (.result r) env).lookup j = some x) :
    StandsFor all argTypes (assigned ++ is.flatMap Instr.typedResults) j x := by
  rw [Table.lookup_set] at hj
  by_cases hji : j = i
  · subst hji
    rw [if_pos (beq_self_eq_true j)] at hj
    cases hj
    exact ⟨n, _, hn, Node.valueType_call hcall, List.mem_append_right assigned h.typed⟩
  · rw [if_neg (mt beq_iff_eq.mp hji)] at hj
    exact (henv j x hj).append _

end

/-- Behind the first node, too, the nodes are those of the graph. -/
theorem nodes_at_tail {all rest : List Node} {n : Node} {i : Nat}
    (h : ∀ k m, (n :: rest)[k]? = some m → all[i + k]? = some m) :
    ∀ k m, rest[k]? = some m → all[i + 1 + k]? = some m := by
  intro k m hm
  rw [Nat.add_right_comm, Nat.add_assoc]
  exact h (k + 1) m hm

/-- **THE RUN**: from a typed environment on, the body has one return for each
    output, in order, and what it returns has the types of the nodes that the
    output uses. -/
theorem Translates.returns {all rest : List Node} {i next : Nat} {env : Env} {body : List Instr}
    (h : Translates all i env next rest body) {argTypes : List String}
    {assigned : Table Nat String} (hall : ∀ k n, rest[k]? = some n → all[i + k]? = some n)
    (henv : ∀ j x, env.lookup j = some x → StandsFor all argTypes assigned j x) :
    List.Forall₂
      (fun out xs => List.Forall₂
        (fun a x => ∃ j, a = NodeArg.node j ∧
          StandsFor all argTypes (assigned ++ body.flatMap Instr.typedResults) j x)
        out.args xs)
      (rest.filter Node.isOutput) (body.filterMap Instr.returned?) := by
  induction h generalizing assigned with
  | nil => exact .nil
  | @placeholder _ _ _ n _ _ hsort _ ih =>
      have hout : ¬ n.isOutput = true := by rw [Node.isOutput, hsort]; decide
      rw [List.filter_cons_of_neg hout]
      exact ih (nodes_at_tail hall) henv
  | @output _ _ _ n _ _ _ hsort hargs _ ih =>
      have hout : n.isOutput = true := beq_iff_eq.mpr hsort
      rw [List.filter_cons_of_pos hout]
      -- the operands of a return are found in the environment, which is typed
      refine .cons ((forall₂_of_lookupArgs hargs).imp ?_) (ih (nodes_at_tail hall) henv)
      rintro a x ⟨j, rfl, hj⟩
      exact ⟨j, rfl, (henv j x hj).append _⟩
  | @call _ _ _ n _ _ _ _ _ hsort _ hcall _ ih =>
      have hout : ¬ n.isOutput = true := by rw [Node.isOutput, hsort]; decide
      have hrest := ih (nodes_at_tail hall)
        (hcall.standsFor (hall 0 n rfl) (beq_iff_eq.mpr hsort) henv)
      rw [List.filter_cons_of_neg hout, List.filterMap_append, hcall.returned,
        List.nil_append, List.flatMap_append, ← List.append_assoc]
      exact hrest

/-- At first the environment is typed: a placeholder was given an argument, and
    the argument has the type that was said about the placeholder. -/
theorem standsFor_initialEnv {nodes : List Node} (hdata : DataArguments nodes)
    {types : List String} (ht : placeholderTypes nodes = .ok types) {name : String} {j : Nat}
    {x : Operand}
    (hj : (initialEnv (ArgType.moduleAsm name) (ArgType.moduleAsm name :: types) nodes).lookup j
      = some x) :
    StandsFor nodes (ArgType.moduleAsm name :: types) [] j x := by
  rw [initialEnv_eq (hdata.types_ne ht name)] at hj
  obtain ⟨k, hk⟩ := List.mem_iff_getElem?.mp (Table.mem_of_lookup hj)
  rw [List.getElem?_zip_eq_some, List.getElem?_map, List.getElem?_map] at hk
  obtain ⟨⟨n, p⟩, hm, rfl⟩ := Option.map_eq_some_iff.mp hk.1
  obtain ⟨q, hq, rfl⟩ := Option.map_eq_some_iff.mp hk.2
  obtain ⟨hlt, rfl⟩ := List.getElem?_eq_some_iff.mp hq
  rw [List.length_range'] at hlt
  -- the k-th placeholder, its type and its position
  have hall : List.Forall₂ _ (placeholders nodes) types :=
    placeholderTypes_forall₂ nodes 0 types ht
  obtain ⟨hlt', hget⟩ := List.getElem?_eq_some_iff.mp hm
  obtain ⟨t, hty, hasm⟩ := hall.get hlt' hlt
  rw [List.get_eq_getElem, hget] at hty
  have hmem : (n, p) ∈ placeholders nodes := List.mem_of_getElem? hm
  have hp : n.isPlaceholder = true := (List.mem_filter.mp hmem).2
  refine ⟨n, types.get ⟨k, hlt⟩, List.mk_mem_zipIdx_iff_getElem?.mp (List.mem_of_mem_filter hmem),
    ?_, ?_⟩
  · rw [Node.valueType_placeholder hp, hty, Option.bind_some, hasm]
    rfl
  · show (ArgType.moduleAsm name :: types)[_]? = _
    rw [List.getElem_range', Nat.one_mul, Nat.add_comm, List.getElem?_cons_succ]
    exact List.getElem?_eq_getElem hlt

/-! ## Built functions -/

/-- Every result of an instruction has a type. -/
theorem map_fst_typedResults (i : Instr) : i.typedResults.map Prod.fst = i.results := by
  cases i <;> rfl

theorem map_fst_flatMap_typedResults (body : List Instr) :
    (body.flatMap Instr.typedResults).map Prod.fst = body.flatMap Instr.results := by
  rw [List.map_flatMap]
  exact congrArg (body.flatMap ·) (funext map_fst_typedResults)

/-- Where no result is assigned twice, an operand has one type in a function. -/
theorem HasType.typeOf_eq {f : Func} (hd : (f.body.flatMap Instr.results).Nodup) {x : Operand}
    {s : String} (h : HasType f.argTypes (f.body.flatMap Instr.typedResults) x s) :
    f.typeOf x = some s := by
  cases x with
  | arg n => exact h
  | result r => exact Table.lookup_of_mem (by rw [map_fst_flatMap_typedResults]; exact hd) h

/-- The returns of a built function are those of the outputs of the graph, and
    what they return has the types of the nodes that the outputs use. -/
theorem build_returns {g : GraphModule} {ops : List ModuleOp} (hdata : DataArguments g.nodes)
    (hb : build g = .ok ops) :
    ∃ f, functions ops = [f] ∧ f.resultTypes = [ArgType.anyTensor] ∧
      List.Forall₂
        (fun out xs => List.Forall₂
          (fun a x => ∃ j n s, a = NodeArg.node j ∧ g.nodes[j]? = some n ∧
            n.valueType = some s ∧ f.typeOf x = some s)
          out.args xs)
        (g.nodes.filter Node.isOutput) f.returns := by
  obtain ⟨truths, types, body, _, htypes, hbody, rfl⟩ := build_cases hb
  have hd : ((forwardFunc g types body).body.flatMap Instr.results).Nodup := by
    obtain ⟨n, hres⟩ := hbody.results
    rw [forwardFunc, hres]
    exact List.nodup_range'
  have hruns := hbody.returns (fun k n hk => by rwa [Nat.zero_add])
    fun j x hj => standsFor_initialEnv hdata htypes hj
  refine ⟨_, functions_layout g truths _, rfl, hruns.imp fun out xs hxs => hxs.imp ?_⟩
  rintro a x ⟨j, rfl, n, s, hn, hs, hx⟩
  exact ⟨j, n, s, rfl, hn, hs, HasType.typeOf_eq hd hx⟩

/-- Operands with the types of nodes are one tensor of which nothing is known
    exactly if the nodes are one, and it stands for such a tensor. -/
theorem types_eq_iff {nodes : List Node} (hdata : DataArguments nodes)
    {typeOf : Operand → Option String} {args : List NodeArg} {xs : List Operand}
    (h : List.Forall₂ (fun a x => ∃ j n s, a = NodeArg.node j ∧ nodes[j]? = some n ∧
      n.valueType = some s ∧ typeOf x = some s) args xs) :
    xs.map typeOf = [some ArgType.anyTensor] ↔
      ∃ j n, args = [.node j] ∧ nodes[j]? = some n ∧ n.OpenTensor := by
  cases h with
  | nil =>
      constructor
      · intro h
        exact nomatch h
      · rintro ⟨j, n, h, _⟩
        exact nomatch h
  | cons hhead htail =>
      obtain ⟨j, n, s, rfl, hn, hs, hx⟩ := hhead
      have hopen := openTensor_iff hdata (List.mem_of_getElem? hn)
      cases htail with
      | nil =>
          rw [List.map_singleton, hx, List.singleton_inj, ← hs, ← hopen]
          constructor
          · intro h
            exact ⟨j, n, rfl, hn, h⟩
          · rintro ⟨j', n', hj, hn', h⟩
            cases hj
            rw [hn] at hn'
            cases hn'
            exact h
      | cons _ _ =>
          -- two operands are too many on both sides
          constructor
          · intro h
            simp only [List.map_cons, List.cons.injEq, reduceCtorEq, and_false] at h
          · rintro ⟨j', n', h, _⟩
            exact nomatch h

/-- **THE TYPES AT THE RETURN**: a graph with one output, whose arguments are
    tensors or plain values, becomes a function with one return, which gives as
    many operands as the output uses nodes, each of the type of its node.  The
    return fits the declared results exactly if the output uses one node, and
    that is a call or a placeholder said to be a tensor without an element
    type. -/
theorem return_fits_iff (g : GraphModule) (ops : List ModuleOp) (out : Node)
    (hdata : DataArguments g.nodes) (hout : g.nodes.filter Node.isOutput = [out])
    (hb : build g = .ok ops) :
    ∃ f xs, functions ops = [f] ∧ f.returns = [xs] ∧
      List.Forall₂
        (fun a x => ∃ j n s, a = NodeArg.node j ∧ g.nodes[j]? = some n ∧
          n.valueType = some s ∧ f.typeOf x = some s)
        out.args xs ∧
      (xs.map f.typeOf = f.resultTypes.map some ↔
        ∃ j n, out.args = [.node j] ∧ g.nodes[j]? = some n ∧ n.OpenTensor) := by
  obtain ⟨f, hf, hresults, hreturns⟩ := build_returns hdata hb
  rw [hout] at hreturns
  cases hrets : f.returns with
  | nil => rw [hrets] at hreturns; exact nomatch hreturns
  | cons xs more =>
      rw [hrets] at hreturns
      cases hreturns with
      | cons hxs hmore =>
          cases hmore
          refine ⟨f, xs, hf, hrets, hxs, ?_⟩
          rw [hresults]
          exact types_eq_iff hdata hxs

theorem return_fits_iff_residual :
    DataArguments residual.nodes ∧ ∃ ops f xs, build residual = .ok ops ∧ functions ops = [f] ∧
      f.returns = [xs] ∧ xs.map f.typeOf = f.resultTypes.map some := by
  have hdata : DataArguments residual.nodes := normal_residual.typed
  obtain ⟨ops, hb⟩ := exists_built (g := residual) (by decide +kernel)
  obtain ⟨f, xs, hf, hxs, _, hfits⟩ := return_fits_iff residual ops _ hdata rfl hb
  exact ⟨hdata, ops, f, xs, hb, hf, hxs, hfits.mpr ⟨5, _, rfl, rfl, .inl rfl⟩⟩

/-- A graph that returns its only argument, a tensor of known shape and element
    type. -/
def passThrough : GraphModule where
  className := "GraphModule"
  attributes := []
  parameters := []
  hasForward := true
  nodes :=
    [⟨"placeholder", "x", .name "x", [], [],
        some (.tensor (.list [.int 2, .int 3]) (.dtype "float32"))⟩,
      ⟨"output", "output", .name "output", [.node 0], [], none⟩]

/-- **AN ARGUMENT RETURNED AS IT IS DOES NOT FIT**: the function declares a
    tensor of which nothing is known and returns one of known shape. -/
theorem sized_argument_misfits :
    ∃ ops f xs, build passThrough = .ok ops ∧ functions ops = [f] ∧ f.returns = [xs] ∧
      xs.map f.typeOf = [some "!torch.vtensor<[2,3],f32>"] ∧
      f.resultTypes = ["!torch.tensor"] ∧
      xs.map f.typeOf ≠ f.resultTypes.map some := by
  have hb : build passThrough = .ok
      [.classType "GraphModule" [.method "forward" "@GraphModule.forward" false, .terminator],
        .nnModule "!torch.nn.Module<\"GraphModule\">" [.terminator],
        .func ⟨"GraphModule.forward", ["!torch.nn.Module<\"GraphModule\">",
          "!torch.vtensor<[2,3],f32>"], ["!torch.tensor"], [.ret [.arg 1]]⟩] := by
    decide +kernel
  exact ⟨_, _, _, hb, rfl, rfl, rfl, rfl, by decide⟩

end DialectBench.Graph
