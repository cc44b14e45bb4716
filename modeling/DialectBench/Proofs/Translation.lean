import DialectBench.Proofs.GraphMeaning

/-!
# The translation of graphs keeps their meaning

    A graph whose only output is its last node, whose placeholders are said to
    be tensors or plain values, and whose nodes use earlier nodes only, is
    translated into a function that returns what the graph yields, under every
    interpretation of the operators and for all arguments.

    The route is a SIMULATION along the list of nodes.  The invariant TIES three
    maps: the operand that each earlier node was given, the value that the node
    has in the graph, and the register or argument in which the function holds
    it.  Registers are set once, so that a value, once tied, stays tied.
-/

namespace DialectBench.Graph

universe u

/-! ## Single assignment -/

/-- An operand that may be used: an argument, or a result assigned before. -/
def Available (arity : Nat) (assigned : List Nat) : Operand → Prop
  | .arg n => n < arity
  | .result r => r ∈ assigned

/-- Read in order, the instructions use arguments and results of earlier
    instructions only. -/
def Scoped (arity : Nat) : List Nat → List Instr → Prop
  | _, [] => True
  | assigned, i :: rest =>
    (∀ x ∈ i.operands, Available arity assigned x) ∧ Scoped arity (assigned ++ i.results) rest

/-- A module in single-assignment form: no number is assigned twice, neither at
    the top nor in a function, and every operand of a function is an argument of
    it or the result of an earlier instruction of its body. -/
structure SingleAssignment (ops : List ModuleOp) : Prop where
  once : (ops.flatMap ModuleOp.results).Nodup
  operands : ∀ f ∈ functions ops, Scoped f.argTypes.length [] f.body

theorem scoped_append {arity : Nat} {assigned : List Nat} {xs ys : List Instr} :
    Scoped arity assigned (xs ++ ys) ↔
      Scoped arity assigned xs ∧ Scoped arity (assigned ++ xs.flatMap Instr.results) ys := by
  induction xs generalizing assigned with
  | nil =>
      rw [List.nil_append, List.flatMap_nil, List.append_nil]
      exact ⟨fun h => ⟨trivial, h⟩, And.right⟩
  | cons i rest ih =>
      rw [List.cons_append, Scoped, Scoped, ih, List.flatMap_cons, List.append_assoc,
        and_assoc]

theorem Available.append {arity : Nat} {assigned : List Nat} {x : Operand}
    (h : Available arity assigned x) (more : List Nat) :
    Available arity (assigned ++ more) x := by
  cases x with
  | arg n => exact h
  | result r => exact List.mem_append_left more h

/-- The results of a call are the next free numbers, up to the one that stands
    for the call. -/
theorem Emits.results {target : Target} {next r : Nat} {ops : List (String × Operand)}
    {is : List Instr} (h : Emits ops next target is r) :
    ∃ n, is.flatMap Instr.results = List.range' next (n + 1) ∧ r = next + n := by
  cases h with
  | sigmoid _ => exact ⟨0, rfl, rfl⟩
  | tanh _ => exact ⟨0, rfl, rfl⟩
  | add _ _ => exact ⟨1, rfl, rfl⟩

/-- A call uses what it is given, and the scale that it sets itself. -/
theorem Emits.scoped {target : Target} {next r : Nat} {ops : List (String × Operand)}
    {is : List Instr} (h : Emits ops next target is r) {arity : Nat} {assigned : List Nat}
    (hops : ∀ k x, (k, x) ∈ ops → Available arity assigned x) : Scoped arity assigned is := by
  cases h with
  | sigmoid hx =>
      have h1 := hops _ _ (Table.mem_of_lookup hx)
      exact ⟨List.forall_mem_singleton.mpr h1, trivial⟩
  | tanh hx =>
      have h1 := hops _ _ (Table.mem_of_lookup hx)
      exact ⟨List.forall_mem_singleton.mpr h1, trivial⟩
  | @add x y hx hy =>
      have h1 := hops _ _ (Table.mem_of_lookup hx)
      have h2 := hops _ _ (Table.mem_of_lookup hy)
      have h3 : Available arity (assigned ++ [next]) (.result next) :=
        List.mem_append_right assigned List.mem_cons_self
      have hall : ∀ z ∈ [x, y, .result next], Available arity (assigned ++ [next]) z :=
        List.forall_mem_cons.mpr ⟨h1.append _,
          List.forall_mem_cons.mpr ⟨h2.append _, List.forall_mem_singleton.mpr h3⟩⟩
      exact ⟨fun z hz => (List.not_mem_nil hz).elim, hall, trivial⟩

section

variable {all rest : List Node} {i next : Nat} {env : Env} {body : List Instr}

/-- The numbers that a body assigns are consecutive. -/
theorem Translates.results (h : Translates all i env next rest body) :
    ∃ n, body.flatMap Instr.results = List.range' next n := by
  induction h with
  | nil => exact ⟨0, rfl⟩
  | placeholder _ _ ih => exact ih
  | output _ _ _ ih => exact ih
  | @call _ _ next _ _ _ _ _ _ _ _ hcall _ ih =>
      obtain ⟨m, hm, rfl⟩ := hcall.results
      obtain ⟨l, hl⟩ := ih
      refine ⟨m + 1 + l, ?_⟩
      rw [List.flatMap_append, hm, hl]
      show List.range' next (m + 1) ++ List.range' (next + (m + 1)) l = _
      rw [List.range'_append_1]

/-- A body uses what the environment offers and what it assigns itself. -/
theorem Translates.scoped (h : Translates all i env next rest body) {arity : Nat}
    {assigned : List Nat} (henv : ∀ j x, env.lookup j = some x → Available arity assigned x) :
    Scoped arity assigned body := by
  induction h generalizing assigned with
  | nil => trivial
  | placeholder _ _ ih => exact ih henv
  | output _ hargs _ ih =>
      refine ⟨?_, ih fun j x hj => (henv j x hj).append _⟩
      intro x hx
      obtain ⟨j, _, hj⟩ := mem_of_lookupArgs hargs hx
      exact henv j x hj
  | @call i _ _ _ _ _ _ _ _ _ hkwargs hcall _ ih =>
      rw [scoped_append]
      refine ⟨hcall.scoped ?_, ih ?_⟩
      · intro k x hx
        obtain ⟨j, _, hj⟩ := mem_of_lookupKwargs hkwargs hx
        exact henv j x hj
      · intro j x hj
        rw [Table.lookup_set] at hj
        by_cases hji : (j == i) = true
        · -- the node itself stands for the last result of its call
          rw [if_pos hji] at hj
          cases hj
          obtain ⟨m, hm, rfl⟩ := hcall.results
          refine List.mem_append_right assigned ?_
          rw [hm, List.mem_range'_1]
          omega
        · rw [if_neg hji] at hj
          exact (henv j x hj).append _

end

/-! ## The simulation -/

section

variable {V : Type u} {I : Interpretation V} {args : List V}

/-- A node has, in the graph, the value that its operand has in the function. -/
def Tied (args : List V) (env : Env) (values regs : Nat → Option V) (j : Nat) : Prop :=
  ∀ x, env.lookup j = some x → ∃ v, values j = some v ∧ x.value args regs = some v

/-- A keyword under which a call gives a tied node has the value of the node's
    operand. -/
theorem keywordValue_eq {env : Env} {values regs : Nat → Option V} {all : List Node}
    {n : Node} {ops : List (String × Operand)} {k : String} {x : Operand}
    (hk : lookupKwargs all env n.kwargs = .ok ops) (hx : ops.lookup k = some x)
    (htied : ∀ j, NodeArg.node j ∈ n.uses → Tied args env values regs j) :
    ∃ v, x.value args regs = some v ∧
      (n.inKeywordForm = true → n.target.keywords.Nodup →
        keywordValue I values n k = some v) := by
  obtain ⟨j, hmem, hj⟩ := mem_of_lookupKwargs hk (Table.mem_of_lookup hx)
  have huse : NodeArg.node j ∈ n.uses :=
    List.mem_append_right n.args (List.mem_map.mpr ⟨_, hmem, rfl⟩)
  obtain ⟨v, hv, hxv⟩ := htied j huse x hj
  refine ⟨v, hxv, ?_⟩
  intro hform hd
  -- in keyword form no keyword is given twice, so the node found is the one given
  have hperm := List.isPerm_iff.mp (Bool.and_eq_true_iff.mp hform).2
  unfold keywordValue
  rw [Table.lookup_of_mem (hperm.nodup_iff.mpr hd) hmem]
  exact hv

/-- What running the instructions of a call does to the registers. -/
structure Runs (I : Interpretation V) (args : List V) (regs : Nat → Option V) (is : List Instr)
    (r : Nat) (v : V) (regs' : Nat → Option V) : Prop where
  body : ∀ rest, bodyValue I args regs (is ++ rest) = bodyValue I args regs' rest
  result : regs' r = some v
  kept : Extends regs regs'
  free : ∀ s, r + 1 ≤ s → regs' s = none

/-- Free registers stay free behind the one that is set. -/
theorem free_assign {regs : Nat → Option V} {next : Nat}
    (hfree : ∀ r, next ≤ r → regs r = none) (v : V) :
    ∀ r, next + 1 ≤ r → assign next v regs r = none := by
  intro r hr
  rw [assign_of_ne (by omega)]
  exact hfree r (by omega)

/-- A call of one instruction, which sets the next free register. -/
theorem runs_single {regs : Nat → Option V} {next : Nat} {i : Instr} {v : V}
    (hfree : ∀ r, next ≤ r → regs r = none)
    (hi : ∀ rest, bodyValue I args regs (i :: rest)
      = bodyValue I args (assign next v regs) rest) :
    Runs I args regs [i] next v (assign next v regs) where
  body := hi
  result := assign_self next v regs
  kept := extends_assign (hfree next (Nat.le_refl next)) v
  free := free_assign hfree v

/-- The call of the addition: the scale is set first, and it is one. -/
theorem runs_add {regs : Nat → Option V} {next : Nat} {x y : Operand} {v w : V}
    (hfree : ∀ r, next ≤ r → regs r = none) (hx : x.value args regs = some v)
    (hy : y.value args regs = some w) :
    Runs I args regs [.constantInt next 1, .add (next + 1) x y (.result next)] (next + 1)
      (I.add v w) (assign (next + 1) (I.add v w) (assign next (I.int 1) regs)) where
  body := by
    intro rest
    have hkept : Extends regs (assign next (I.int 1) regs) :=
      extends_assign (hfree next (Nat.le_refl next)) (I.int 1)
    have hone : Operand.value args (assign next (I.int 1) regs) (.result next)
        = some (I.int 1) := assign_self next (I.int 1) regs
    show bodyValue I args (assign next (I.int 1) regs)
      (.add (next + 1) x y (.result next) :: rest) = _
    rw [bodyValue, hkept.value hx, hkept.value hy, hone]
    show bodyValue I args (assign (next + 1) (I.addScaled v w (I.int 1)) _) rest = _
    rw [I.addScaled_one]
  result := assign_self (next + 1) (I.add v w) _
  kept :=
    (extends_assign (hfree next (Nat.le_refl next)) (I.int 1)).trans
      (extends_assign (free_assign hfree (I.int 1) (next + 1) (Nat.le_refl _)) (I.add v w))
  free := free_assign (free_assign hfree (I.int 1)) (I.add v w)

/-- A call out of keyword form has no value, so that only its value in keyword
    form is to be found. -/
theorem callValue_eq_ite {values : Nat → Option V} {n : Node} {v : V}
    (h : n.inKeywordForm = true → callValue I values n = some v) :
    callValue I values n = if n.inKeywordForm then some v else none := by
  by_cases hform : n.inKeywordForm = true
  · rw [if_pos hform]
    exact h hform
  · rw [if_neg hform]
    exact if_neg hform

/-- The instructions of a call leave its value in the register that stands for
    it, and that is the value of the call in the graph. -/
theorem Emits.runs {env : Env} {values regs : Nat → Option V} {all : List Node} {n : Node}
    {next r : Nat} {ops : List (String × Operand)} {is : List Instr} {target : Target}
    (hc : Emits ops next target is r) (ht : n.target = target)
    (hk : lookupKwargs all env n.kwargs = .ok ops)
    (htied : ∀ j, NodeArg.node j ∈ n.uses → Tied args env values regs j)
    (hfree : ∀ r, next ≤ r → regs r = none) :
    ∃ v regs', Runs I args regs is r v regs' ∧
      callValue I values n = if n.inKeywordForm then some v else none := by
  cases hc with
  | sigmoid hx =>
      obtain ⟨v, hv, hkey⟩ := keywordValue_eq (I := I) hk hx htied
      refine ⟨I.sigmoid v, _, runs_single hfree (fun rest => by rw [bodyValue, hv]; rfl),
        callValue_eq_ite fun hform => ?_⟩
      rw [callValue, if_pos hform, ht, hkey hform (by rw [ht]; decide)]
      rfl
  | tanh hx =>
      obtain ⟨v, hv, hkey⟩ := keywordValue_eq (I := I) hk hx htied
      refine ⟨I.tanh v, _, runs_single hfree (fun rest => by rw [bodyValue, hv]; rfl),
        callValue_eq_ite fun hform => ?_⟩
      rw [callValue, if_pos hform, ht, hkey hform (by rw [ht]; decide)]
      rfl
  | add hx hy =>
      obtain ⟨v, hv, hkeyx⟩ := keywordValue_eq (I := I) hk hx htied
      obtain ⟨w, hw, hkeyy⟩ := keywordValue_eq (I := I) hk hy htied
      refine ⟨I.add v w, _, runs_add hfree hv hw, callValue_eq_ite fun hform => ?_⟩
      rw [callValue, if_pos hform, ht, hkeyx hform (by rw [ht]; decide),
        hkeyy hform (by rw [ht]; decide)]
      rfl

/-- **THE INVARIANT**: the nodes before a position are tied, the placeholders
    from it on wait for the arguments not taken yet, and the registers from the
    next free number on are not set. -/
structure Simulates (args : List V) (env : Env) (i next : Nat) (values regs : Nat → Option V)
    (rest : List Node) (left : List V) : Prop where
  seen : ∀ j, j < i → Tied args env values regs j
  awaited : List.Forall₂ (fun m a => ∃ x, env.lookup m.2 = some x ∧ x.value args regs = some a)
    (placeholdersFrom i rest) left
  free : ∀ r, next ≤ r → regs r = none

section

variable {env : Env} {i next : Nat} {values regs : Nat → Option V} {n : Node}
variable {rest : List Node} {left : List V}

/-- A placeholder takes the next argument. -/
theorem Simulates.placeholder (h : Simulates args env i next values regs (n :: rest) left)
    (hp : n.isPlaceholder = true) :
    ∃ a left', left = a :: left' ∧
      Simulates args env (i + 1) next (assign i a values) regs rest left' := by
  have hawaited := h.awaited
  rw [placeholdersFrom_cons, if_pos hp] at hawaited
  cases hawaited with
  | cons hhead htail =>
      rename_i a left'
      obtain ⟨y, hy, hya⟩ := hhead
      refine ⟨a, left', rfl, ?_, htail, h.free⟩
      intro j hj x hx
      by_cases hji : j = i
      · subst hji
        rw [hx] at hy
        cases hy
        exact ⟨a, assign_self j a values, hya⟩
      · rw [assign_of_ne hji]
        exact h.seen j (by omega) x hx

/-- A call is tied to the register that stands for it, and what was tied stays
    tied. -/
theorem Simulates.call (h : Simulates args env i next values regs (n :: rest) left)
    (hp : ¬ n.isPlaceholder = true) {is : List Instr} {r : Nat} {v : V} {regs' : Nat → Option V}
    (hr : Runs I args regs is r v regs') :
    Simulates args (Table.set i (.result r) env) (i + 1) (r + 1) (assign i v values) regs' rest
      left where
  seen := by
    intro j hj x hx
    rw [Table.lookup_set] at hx
    by_cases hji : j = i
    · subst hji
      rw [if_pos (beq_self_eq_true j)] at hx
      cases hx
      exact ⟨v, assign_self j v values, hr.result⟩
    · rw [if_neg (mt beq_iff_eq.mp hji)] at hx
      obtain ⟨w, hw, hxw⟩ := h.seen j (by omega) x hx
      exact ⟨w, by rw [assign_of_ne hji]; exact hw, hr.kept.value hxw⟩
  awaited := by
    have hawaited := h.awaited
    rw [placeholdersFrom_cons, if_neg hp] at hawaited
    rw [List.forall₂_iff_zip] at hawaited ⊢
    refine ⟨hawaited.1, ?_⟩
    intro m a hma
    obtain ⟨x, hx, hxa⟩ := hawaited.2 hma
    -- a placeholder that is still awaited stands behind the call
    have hlater : m.2 ≠ i := by
      have := le_of_mem_placeholdersFrom (List.of_mem_zip hma).1
      omega
    refine ⟨x, ?_, hr.kept.value hxa⟩
    rw [Table.lookup_set, if_neg (mt beq_iff_eq.mp hlater)]
    exact hx
  free := hr.free

/-- Behind the first node, too, nodes use earlier nodes only. -/
theorem uses_before_tail
    (h : ∀ k m, (n :: rest)[k]? = some m → ∀ p, NodeArg.node p ∈ m.uses → p < i + k) :
    ∀ k m, rest[k]? = some m → ∀ p, NodeArg.node p ∈ m.uses → p < i + 1 + k := by
  intro k m hm p hp
  have := h (k + 1) m hm p hp
  omega

/-- What an output uses has the values that the return gives. -/
theorem mapM_argValue_eq {all : List Node} {uses : List NodeArg} {xs : List Operand}
    (ha : lookupArgs all env uses = .ok xs)
    (htied : ∀ j, NodeArg.node j ∈ uses → Tied args env values regs j) :
    ∃ ws, xs.mapM (Operand.value args regs) = some ws ∧
      uses.mapM (argValue I values) = some ws := by
  have hall := forall₂_of_lookupArgs ha
  clear ha
  induction hall with
  | nil => exact ⟨[], rfl, rfl⟩
  | cons hhead _ ih =>
      obtain ⟨j, rfl, hj⟩ := hhead
      obtain ⟨v, hv, hxv⟩ := htied j List.mem_cons_self _ hj
      obtain ⟨ws, hws, hvs⟩ := ih fun j' hj' => htied j' (List.mem_cons_of_mem _ hj')
      have hav : argValue I values (.node j) = some v := hv
      refine ⟨v :: ws, ?_, ?_⟩
      · rw [List.mapM_cons, hxv, hws]
        rfl
      · rw [List.mapM_cons, hav, hvs]
        rfl

end

/-- **THE RUN**: from tied nodes on, the translated body returns a list of
    values, and the graph yields the same list, unless one of its calls is out
    of keyword form and the graph yields nothing. -/
theorem Translates.value {all rest : List Node} {i next : Nat} {env : Env} {body : List Instr}
    (h : Translates all i env next rest body) {values regs : Nat → Option V} {left : List V}
    (hend : endsInOutput rest = true)
    (hearlier : ∀ k n, rest[k]? = some n → ∀ p, NodeArg.node p ∈ n.uses → p < i + k)
    (hsim : Simulates args env i next values regs rest left) :
    ∃ ws, bodyValue I args regs body = some ws ∧
      nodesValue I i values left rest
        = if rest.all Node.callsByKeyword then some ws else none := by
  induction h generalizing values regs left with
  | nil => exact nomatch hend
  | @placeholder i _ _ n _ _ hsort _ ih =>
      have hp : n.isPlaceholder = true := beq_iff_eq.mpr hsort
      have hcall := n.callsByKeyword_of_ne (by rw [hsort]; decide)
      rw [endsInOutput, hsort] at hend
      obtain ⟨a, left', rfl, hsim'⟩ := hsim.placeholder hp
      obtain ⟨ws, hws, hvs⟩ := ih hend (uses_before_tail hearlier) hsim'
      refine ⟨ws, hws, ?_⟩
      rw [nodesValue_placeholder hsort, hvs, List.all_cons, hcall, Bool.true_and]
  | @output i _ _ n _ _ _ hsort hargs hrest _ =>
      -- the output is the last node, so that no argument is left
      rw [endsInOutput, hsort] at hend
      obtain rfl := List.isEmpty_iff.mp hend
      cases hrest
      have hp : ¬ n.isPlaceholder = true := by rw [Node.isPlaceholder, hsort]; decide
      have hcall := n.callsByKeyword_of_ne (by rw [hsort]; decide)
      have hleft := hsim.awaited
      rw [placeholdersFrom_cons, if_neg hp] at hleft
      cases hleft
      obtain ⟨ws, hws, hvs⟩ := mapM_argValue_eq (I := I) hargs
        fun j hj => hsim.seen j (hearlier 0 n rfl j (List.mem_append_left _ hj))
      refine ⟨ws, hws, ?_⟩
      rw [nodesValue_output hsort, hvs, List.all_cons, hcall]
      rfl
  | @call i _ _ n _ _ _ _ _ hsort hkwargs hcall _ ih =>
      have hp : ¬ n.isPlaceholder = true := by rw [Node.isPlaceholder, hsort]; decide
      rw [endsInOutput, hsort] at hend
      obtain ⟨v, regs', hruns, hv⟩ := hcall.runs (I := I) rfl hkwargs
        (fun j hj => hsim.seen j (hearlier 0 n rfl j hj)) hsim.free
      obtain ⟨ws, hws, hvs⟩ := ih hend (uses_before_tail hearlier) (hsim.call hp hruns)
      refine ⟨ws, by rw [hruns.body]; exact hws, ?_⟩
      rw [nodesValue_call hsort, hv, List.all_cons, Node.callsByKeyword_of_call hsort]
      cases n.inKeywordForm with
      | false => rfl
      | true => exact hvs

end

/-! ## Built modules -/

/-- Every operand that the placeholders are given at first is an argument. -/
theorem available_initialEnv {selfType : String} {types : List String} {nodes : List Node}
    {j : Nat} {x : Operand} (h : (initialEnv selfType types nodes).lookup j = some x) :
    Available types.length [] x := by
  have hmem := (List.of_mem_zip (Table.mem_of_lookup h)).2
  obtain ⟨t, ht, hx⟩ := List.mem_filterMap.mp hmem
  by_cases hs : (t.1 == selfType) = true
  · rw [if_pos hs] at hx
    exact nomatch hx
  · rw [if_neg hs] at hx
    cases hx
    exact List.snd_lt_of_mem_zipIdx ht

/-- Before the first node, the placeholders wait for all the arguments. -/
theorem ArgumentsMatch.simulates {g : GraphModule} {f : Func} (hm : ArgumentsMatch g f)
    {V : Type u} (self : V) {args : List V}
    (hlen : args.length = (placeholders g.nodes).length) (next : Nat) :
    Simulates (self :: args)
      (initialEnv (ArgType.moduleAsm g.className) f.argTypes g.nodes) 0 next (fun _ => none)
      (fun _ => none) g.nodes args where
  seen := fun j hj => absurd hj (Nat.not_lt_zero j)
  awaited := by
    refine List.forall₂_iff_get.mpr ⟨hlen.symm, ?_⟩
    intro k h₁ h₂
    refine ⟨.arg (k + 1), (hm.each k _ _ (List.getElem?_eq_getElem h₁)).1, ?_⟩
    exact List.getElem?_eq_getElem h₂
  free := fun r _ => rfl

/-- The numbers that a module assigns are those of its constants, from zero on,
    and then those of its function. -/
theorem flatMap_results_layout (g : GraphModule) (truths : List (String × Bool)) (f : Func) :
    (layout g truths f).flatMap ModuleOp.results
      = List.range' 0 truths.length ++ f.body.flatMap Instr.results := by
  have hconstants : ((constantsFrom 0 truths).map fun c => ModuleOp.constantBool c.1 c.2).flatMap
      ModuleOp.results = (truths.zipIdx 0).map Prod.snd := by
    rw [constantsFrom, List.map_map, List.flatMap_map, List.map_eq_flatMap]
    rfl
  rw [← List.zipIdx_map_snd, ← hconstants]
  simp [layout, ModuleOp.results]

/-- The function of a built module goes on after the last constant, so that no
    number is assigned twice. -/
theorem build_results_nodup {g : GraphModule} {ops : List ModuleOp} (hb : build g = .ok ops) :
    (ops.flatMap ModuleOp.results).Nodup := by
  obtain ⟨truths, types, body, _, _, hbody, rfl⟩ := build_cases hb
  obtain ⟨n, hres⟩ := hbody.results
  have happ : List.range' 0 truths.length ++ List.range' (0 + truths.length) n
      = List.range' 0 (truths.length + n) := List.range'_append_1
  rw [Nat.zero_add] at happ
  rw [flatMap_results_layout, forwardFunc, hres, happ]
  exact List.nodup_range'

/-- **THE TRANSLATION PRESERVES MEANING**: a normalised graph that can be built
    becomes a module in single-assignment form with one function, whose arguments
    are the module and the placeholders in order, each of the type that was said
    about it.  Under every interpretation and for all arguments the function
    returns a list of values, and the graph yields exactly that list at its
    output; only a graph with a call out of keyword form, which cannot be
    evaluated, yields none. -/
theorem build_preserves_meaning (g : GraphModule) (ops : List ModuleOp) (hn : Normal g.nodes)
    (hb : build g = .ok ops) :
    SingleAssignment ops ∧ ∃ f, functions ops = [f] ∧ f.name = forwardName g.className ∧
      ArgumentsMatch g f ∧
      ∀ {V : Type u} (I : Interpretation V) (self : V) (args : List V),
        args.length = (placeholders g.nodes).length →
          ∃ ws, f.value I (self :: args) = some ws ∧
            graphValue I g.nodes args
              = if g.nodes.all Node.callsByKeyword then some ws else none := by
  have hd := build_results_nodup hb
  obtain ⟨truths, types, body, _, htypes, hbody, rfl⟩ := build_cases hb
  have hmatch := argumentsMatch_of_types hn htypes body
  refine ⟨⟨hd, ?_⟩, _, functions_layout g truths _, rfl, hmatch, ?_⟩
  · rw [functions_layout]
    exact List.forall_mem_singleton.mpr (hbody.scoped fun j x hj => available_initialEnv hj)
  · intro V I self args hlen
    have hearlier : ∀ k n, g.nodes[k]? = some n → ∀ p, NodeArg.node p ∈ n.uses →
        p < 0 + k := by
      intro k n hk p hp
      rw [Nat.zero_add]
      exact hn.earlier k n hk p hp
    obtain ⟨ws, hws, hvs⟩ := hbody.value (I := I) hn.output hearlier
      (hmatch.simulates self hlen truths.length)
    refine ⟨ws, ?_, hvs⟩
    unfold Func.value
    rw [if_pos (by rw [hmatch.count, List.length_cons, hlen])]
    exact hws

/-- A graph of two arguments: their sum, squashed twice, is added to the first
    of them. -/
def residual : GraphModule where
  className := "Residual"
  attributes := [("training", .bool true), ("_hooks", .none)]
  parameters := []
  hasForward := true
  nodes :=
    [⟨"placeholder", "x", .name "x", [], [],
        some (.tensor (.list [.int 2, .none]) (.dtype "float32"))⟩,
      ⟨"placeholder", "y", .name "y", [], [], some (.tensor .none .none)⟩,
      ⟨"call_function", "add", .operator "add", [],
        [("input", .node 0), ("other", .node 1)], none⟩,
      ⟨"call_function", "sigmoid", .operator "sigmoid", [], [("input", .node 2)], none⟩,
      ⟨"call_function", "tanh", .operator "tanh", [], [("input", .node 3)], none⟩,
      ⟨"call_function", "add_1", .operator "add", [],
        [("other", .node 4), ("input", .node 0)], none⟩,
      ⟨"output", "output", .name "output", [.node 5], [], none⟩]

/-- Integers, with functions that tell the operators and their operands apart. -/
def telling : Interpretation Int where
  sigmoid := fun x => x + 1
  tanh := fun x => 3 * x
  add := fun x y => 10 * x + y
  constant := fun _ => 0
  int := id
  addScaled := fun x y a => 10 * x + a * y
  addScaled_one := fun x y => by rw [id, Int.one_mul]

theorem normal_residual : Normal residual.nodes where
  output := rfl
  typed := by
    intro n hn hp
    simp only [residual, List.mem_cons, List.not_mem_nil, or_false] at hn
    rcases hn with rfl | rfl | rfl | rfl | rfl | rfl | rfl
    · exact ⟨_, rfl, rfl⟩
    · exact ⟨_, rfl, rfl⟩
    all_goals exact nomatch hp
  earlier := by
    intro j n hj p hp
    rcases j with _ | _ | _ | _ | _ | _ | _ | j <;> cases hj <;>
      simp [Node.uses] at hp <;> omega

theorem build_preserves_meaning_residual :
    Normal residual.nodes ∧ ∃ ops f, build residual = .ok ops ∧ SingleAssignment ops ∧
      functions ops = [f] ∧ residual.nodes.all Node.callsByKeyword = true ∧
      f.value telling [0, 2, 5] = some [98] ∧
      graphValue telling residual.nodes [2, 5] = some [98] := by
  obtain ⟨ops, hb⟩ := exists_built (g := residual) (by decide +kernel)
  obtain ⟨hssa, f, hf, _, _, hmean⟩ := build_preserves_meaning residual _ normal_residual hb
  obtain ⟨ws, hfunc, hgraph⟩ := hmean telling 0 [2, 5] rfl
  have hyields : graphValue telling residual.nodes [2, 5] = some [98] := rfl
  have hform : residual.nodes.all Node.callsByKeyword = true := rfl
  rw [hyields, if_pos hform] at hgraph
  cases hgraph
  exact ⟨normal_residual, ops, f, hb, hssa, hf, hform, hfunc, hyields⟩

end DialectBench.Graph
