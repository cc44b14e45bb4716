import DialectBench.Proofs.GraphSteps

/-!
# Arguments and placeholders

    The k-th placeholder of a graph stands for the k-th argument after the
    module, because the type of a module is told from the type of every tensor
    and every plain value by its first letters.
-/

namespace DialectBench.Graph

/-! ## Graphs that can be translated -/

/-- Whether the last node, and no other, is an output. -/
def endsInOutput : List Node → Bool
  | [] => false
  | n :: rest => if n.sort == "output" then rest.isEmpty else endsInOutput rest

/-- Whether a type is that of tensors or of plain values. -/
def ArgType.isData : ArgType → Bool
  | .tensor _ _ => true
  | .plain _ => true
  | .module _ => false
  | .bare _ => false

/-- Everything that a node uses. -/
def Node.uses (n : Node) : List NodeArg := n.args ++ n.kwargs.map Prod.snd

/-- A normalised graph.  That every other node is a call of a known operator
    is not asked for here: a graph that can be translated has no others. -/
structure Normal (nodes : List Node) : Prop where
  output : endsInOutput nodes = true
  typed : ∀ n ∈ nodes, n.isPlaceholder = true → ∃ t, n.argType = some t ∧ t.isData = true
  earlier : ∀ j n, nodes[j]? = some n → ∀ p, NodeArg.node p ∈ n.uses → p < j

/-- The placeholders among nodes from a position on, each with its position. -/
def placeholdersFrom (i : Nat) (nodes : List Node) : List (Node × Nat) :=
  (nodes.zipIdx i).filter fun n => n.1.isPlaceholder

/-- The placeholders of a graph, each with its position. -/
def placeholders (nodes : List Node) : List (Node × Nat) := placeholdersFrom 0 nodes

theorem placeholdersFrom_cons (i : Nat) (n : Node) (rest : List Node) :
    placeholdersFrom i (n :: rest)
      = if n.isPlaceholder then (n, i) :: placeholdersFrom (i + 1) rest
        else placeholdersFrom (i + 1) rest := by
  unfold placeholdersFrom
  rw [List.zipIdx_cons, List.filter_cons]

/-- A placeholder stands at or after the position from which it is looked for. -/
theorem le_of_mem_placeholdersFrom {i : Nat} {nodes : List Node} {m : Node × Nat}
    (h : m ∈ placeholdersFrom i nodes) : i ≤ m.2 :=
  List.le_snd_of_mem_zipIdx (List.mem_of_mem_filter h)

/-! ## The environment at first

    The translation pairs the placeholders with the arguments that do not have
    the type of the module.  The type of a module is told from every other by
    its first letters, so that exactly the first argument is passed over. -/

/-- The letters by which the type of a module is known. -/
def moduleLetters : List Char := "!torch.nn".toList

theorem take_moduleAsm (name : String) :
    (ArgType.moduleAsm name).toList.take 9 = moduleLetters := by
  unfold ArgType.moduleAsm
  rw [String.toList_append, String.toList_append, List.append_assoc]
  rfl

/-- The two forms of the type of a tensor, the first of which is that of
    tensors without an element type. -/
theorem asm_tensor_cases {shape dtype : Value} {s : String}
    (hs : (ArgType.tensor shape dtype).asm = .ok s) :
    (dtype = .none ∧ s = ArgType.anyTensor) ∨
      ∃ sh d, s = "!torch.vtensor<" ++ sh ++ "," ++ d ++ ">" := by
  unfold ArgType.asm at hs
  split at hs
  · rename_i h
    cases h
    cases hs
    exact .inl ⟨rfl, rfl⟩
  · rename_i h
    cases h
    cases hsh : ArgType.shapeAsm shape with
    | error e => rw [hsh] at hs; exact nomatch hs
    | ok sh =>
        rw [hsh] at hs
        cases hd : ArgType.dtypeAsm dtype with
        | error e => rw [hd] at hs; exact nomatch hs
        | ok d =>
            rw [hd] at hs
            cases hs
            exact .inr ⟨sh, d, rfl⟩
  all_goals
    rename_i h
    exact nomatch h

/-- The first letters of the type of a tensor with an element type. -/
theorem take_vtensor (sh d : String) :
    ("!torch.vtensor<" ++ sh ++ "," ++ d ++ ">").toList.take 9 = "!torch.vt".toList := by
  rw [String.toList_append, String.toList_append, String.toList_append,
    String.toList_append, List.append_assoc, List.append_assoc, List.append_assoc]
  rfl

/-- The type of a tensor or of plain values never begins as that of a module. -/
theorem take_asm_ne {t : ArgType} (ht : t.isData = true) {s : String}
    (hs : t.asm = .ok s) : s.toList.take 9 ≠ moduleLetters := by
  cases t with
  | module name => exact nomatch ht
  | bare c => exact nomatch ht
  -- only three plain classes have a type at all
  | plain c => cases c <;> cases hs <;> decide
  | tensor shape dtype =>
      rcases asm_tensor_cases hs with ⟨_, rfl⟩ | ⟨sh, d, rfl⟩
      · decide
      · rw [take_vtensor]
        decide

/-- No tensor and no plain value has the type of a module. -/
theorem asm_ne_moduleAsm {t : ArgType} (ht : t.isData = true) {s : String}
    (hs : t.asm = .ok s) (name : String) : s ≠ ArgType.moduleAsm name := by
  intro h
  exact take_asm_ne ht hs (h ▸ take_moduleAsm name)

/-- The types of the arguments are those said about the placeholders, in
    order. -/
theorem placeholderTypes_forall₂ :
    ∀ (nodes : List Node) (i : Nat) (types : List String), placeholderTypes nodes = .ok types →
      List.Forall₂ (fun m s => ∃ t, m.1.argType = some t ∧ t.asm = .ok s)
        (placeholdersFrom i nodes) types := by
  intro nodes
  induction nodes with
  | nil =>
      intro i types h
      cases h
      exact .nil
  | cons n rest ih =>
      intro i types h
      rw [placeholdersFrom_cons]
      rw [placeholderTypes] at h
      by_cases hp : n.isPlaceholder = true
      · rw [if_pos hp] at h ⊢
        cases ht : n.argType with
        | none => rw [ht] at h; exact nomatch h
        | some t =>
            rw [ht] at h
            dsimp only at h
            cases hs : t.asm with
            | error e => rw [hs] at h; exact nomatch h
            | ok s =>
                rw [hs] at h
                cases hr : placeholderTypes rest with
                | error e => rw [hr] at h; exact nomatch h
                | ok types' =>
                    rw [hr] at h
                    cases h
                    exact .cons ⟨t, ht, hs⟩ (ih (i + 1) types' hr)
      · rw [if_neg hp] at h ⊢
        exact ih (i + 1) types h

/-- Positions of placeholders do not repeat. -/
theorem nodup_positions (nodes : List Node) : ((placeholders nodes).map Prod.snd).Nodup := by
  have hsub : ((placeholders nodes).map Prod.snd).Sublist ((nodes.zipIdx 0).map Prod.snd) :=
    List.filter_sublist.map _
  refine hsub.nodup ?_
  rw [List.zipIdx_map_snd]
  exact List.nodup_range'

theorem positions_eq (i : Nat) (nodes : List Node) :
    ((nodes.zipIdx i).filterMap fun n => if n.1.isPlaceholder then some n.2 else none)
      = (placeholdersFrom i nodes).map Prod.snd := by
  induction nodes generalizing i with
  | nil => rfl
  | cons n rest ih =>
      rw [List.zipIdx_cons, placeholdersFrom_cons, List.filterMap_cons, ih]
      by_cases hp : n.isPlaceholder = true
      · rw [if_pos hp, if_pos hp]
        rfl
      · rw [if_neg hp, if_neg hp]

/-- Arguments none of which has the type of the module are all kept. -/
theorem arguments_eq {selfType : String} :
    ∀ {types : List String} (i : Nat), (∀ s ∈ types, s ≠ selfType) →
      ((types.zipIdx i).filterMap fun t =>
        if t.1 == selfType then none else some (Operand.arg t.2))
        = (List.range' i types.length).map Operand.arg := by
  intro types
  induction types with
  | nil => intro i _; rfl
  | cons s rest ih =>
      intro i h
      have hs : ¬ (s == selfType) = true := mt beq_iff_eq.mp (h s List.mem_cons_self)
      rw [List.zipIdx_cons, List.filterMap_cons, if_neg hs,
        ih (i + 1) (fun s' hs' => h s' (List.mem_cons_of_mem s hs'))]
      rfl

/-- The placeholders are paired with the arguments after the module, as long as
    no placeholder is said to be the module itself. -/
theorem initialEnv_eq {selfType : String} {types : List String} {nodes : List Node}
    (hne : ∀ s ∈ types, s ≠ selfType) :
    initialEnv selfType (selfType :: types) nodes
      = ((placeholders nodes).map Prod.snd).zip
          ((List.range' 1 types.length).map Operand.arg) := by
  unfold initialEnv
  rw [positions_eq, List.zipIdx_cons, List.filterMap_cons,
    if_pos (beq_self_eq_true selfType), arguments_eq _ hne]
  rfl

/-- **THE K-TH PLACEHOLDER IS THE K-TH ARGUMENT AFTER THE MODULE**, as long as
    no placeholder is said to be the module itself. -/
theorem lookup_initialEnv {selfType : String} {types : List String} {nodes : List Node}
    (hlen : (placeholders nodes).length = types.length)
    (hne : ∀ s ∈ types, s ≠ selfType) {k : Nat} {m : Node × Nat}
    (hk : (placeholders nodes)[k]? = some m) :
    (initialEnv selfType (selfType :: types) nodes).lookup m.2 = some (.arg (k + 1)) := by
  obtain ⟨hlt, _⟩ := List.getElem?_eq_some_iff.mp hk
  -- positions do not repeat, so the pair at `k` is the one that is found
  rw [initialEnv_eq hne]
  refine Table.lookup_of_mem ?_ ?_
  · rw [List.map_fst_zip (by simp [hlen])]
    exact nodup_positions nodes
  · refine List.mem_iff_getElem?.mpr ⟨k, ?_⟩
    rw [List.getElem?_zip_eq_some, List.getElem?_map, hk, List.getElem?_map,
      List.getElem?_range' (hlen ▸ hlt)]
    exact ⟨rfl, by simp [Nat.add_comm]⟩

/-- Every placeholder is said to be a tensor or a plain value. -/
def DataArguments (nodes : List Node) : Prop :=
  ∀ n ∈ nodes, n.isPlaceholder = true → ∃ t, n.argType = some t ∧ t.isData = true

/-- The types of arguments that are tensors or plain values differ from that of
    the module. -/
theorem DataArguments.types_ne {nodes : List Node} (hn : DataArguments nodes)
    {types : List String} (h : placeholderTypes nodes = .ok types) (name : String) :
    ∀ s ∈ types, s ≠ ArgType.moduleAsm name := by
  intro s hs
  obtain ⟨k, hk, rfl⟩ := List.mem_iff_getElem.mp hs
  have hall : List.Forall₂ _ (placeholders nodes) types := placeholderTypes_forall₂ nodes 0 types h
  have hk' : k < (placeholders nodes).length := hall.length_eq ▸ hk
  obtain ⟨t, ht, hasm⟩ := hall.get hk' hk
  have hmem := List.mem_filter.mp (List.get_mem (placeholders nodes) ⟨k, hk'⟩)
  obtain ⟨t', ht', hdata⟩ := hn _ (List.fst_mem_of_mem_zipIdx hmem.1) hmem.2
  rw [ht] at ht'
  cases ht'
  exact asm_ne_moduleAsm hdata hasm name

/-- The arguments of a built function: the module first, then one for each
    placeholder, in order, of the type that was said about it. -/
structure ArgumentsMatch (g : GraphModule) (f : Func) : Prop where
  self : f.argTypes[0]? = some (ArgType.moduleAsm g.className)
  count : f.argTypes.length = (placeholders g.nodes).length + 1
  each : ∀ k n p, (placeholders g.nodes)[k]? = some (n, p) →
    (initialEnv (ArgType.moduleAsm g.className) f.argTypes g.nodes).lookup p
        = some (.arg (k + 1)) ∧
      ∃ t s, n.argType = some t ∧ t.asm = .ok s ∧ f.argTypes[k + 1]? = some s

/-- The arguments of a function built for a normalised graph match. -/
theorem argumentsMatch_of_types {g : GraphModule} (hn : Normal g.nodes) {types : List String}
    (ht : placeholderTypes g.nodes = .ok types) (body : List Instr) :
    ArgumentsMatch g (forwardFunc g types body) := by
  have hall : List.Forall₂ _ (placeholders g.nodes) types :=
    placeholderTypes_forall₂ g.nodes 0 types ht
  refine ⟨rfl, congrArg (· + 1) hall.length_eq.symm, ?_⟩
  intro k n p hk
  have hdata : DataArguments g.nodes := hn.typed
  refine ⟨lookup_initialEnv hall.length_eq (hdata.types_ne ht g.className) hk, ?_⟩
  obtain ⟨hlt, heq⟩ := List.getElem?_eq_some_iff.mp hk
  obtain ⟨t, hty, hasm⟩ := hall.get hlt (hall.length_eq ▸ hlt)
  refine ⟨t, _, ?_, hasm, ?_⟩
  · rw [List.get_eq_getElem, heq] at hty
    exact hty
  · show (ArgType.moduleAsm g.className :: types)[k + 1]? = _
    rw [List.getElem?_cons_succ, List.getElem?_eq_getElem (hall.length_eq ▸ hlt)]
    rfl

end DialectBench.Graph
