import Mathlib.Data.List.Nodup
import Mathlib.Data.List.Pairwise
import DialectBench.Proofs.Translation

/-!
# The class and the function of a built module

    A built module holds its class, an instance of the class, the constants in
    the slots of the instance, and the function, in this order.  What is said
    about an attribute stands in three of these places: the class declares it,
    the instance has a slot for it, and a constant holds its value.

    The three are filled by one walk over the attributes.  That a slot refers to
    its constant, and to nothing else, is a matter of numbers: the constants are
    numbered from zero on, and the function goes on after the last of them.
-/

namespace DialectBench.Graph

/-! ## Views of the operations -/

/-- The attribute that an operation of a class declares, if any. -/
def ClassOp.attribute? : ClassOp → Option String
  | .attribute name _ _ => some name
  | _ => none

/-- The method that an operation of a class declares, if any, with its symbol. -/
def ClassOp.method? : ClassOp → Option (String × String)
  | .method name symbol _ => some (name, symbol)
  | _ => none

/-- The slot that an operation of an instance fills, if any, with its value. -/
def InstanceOp.slot? : InstanceOp → Option (String × Operand)
  | .slot name x => some (name, x)
  | .terminator => none

/-- The attributes of a module that are not hidden. -/
def GraphModule.publicAttributes (g : GraphModule) : List (String × Value) :=
  g.attributes.filter fun a => isPublic a.1

theorem filterMap_attribute?_classBody (g : GraphModule) (truths : List (String × Bool)) :
    (classBody g truths).filterMap ClassOp.attribute? = truths.map Prod.fst := by
  cases hforward : g.hasForward <;>
    simp [classBody, hforward, List.filterMap_append, List.filterMap_map, Function.comp_def,
      ClassOp.attribute?]

theorem filterMap_method?_classBody (g : GraphModule) (truths : List (String × Bool)) :
    (classBody g truths).filterMap ClassOp.method?
      = if g.hasForward then [("forward", symbolOf (forwardName g.className))] else [] := by
  cases hforward : g.hasForward <;>
    simp [classBody, hforward, List.filterMap_append, List.filterMap_map, Function.comp_def,
      ClassOp.method?]

theorem filterMap_slot?_instanceBody (truths : List (String × Bool)) :
    (instanceBody truths).filterMap InstanceOp.slot? = slotsFrom 0 truths := by
  simp [instanceBody, List.filterMap_append, List.filterMap_map, Function.comp_def,
    InstanceOp.slot?]

/-! ## Slots and constants -/

theorem map_fst_slotsFrom (i : Nat) (truths : List (String × Bool)) :
    (slotsFrom i truths).map Prod.fst = truths.map Prod.fst := by
  have h := congrArg (List.map Prod.fst) (List.zipIdx_map_fst i truths)
  rw [List.map_map] at h
  rw [slotsFrom, List.map_map]
  exact h

theorem map_fst_ofTruths (truths : List (String × Bool)) :
    (ofTruths truths).map Prod.fst = truths.map Prod.fst := List.map_map

/-- Each attribute has a slot of its name, and the slot refers to a constant that
    holds the value. -/
theorem slots_match (truths : List (String × Bool)) (i : Nat) :
    List.Forall₂
      (fun a s => ∃ r v, a.2 = .bool v ∧ s = (a.1, .result r) ∧ (r, v) ∈ constantsFrom i truths)
      (ofTruths truths) (slotsFrom i truths) := by
  induction truths generalizing i with
  | nil => exact .nil
  | cons t rest ih =>
      refine .cons ⟨i, t.2, rfl, rfl, List.mem_cons_self⟩ ((ih (i + 1)).imp ?_)
      -- what the rest refers to is still there
      rintro a s ⟨r, w, hw, hs, hmem⟩
      exact ⟨r, w, hw, hs, List.mem_cons_of_mem _ hmem⟩

/-! ## Numbers -/

/-- In a list whose operations assign no number twice, a number tells the
    operation that assigns it. -/
theorem eq_of_results_nodup {ops : List ModuleOp} (hd : (ops.flatMap ModuleOp.results).Nodup)
    {op op' : ModuleOp} (hop : op ∈ ops) (hop' : op' ∈ ops) {r : Nat} (hr : r ∈ op.results)
    (hr' : r ∈ op'.results) : op = op' := by
  by_contra hne
  have hdisj : ops.Pairwise fun o o' => o.results.Disjoint o'.results :=
    (List.nodup_flatMap.mp hd).2
  have : Std.Symm fun o o' : ModuleOp => o.results.Disjoint o'.results :=
    ⟨fun _ _ h r hr hr' => h hr' hr⟩
  exact hdisj.forall hop hop' hne hr hr'

/-! ## Built modules -/

/-- A module whose attributes are truth values has no other parameters. -/
theorem parameters_eq_nil {g : GraphModule} {truths : List (String × Bool)}
    (h : g.visible = ofTruths truths) (hne : ∀ p ∈ g.parameters, ∀ v, p.2 ≠ .bool v) :
    g.parameters = [] := by
  refine List.eq_nil_iff_forall_not_mem.mpr fun p hp => ?_
  have hmem : p ∈ g.visible := List.mem_append_right _ hp
  rw [h] at hmem
  obtain ⟨t, _, rfl⟩ := List.mem_map.mp hmem
  exact hne _ hp t.2 rfl

/-- No other operation of a module assigns the number of a constant. -/
theorem eq_constantBool_of_mem_results {g : GraphModule} {truths : List (String × Bool)} {f : Func}
    (hd : ((layout g truths f).flatMap ModuleOp.results).Nodup) {r : Nat} {v : Bool}
    (hc : (r, v) ∈ constantsFrom 0 truths) {op : ModuleOp} (hop : op ∈ layout g truths f)
    (hr : r ∈ op.results) : op = .constantBool r v := by
  have hmem : ModuleOp.constantBool r v ∈ layout g truths f :=
    List.mem_cons_of_mem _ (List.mem_cons_of_mem _
      (List.mem_append_left _ (List.mem_map.mpr ⟨_, hc, rfl⟩)))
  exact eq_of_results_nodup hd hop hmem hr List.mem_cons_self

/-- **THE CLASS AND THE FUNCTION AGREE**: a built module is a class, its
    instance, constants, and a function.  The class declares and the instance
    holds one attribute for each public attribute and each parameter of the
    module, in order, and nothing else; a module whose parameters are tensors
    and no truth values can be built only if it has none.  The slot of an
    attribute refers to the one operation of the module that assigns its number,
    and that is a constant in front of the function which holds the value of the
    attribute.  The class has the method `forward` exactly if the module has one,
    by the symbol of the function, and the function takes the module first. -/
theorem class_matches_function (g : GraphModule) (ops : List ModuleOp) (hb : build g = .ok ops) :
    ∃ classBody instanceBody constants f slots,
      ops = .classType g.className classBody ::
        .nnModule (ArgType.moduleAsm g.className) instanceBody :: (constants ++ [.func f]) ∧
      (∀ op ∈ constants, ∃ r v, op = .constantBool r v) ∧
      instanceBody.filterMap InstanceOp.slot? = slots ∧
      classBody.filterMap ClassOp.attribute? = slots.map Prod.fst ∧
      slots.map Prod.fst
        = g.publicAttributes.map Prod.fst ++ g.parameters.map Prod.fst ∧
      ((∀ p ∈ g.parameters, ∀ v, p.2 ≠ .bool v) →
        g.parameters = [] ∧ slots.map Prod.fst = g.publicAttributes.map Prod.fst) ∧
      List.Forall₂
        (fun a s => ∃ r v, a.2 = Value.bool v ∧ s = (a.1, .result r) ∧
          .constantBool r v ∈ constants ∧
          ∀ op ∈ ops, r ∈ op.results → op = .constantBool r v)
        (g.publicAttributes ++ g.parameters) slots ∧
      classBody.filterMap ClassOp.method?
        = (if g.hasForward then [("forward", "@" ++ f.name)] else []) ∧
      f.name = g.className ++ ".forward" ∧
      f.argTypes.head? = some (ArgType.moduleAsm g.className) := by
  have hd := build_results_nodup hb
  obtain ⟨truths, types, body, htruths, _, _, rfl⟩ := build_cases hb
  have hnames : (slotsFrom 0 truths).map Prod.fst
      = g.publicAttributes.map Prod.fst ++ g.parameters.map Prod.fst := by
    rw [map_fst_slotsFrom, ← map_fst_ofTruths, ← htruths, GraphModule.visible, List.map_append]
    rfl
  refine ⟨classBody g truths, instanceBody truths,
    (constantsFrom 0 truths).map fun c => .constantBool c.1 c.2, forwardFunc g types body,
    slotsFrom 0 truths, rfl, ?_, filterMap_slot?_instanceBody truths, ?_, hnames, ?_, ?_,
    filterMap_method?_classBody g truths, rfl, rfl⟩
  · intro op hop
    obtain ⟨c, _, rfl⟩ := List.mem_map.mp hop
    exact ⟨c.1, c.2, rfl⟩
  · rw [filterMap_attribute?_classBody, map_fst_slotsFrom]
  · intro hne
    have hnil := parameters_eq_nil htruths hne
    refine ⟨hnil, ?_⟩
    rw [hnames, hnil]
    exact List.append_nil _
  · show List.Forall₂ _ g.visible _
    rw [htruths]
    refine (slots_match truths 0).imp ?_
    rintro a s ⟨r, v, hv, hs, hmem⟩
    exact ⟨r, v, hv, hs, List.mem_map.mpr ⟨_, hmem, rfl⟩,
      fun op hop hr => eq_constantBool_of_mem_results hd hmem hop hr⟩

/-- A module with two public attributes and a hidden one between them. -/
def flagged : GraphModule where
  className := "Gate"
  attributes := [("training", .bool true), ("_hooks", .dict []), ("frozen", .bool false)]
  parameters := []
  hasForward := true
  nodes :=
    [⟨"placeholder", "x", .name "x", [], [], some (.tensor .none .none)⟩,
      ⟨"call_function", "sigmoid", .operator "sigmoid", [], [("input", .node 0)], none⟩,
      ⟨"output", "output", .name "output", [.node 1], [], none⟩]

theorem class_matches_function_flagged :
    ∃ ops classBody instanceBody constants f, build flagged = .ok ops ∧
      ops = .classType "Gate" classBody ::
        .nnModule "!torch.nn.Module<\"Gate\">" instanceBody :: (constants ++ [.func f]) ∧
      classBody.filterMap ClassOp.attribute? = ["training", "frozen"] ∧
      (instanceBody.filterMap InstanceOp.slot?).map Prod.fst = ["training", "frozen"] ∧
      classBody.filterMap ClassOp.method? = [("forward", "@" ++ f.name)] ∧
      f.name = "Gate.forward" := by
  obtain ⟨ops, hb⟩ := exists_built (g := flagged) (by decide +kernel)
  obtain ⟨classBody, instanceBody, constants, f, slots, hops, _, hslots, hclass, hnames, _, _,
    hmethod, hf, _⟩ := class_matches_function flagged ops hb
  rw [hnames] at hclass
  rw [← hslots] at hnames
  exact ⟨ops, classBody, instanceBody, constants, f, hb, hops, hclass, hnames, hmethod, hf⟩

end DialectBench.Graph
