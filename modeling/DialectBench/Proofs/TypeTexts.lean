import DialectBench.Proofs.DottedPath
import DialectBench.Proofs.GraphArguments
import DialectBench.Proofs.Numerals

/-!
# The texts of types are unambiguous

    The text of a tensor type tells whether an element type was said, and if so
    the whole shape: no size is written with a comma or as nothing at all, so the
    sizes can be told apart in the joined text (`IsShape.eq_of_shapeAsm_eq`), and
    the text of a size tells the size (`IsSize.eq_of_sizeAsm_eq`).

    Neither a tensor nor a plain value has the type of a module, whatever class the
    module is of.  So passing over the arguments of the type of the module passes
    over the first one alone (`tensor_texts_unambiguous`).
-/

namespace DialectBench.Graph

open Text

/-! ## Sizes -/

/-- What may stand in a shape: an integer or nothing.  Truth values are integers too. -/
inductive IsSize : Value → Prop where
  | unknown : IsSize .none
  | known (n : Int) : IsSize (.int n)
  | truth (b : Bool) : IsSize (.bool b)

namespace IsSize

/-- A size is told from its neighbours by the commas alone. -/
theorem sizeAsm_separable {v : Value} (h : IsSize v) :
    ArgType.sizeAsm v ≠ "" ∧ ',' ∉ (ArgType.sizeAsm v).toList := by
  cases h with
  | unknown => decide
  | known n =>
      refine ⟨toString_int_ne_empty n, fun hmem => ?_⟩
      rcases mem_toString_int hmem with hminus | hdigit
      · exact absurd hminus (by decide)
      · exact absurd hdigit (by decide)
  | truth b => cases b <;> decide

/-- **THE TEXT OF A SIZE TELLS THE SIZE.** -/
theorem eq_of_sizeAsm_eq {v w : Value} (hv : IsSize v) (hw : IsSize w)
    (h : ArgType.sizeAsm v = ArgType.sizeAsm w) : v = w := by
  have hunknown : ∀ n : Int, toString n ≠ "?" := fun n =>
    toString_int_ne (c := '?') (by decide) (by decide) (by decide)
  have htruth : ∀ (n : Int) (b : Bool), toString n ≠ boolText b := fun n b =>
    toString_int_ne (c := 'e') (by cases b <;> decide) (by decide) (by decide)
  cases hv with
  | unknown =>
      cases hw with
      | unknown => rfl
      | known n => exact absurd h.symm (hunknown n)
      | truth b => cases b <;> exact absurd h (by decide)
  | known m =>
      cases hw with
      | unknown => exact absurd h (hunknown m)
      | known n =>
          rw [toString_int_injective h]
      | truth b => exact absurd h (htruth m b)
  | truth a =>
      cases hw with
      | unknown => cases a <;> exact absurd h (by decide)
      | known n => exact absurd h.symm (htruth n a)
      | truth b =>
          cases a <;> cases b
          · rfl
          · exact absurd h (by decide)
          · exact absurd h (by decide)
          · rfl

theorem eq_of_map_sizeAsm_eq {vs ws : List Value} (hvs : ∀ v ∈ vs, IsSize v)
    (hws : ∀ w ∈ ws, IsSize w) (h : vs.map ArgType.sizeAsm = ws.map ArgType.sizeAsm) :
    vs = ws := by
  induction vs generalizing ws with
  | nil =>
      cases ws with
      | nil => rfl
      | cons w ws => exact nomatch h
  | cons v vs ih =>
      cases ws with
      | nil => exact nomatch h
      | cons w ws =>
          obtain ⟨hv, hvs⟩ := List.forall_mem_cons.mp hvs
          obtain ⟨hw, hws⟩ := List.forall_mem_cons.mp hws
          obtain ⟨hhead, htail⟩ := List.cons.inj h
          rw [hv.eq_of_sizeAsm_eq hw hhead, ih hvs hws htail]

end IsSize

/-! ## Shapes -/

/-- What may be said about a shape: nothing, or a list of sizes. -/
inductive IsShape : Value → Prop where
  | unknown : IsShape .none
  | sized (sizes : List Value) (h : ∀ v ∈ sizes, IsSize v) : IsShape (.list sizes)

namespace IsShape

theorem exists_shapeAsm {shape : Value} (h : IsShape shape) :
    ∃ s, ArgType.shapeAsm shape = .ok s := by
  cases h with
  | unknown => exact ⟨_, rfl⟩
  | sized sizes h => exact ⟨_, rfl⟩

/-- **THE TEXT OF A SHAPE TELLS THE SHAPE**, be it unknown, empty or of any
    length. -/
theorem eq_of_shapeAsm_eq {shape shape' : Value} (hs : IsShape shape) (hs' : IsShape shape')
    (h : ArgType.shapeAsm shape = ArgType.shapeAsm shape') : shape = shape' := by
  have hbracket : ∀ s : String, "*" ≠ "[" ++ s ++ "]" := by
    intro s heq
    have hfirst : ("[" ++ s ++ "]").toList.head? = some '[' := by
      rw [String.toList_append, String.toList_append]
      rfl
    rw [← heq] at hfirst
    exact absurd hfirst (by decide)
  cases hs with
  | unknown =>
      cases hs' with
      | unknown => rfl
      | sized sizes' hsizes' => exact absurd (Except.ok.inj h) (hbracket _)
  | sized sizes hsizes =>
      cases hs' with
      | unknown => exact absurd (Except.ok.inj h).symm (hbracket _)
      | sized sizes' hsizes' =>
          have hjoined : joinWith "," (sizes.map ArgType.sizeAsm)
              = joinWith "," (sizes'.map ArgType.sizeAsm) :=
            (String.append_right_inj _).mp ((String.append_left_inj _).mp (Except.ok.inj h))
          have hseparable : ∀ {vs : List Value}, (∀ v ∈ vs, IsSize v) →
              ∀ p ∈ vs.map ArgType.sizeAsm, p ≠ "" ∧ ',' ∉ p.toList := by
            intro vs hvs p hp
            obtain ⟨v, hv, rfl⟩ := List.mem_map.mp hp
            exact (hvs v hv).sizeAsm_separable
          have htexts := (joinWith_eq_iff rfl (hseparable hsizes) (hseparable hsizes')).mp hjoined
          rw [IsSize.eq_of_map_sizeAsm_eq hsizes hsizes' htexts]

end IsShape

/-! ## Tensor types -/

/-- What may be said about an element type: nothing, or single precision under one of its
    names. -/
inductive IsElement : Value → Prop where
  | unknown : IsElement .none
  | float32 : IsElement (.dtype "float32")
  | float : IsElement (.dtype "float")

/-- A tensor type is refused only where a shape is said and no element type. -/
theorem ofTensor_eq_ok {shape dtype : Value} {t : ArgType}
    (h : ArgType.ofTensor shape dtype = .ok t) :
    t = .tensor shape dtype ∧ (dtype = .none → shape = .none) := by
  unfold ArgType.ofTensor at h
  split at h
  · exact ⟨(Except.ok.inj h).symm, fun _ => rfl⟩
  · exact nomatch h
  · rename_i hnone _
    exact ⟨(Except.ok.inj h).symm, fun hd => absurd hd hnone⟩

/-- The text of a tensor type of single precision. -/
def singleAsm (shape : String) : String := "!torch.vtensor<" ++ shape ++ "," ++ "f32" ++ ">"

/-- Without an element type there is one text; with one, the text is that of the
    shape in a frame. -/
theorem IsElement.asm_cases {dtype : Value} (h : IsElement dtype) (shape : Value) :
    (dtype = .none ∧ (ArgType.tensor shape dtype).asm = .ok ArgType.anyTensor) ∨
      (dtype ≠ .none ∧
        (ArgType.tensor shape dtype).asm = (ArgType.shapeAsm shape).map singleAsm) := by
  have hsingle : ∀ name, ArgType.dtypeAsm (.dtype name) = .ok "f32" →
      (ArgType.tensor shape (.dtype name)).asm = (ArgType.shapeAsm shape).map singleAsm := by
    intro name hname
    simp only [ArgType.asm, hname]
    cases ArgType.shapeAsm shape with
    | error e => rfl
    | ok s => rfl
  cases h with
  | unknown => exact .inl ⟨rfl, rfl⟩
  | float32 => exact .inr ⟨nofun, hsingle _ rfl⟩
  | float => exact .inr ⟨nofun, hsingle _ rfl⟩

theorem singleAsm_ne_anyTensor (s : String) : singleAsm s ≠ ArgType.anyTensor := by
  intro h
  have htake : (singleAsm s).toList.take 9 = "!torch.vt".toList := take_vtensor s "f32"
  rw [h] at htake
  exact absurd htake (by decide)

theorem singleAsm_injective {s s' : String} (h : singleAsm s = singleAsm s') : s = s' := by
  unfold singleAsm at h
  rw [String.append_left_inj, String.append_left_inj, String.append_left_inj,
    String.append_right_inj] at h
  exact h

theorem exists_tensor_asm {shape dtype : Value} (hs : IsShape shape) (hd : IsElement dtype) :
    ∃ s, (ArgType.tensor shape dtype).asm = .ok s := by
  obtain ⟨s, hs⟩ := hs.exists_shapeAsm
  rcases hd.asm_cases shape with ⟨-, hasm⟩ | ⟨-, hasm⟩
  · exact ⟨_, hasm⟩
  · exact ⟨singleAsm s, by rw [hasm, hs]; rfl⟩

/-- **THE TEXT OF A TENSOR TYPE TELLS WHAT WAS SAID**, up to the name of the element
    type. -/
theorem tensor_asm_eq_iff {shape shape' dtype dtype' : Value} (hs : IsShape shape)
    (hs' : IsShape shape') (hd : IsElement dtype) (hd' : IsElement dtype')
    (hshape : dtype = .none → shape = .none) (hshape' : dtype' = .none → shape' = .none) :
    (ArgType.tensor shape dtype).asm = (ArgType.tensor shape' dtype').asm
      ↔ (dtype = .none ↔ dtype' = .none) ∧ shape = shape' := by
  obtain ⟨s, hsasm⟩ := hs.exists_shapeAsm
  obtain ⟨s', hsasm'⟩ := hs'.exists_shapeAsm
  rcases hd.asm_cases shape with ⟨hnone, hasm⟩ | ⟨hsome, hasm⟩
  · rcases hd'.asm_cases shape' with ⟨hnone', hasm'⟩ | ⟨hsome', hasm'⟩
    · rw [hasm, hasm', hshape hnone, hshape' hnone']
      exact iff_of_true rfl ⟨iff_of_true hnone hnone', rfl⟩
    · rw [hasm, hasm', hsasm']
      refine iff_of_false (fun h => ?_) (fun h => hsome' (h.1.mp hnone))
      exact singleAsm_ne_anyTensor s' (Except.ok.inj h).symm
  · rcases hd'.asm_cases shape' with ⟨hnone', hasm'⟩ | ⟨hsome', hasm'⟩
    · rw [hasm, hasm', hsasm]
      refine iff_of_false (fun h => ?_) (fun h => hsome (h.1.mpr hnone'))
      exact singleAsm_ne_anyTensor s (Except.ok.inj h)
    · rw [hasm, hasm', hsasm, hsasm']
      constructor
      · intro h
        have htexts : s = s' := singleAsm_injective (Except.ok.inj h)
        refine ⟨iff_of_false hsome hsome', hs.eq_of_shapeAsm_eq hs' ?_⟩
        rw [hsasm, hsasm', htexts]
      · rintro ⟨-, rfl⟩
        rw [hsasm] at hsasm'
        rw [Except.ok.inj hsasm']

/-! ## Passing over the module -/

/-- The arguments of a function that are not of the type of the module. -/
def keptArguments (selfType : String) (types : List String) : List Operand :=
  types.zipIdx.filterMap fun t => if t.1 == selfType then none else some (.arg t.2)

theorem initialEnv_eq_zip (selfType : String) (types : List String) (nodes : List Node) :
    initialEnv selfType types nodes
      = ((placeholders nodes).map Prod.snd).zip (keptArguments selfType types) := by
  rw [initialEnv, positions_eq]
  rfl

/-- Where no other argument has the type of the module, the first one alone is passed
    over. -/
theorem keptArguments_cons {selfType : String} {types : List String}
    (hne : ∀ s ∈ types, s ≠ selfType) :
    keptArguments selfType (selfType :: types)
      = ((List.range (types.length + 1)).map Operand.arg).tail := by
  rw [keptArguments, List.zipIdx_cons, List.filterMap_cons, if_pos (beq_self_eq_true selfType),
    ← List.map_tail, List.tail_range]
  exact arguments_eq 1 hne

/-- **THE TEXTS OF TYPES ARE UNAMBIGUOUS.**  Tensor types with a list of sizes or no
    shape, of single precision or without an element type, have a text, and two of
    them have the same one exactly if both or neither have an element type and the
    shapes are the same.  No tensor type and no type of plain values has the text of
    the type of a module, of whatever class.  So if all arguments besides the module
    are of such types, passing over those of the type of the module passes over the
    first one alone, and the placeholders stand for all the others, in order. -/
theorem tensor_texts_unambiguous :
    (∀ shape dtype shape' dtype' t t', IsShape shape → IsElement dtype → IsShape shape' →
      IsElement dtype' → ArgType.ofTensor shape dtype = .ok t →
      ArgType.ofTensor shape' dtype' = .ok t' →
      (∃ s, t.asm = .ok s) ∧
        (t.asm = t'.asm ↔ (dtype = .none ↔ dtype' = .none) ∧ shape = shape')) ∧
    (∀ (t : ArgType) (name : String), t.isData = true → t.asm ≠ .ok (ArgType.moduleAsm name)) ∧
    ∀ (g : GraphModule) (types : List String), DataArguments g.nodes →
      placeholderTypes g.nodes = .ok types →
      keptArguments (ArgType.moduleAsm g.className) (ArgType.moduleAsm g.className :: types)
          = ((List.range (types.length + 1)).map Operand.arg).tail ∧
        (placeholders g.nodes).length = types.length ∧
        initialEnv (ArgType.moduleAsm g.className) (ArgType.moduleAsm g.className :: types) g.nodes
          = ((placeholders g.nodes).map Prod.snd).zip
              ((List.range (types.length + 1)).map Operand.arg).tail := by
  refine ⟨?_, ?_, ?_⟩
  · intro shape dtype shape' dtype' t t' hs hd hs' hd' ht ht'
    obtain ⟨rfl, hshape⟩ := ofTensor_eq_ok ht
    obtain ⟨rfl, hshape'⟩ := ofTensor_eq_ok ht'
    exact ⟨exists_tensor_asm hs hd, tensor_asm_eq_iff hs hs' hd hd' hshape hshape'⟩
  · intro t name hdata hasm
    exact asm_ne_moduleAsm hdata hasm name rfl
  · intro g types hdata htypes
    have hkept := keptArguments_cons (hdata.types_ne htypes g.className)
    have hall : List.Forall₂ _ (placeholders g.nodes) types :=
      placeholderTypes_forall₂ g.nodes 0 types htypes
    exact ⟨hkept, hall.length_eq, by rw [initialEnv_eq_zip, hkept]⟩

/-- A graph with a tensor of known shape and a plain value among its arguments. -/
def gated : GraphModule where
  className := "Gated"
  attributes := []
  parameters := []
  hasForward := true
  nodes :=
    [⟨"placeholder", "x", .name "x", [], [],
        some (.tensor (.list [.int 12, .none]) (.dtype "float32"))⟩,
      ⟨"call_function", "tanh", .operator "tanh", [], [("input", .node 0)], none⟩,
      ⟨"placeholder", "gate", .name "gate", [], [], some (.plain .bool)⟩,
      ⟨"output", "output", .name "output", [.node 1], [], none⟩]

/-- Sizes are told apart though the same digits stand in both texts, and the two arguments of the
    graph stand for the second and the third argument of the function. -/
theorem tensor_texts_unambiguous_gated :
    (ArgType.tensor (.list [.int 12, .none]) (.dtype "float32")).asm
      ≠ (ArgType.tensor (.list [.int 1, .int 2, .none]) (.dtype "float32")).asm ∧
    (ArgType.plain .bool).asm ≠ .ok (ArgType.moduleAsm "Gated") ∧
    DataArguments gated.nodes ∧
    initialEnv (ArgType.moduleAsm "Gated")
        [ArgType.moduleAsm "Gated", "!torch.vtensor<[12,?],f32>", "!torch.bool"] gated.nodes
      = [(0, .arg 1), (2, .arg 2)] := by
  obtain ⟨htexts, hmodule, harguments⟩ := tensor_texts_unambiguous
  have hsizes : ∀ v ∈ [Value.int 12, .none], IsSize v := by
    intro v hv
    rcases List.mem_pair.mp hv with rfl | rfl
    · exact .known 12
    · exact .unknown
  have hsizes' : ∀ v ∈ [Value.int 1, .int 2, .none], IsSize v :=
    List.forall_mem_cons.mpr ⟨.known 1, List.forall_mem_cons.mpr ⟨.known 2,
      List.forall_mem_singleton.mpr .unknown⟩⟩
  have hdata : DataArguments gated.nodes := by
    intro n hn hp
    simp only [gated, List.mem_cons, List.not_mem_nil, or_false] at hn
    rcases hn with rfl | rfl | rfl | rfl
    · exact ⟨_, rfl, rfl⟩
    · exact absurd hp (by decide)
    · exact ⟨_, rfl, rfl⟩
    · exact absurd hp (by decide)
  obtain ⟨-, hiff⟩ :=
    htexts _ _ _ _ _ _ (.sized _ hsizes) .float32 (.sized _ hsizes') .float32 rfl rfl
  refine ⟨fun hsame => ?_, hmodule _ _ rfl, hdata, (harguments gated _ hdata rfl).2.2⟩
  have hshapes := (hiff.mp hsame).2
  simp at hshapes

end DialectBench.Graph
