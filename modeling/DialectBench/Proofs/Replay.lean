import DialectBench.Proofs.Conduct
import DialectBench.Proofs.SameBehaviour

/-!
# Golden traces can be replayed

    A golden trace names the methods that were called by dotted paths and holds
    what was passed and returned.  Two replayers make its calls again: the
    configuration that cuts the names at the dots, and the test that is made of
    a saved program and its trace.  Both give the golden trace again, for
    instances of any sort that realise one conduct.

    Modules are such a sort.  What can be REPEATED of a module is its conduct,
    and every module of the same behaviour realises it.  A test of a program
    with deterministic methods, stateful ones and operator calls included, whose
    calls return and leave their arguments alone follows that conduct.
-/

namespace DialectBench

/-! ## The conduct of modules -/

/-- What modules do, seen from outside: the calls that can be repeated. -/
def Module.conduct : Conduct Module := fun m path vs v m' =>
  Repeats (fun es => m.call path ⟨es, []⟩) vs fun t r => t.Shows r.1 v ∧ r.2 = m'

/-- What a call that can be repeated does to a module of the same behaviour. -/
theorem Module.calling_of_conduct {m m' n : Module} {path : List String} {ds : List Datum}
    {vs : List Value} {v : Value} {w : World} (h : Module.conduct m path vs v m')
    (hmn : SameBehaviour m n) (hw : w.store.Acyclic)
    (hds : List.Forall₂ w.store.Shows ds vs) :
    ∃ out n' w', Module.calling path ds [] n w = (.ok (out, n'), w') ∧
      w.store.Grows w'.store ∧ w'.store.Shows out v ∧ SameBehaviour m' n' := by
  obtain ⟨⟨out, m''⟩, s, hcall, hgrows, hshows, rfl⟩ := h w.store ds hw hds
  obtain ⟨n', hcall', hmn'⟩ := hmn.call_eq_ok hcall
  exact ⟨out, n', { w with store := s }, onStore_of_ok hcall', hgrows, hshows, hmn'⟩

/-- A call that only adds to the store is contained, made with an instance that
    owns nothing. -/
theorem Store.Grows.contained {S : Type} {s t : Store} (h : s.Grows t) {out : Datum}
    (hout : t.Holds out) (p p' : S) : Contained (fun _ _ => False) p s p' out t :=
  ⟨h.acyclic, h.kept.changesOnly, fun _ hb => hb.elim, fun _ _ hb => hb.elim, hout,
    fun _ _ hb => hb⟩

theorem follows_module :
    Follows Module.calling Module.conduct (fun _ n m => SameBehaviour m n) fun _ _ => False where
  owned_lt := fun _ _ hb => hb.elim
  mono := fun _ _ h => h
  step := by
    intro w n m m' path ds vs v hw hmn hds hstep
    obtain ⟨out, n', w', hcall, hgrows, hshows, hmn'⟩ :=
      Module.calling_of_conduct hstep hmn hw (Safe.forall₂_shows hds)
    exact ⟨out, n', w', hcall, hgrows.contained hshows.held n n', hshows.freeze_eq, hmn'⟩

theorem follows_program :
    Follows Program.calling Module.conduct (fun _ p m => SameBehaviour m p.module)
      fun _ _ => False where
  owned_lt := fun _ _ hb => hb.elim
  mono := fun _ _ h => h
  step := by
    intro w p m m' path ds vs v hw hmn hds hstep
    obtain ⟨out, n', w', hcall, hgrows, hshows, hmn'⟩ :=
      Module.calling_of_conduct hstep hmn hw (Safe.forall₂_shows hds)
    exact ⟨out, { p with module := n' }, w', (Run.bind_of_ok hcall).trans rfl,
      hgrows.contained hshows.held p _, hshows.freeze_eq, hmn'⟩

/-- **MODULES OF THE SAME BEHAVIOUR REALISE ONE CONDUCT**, each from its state
    on. -/
theorem realises_module {m n : Module} {make : Run World Module} (hmake : ∀ w, make w = (.ok n, w))
    (h : SameBehaviour m n) : Realises make Module.calling Module.conduct m :=
  ⟨_, _, follows_module, fun w hw => ⟨n, w, hmake w, Store.Grows.refl hw, h, fun _ hb => hb.elim⟩⟩

theorem realises_program {m : Module} {p : Program} {make : Run World Program}
    (hmake : ∀ w, make w = (.ok p, w)) (h : SameBehaviour m p.module) :
    Realises make Program.calling Module.conduct m :=
  ⟨_, _, follows_program, fun w hw => ⟨p, w, hmake w, Store.Grows.refl hw, h, fun _ hb => hb.elim⟩⟩

/-! ## Tests that leave their arguments alone -/

/-- The calls of a test, made one after the other from a world and a module
    with the results of earlier calls at hand: each is at a path of names
    without dots, passes positional arguments, returns, and leaves what it was
    passed as it was.  A result of an earlier call can only be changed through
    an argument that shares it. -/
inductive Quiet : World → Module → List Datum → List CallStep → Prop where
  | done (w : World) (m : Module) (outputs : List Datum) : Quiet w m outputs []
  | call {w w' : World} {m m' : Module} {outputs : List Datum} {path : List String}
      {args : List Argument} {ds : List Datum} {out : Datum} {s : Store}
      {rest : List CallStep} (nonempty : path ≠ [])
      (dotFree : ∀ name ∈ path, '.' ∉ name.toList)
      (data : Argument.data outputs args w = (.ok ds, w'))
      (returns : m.call path ⟨ds, []⟩ w'.store = (.ok (out, m'), s))
      (kept : ∀ d ∈ ds, s.freeze d = w'.store.freeze d)
      (more : Quiet { w' with store := s } m' (outputs ++ [out]) rest) :
      Quiet w m outputs (.call path args [] :: rest)

/-- The datum that an argument stands for shows what the argument means. -/
theorem Argument.datum_means {outputs : List Datum} {arg : Argument} {w w' : World} {d : Datum}
    (hw : w.store.Acyclic) (hout : ∀ o ∈ outputs, w.store.Holds o)
    (h : Argument.datum outputs arg w = (.ok d, w')) :
    w.store.Grows w'.store ∧ w'.store.Holds d ∧
      arg.Means (outputs.map w.store.freeze) (w'.store.freeze d) := by
  cases arg with
  | value v =>
      cases h
      obtain ⟨hgrows, hshows⟩ := v.thaw_shows hw
      exact ⟨hgrows, hshows.held, hshows.freeze_eq⟩
  | ref n =>
      rw [Argument.datum] at h
      cases hn : outputs[n]? with
      | none =>
          rw [hn] at h
          cases congrArg Prod.fst h
      | some o =>
          rw [hn] at h
          cases h
          refine ⟨Store.Grows.refl hw, hout d (List.mem_of_getElem? hn), ?_⟩
          show (outputs.map w.store.freeze)[n]? = _
          rw [List.getElem?_map, hn]
          rfl

/-- What data read as does not change when the store grows. -/
theorem Store.Grows.map_freeze {s t : Store} (h : s.Grows t) (hs : s.Acyclic) {ds : List Datum}
    (hds : ∀ d ∈ ds, s.Holds d) : ds.map t.freeze = ds.map s.freeze :=
  List.map_congr_left fun d hd => hs.freeze_extends h.kept (hds d hd)

theorem Store.Grows.holds_all {s t : Store} (h : s.Grows t) {ds : List Datum}
    (hds : ∀ d ∈ ds, s.Holds d) : ∀ d ∈ ds, t.Holds d :=
  fun d hd => (hds d hd).mono_length h.kept.length_le

theorem Argument.data_means {outputs : List Datum} : ∀ {args : List Argument} {w w' : World}
    {ds : List Datum}, w.store.Acyclic → (∀ o ∈ outputs, w.store.Holds o) →
    Argument.data outputs args w = (.ok ds, w') →
      w.store.Grows w'.store ∧ (∀ d ∈ ds, w'.store.Holds d) ∧
        List.Forall₂ (Argument.Means (outputs.map w.store.freeze)) args
          (ds.map w'.store.freeze) := by
  intro args
  induction args with
  | nil =>
      intro w w' ds hw _ h
      cases h
      exact ⟨Store.Grows.refl hw, fun d hd => (nomatch hd), .nil⟩
  | cons arg args ih =>
      intro w w' ds hw hout h
      obtain ⟨d, w₁, hd, hrest⟩ := Run.bind_eq_ok h
      obtain ⟨ds', w₂, hds, hpure⟩ := Run.bind_eq_ok hrest
      cases hpure
      obtain ⟨hgrows, hheld, hmeans⟩ := Argument.datum_means hw hout hd
      obtain ⟨hgrows', hheld', hmeans'⟩ := ih hgrows.acyclic (hgrows.holds_all hout) hds
      rw [hgrows.map_freeze hw hout] at hmeans'
      refine ⟨hgrows.trans hgrows', List.forall_mem_cons.mpr
        ⟨hheld.mono_length hgrows'.kept.length_le, hheld'⟩, .cons ?_ hmeans'⟩
      rw [hgrows.acyclic.freeze_extends hgrows'.kept hheld]
      exact hmeans

/-- **A QUIET TEST FOLLOWS THE CONDUCT OF ITS MODULE**: each of its calls can be
    repeated, so that the store only grows and the results of earlier calls read
    as before. -/
theorem Quiet.conducts {w : World} {m : Module} {outputs : List Datum} {calls : List CallStep}
    (h : Quiet w m outputs calls) : w.store.Acyclic → m.Deterministic →
      (∀ o ∈ outputs, w.store.Holds o) →
        ∃ vals, Conducts Module.conduct m (outputs.map w.store.freeze) calls vals := by
  induction h with
  | done w m outputs => exact fun _ _ _ => ⟨[], .done m _⟩
  | @call w w' m m' outputs path args ds out s rest nonempty dotFree data returns kept _ ih =>
      intro hw hdet hout
      obtain ⟨hgrows, hheld, hmeans⟩ := Argument.data_means hw hout data
      have hshown : List.Forall₂ w'.store.Shows ds (ds.map w'.store.freeze) :=
        Store.forall₂_shows_iff.mpr ⟨hheld, rfl⟩
      obtain ⟨v, hrepeats⟩ := m.call_repeats hdet hgrows.acyclic hshown returns kept
      -- the call itself is one of its repetitions
      obtain ⟨r, s₁, hcall, hgrows₁, hr⟩ := hrepeats w'.store ds hgrows.acyclic hshown
      cases returns.symm.trans hcall
      have hall := hgrows.trans hgrows₁
      have hout' : ∀ o ∈ outputs ++ [out], s.Holds o :=
        List.forall_mem_append.mpr ⟨hall.holds_all hout, List.forall_mem_singleton.mpr hr.1.held⟩
      obtain ⟨vals, hvals⟩ := ih hgrows₁.acyclic (hdet.call returns) hout'
      have houts : (outputs ++ [out]).map s.freeze = outputs.map w.store.freeze ++ [v] := by
        rw [List.map_append, List.map_singleton, hall.map_freeze hw hout, hr.1.freeze_eq]
      rw [houts] at hvals
      exact ⟨_, .call nonempty dotFree hmeans hrepeats hvals⟩

/-! ## Replaying -/

/-- A saved module that behaves as another plays what the other does, once the
    annotations are put back. -/
theorem goldenTrace_savedTest {m loaded : Module} {notes : ModuleNotes} {vals : Trace Value}
    (hsame : SameBehaviour m loaded) (hnotes : (Notes.apply notes loaded).1 = .ok ())
    (hplays : Plays Module.conduct m vals) (name : String) :
    goldenTrace (savedTest name notes loaded vals) = .ok vals := by
  have hnoted := Notes.apply_sameBehaviour notes loaded
  unfold savedTest
  rcases happly : Notes.apply notes loaded with ⟨out, noted⟩
  rw [happly] at hnotes hnoted
  cases hnotes
  exact goldenTrace_of_plays
    (realises_program (fun _ => rfl) (SameBehaviour.trans hsame hnoted)) hplays name

/-- **A GOLDEN TRACE CAN BE REPLAYED.**  Take any instances, in whatever way they
    are made and called, that realise a conduct, and a test whose calls follow
    it, run in any acyclic world.  The test returns a golden trace.  Making its
    calls again by name with a new instance, compiled into any realisation of
    the conduct, returns a trace that reads the same, item by item.  And the
    test that is made of the trace has the same golden trace, with any
    realisation of the conduct.

    For programs: if the methods are deterministic and the test is quiet, this
    is so for every scripted form of the behaviour of the program, and for every
    saved module that behaves as the program, once the annotations are put
    back. -/
theorem golden_trace_replays :
    (∀ {S A σ : Type} (conduct : Conduct σ) (start : σ) (factory : Run World S)
        (call : Calling World S Datum) (compile : S → Run World A)
        (compiled : Calling World A Datum) (calls : List CallStep) (vals : Trace Value)
        (name : String) (w : World),
      Realises factory call conduct start →
      Realises (factory >>= compile) compiled conduct start →
      Conducts conduct start [] calls vals → w.store.Acyclic →
        (∃ golden w₁, (callTest call name factory calls).golden w = (.ok golden, w₁) ∧
          w₁.read golden = vals ∧
          ∃ again w₂, (do
              let p ← factory
              let a ← (pathConfig compile compiled (Text.split '.')).compile p
              (pathConfig compile compiled (Text.split '.')).run a golden) w₁
                = (.ok again, w₂) ∧
            w₂.read again = vals ∧ w₂.read golden = vals) ∧
        ∀ {S' : Type} (factory' : Run World S') (call' : Calling World S' Datum),
          Realises factory' call' conduct start →
            goldenTrace (replayTest call' name factory' vals) = .ok vals) ∧
    ∀ (name : String) (p : Program) (calls : List CallStep) (w : World), w.store.Acyclic →
      p.module.Deterministic → Quiet w p.module [] calls → SameBehaviour p.module p.script →
        ∃ golden w₁, (programTest name (.ok p) calls).golden w = (.ok golden, w₁) ∧
          (∃ again w₂,
            (scriptedConfig.compile p >>= fun m => scriptedConfig.run m golden) w₁
              = (.ok again, w₂) ∧
            w₂.read again = w₁.read golden) ∧
          ∀ notes loaded, SameBehaviour p.module loaded →
            (Notes.apply notes loaded).1 = .ok () →
              goldenTrace (savedTest name notes loaded (w₁.read golden))
                = .ok (w₁.read golden) := by
  constructor
  · intro S A σ conduct start factory call compile compiled calls vals name w hreal hcompiled
      hcalls hw
    obtain ⟨golden, w₁, these, hgolden, hac, hrec⟩ := golden_of_conducts hreal hcalls name hw
    exact ⟨⟨golden, w₁, hgolden, read_eq_of_recorded hrec,
        rerun_of_plays hcompiled hcalls.plays hac hrec⟩,
      fun factory' call' hreal' => goldenTrace_of_plays hreal' hcalls.plays name⟩
  · intro name p calls w hw hdet hquiet hscript
    obtain ⟨vals, hcalls⟩ := hquiet.conducts hw hdet fun o ho => (nomatch ho)
    have hreal : Realises (programTest name (.ok p) calls).factory Program.calling Module.conduct
        p.module := realises_program (p := p) (fun _ => rfl) (sameBehaviour_refl _)
    obtain ⟨golden, w₁, these, hgolden, hac, hrec⟩ := golden_of_conducts hreal hcalls name hw
    have hread : w₁.read golden = vals := read_eq_of_recorded hrec
    refine ⟨golden, w₁, hgolden, ?_, fun notes loaded hloaded hnotes => ?_⟩
    · have hcompiled : Realises ((pure p : Run World Program) >>= scriptedConfig.compile)
          Module.calling Module.conduct p.module := realises_module (fun _ => rfl) hscript
      obtain ⟨again, w₂, hrun, hagain, _⟩ := rerun_of_plays hcompiled hcalls.plays hac hrec
      exact ⟨again, w₂, hrun, hagain.trans hread.symm⟩
    · rw [hread]
      exact goldenTrace_savedTest hloaded hnotes hcalls.plays name

/-- The product of two matrices. -/
def productCode : Code where
  params := ["lhs", "rhs"]
  body := []
  result := .call "torch.mm" [.var "lhs", .var "rhs"] []

/-- Adds to a member of the module and returns the sum. -/
def sumCode : Code where
  params := ["x"]
  body := [.setField "total" (.call "+" [.field "total", .var "x"] [])]
  result := .field "total"

/-- A method as it is after some calls. -/
def calledMethod (b : Behaviour) (calls : Nat) : Method := ⟨b, none, none, false, calls⟩

/-- A child module with methods that count their calls, keep a sum, multiply
    matrices and return a list, after some calls. -/
def tickingBlockAt (ticks products sums : Nat) (total : Int) : Module where
  className := "Block"
  members := [("tick", .method (calledMethod .counter ticks)), ("total", .value (.int total)),
    ("mm", .method (calledMethod (.body (productCode.run .symbolic)) products)),
    ("add", .method (calledMethod (.body (sumCode.run .symbolic)) sums))]
  classMethods := [("make", .define (.const (.list [.int 1, .int 2])) none none false)]
  children := []
  sourceName := "Block"
  isScripted := false

/-- The child module before any call. -/
def tickingBlock : Module := tickingBlockAt 0 0 0 0

/-- A module with a child and a method that returns its arguments, after some
    calls. -/
def tickingAt (forwards : Nat) (block : Module) : Module where
  className := "Ticking"
  members := [("forward", .method ⟨.echo, some (.bool true), some .none, false, forwards⟩)]
  classMethods := []
  children := [("block", block)]
  sourceName := "Ticking"
  isScripted := false

/-- A program with that child. -/
def ticking : Program := ⟨tickingAt 0 tickingBlock, none⟩

/-- A random matrix. -/
def randomTensor : Tensor := .result (.node "rand" [])

/-- The product of two random matrices. -/
def productTensor : Tensor := .result (.node "torch.mm" [.node "rand" [], .node "rand" []])

/-- A test that passes on what an earlier call returned. -/
def tickingCalls : List CallStep :=
  [.call ["block", "tick"] [] [],
    .call ["block", "mm"] [.value (.tensor randomTensor), .value (.tensor randomTensor)] [],
    .call ["forward"] [.ref 1, .value (.list [.int 3])] [],
    .call ["block", "add"] [.value (.int 3)] [], .call ["block", "add"] [.value (.int 4)] []]

/-- The golden trace of that test. -/
def tickingTrace : Trace Value :=
  [⟨"block.tick", [], .int 1⟩,
    ⟨"block.mm", [.tensor randomTensor, .tensor randomTensor], .tensor productTensor⟩,
    ⟨"forward", [.tensor productTensor, .list [.int 3]],
      .tuple [.tensor productTensor, .list [.int 3]]⟩,
    ⟨"block.add", [.int 3], .int 3⟩, ⟨"block.add", [.int 4], .int 7⟩]

theorem deterministic_ticking : ticking.module.Deterministic := by
  have hblock : tickingBlock.Deterministic := by
    refine ⟨?_, ?_, fun name c hc => (nomatch hc)⟩
    · intro name method h
      simp only [tickingBlock, tickingBlockAt, List.mem_cons, List.not_mem_nil, Prod.mk.injEq,
        or_false, Member.method.injEq, reduceCtorEq, and_false, false_or] at h
      rcases h with ⟨_, rfl⟩ | ⟨_, rfl⟩ | ⟨_, rfl⟩
      · exact trivial
      · exact productCode.deterministic_run Library.steady_symbolic
      · exact sumCode.deterministic_run Library.steady_symbolic
    · intro name method h
      cases List.mem_singleton.mp h
      exact trivial
  refine ⟨?_, fun name method h => (nomatch h), ?_⟩
  · intro name method h
    cases List.mem_singleton.mp h
    exact trivial
  · intro name c h
    cases List.mem_singleton.mp h
    exact hblock

/-- A world with some cells. -/
def cellWorld (cells : List Cell) : World := { World.fresh with store := ⟨cells, #[]⟩ }

/-- The counters and the sum go up call by call; the matrices and the list stay
    in their cells. -/
theorem quiet_ticking : Quiet World.fresh ticking.module [] tickingCalls := by
  refine .call (by decide) (by decide) rfl rfl (fun d hd => (nomatch hd)) ?_
  show Quiet (cellWorld []) (tickingAt 0 (tickingBlockAt 1 0 0 0)) [.leaf (.int 1)] _
  refine .call (by decide) (by decide) rfl rfl
    (List.forall_mem_cons.mpr ⟨rfl, List.forall_mem_singleton.mpr rfl⟩) ?_
  show Quiet (cellWorld [.tensor randomTensor, .tensor randomTensor, .tensor productTensor])
    (tickingAt 0 (tickingBlockAt 1 1 0 0)) [.leaf (.int 1), .object 2] _
  refine .call (by decide) (by decide) rfl rfl (fun d _ => rfl) ?_
  show Quiet (cellWorld [.tensor randomTensor, .tensor randomTensor, .tensor productTensor,
      .list [.leaf (.int 3)]]) (tickingAt 1 (tickingBlockAt 1 1 0 0))
    [.leaf (.int 1), .object 2, .tuple [.object 2, .object 3]] _
  refine .call (by decide) (by decide) rfl rfl (fun d _ => rfl) ?_
  show Quiet (cellWorld [.tensor randomTensor, .tensor randomTensor, .tensor productTensor,
      .list [.leaf (.int 3)]]) (tickingAt 1 (tickingBlockAt 1 1 1 3))
    [.leaf (.int 1), .object 2, .tuple [.object 2, .object 3], .leaf (.int 3)] _
  refine .call (by decide) (by decide) rfl rfl (fun d _ => rfl) ?_
  exact .done _ _ _

/-- A tensor that holds a number. -/
def numberTensor (n : Int) : Tensor := .dense "int64" [] [.int n]

/-- Counts in a tensor, which is written over. -/
def countUp (address : Nat) : Run Store (Datum × Nat) := fun s =>
  match s.read address with
  | .tensor (.dense _ _ [.int n]) =>
    (.ok (.leaf (.int (n + 1)), address), s.write address (.tensor (numberTensor (n + 1))))
  | _ => (.error .wrongType, s)

theorem countUp_of_read {s : Store} {a : Nat} {n : Int}
    (h : s.read a = .tensor (numberTensor n)) :
    countUp a s = (.ok (.leaf (.int (n + 1)), a), s.write a (.tensor (numberTensor (n + 1)))) := by
  unfold countUp
  rw [h]
  rfl

/-- Calls into an instance that counts them in a tensor of its own. -/
def bufferCalling : Calling World Nat Datum := fun _ _ _ address => onStore (countUp address)

/-- Makes such an instance. -/
def makeBuffer : Run World Nat := onStore fun s =>
  (.ok s.cells.length, (s.alloc (.tensor (numberTensor 0))).2)

/-- The conduct of a counter. -/
def counting : Conduct Int := fun n _ _ v n' => v = .int (n + 1) ∧ n' = n + 1

/-- An instance owns the tensor that it counts in. -/
theorem follows_buffer :
    Follows bufferCalling counting
      (fun s a n => a < s.cells.length ∧ s.read a = .tensor (numberTensor n)) (· = ·) where
  owned_lt := by
    rintro s a n ⟨hlt, _⟩ b rfl
    exact hlt
  mono := fun _ hgrows ⟨hlt, hread⟩ =>
    ⟨Nat.lt_of_lt_of_le hlt hgrows.kept.length_le, (hgrows.kept.read hlt).trans hread⟩
  step := by
    rintro w a n n' path ds vs v hw ⟨hlt, hread⟩ _ ⟨rfl, rfl⟩
    have hcall : bufferCalling path ds [] a w = (.ok (.leaf (.int (n + 1)), a),
        { w with store := w.store.write a (.tensor (numberTensor (n + 1))) }) :=
      onStore_of_ok (countUp_of_read hread)
    refine ⟨_, a, _, hcall, ⟨?_, ?_, ?_, fun b _ hb => hb, Store.keptFrom_leaf _⟩, rfl, ?_, ?_⟩
    · exact hw.write hlt (fun _ hd => (nomatch hd)) fun _ hd => (nomatch hd)
    · refine ⟨Nat.le_of_eq Store.length_cells_write.symm, fun b _ hb => ?_⟩
      exact Store.read_write_ne hb
    · rintro b rfl
      exact Store.length_cells_write.symm ▸ hlt
    · exact Store.length_cells_write.symm ▸ hlt
    · exact Store.read_write_self hlt

theorem realises_buffer : Realises makeBuffer bufferCalling counting 0 := by
  refine ⟨_, _, follows_buffer, fun w hw => ?_⟩
  have hlt : w.store.cells.length
      < (w.store.alloc (.tensor (numberTensor 0))).2.cells.length := by
    rw [Store.length_cells_alloc]
    exact Nat.lt_succ_self _
  refine ⟨_, _, rfl, hw.alloc fun _ hd => (nomatch hd), ⟨hlt, Store.read_alloc_self _ _⟩, ?_⟩
  rintro b rfl
  exact Nat.le_refl _

/-- Two calls of a counter, one of which passes a list. -/
def countingCalls : List CallStep :=
  [.call ["m", "forward"] [] [], .call ["forward"] [.value (.list [.int 5]), .ref 0] []]

/-- What they come to. -/
def countingTrace : Trace Value :=
  [⟨"m.forward", [], .int 1⟩, ⟨"forward", [.list [.int 5], .int 1], .int 2⟩]

theorem conducts_counting : Conducts counting 0 [] countingCalls countingTrace :=
  .call (by decide) (by decide) .nil ⟨rfl, rfl⟩
    (.call (by decide) (by decide) (.cons rfl (.cons rfl .nil)) ⟨rfl, rfl⟩ (.done _ _))

theorem golden_trace_replays_ticking :
    ticking.module.Deterministic ∧ Quiet World.fresh ticking.module [] tickingCalls ∧
      goldenTrace (programTest "ticks" (.ok ticking) tickingCalls) = .ok tickingTrace ∧
      (∃ golden w₁ again w₂,
        (programTest "ticks" (.ok ticking) tickingCalls).golden World.fresh
          = (.ok golden, w₁) ∧
        (scriptedConfig.compile ticking >>= fun m => scriptedConfig.run m golden) w₁
          = (.ok again, w₂) ∧
        w₂.read again = tickingTrace) ∧
      goldenTrace (savedTest "ticks" (Notes.extract ticking.module) ticking.module tickingTrace)
        = .ok tickingTrace ∧
      Realises makeBuffer bufferCalling counting 0 ∧
      Conducts counting 0 [] countingCalls countingTrace ∧
      goldenTrace (replayTest bufferCalling "counts" makeBuffer countingTrace)
        = .ok countingTrace := by
  have hread : goldenTrace (programTest "ticks" (.ok ticking) tickingCalls)
      = .ok tickingTrace := rfl
  obtain ⟨golden, w₁, hgolden, ⟨again, w₂, hrun, hagain⟩, hsaved⟩ :=
    golden_trace_replays.2 "ticks" ticking tickingCalls World.fresh Store.acyclic_empty
      deterministic_ticking quiet_ticking (sameBehaviour_refl _)
  have htrace : w₁.read golden = tickingTrace := by
    have h := hread
    unfold goldenTrace at h
    rw [hgolden] at h
    exact Except.ok.inj h
  rw [htrace] at hagain hsaved
  have hcompiled : Realises (makeBuffer >>= pure) bufferCalling counting 0 := by
    rw [bind_pure]
    exact realises_buffer
  have hcounts := golden_trace_replays.1 counting 0 makeBuffer bufferCalling pure bufferCalling
    countingCalls countingTrace "counts" World.fresh realises_buffer hcompiled conducts_counting
    Store.acyclic_empty
  exact ⟨deterministic_ticking, quiet_ticking, hread,
    ⟨golden, w₁, again, w₂, hgolden, hrun, hagain⟩,
    hsaved (Notes.extract ticking.module) ticking.module (sameBehaviour_refl _) rfl,
    realises_buffer, conducts_counting,
    hcounts.2 makeBuffer bufferCalling realises_buffer⟩

end DialectBench
