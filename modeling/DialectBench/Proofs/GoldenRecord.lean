import DialectBench.Proofs.Onward

/-!
# What a golden trace is a record of

    A golden trace holds the data of the calls, and it is read when all tests
    are through.  Until then the calls of the golden run, the run under the
    configuration and other tests may change objects that the data share: append
    to lists, add to dictionaries and write over tensors.

    So an item of a golden trace is a FAITHFUL record of its call, with the
    inputs as they were when the call was made and the output as it was when the
    call returned, exactly if no object that these data reached then is changed.
    This goes for instances of any sort, as long as calls into them move the
    store on; programs are one sort.
-/

namespace DialectBench

/-! ## Moments and what becomes of them -/

/-- The faithful record of a moment. -/
def Moment.recorded (m : Moment) : TraceItem Value :=
  ⟨m.item.symbol, m.item.inputs.map m.before.freeze, m.after.freeze m.item.output⟩

/-- No object that the inputs reached when the call was made, or the output when
    it returned, is changed. -/
structure Moment.Untouched (m : Moment) (t : Store) : Prop where
  inputs : ∀ d ∈ m.item.inputs, ∀ a, m.before.Reaches d a → t.read a = m.before.read a
  output : ∀ a, m.after.Reaches m.item.output a → t.read a = m.after.read a

/-- The store moved on from a moment, in which the data were held. -/
structure Moment.LeadsTo (m : Moment) (t : Store) : Prop where
  acyclic : m.before.Acyclic
  inputs : ∀ d ∈ m.item.inputs, m.before.Holds d
  output : m.after.Holds m.item.output
  call : m.before.Moves m.after
  onward : m.after.Moves t

theorem Moment.LeadsTo.trans {m : Moment} {t u : Store} (h : m.LeadsTo t) (htu : t.Moves u) :
    m.LeadsTo u := ⟨h.acyclic, h.inputs, h.output, h.call, h.onward.trans htu⟩

/-- **A MOMENT READS AS IT WAS** exactly if its objects are untouched. -/
theorem Moment.LeadsTo.read_eq_iff {m : Moment} {t : Store} (h : m.LeadsTo t) :
    m.item.map t.freeze = m.recorded ↔ m.Untouched t := by
  have hmoves := h.call.trans h.onward
  have hinput : ∀ d ∈ m.item.inputs, t.freeze d = m.before.freeze d ↔
      ∀ a, m.before.Reaches d a → t.read a = m.before.read a := fun d hd =>
    hmoves.toLater.freeze_eq_iff_reaches h.acyclic hmoves.acyclic (h.inputs d hd)
  have houtput : t.freeze m.item.output = m.after.freeze m.item.output ↔
      ∀ a, m.after.Reaches m.item.output a → t.read a = m.after.read a :=
    h.onward.toLater.freeze_eq_iff_reaches h.call.acyclic h.onward.acyclic h.output
  unfold TraceItem.map Moment.recorded
  rw [TraceItem.mk.injEq, List.map_inj_left, houtput]
  constructor
  · rintro ⟨_, hin, hout⟩
    exact ⟨fun d hd => (hinput d hd).mp (hin d hd), hout⟩
  · rintro ⟨hin, hout⟩
    exact ⟨rfl, fun d hd => (hinput d hd).mpr (hin d hd), hout⟩

/-- The golden run moves the store on from each of its moments. -/
theorem GoldenRun.leadsTo {S : Type} {needs : Needs S} {call : Calling World S Datum}
    (hmoves : CallsMoveOn needs call) {w w' : World} {p : S} {outputs : List Datum}
    {calls : List CallStep} {moments : List Moment}
    (h : GoldenRun call w p outputs calls moments w') :
    w.store.Acyclic → needs.met w.store p → (∀ o ∈ outputs, w.store.Holds o) →
      w.store.Moves w'.store ∧ ∀ m ∈ moments, m.LeadsTo w'.store := by
  induction h with
  | done w p outputs => exact fun hw _ _ => ⟨Store.Moves.refl hw, fun m hm => (nomatch hm)⟩
  | @call w w₁ w₂ w₃ w' p p' outputs ds vs path args kwargs out rest moments positional keywords
      returns _ ih =>
      intro hw hp hout
      obtain ⟨hbefore, hheld⟩ := Argument.data_held hw hout positional keywords
      have hcall := hmoves path ds _ p w₂ hbefore.acyclic hheld (needs.mono hbefore.toLater hp)
      have hafter : w₂.store.Moves w₃.store := hcall.moves_to returns
      obtain ⟨hdone, hp'⟩ := hcall.good_of_ok returns
      obtain ⟨honward, hmoments⟩ := ih hafter.acyclic hp'
        ((hbefore.trans hafter).holds_concat hout hdone)
      exact ⟨hbefore.trans (hafter.trans honward), List.forall_mem_cons.mpr
        ⟨⟨hbefore.acyclic, hheld.positional, hdone, hafter, honward⟩, hmoments⟩⟩

/-! ## Golden traces of tests -/

section

variable {S A : Type} {needs : Needs S} {needs' : Needs A} {account : Fault → String}
  {c : Config World S A Datum} {t : Test World S Datum} {w : World}

/-- A test whose result has a golden trace recorded it in its golden run, and
    the store moved on from there. -/
theorem golden_of_runTest (hc : c.MovesOn needs needs') (ht : t.MovesOn needs)
    (hw : w.store.Acyclic) {g : Trace Datum}
    (hg : (runTest account c t w).1.goldenTrace = some g) :
    ∃ w₁, t.golden w = (.ok g, w₁) ∧ w₁.store.Moves (runTest account c t w).2.store := by
  obtain ⟨r, w', hruns⟩ := exists_runsTo account c t w
  rw [hruns.runTest_eq] at hg ⊢
  cases hruns with
  | goldenStops golden => exact nomatch hg
  | factoryStops golden factory => exact nomatch hg
  | compileStops golden factory compile => exact nomatch hg
  | runStops golden factory compile run => exact nomatch hg
  | returns golden factory compile run =>
      -- only here is there a golden trace, and it is held through all that follows
      cases hg
      have h₁ := (ht.golden w hw).moves_to golden
      have hmade := ht.factory _ h₁.acyclic
      have h₂ := hmade.moves_to factory
      have hcompiled := hc.compile _ _ h₂.acyclic (hmade.good_of_ok factory)
      have h₃ := hcompiled.moves_to compile
      have hheld := ((ht.golden w hw).good_of_ok golden).mono (h₂.trans h₃).toLater
      have hran := hc.run _ _ _ h₃.acyclic (hcompiled.good_of_ok compile) hheld
      exact ⟨_, golden, h₂.trans (h₃.trans (hran.moves_to run))⟩

/-- A factory moves the store on and makes instances that have what they
    need. -/
def FactoryMovesOn (needs : Needs S) (factory : Run World S) : Prop :=
  ∀ w : World, w.store.Acyclic → Advances World.store needs.met factory w

/-- A result is that of the test in its place, read in the last store. -/
theorem getElem?_runProgramTests {tests : List (Test World S Datum)} {k : Nat}
    {r : TestResult Value} (hr : (runProgramTests account c tests).1[k]? = some r) :
    ∃ t, tests[k]? = some t ∧
      r = (runTest account c t (runTests account c (tests.take k) World.fresh).2).1.map
        (runProgramTests account c tests).2.store.freeze := by
  have hr' : ((runTests account c tests World.fresh).1.map
      (TestResult.map (runProgramTests account c tests).2.store.freeze))[k]? = some r := hr
  rw [List.getElem?_map, getElem?_runTests, Option.map_map] at hr'
  obtain ⟨t, hk, rfl⟩ := Option.map_eq_some_iff.mp hr'
  exact ⟨t, hk, rfl⟩

/-- A golden trace belongs to the golden run of its test, and an item of it is a
    faithful record exactly if what it holds is untouched in the last store. -/
theorem golden_of_results {call : Calling World S Datum} (hcall : CallsMoveOn needs call)
    (hc : c.MovesOn needs needs') {tests : List (Test World S Datum)}
    (htests : ∀ t ∈ tests, t.MovesOn needs) {k : Nat} {name : String} {factory : Run World S}
    (hfactory : FactoryMovesOn needs factory) {calls : List CallStep}
    (hk : tests[k]? = some (callTest call name factory calls)) {r : TestResult Value}
    {golden : Trace Value} (hr : (runProgramTests account c tests).1[k]? = some r)
    (hg : r.goldenTrace = some golden) :
    ∃ p w₀ moments w₁,
      factory (runTests account c (tests.take k) World.fresh).2 = (.ok p, w₀) ∧
      GoldenRun call w₀ p [] calls moments w₁ ∧
      List.Forall₂ (fun m item =>
        item = m.recorded ↔ m.Untouched (runProgramTests account c tests).2.store)
        moments golden := by
  obtain ⟨t, hk', rfl⟩ := getElem?_runProgramTests hr
  cases hk.symm.trans hk'
  obtain ⟨g, hg', rfl⟩ := Option.map_eq_some_iff.mp hg
  have hfirst : World.fresh.store.Moves (runTests account c (tests.take k) World.fresh).2.store :=
    runTests_moves account hc (fun t ht => htests t (List.mem_of_mem_take ht))
      Store.acyclic_empty
  obtain ⟨w₁, hgolden, hrest⟩ :=
    golden_of_runTest hc (htests _ (List.mem_of_getElem? hk)) hfirst.acyclic hg'
  have hlast : w₁.store.Moves (runProgramTests account c tests).2.store := by
    show w₁.store.Moves (runTests account c tests World.fresh).2.store
    rw [runTests_snd_of_getElem? account c World.fresh hk]
    exact hrest.trans (runTests_moves account hc
      (fun t ht => htests t (List.mem_of_mem_drop ht)) hrest.acyclic)
  obtain ⟨p, w₀, moments, hmade, hrun, rfl⟩ := golden_callTest hgolden
  refine ⟨p, w₀, moments, w₁, hmade, hrun, ?_⟩
  have hstart := hfactory _ hfirst.acyclic
  have hleads := (hrun.leadsTo hcall (hstart.moves_to hmade).acyclic (hstart.good_of_ok hmade)
    fun o ho => (nomatch ho)).2
  rw [List.map_map, List.forall₂_map_right_iff, List.forall₂_same]
  exact fun m hm => ((hleads m hm).trans hlast).read_eq_iff

end

/-- **A GOLDEN TRACE IS A FAITHFUL RECORD OF WHAT IS LEFT ALONE.**  Take
    instances of any sort and calls into them that move the store on, any list
    of tests that make such calls, a configuration that moves the store on, and
    a result that has a golden trace.  The trace belongs to the golden run of
    its test, which was made in the world that the tests before left.  The item
    of each call of that run is the faithful record of the call exactly if, in
    the store in which the results are read, no object that its data reached is
    changed.

    Calls into programs move the store on, so that this goes for all tests of
    programs. -/
theorem golden_faithful_iff (account : Fault → String) :
    (∀ {S A : Type} (needs : Needs S) (needs' : Needs A) (call : Calling World S Datum)
        (c : Config World S A Datum) (tests : List (Test World S Datum)) (k : Nat)
        (r : TestResult Value) (golden : Trace Value),
      CallsMoveOn needs call → c.MovesOn needs needs' →
      (∀ t ∈ tests, ∃ name factory calls, t = callTest call name factory calls ∧
        FactoryMovesOn needs factory) →
      (runProgramTests account c tests).1[k]? = some r → r.goldenTrace = some golden →
        ∃ name factory calls p w₀ moments w₁,
          tests[k]? = some (callTest call name factory calls) ∧
          factory (runTests account c (tests.take k) World.fresh).2 = (.ok p, w₀) ∧
          GoldenRun call w₀ p [] calls moments w₁ ∧
          List.Forall₂ (fun m item =>
            item = m.recorded ↔ m.Untouched (runProgramTests account c tests).2.store)
            moments golden) ∧
    ∀ {A : Type} (needs' : Needs A) (c : Config World Program A Datum)
        (tests : List (Test World Program Datum)) (k : Nat) (r : TestResult Value)
        (golden : Trace Value),
      c.MovesOn .none needs' →
      (∀ t ∈ tests, ∃ name program calls, t = programTest name program calls) →
      (runProgramTests account c tests).1[k]? = some r → r.goldenTrace = some golden →
        ∃ name p calls moments w₁, tests[k]? = some (programTest name (.ok p) calls) ∧
          GoldenRun Program.calling (runTests account c (tests.take k) World.fresh).2 p [] calls
            moments w₁ ∧
          List.Forall₂ (fun m item =>
            item = m.recorded ↔ m.Untouched (runProgramTests account c tests).2.store)
            moments golden := by
  constructor
  · intro S A needs needs' call c tests k r golden hcall hc htests hr hg
    obtain ⟨t, hk, _⟩ := getElem?_runProgramTests hr
    obtain ⟨name, factory, calls, rfl, hfactory⟩ := htests t (List.mem_of_getElem? hk)
    have hmovesOn : ∀ t ∈ tests, t.MovesOn needs := by
      intro t ht
      obtain ⟨name, factory, calls, rfl, hfactory⟩ := htests t ht
      exact movesOn_callTest hcall hfactory name calls
    obtain ⟨p, w₀, moments, w₁, hmade, hrun, hall⟩ :=
      golden_of_results hcall hc hmovesOn hfactory hk hr hg
    exact ⟨name, factory, calls, p, w₀, moments, w₁, hk, hmade, hrun, hall⟩
  · intro A needs' c tests k r golden hc htests hr hg
    obtain ⟨t, hk, _⟩ := getElem?_runProgramTests hr
    obtain ⟨name, program, calls, rfl⟩ := htests t (List.mem_of_getElem? hk)
    have hmovesOn : ∀ t ∈ tests, t.MovesOn .none := by
      intro t ht
      obtain ⟨name, program, calls, rfl⟩ := htests t ht
      exact movesOn_programTest name program calls
    obtain ⟨p, w₀, moments, w₁, hmade, hrun, hall⟩ :=
      golden_of_results callsMoveOn_program hc hmovesOn
        (fun w hw => ⟨Store.Moves.refl hw, fun _ _ => trivial⟩) hk hr hg
    -- the factory of a test of a program gives the program and leaves the world alone
    cases hmade
    exact ⟨name, p, calls, moments, w₁, hk, hrun, hall⟩

/-- A program that appends to the list it is given and returns it. -/
def appending : Program where
  module :=
    { className := "Appending"
      members := [("forward", .method (.define (.append (.int 2)) none none false))]
      classMethods := []
      children := []
      sourceName := "Appending"
      isScripted := false }
  scripted := none

/-- The call of the program with a list. -/
def appendingCalls : List CallStep := [.call ["forward"] [.value (.list [.int 1])] []]

/-- A test that makes the call. -/
def appendingTest : Test World Program Datum :=
  programTest "appending" (.ok appending) appendingCalls

/-- The call as it was made. -/
def appendingCall : TraceItem Value := ⟨"forward", [.list [.int 1]], .list [.int 1, .int 2]⟩

/-- The golden trace of the test as it is read after the native run. -/
def appendingTrace : Trace Value :=
  [⟨"forward", [.list [.int 1, .int 2, .int 2]], .list [.int 1, .int 2, .int 2]⟩]

theorem goldenTraces_appending :
    (runProgramTests Fault.lastLine nativeConfig [appendingTest]).1.map TestResult.goldenTrace
      = [some appendingTrace] := rfl

/-- One more than the number that a tensor holds. -/
def nextNumber : Tensor → Tensor
  | .dense _ _ [.int n] => numberTensor (n + 1)
  | t => t

/-- Counts in a tensor, which is written over, and returns the tensor. -/
def countInPlace (address : Nat) : Run Store (Datum × Nat) := fun s =>
  match s.read address with
  | .tensor t => (.ok (.object address, address), s.write address (.tensor (nextNumber t)))
  | _ => (.error .wrongType, s)

/-- Calls into an instance that counts them in a tensor of its own. -/
def tallyCalling : Calling World Nat Datum := fun _ _ _ address => onStore (countInPlace address)

/-- An instance needs its cell. -/
def cellNeeds : Needs Nat where
  met := fun s a => a < s.cells.length
  mono := fun h ha => Nat.lt_of_lt_of_le ha h.length_le

theorem countInPlace_of_tensor {s : Store} {a : Nat} {t : Tensor} (h : s.read a = .tensor t) :
    countInPlace a s = (.ok (.object a, a), s.write a (.tensor (nextNumber t))) := by
  unfold countInPlace
  rw [h]

theorem countInPlace_of_other {s : Store} {a : Nat} (h : ∀ t, s.read a ≠ .tensor t) :
    countInPlace a s = (throw .wrongType : Run Store (Datum × Nat)) s := by
  unfold countInPlace
  split
  · exact absurd ‹_› (h _)
  · rfl

theorem countInPlace_advances {s : Store} {a : Nat} (hs : s.Acyclic) (ha : a < s.cells.length) :
    Advances id (fun s r => s.Holds r.1 ∧ cellNeeds.met s r.2) (countInPlace a) s := by
  by_cases htensor : ∃ t, s.read a = .tensor t
  · obtain ⟨t, hread⟩ := htensor
    have hlater : s.Later (s.write a (.tensor (nextNumber t))) :=
      Store.later_write ha (hread ▸ .tensor t _)
    refine ⟨?_, fun r hr => ?_⟩
    · rw [countInPlace_of_tensor hread]
      exact ⟨hlater, hs.write ha (fun _ hd => (nomatch hd)) fun _ hd => (nomatch hd)⟩
    · rw [countInPlace_of_tensor hread] at hr ⊢
      cases hr
      exact ⟨(Store.holds_object.mpr ha).mono hlater, cellNeeds.mono hlater ha⟩
  · exact .of_eq (countInPlace_of_other (not_exists.mp htensor)) (.throw hs _)

theorem callsMoveOn_tally : CallsMoveOn cellNeeds tallyCalling :=
  fun _ _ _ _ _ hw _ ha => onStore_advances (countInPlace_advances hw ha)

theorem factoryMovesOn_buffer : FactoryMovesOn cellNeeds makeBuffer := by
  intro w hw
  have hgrows := hw.alloc (c := .tensor (numberTensor 0)) fun _ hd => (nomatch hd)
  refine onStore_advances ⟨hgrows.moves, fun a ha => ?_⟩
  cases ha
  exact Nat.lt_of_lt_of_eq (Nat.lt_succ_self _) (Store.length_cells_alloc ..).symm

/-- The configuration that runs the calls again with a new tensor to count in. -/
def tallyConfig : Config World Nat Nat Datum :=
  pathConfig (fun _ => makeBuffer) tallyCalling (Text.split '.')

theorem movesOn_tallyConfig : tallyConfig.MovesOn cellNeeds cellNeeds :=
  movesOn_pathConfig (fun _ w hw _ => factoryMovesOn_buffer w hw) callsMoveOn_tally _

/-- Two calls into an instance that counts. -/
def tallyCalls : List CallStep := [.call ["forward"] [] [], .call ["forward"] [] []]

/-- A test that makes these calls. -/
def tallyTwice : Test World Nat Datum := callTest tallyCalling "twice" makeBuffer tallyCalls

/-- The golden trace of that test as it is read: the first output was written
    over by the second call. -/
def tallyTrace : Trace Value :=
  [⟨"forward", [], .tensor (numberTensor 2)⟩, ⟨"forward", [], .tensor (numberTensor 2)⟩]

theorem goldenTraces_tally :
    (runProgramTests Fault.lastLine tallyConfig [tallyTwice]).1.map TestResult.goldenTrace
      = [some tallyTrace] := rfl

/-- The result that has a golden trace. -/
theorem exists_result {rs : List (TestResult Value)} {golden : Trace Value}
    (h : rs.map TestResult.goldenTrace = [some golden]) :
    ∃ r, rs[0]? = some r ∧ r.goldenTrace = some golden := by
  have hfirst := congrArg (·[0]?) h
  rw [List.getElem?_map] at hfirst
  exact Option.map_eq_some_iff.mp hfirst

theorem golden_faithful_iff_appending :
    nativeConfig.MovesOn .none .none ∧ scriptedConfig.MovesOn .none .none ∧
      (∀ t d b, (backendConfig t d b).MovesOn .none .none) ∧
      (∀ compileFault runFault trace,
        (fixedConfig compileFault runFault trace).MovesOn .none .none) ∧
      (∃ name p calls moments w₁,
        [appendingTest][0]? = some (programTest name (.ok p) calls) ∧
        GoldenRun Program.calling World.fresh p [] calls moments w₁ ∧
        List.Forall₂ (fun m item => item = m.recorded ↔
            m.Untouched (runProgramTests Fault.lastLine nativeConfig [appendingTest]).2.store)
          moments appendingTrace) ∧
      CallsMoveOn cellNeeds tallyCalling ∧ tallyConfig.MovesOn cellNeeds cellNeeds ∧
      ∃ name factory calls p w₀ moments w₁,
        [tallyTwice][0]? = some (callTest tallyCalling name factory calls) ∧
        factory World.fresh = (.ok p, w₀) ∧ GoldenRun tallyCalling w₀ p [] calls moments w₁ ∧
        List.Forall₂ (fun m item => item = m.recorded ↔
            m.Untouched (runProgramTests Fault.lastLine tallyConfig [tallyTwice]).2.store)
          moments tallyTrace := by
  refine ⟨movesOn_nativeConfig, movesOn_scriptedConfig, movesOn_backendConfig,
    movesOn_fixedConfig, ?_, callsMoveOn_tally, movesOn_tallyConfig, ?_⟩
  · obtain ⟨r, hr, hg⟩ := exists_result goldenTraces_appending
    exact (golden_faithful_iff Fault.lastLine).2 .none nativeConfig [appendingTest] 0 r
      appendingTrace movesOn_nativeConfig (List.forall_mem_singleton.mpr ⟨_, _, _, rfl⟩) hr hg
  · obtain ⟨r, hr, hg⟩ := exists_result goldenTraces_tally
    exact (golden_faithful_iff Fault.lastLine).1 cellNeeds cellNeeds tallyCalling tallyConfig
      [tallyTwice] 0 r tallyTrace callsMoveOn_tally movesOn_tallyConfig
      (List.forall_mem_singleton.mpr ⟨_, _, _, rfl, factoryMovesOn_buffer⟩) hr hg

/-- **A GOLDEN TRACE IS REWRITTEN.**  The call was made with a list of one
    element.  The call itself appends to the list, so that the golden trace is
    read with two elements under a configuration that does nothing; and the
    native run appends once more, to the input and the output. -/
theorem golden_trace_rewritten : ∃ moments w₁,
    GoldenRun Program.calling World.fresh appending [] appendingCalls moments w₁ ∧
      moments.map Moment.recorded = [appendingCall] ∧
      (runProgramTests Fault.lastLine (fixedConfig none none [appendingCall])
          [appendingTest]).1.map TestResult.goldenTrace
        = [some [⟨"forward", [.list [.int 1, .int 2]], .list [.int 1, .int 2]⟩]] ∧
      (runProgramTests Fault.lastLine nativeConfig [appendingTest]).1.map TestResult.goldenTrace
        = [some appendingTrace] ∧
      appendingTrace ≠ [appendingCall] := by
  refine ⟨_, _, .call rfl rfl rfl (.done _ _ _), rfl, rfl, goldenTraces_appending, ?_⟩
  intro heq
  cases heq

end DialectBench
