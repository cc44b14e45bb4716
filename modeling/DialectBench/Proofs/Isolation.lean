import DialectBench.Proofs.GoldenRecord
import DialectBench.Proofs.SuiteApart
import DialectBench.Suite.Registry

/-!
# Tests are isolated from each other

    A list of tests is run to its end whatever stops in between.  Each test gets
    one result, under its name and in its place, and the result has one of three
    SHAPES: a compilation error, a runtime error, or two traces.  The shape
    tells where the test stopped.

    Tests that share no objects, under a configuration that keeps no state, do
    not see each other at all: each result is read as the one of the test run
    alone.  A test runs ON TOP of the cells that the tests before it left; so it
    ends as on an empty store, up to where its objects are, and the tests after
    it are on top of its cells in turn and leave them alone.  All tests of the
    suite are of this kind.
-/

namespace DialectBench

/-! ## The shapes of results -/

/-- What a result consists of. -/
inductive Shape where
  | compilationError
  | runtimeError
  | traces
  deriving DecidableEq, Repr

/-- The shape of a result, if it has one of the three. -/
def TestResult.shape? {V : Type} : TestResult V → Option Shape
  | ⟨_, some _, none, none, none⟩ => some .compilationError
  | ⟨_, none, some _, none, none⟩ => some .runtimeError
  | ⟨_, none, none, some _, some _⟩ => some .traces
  | _ => none

section

variable {ω S A V : Type}

/-- The golden run, the factory or the compilation stops with a fault. -/
inductive PreparationStops (c : Config ω S A V) (t : Test ω S V) (w : ω) : Prop where
  | golden {e : Fault} {w' : ω} (golden : t.golden w = (.error e, w'))
  | factory {g : Trace V} {e : Fault} {w₁ w' : ω} (golden : t.golden w = (.ok g, w₁))
      (factory : t.factory w₁ = (.error e, w'))
  | compile {g : Trace V} {p : S} {e : Fault} {w₁ w₂ w' : ω} (golden : t.golden w = (.ok g, w₁))
      (factory : t.factory w₁ = (.ok p, w₂)) (compile : c.compile p w₂ = (.error e, w'))

/-- All of these succeed, and the run of what was compiled stops with a fault. -/
inductive RunStops (c : Config ω S A V) (t : Test ω S V) (w : ω) : Prop where
  | run {g : Trace V} {p : S} {a : A} {e : Fault} {w₁ w₂ w₃ w' : ω}
      (golden : t.golden w = (.ok g, w₁)) (factory : t.factory w₁ = (.ok p, w₂))
      (compile : c.compile p w₂ = (.ok a, w₃)) (run : c.run a g w₃ = (.error e, w'))

variable {account : Fault → String} {c : Config ω S A V} {t : Test ω S V} {w w' : ω}
  {r : TestResult V}

theorem PreparationStops.runsTo (account : Fault → String) (h : PreparationStops c t w) :
    ∃ r w', RunsTo account c t w r w' ∧ r.shape? = some .compilationError := by
  cases h with
  | golden golden => exact ⟨_, _, .goldenStops golden, rfl⟩
  | factory golden factory => exact ⟨_, _, .factoryStops golden factory, rfl⟩
  | compile golden factory compile => exact ⟨_, _, .compileStops golden factory compile, rfl⟩

theorem RunStops.runsTo (account : Fault → String) (h : RunStops c t w) :
    ∃ r w', RunsTo account c t w r w' ∧ r.shape? = some .runtimeError := by
  cases h with
  | run golden factory compile run => exact ⟨_, _, .runStops golden factory compile run, rfl⟩

theorem RunsTo.unique {r' : TestResult V} {w'' : ω} (h : RunsTo account c t w r w')
    (h' : RunsTo account c t w r' w'') : r = r' := by
  cases h.runTest_eq.symm.trans h'.runTest_eq
  rfl

/-- **THE SHAPE TELLS WHERE A TEST STOPPED.** -/
theorem RunsTo.shape (h : RunsTo account c t w r w') : r.name = t.name ∧
    (∃ shape, r.shape? = some shape) ∧
    (r.shape? = some .compilationError ↔ PreparationStops c t w) ∧
    (r.shape? = some .runtimeError ↔ RunStops c t w) := by
  have hprepare : PreparationStops c t w → r.shape? = some .compilationError := by
    intro hstops
    obtain ⟨r', w'', hr', hshape⟩ := hstops.runsTo account
    rw [h.unique hr', hshape]
  have hrun : RunStops c t w → r.shape? = some .runtimeError := by
    intro hstops
    obtain ⟨r', w'', hr', hshape⟩ := hstops.runsTo account
    rw [h.unique hr', hshape]
  cases h with
  | goldenStops golden =>
      exact ⟨rfl, ⟨_, rfl⟩, ⟨fun _ => .golden golden, hprepare⟩, fun h => (nomatch h), hrun⟩
  | factoryStops golden factory =>
      exact ⟨rfl, ⟨_, rfl⟩, ⟨fun _ => .factory golden factory, hprepare⟩,
        fun h => (nomatch h), hrun⟩
  | compileStops golden factory compile =>
      exact ⟨rfl, ⟨_, rfl⟩, ⟨fun _ => .compile golden factory compile, hprepare⟩,
        fun h => (nomatch h), hrun⟩
  | runStops golden factory compile run =>
      exact ⟨rfl, ⟨_, rfl⟩, ⟨fun h => (nomatch h), hprepare⟩,
        fun _ => .run golden factory compile run, hrun⟩
  | returns golden factory compile run =>
      exact ⟨rfl, ⟨_, rfl⟩, ⟨fun h => (nomatch h), hprepare⟩, fun h => (nomatch h), hrun⟩

/-- The results stand under the names of the tests, one for each. -/
theorem map_name_runTests (account : Fault → String) (c : Config ω S A V)
    (tests : List (Test ω S V)) (w : ω) :
    (runTests account c tests w).1.map TestResult.name = tests.map Test.name := by
  induction tests generalizing w with
  | nil => rfl
  | cons t ts ih =>
      obtain ⟨r, w', hruns⟩ := exists_runsTo account c t w
      rw [runTests_cons, hruns.runTest_eq, List.map_cons, List.map_cons, hruns.shape.1, ih]

end

/-! ## A test on top of the objects of others -/

/-- The recorded data of a result are in the store. -/
structure TestResult.Held (s : Store) (r : TestResult Datum) : Prop where
  trace : ∀ trace, r.trace = some trace → HoldsTrace s trace
  golden : ∀ golden, r.goldenTrace = some golden → HoldsTrace s golden

/-- A result is read in one way only, as far as its data are in the store. -/
theorem TestResult.Held.map_congr {s : Store} {r : TestResult Datum} (h : r.Held s)
    {f g : Datum → Value} (hfg : ∀ d, s.Holds d → f d = g d) : r.map f = r.map g := by
  have htrace : ∀ trace, HoldsTrace s trace →
      trace.map (TraceItem.map f) = trace.map (TraceItem.map g) := by
    intro trace hheld
    refine List.map_congr_left fun i hi => ?_
    obtain ⟨hinputs, houtput⟩ := hheld i hi
    rw [TraceItem.map, TraceItem.map, hfg _ houtput,
      List.map_congr_left fun d hd => hfg d (hinputs d hd)]
  obtain ⟨name, compilationError, runtimeError, trace, golden⟩ := r
  have h₁ : trace.map (List.map (TraceItem.map f)) = trace.map (List.map (TraceItem.map g)) :=
    Option.map_congr fun x hx => htrace x (h.trace x hx)
  have h₂ : golden.map (List.map (TraceItem.map f)) = golden.map (List.map (TraceItem.map g)) :=
    Option.map_congr fun x hx => htrace x (h.golden x hx)
  exact congrArg₂ (TestResult.mk name compilationError runtimeError) h₁ h₂

theorem TestResult.map_map {U V W : Type} (f : V → W) (g : U → V) (r : TestResult U) :
    (r.map g).map f = r.map fun x => f (g x) := by
  obtain ⟨name, compilationError, runtimeError, trace, golden⟩ := r
  have htrace : ∀ trace : Trace U, (trace.map (TraceItem.map g)).map (TraceItem.map f)
      = trace.map (TraceItem.map fun x => f (g x)) := by
    intro trace
    rw [List.map_map]
    refine List.map_congr_left fun i _ => ?_
    exact congrArg (TraceItem.mk i.symbol · _) List.map_map
  simp only [TestResult.map, Option.map_map, Function.comp_def, htrace]

section

variable {S A : Type} {lodging : Lodging S} {lodging' : Lodging A} (account : Fault → String)
  {c : Config World S A Datum} {t : Test World S Datum} {base : List Cell} {w w' : World}

theorem prepare_alike (hc : c.Separates lodging lodging') (ht : Separate lodging t)
    (h : Store.OnTop base w.store w'.store) (hw : w.store.Acyclic) :
    Alike World.store base (fun r => (traceAbove base r.1, lodging'.above base r.2))
      (prepare c t) (prepare c t) w w' := by
  refine (ht.apart.golden h hw).bind fun g w₁ w₁' hg h₁ => ?_
  have hmoves₁ := (ht.movesOn.golden w hw).moves_to hg
  refine (ht.apart.factory h₁ hmoves₁.acyclic).bind fun p w₂ w₂' hp h₂ => ?_
  have hmade := ht.movesOn.factory w₁ hmoves₁.acyclic
  exact (hc.stateless.compile h₂ (hmade.moves_to hp).acyclic (hmade.good_of_ok hp)).bind
    fun _ _ _ _ h₃ => .pure h₃ rfl

/-- **A TEST DOES THE SAME ON TOP OF THE OBJECTS OF OTHERS**: its result is the
    same up to where its objects are. -/
theorem runTest_alike (hc : c.Separates lodging lodging') (ht : Separate lodging t)
    (h : Store.OnTop base w.store w'.store) (hw : w.store.Acyclic) :
    Store.OnTop base (runTest account c t w).2.store (runTest account c t w').2.store ∧
      (runTest account c t w').1 = (runTest account c t w).1.map (Datum.above base) := by
  obtain ⟨htop, hout⟩ := prepare_alike hc ht h hw
  have hadvances := prepare_advances hc.movesOn ht.movesOn hw
  rcases hp : prepare c t w with ⟨r, w₃⟩
  rcases hp' : prepare c t w' with ⟨r', w₃'⟩
  rw [hp, hp'] at htop hout
  -- the outcomes are alike, so both get to the run of what was compiled or neither does
  cases r with
  | error e =>
      obtain rfl : r' = .error e := hout
      rw [runTest_of_prepare_error hp, runTest_of_prepare_error hp']
      exact ⟨htop, rfl⟩
  | ok r =>
      obtain ⟨g, a⟩ := r
      obtain rfl : r' = .ok (traceAbove base g, lodging'.above base a) := hout
      obtain ⟨hg, ha⟩ := hadvances.good_of_ok hp
      have hrun := hc.stateless.run htop (hadvances.moves_to hp).acyclic ha hg
      rw [runTest_of_prepare_ok hp, runTest_of_prepare_ok hp', hrun.outcome]
      refine ⟨hrun.onTop, ?_⟩
      cases (c.run a g w₃).1 <;> rfl

/-- What a result holds is in the store. -/
theorem runTest_held (hc : c.Separates lodging lodging') (ht : Separate lodging t)
    (hw : w.store.Acyclic) :
    (runTest account c t w).1.Held (runTest account c t w).2.store := by
  have hadvances := prepare_advances hc.movesOn ht.movesOn hw
  rcases hp : prepare c t w with ⟨r, w₃⟩
  cases r with
  | error e =>
      rw [runTest_of_prepare_error hp]
      exact ⟨fun _ h => (nomatch h), fun _ h => (nomatch h)⟩
  | ok r =>
      obtain ⟨g, a⟩ := r
      obtain ⟨hg, ha⟩ := hadvances.good_of_ok hp
      have hrun := hc.movesOn.run a g w₃ (hadvances.moves_to hp).acyclic ha hg
      rw [runTest_of_prepare_ok hp]
      cases hout : (c.run a g w₃).1 with
      | error e => exact ⟨fun _ h => (nomatch h), fun _ h => (nomatch h)⟩
      | ok trace =>
          refine ⟨fun _ h => ?_, fun _ h => ?_⟩
          · cases h
            exact hrun.returns trace hout
          · cases h
            exact HoldsTrace.mono hrun.moves.toLater hg

/-- A test leaves the objects that were there alone. -/
theorem runTest_extends (hc : c.Separates lodging lodging') (ht : Separate lodging t)
    (w : World) : w.store.Extends (runTest account c t w).2.store := by
  have htop : Store.OnTop w.store.cells World.fresh.store w.store := Store.onTop_empty w.store
  exact (runTest_alike account hc ht htop Store.acyclic_empty).1.extends_base rfl

theorem runTests_extends (hc : c.Separates lodging lodging') {tests : List (Test World S Datum)}
    (ht : ∀ t ∈ tests, Separate lodging t) (w : World) :
    w.store.Extends (runTests account c tests w).2.store := by
  induction tests generalizing w with
  | nil => exact Store.Extends.refl _
  | cons t ts ih =>
      obtain ⟨ht, hts⟩ := List.forall_mem_cons.mp ht
      rw [runTests_cons]
      exact (runTest_extends account hc ht w).trans (ih hts _)

/-- **A RESULT READS AS THAT OF THE TEST ALONE**, in every store that comes from
    the one after the test by new cells. -/
theorem runTest_read_alone (hc : c.Separates lodging lodging') (ht : Separate lodging t)
    (hw : w.store.Acyclic) {u : Store} (hu : (runTest account c t w).2.store.Extends u) :
    (runTest account c t w).1.map u.freeze
      = (runTest account c t World.fresh).1.map
          (runTest account c t World.fresh).2.store.freeze := by
  have hfresh : World.fresh.store.Acyclic := Store.acyclic_empty
  have hempty : Store.OnTop w.store.cells World.fresh.store w.store := Store.onTop_empty w.store
  obtain ⟨htop, hresult⟩ := runTest_alike account hc ht hempty hfresh
  have hacyclic : (runTest account c t World.fresh).2.store.Acyclic :=
    (runTest_moves account hc.movesOn ht.movesOn hfresh).acyclic
  rw [hresult, TestResult.map_map]
  refine (runTest_held account hc ht hfresh).map_congr fun d hd => ?_
  calc u.freeze (d.above w.store.cells)
      = (runTest account c t w).2.store.freeze (d.above w.store.cells) :=
        (runTest_moves account hc.movesOn ht.movesOn hw).acyclic.freeze_extends hu
          (htop.holds_rename hd)
    _ = (runTest account c t World.fresh).2.store.freeze d := hacyclic.freeze_rename htop.embeds hd

/-- A test among others that are separate, too, ends as it does alone. -/
theorem result_eq_alone (hc : c.Separates lodging lodging')
    {tests : List (Test World S Datum)} (ht : ∀ t ∈ tests, Separate lodging t) {k : Nat}
    (hk : tests[k]? = some t) :
    (runProgramTests account c tests).1[k]? = (runProgramTests account c [t]).1[0]? := by
  -- the tests before leave an acyclic store, and those after only add cells to it
  have hmem : t ∈ tests := List.mem_of_getElem? hk
  have hbefore : World.fresh.store.Moves (runTests account c (tests.take k) World.fresh).2.store :=
    runTests_moves account hc.movesOn (fun t h => (ht t (List.mem_of_mem_take h)).movesOn)
      Store.acyclic_empty
  have hafter : (runTest account c t
      (runTests account c (tests.take k) World.fresh).2).2.store.Extends
        (runTests account c tests World.fresh).2.store := by
    rw [runTests_snd_of_getElem? account c World.fresh hk]
    exact runTests_extends account hc (fun t h => ht t (List.mem_of_mem_drop h)) _
  show ((runTests account c tests World.fresh).1.map
    (TestResult.map (runTests account c tests World.fresh).2.store.freeze))[k]? = some _
  rw [List.getElem?_map, getElem?_runTests, hk, Option.map_some, Option.map_some]
  exact congrArg some (runTest_read_alone account hc (ht t hmem) hbefore.acyclic hafter)

end

/-- A test of the suite over a library, or a test of a program that is
    deterministic. -/
inductive OfPrograms (lib : Library) : Test World Program Datum → Prop where
  | suite (t : Suite.SuiteTest) (known : List (String × Value)) :
      OfPrograms lib (t.test lib known)
  | program (name : String) {program : Except Fault Program} (calls : List CallStep)
      (deterministic : ∀ p, program = .ok p → p.Deterministic) :
      OfPrograms lib (programTest name program calls)

theorem OfPrograms.separate {lib : Library} (hlib : lib.Steady) {t : Test World Program Datum}
    (h : OfPrograms lib t) : Separate programLodging t := by
  cases h with
  | suite t known => exact Suite.separate_suiteTest hlib t known
  | program name calls deterministic => exact separate_programTest deterministic name calls

/-- **TESTS ARE ISOLATED.**  For every configuration and list of tests, whatever
    stops with whatever fault: there is one result for each test, in order and
    with its name; it has exactly one of the three shapes; it is a compilation
    error exactly if the golden run, the factory or the compilation stopped, and
    a runtime error exactly if these succeeded and the run stopped.

    And if the tests share no objects and the configuration keeps no state, each
    result is the one obtained by running its test alone.  Instances can be of
    any sort, with cells of their own or without.  Tests of the suite over a
    library that is steady, and tests of deterministic programs, share no
    objects. -/
theorem tests_isolated :
    (∀ {ω S A V : Type} (account : Fault → String) (c : Config ω S A V)
        (tests : List (Test ω S V)) (w : ω),
      (runTests account c tests w).1.map TestResult.name = tests.map Test.name ∧
      ∀ (k : Nat) t, tests[k]? = some t → ∃ r, (runTests account c tests w).1[k]? = some r ∧
        (∃ shape, r.shape? = some shape) ∧
        (r.shape? = some .compilationError ↔
          PreparationStops c t (runTests account c (tests.take k) w).2) ∧
        (r.shape? = some .runtimeError ↔
          RunStops c t (runTests account c (tests.take k) w).2)) ∧
    (∀ {S A : Type} (account : Fault → String) (lodging : Lodging S) (lodging' : Lodging A)
        (c : Config World S A Datum) (tests : List (Test World S Datum)),
      c.Separates lodging lodging' → (∀ t ∈ tests, Separate lodging t) →
        ∀ (k : Nat) t, tests[k]? = some t →
          (runProgramTests account c tests).1[k]? = (runProgramTests account c [t]).1[0]?) ∧
    ∀ {A : Type} (account : Fault → String) (lib : Library) (lodging : Lodging A)
        (c : Config World Program A Datum) (tests : List (Test World Program Datum)),
      lib.Steady → c.Separates programLodging lodging → (∀ t ∈ tests, OfPrograms lib t) →
        ∀ (k : Nat) t, tests[k]? = some t →
          (runProgramTests account c tests).1[k]? = (runProgramTests account c [t]).1[0]? := by
  refine ⟨?_, ?_, ?_⟩
  · intro ω S A V account c tests w
    refine ⟨map_name_runTests account c tests w, fun k t hk => ?_⟩
    obtain ⟨r, w', hruns⟩ := exists_runsTo account c t (runTests account c (tests.take k) w).2
    refine ⟨r, ?_, hruns.shape.2⟩
    rw [getElem?_runTests, hk, Option.map_some, hruns.runTest_eq]
  · intro S A account lodging lodging' c tests hc ht k t hk
    exact result_eq_alone account hc ht hk
  · intro A account lib lodging c tests hlib hc ht k t hk
    exact result_eq_alone account hc (fun t h => (ht t h).separate hlib) hk

/-- Tests one of which changes its list in place, one of which has no program
    and one of which calls into a child. -/
def mixedTests : List (Test World Program Datum) :=
  [appendingTest, programTest "broken" (.error (.general "no program")) [],
    programTest "ticks" (.ok ticking) tickingCalls]

theorem deterministic_appending : appending.Deterministic := by
  have hmodule : appending.module.Deterministic := by
    refine ⟨?_, fun name method h => (nomatch h), fun name c h => (nomatch h)⟩
    intro name method h
    cases List.mem_singleton.mp h
    exact trivial
  exact ⟨hmodule, hmodule⟩

theorem ofPrograms_mixedTests (lib : Library) : ∀ t ∈ mixedTests, OfPrograms lib t := by
  refine List.forall_mem_cons.mpr ⟨.program _ _ ?_, List.forall_mem_cons.mpr
    ⟨.program _ _ fun p hp => (nomatch hp), List.forall_mem_singleton.mpr (.program _ _ ?_)⟩⟩
  · rintro p ⟨⟩
    exact deterministic_appending
  · rintro p ⟨⟩
    exact ⟨deterministic_ticking, deterministic_ticking⟩

theorem ofPrograms_registry : ∀ t ∈ Suite.registry, OfPrograms .symbolic t := by
  intro t ht
  rw [Suite.registry, foldl_register, List.nil_append] at ht
  obtain ⟨u, _, rfl⟩ := List.mem_map.mp ht
  exact .suite u []

/-- An instance is the address of its cell. -/
def cellLodging : Lodging Nat := { cellNeeds with above := fun base a => a + base.length }

theorem countInPlace_alike {base : List Cell} {s t : Store} (h : Store.OnTop base s t) (a : Nat) :
    Alike id base (fun r => (r.1.above base, cellLodging.above base r.2)) (countInPlace a)
      (countInPlace (a + base.length)) s t := by
  have hread := h.read a
  by_cases htensor : ∃ x, s.read a = .tensor x
  · obtain ⟨x, hx⟩ := htensor
    have hact := countInPlace_of_tensor hx
    rw [hx] at hread
    have hact' := countInPlace_of_tensor hread
    refine ⟨?_, ?_⟩
    · rw [hact, hact']
      exact h.write a (.tensor (nextNumber x))
    · rw [hact, hact']
      rfl
  · have hother : ∀ x, t.read (a + base.length) ≠ .tensor x := by
      intro x hx
      rw [hread] at hx
      cases hcell : s.read a with
      | list items =>
          rw [hcell] at hx
          cases hx
      | dict entries =>
          rw [hcell] at hx
          cases hx
      | tensor y => exact htensor ⟨y, hcell⟩
    exact .of_eq (countInPlace_of_other (not_exists.mp htensor)) (countInPlace_of_other hother)
      (.throw h _)

theorem callsApart_tally : CallsApart cellLodging tallyCalling :=
  fun _ _ _ a _ _ _ h _ _ _ => onStore_alike (countInPlace_alike h a)

theorem makeBuffer_alike {base : List Cell} {w w' : World}
    (h : Store.OnTop base w.store w'.store) :
    Alike World.store base (cellLodging.above base) makeBuffer makeBuffer w w' :=
  onStore_alike ⟨h.alloc (.tensor (numberTensor 0)), congrArg Except.ok h.length_eq⟩

theorem separates_tallyConfig : tallyConfig.Separates cellLodging cellLodging :=
  ⟨movesOn_tallyConfig, stateless_pathConfig (fun h _ _ => makeBuffer_alike h) callsMoveOn_tally
    callsApart_tally _⟩

theorem separate_tallyTwice : Separate cellLodging tallyTwice :=
  ⟨movesOn_callTest callsMoveOn_tally factoryMovesOn_buffer _ _,
    apart_callTest callsMoveOn_tally callsApart_tally factoryMovesOn_buffer
      (fun h _ => makeBuffer_alike h) _ _⟩

theorem tests_isolated_mixed :
    nativeConfig.Separates programLodging moduleLodging ∧
      scriptedConfig.Separates programLodging moduleLodging ∧
      (∀ compileFault runFault trace, (fixedConfig compileFault runFault trace).Separates
        programLodging (.fixed fun _ => True)) ∧
      (∀ tools d b, Pipeline.Toolchain.Steady tools →
        (∀ m, Backend.loaded b = .ok m → m.Deterministic) →
          (backendConfig tools d b).Separates programLodging (.fixed fun _ => True)) ∧
      (∀ (k : Nat) t, (Suite.registry ++ mixedTests)[k]? = some t →
        (runProgramTests Fault.lastLine scriptedConfig (Suite.registry ++ mixedTests)).1[k]?
          = (runProgramTests Fault.lastLine scriptedConfig [t]).1[0]?) ∧
      (∀ (k : Nat) t, [tallyTwice, tallyTwice][k]? = some t →
        (runProgramTests Fault.lastLine tallyConfig [tallyTwice, tallyTwice]).1[k]?
          = (runProgramTests Fault.lastLine tallyConfig [t]).1[0]?) ∧
      ∃ r, (runTests Fault.lastLine scriptedConfig mixedTests World.fresh).1[1]? = some r ∧
        r.shape? = some .compilationError := by
  refine ⟨separates_nativeConfig, separates_scriptedConfig, separates_fixedConfig,
    fun tools d b htools hb => separates_backendConfig htools d hb, ?_, ?_, ?_⟩
  · exact tests_isolated.2.2 Fault.lastLine .symbolic moduleLodging scriptedConfig _
      Library.steady_symbolic separates_scriptedConfig
      (List.forall_mem_append.mpr ⟨ofPrograms_registry, ofPrograms_mixedTests _⟩)
  · exact tests_isolated.2.1 Fault.lastLine cellLodging cellLodging tallyConfig _
      separates_tallyConfig (List.forall_mem_cons.mpr
        ⟨separate_tallyTwice, List.forall_mem_singleton.mpr separate_tallyTwice⟩)
  · obtain ⟨r, hr, _, hcompile, _⟩ :=
      (tests_isolated.1 Fault.lastLine scriptedConfig mixedTests World.fresh).2 1 _ rfl
    exact ⟨r, hr, hcompile.mpr (.golden rfl)⟩

end DialectBench
