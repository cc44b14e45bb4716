import DialectBench.Proofs.Calls
import DialectBench.Bench.Test

/-!
# What running a test comes to

    Running a test goes through four pieces of work: the golden run, a new
    program, its compilation, and the run of what was compiled.  Each of them
    may stop, and the work after it is then not done.  `RunsTo` has one
    constructor for each way in which a test can end, with the worlds in
    between; it is the graph of `runTest`, so later proofs take the run of a
    test apart by `cases` and do not unfold it.
-/

namespace DialectBench

variable {ω S A V : Type}

/-- A test that is run in a world ends with a result, in a world. -/
inductive RunsTo (account : Fault → String) (c : Config ω S A V) (t : Test ω S V) (w : ω) :
    TestResult V → ω → Prop where
  | goldenStops {e : Fault} {w' : ω} (golden : t.golden w = (.error e, w')) :
      RunsTo account c t w ⟨t.name, some (account e), none, none, none⟩ w'
  | factoryStops {g : Trace V} {e : Fault} {w₁ w' : ω} (golden : t.golden w = (.ok g, w₁))
      (factory : t.factory w₁ = (.error e, w')) :
      RunsTo account c t w ⟨t.name, some (account e), none, none, none⟩ w'
  | compileStops {g : Trace V} {p : S} {e : Fault} {w₁ w₂ w' : ω}
      (golden : t.golden w = (.ok g, w₁)) (factory : t.factory w₁ = (.ok p, w₂))
      (compile : c.compile p w₂ = (.error e, w')) :
      RunsTo account c t w ⟨t.name, some (account e), none, none, none⟩ w'
  | runStops {g : Trace V} {p : S} {a : A} {e : Fault} {w₁ w₂ w₃ w' : ω}
      (golden : t.golden w = (.ok g, w₁)) (factory : t.factory w₁ = (.ok p, w₂))
      (compile : c.compile p w₂ = (.ok a, w₃)) (run : c.run a g w₃ = (.error e, w')) :
      RunsTo account c t w ⟨t.name, none, some (account e), none, none⟩ w'
  | returns {g trace : Trace V} {p : S} {a : A} {w₁ w₂ w₃ w' : ω}
      (golden : t.golden w = (.ok g, w₁)) (factory : t.factory w₁ = (.ok p, w₂))
      (compile : c.compile p w₂ = (.ok a, w₃)) (run : c.run a g w₃ = (.ok trace, w')) :
      RunsTo account c t w ⟨t.name, none, none, some trace, some g⟩ w'

section

variable {account : Fault → String} {c : Config ω S A V} {t : Test ω S V} {w w' : ω}

/-- The work before the run of what was compiled. -/
def prepare (c : Config ω S A V) (t : Test ω S V) : Run ω (Trace V × A) := do
  let golden ← t.golden
  let program ← t.factory
  return (golden, ← c.compile program)

/-- What comes after work is decided by its outcome and the world it leaves. -/
theorem stateM_bind_of_eq {α β : Type} {x : StateM ω α} {f : α → StateM ω β} {a : α}
    (h : x w = (a, w')) : (x >>= f) w = f a w' := by
  show f (x w).1 (x w).2 = _
  rw [h]

theorem runTest_of_prepare_error {e : Fault} (h : prepare c t w = (.error e, w')) :
    runTest account c t w = (⟨t.name, some (account e), none, none, none⟩, w') :=
  (stateM_bind_of_eq h).trans rfl

theorem runTest_of_prepare_ok {g : Trace V} {a : A} {w₃ : ω}
    (h : prepare c t w = (.ok (g, a), w₃)) :
    runTest account c t w = (match (c.run a g w₃).1 with
      | .error e => ⟨t.name, none, some (account e), none, none⟩
      | .ok trace => ⟨t.name, none, none, some trace, some g⟩, (c.run a g w₃).2) := by
  -- first the outcome of the preparation is looked at, then that of the run
  rcases hrun : c.run a g w₃ with ⟨r, w''⟩
  refine (stateM_bind_of_eq h).trans ((stateM_bind_of_eq hrun).trans ?_)
  cases r <;> rfl

theorem prepare_of_ok {g : Trace V} {p : S} {a : A} {w₁ w₂ w₃ : ω}
    (golden : t.golden w = (.ok g, w₁)) (factory : t.factory w₁ = (.ok p, w₂))
    (compile : c.compile p w₂ = (.ok a, w₃)) : prepare c t w = (.ok (g, a), w₃) := by
  unfold prepare
  rw [Run.bind_of_ok golden, Run.bind_of_ok factory, Run.bind_of_ok compile]
  rfl

/-- The way in which a test ends decides what running it gives. -/
theorem RunsTo.runTest_eq {r : TestResult V} (h : RunsTo account c t w r w') :
    runTest account c t w = (r, w') := by
  cases h with
  | goldenStops golden => exact runTest_of_prepare_error (Run.bind_of_error golden)
  | factoryStops golden factory =>
      refine runTest_of_prepare_error ?_
      unfold prepare
      rw [Run.bind_of_ok golden, Run.bind_of_error factory]
  | compileStops golden factory compile =>
      refine runTest_of_prepare_error ?_
      unfold prepare
      rw [Run.bind_of_ok golden, Run.bind_of_ok factory, Run.bind_of_error compile]
  | runStops golden factory compile run =>
      rw [runTest_of_prepare_ok (prepare_of_ok golden factory compile), run]
  | returns golden factory compile run =>
      rw [runTest_of_prepare_ok (prepare_of_ok golden factory compile), run]

/-- **EVERY TEST ENDS** in one of the five ways. -/
theorem exists_runsTo (account : Fault → String) (c : Config ω S A V) (t : Test ω S V) (w : ω) :
    ∃ r w', RunsTo account c t w r w' := by
  rcases golden : t.golden w with ⟨g, w₁⟩
  cases g with
  | error e => exact ⟨_, _, .goldenStops golden⟩
  | ok g =>
      rcases factory : t.factory w₁ with ⟨p, w₂⟩
      cases p with
      | error e => exact ⟨_, _, .factoryStops golden factory⟩
      | ok p =>
          rcases compile : c.compile p w₂ with ⟨a, w₃⟩
          cases a with
          | error e => exact ⟨_, _, .compileStops golden factory compile⟩
          | ok a =>
              rcases run : c.run a g w₃ with ⟨trace, w'⟩
              cases trace with
              | error e => exact ⟨_, _, .runStops golden factory compile run⟩
              | ok trace => exact ⟨_, _, .returns golden factory compile run⟩

end

/-! ## Tests one after the other -/

theorem runTests_cons (account : Fault → String) (c : Config ω S A V) (t : Test ω S V)
    (ts : List (Test ω S V)) (w : ω) :
    runTests account c (t :: ts) w
      = ((runTest account c t w).1 :: (runTests account c ts (runTest account c t w).2).1,
        (runTests account c ts (runTest account c t w).2).2) := rfl

/-- Each test is run in the world that the tests before it left, and its result
    stands in its place. -/
theorem getElem?_runTests (account : Fault → String) (c : Config ω S A V)
    (tests : List (Test ω S V)) :
    ∀ (w : ω) (k : Nat), (runTests account c tests w).1[k]?
      = tests[k]?.map fun t => (runTest account c t (runTests account c (tests.take k) w).2).1 := by
  induction tests with
  | nil => intro w k; rfl
  | cons t ts ih =>
      intro w k
      rw [runTests_cons]
      cases k with
      | zero => rfl
      | succ k => exact ih (runTest account c t w).2 k

/-- The last world comes about from that after a test by the tests behind it. -/
theorem runTests_snd_of_getElem? (account : Fault → String) (c : Config ω S A V) {t : Test ω S V} :
    ∀ {tests : List (Test ω S V)} {k : Nat} (w : ω), tests[k]? = some t →
      (runTests account c tests w).2 = (runTests account c (tests.drop (k + 1))
        (runTest account c t (runTests account c (tests.take k) w).2).2).2 := by
  intro tests
  induction tests with
  | nil => exact fun w hk => (nomatch hk)
  | cons t' ts ih =>
      intro k w hk
      rw [runTests_cons]
      cases k with
      | zero =>
          cases hk
          rfl
      | succ k => exact ih (runTest account c t' w).2 hk

/-- Registering tests puts them at the end in order. -/
theorem foldl_register (registry regs : List (Test ω S V)) :
    regs.foldl register registry = registry ++ regs := by
  induction regs generalizing registry with
  | nil => rw [List.foldl_nil, List.append_nil]
  | cons t regs ih => rw [List.foldl_cons, ih, register, List.append_assoc, List.singleton_append]

end DialectBench
