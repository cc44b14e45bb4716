import DialectBench.Proofs.TestRun
import DialectBench.Proofs.GoldenRun

/-!
# Where the native and the scripted run agree

    Both configurations make the calls of the golden trace again.  The scripted
    one cuts the name of a call at its dots and follows the path; the native one
    looks the WHOLE NAME up as one member.  The two are one replayer with
    different ways to cut names, so they agree, call by call and on the world
    that is left, on every trace whose names hold no dot.

    A name that holds one is a call into a child module, and no member of the
    program has that name.  So the native run stops there, and a test with such
    a call that completes in the scripted form does not complete natively.
-/

namespace DialectBench

/-! ## One replayer, two ways to cut names -/

/-- Makes the calls of a trace again, each at the path that its name is cut
    into. -/
def replayAt (cut : String → List String) (m : Module) (trace : Trace Datum) :
    Run World (Trace Datum) := do
  let (out, _) ← replay (fun symbol args => Module.calling (cut symbol) args []) trace m
  return out

theorem run_nativeConfig : nativeConfig.run = replayAt fun symbol => [symbol] := rfl

theorem run_scriptedConfig : scriptedConfig.run = replayAt (Text.split '.') := rfl

section

variable {cut cut' : String → List String} {m m' n : Module} {item : TraceItem Datum}
  {rest : Trace Datum} {w : World} {out : Datum} {e : Fault} {s : Store}

/-- Work on the store that stops leaves what it did to the store. -/
theorem onStore_of_error {α : Type} {r : Run Store α} (h : r w.store = (.error e, s)) :
    onStore r w = (.error e, { w with store := s }) := by
  unfold onStore
  rw [h]

/-- A call that returns is recorded, and the rest is replayed into the module
    that is left. -/
theorem replayAt_of_ok
    (h : m.call (cut item.symbol) ⟨item.inputs, []⟩ w.store = (.ok (out, m'), s)) :
    replayAt cut m (item :: rest) w
      = (replayAt cut m' rest >>= fun again => pure (⟨item.symbol, item.inputs, out⟩ :: again))
          { w with store := s } := by
  have hcall : Module.calling (cut item.symbol) item.inputs [] m w
      = (.ok (out, m'), { w with store := s }) := onStore_of_ok h
  unfold replayAt
  rw [replay, bind_assoc]
  rcases hrest : replay (fun symbol args => Module.calling (cut symbol) args []) rest m'
    { w with store := s } with ⟨r, w₂⟩
  cases r with
  | error e =>
      rw [Run.bind_of_error hrest]
      refine Run.bind_of_error ?_
      exact (session_bind_of_ok hcall).trans (Run.bind_of_error hrest)
  | ok r =>
      rw [Run.bind_of_ok hrest]
      have hall : (Module.calling (cut item.symbol) item.inputs [] >>= fun output =>
          replay (fun symbol args => Module.calling (cut symbol) args []) rest >>= fun again =>
            pure (⟨item.symbol, item.inputs, output⟩ :: again)) m w
          = (.ok (⟨item.symbol, item.inputs, out⟩ :: r.1, r.2), w₂) :=
        (session_bind_of_ok hcall).trans (session_bind_of_ok hrest)
      rw [Run.bind_of_ok hall]
      rfl

/-- A call that stops is the end of the replay. -/
theorem replayAt_of_error
    (h : m.call (cut item.symbol) ⟨item.inputs, []⟩ w.store = (.error e, s)) :
    replayAt cut m (item :: rest) w = (.error e, { w with store := s }) := by
  have hcall : Module.calling (cut item.symbol) item.inputs [] m w
      = (.error e, { w with store := s }) := onStore_of_error h
  refine Run.bind_of_error ?_
  exact Run.bind_of_error hcall

/-- **SAME PATHS, SAME REPLAY**: replayers that cut the names of a trace alike
    do the same to modules of the same behaviour.  Induction on the trace; one
    call leaves modules of the same behaviour in the same world. -/
theorem replayAt_congr : ∀ (trace : Trace Datum) {m n : Module} (w : World),
    SameBehaviour m n → (∀ i ∈ trace, cut i.symbol = cut' i.symbol) →
      replayAt cut m trace w = replayAt cut' n trace w := by
  intro trace
  induction trace with
  | nil => intro m n w _ _; rfl
  | cons item rest ih =>
      intro m n w hmn hcut
      obtain ⟨hitem, hrest⟩ := List.forall_mem_cons.mp hcut
      rcases hcall : m.call (cut item.symbol) ⟨item.inputs, []⟩ w.store with ⟨r, s⟩
      cases r with
      | error e =>
          have hcall' := hmn.call_eq_error hcall
          rw [hitem] at hcall'
          rw [replayAt_of_error hcall, replayAt_of_error hcall']
      | ok r =>
          obtain ⟨out, m'⟩ := r
          obtain ⟨n', hcall', hmn'⟩ := hmn.call_eq_ok hcall
          rw [hitem] at hcall'
          rw [replayAt_of_ok hcall, replayAt_of_ok hcall']
          exact Run.bind_congr (ih _ hmn' hrest)

end

/-! ## Names that no member has -/

/-- The names by which something of a module can be found. -/
def Module.names (m : Module) : List String :=
  m.members.map Prod.fst ++ m.classMethods.map Prod.fst ++ m.children.map Prod.fst

/-- Names of members after values were set are those of before, and names
    without a dot. -/
theorem dotFree_setValues {members : Table String Member} {fields : List (String × Value)}
    (h : ∀ name ∈ members.map Prod.fst, '.' ∉ name.toList) :
    ∀ name ∈ (setValues members fields).map Prod.fst, '.' ∉ name.toList := by
  induction fields generalizing members with
  | nil => exact h
  | cons f fields ih =>
      refine ih fun name hname => ?_
      unfold setValue at hname
      split at hname
      · exact h name hname
      next hdot =>
        rcases Table.mem_map_fst_set hname with rfl | hold
        · simpa using hdot
        · exact h name hold

/-- **CALLS LEAVE NAMES WITHOUT DOTS**: a call may add names, those of values that
    the code of a method sets, and they hold no dot. -/
theorem Module.dotFree_call {m m' : Module} {path : List String} {a : Arguments} {s s' : Store}
    {out : Datum} (hm : ∀ name ∈ m.names, '.' ∉ name.toList)
    (h : m.call path a s = (.ok (out, m'), s')) : ∀ name ∈ m'.names, '.' ∉ name.toList := by
  unfold Module.names at hm ⊢
  obtain ⟨hown, hchildren⟩ := List.forall_mem_append.mp hm
  obtain ⟨hmembers, hclass⟩ := List.forall_mem_append.mp hown
  rcases m.call_cases path with ⟨name, method, hmem, heq⟩ | ⟨name, method, hmem, heq⟩ |
    ⟨v, rest, heq⟩ | ⟨before, name, child, after, rest, hch, heq⟩ | ⟨f, heq⟩
  · rw [heq] at h
    obtain ⟨⟨o, method', assigned⟩, s₁, _, hpure⟩ := Run.bind_eq_ok h
    cases hpure
    refine List.forall_mem_append.mpr
      ⟨List.forall_mem_append.mpr ⟨dotFree_setValues ?_, hclass⟩, hchildren⟩
    rw [Table.map_fst_set (List.mem_map.mpr ⟨_, hmem, rfl⟩)]
    exact hmembers
  · rw [heq] at h
    obtain ⟨⟨o, method', assigned⟩, s₁, _, hpure⟩ := Run.bind_eq_ok h
    cases hpure
    refine List.forall_mem_append.mpr
      ⟨List.forall_mem_append.mpr ⟨dotFree_setValues hmembers, ?_⟩, hchildren⟩
    show ∀ n ∈ (Table.set name method' m.classMethods).map Prod.fst, _
    rw [Table.map_fst_set (List.mem_map.mpr ⟨_, hmem, rfl⟩)]
    exact hclass
  · rw [heq] at h
    obtain ⟨o, s₁, _, hpure⟩ := Run.bind_eq_ok h
    cases hpure
    exact hm
  · rw [heq] at h
    obtain ⟨⟨o, child'⟩, s₁, _, hpure⟩ := Run.bind_eq_ok h
    cases hpure
    refine List.forall_mem_append.mpr ⟨hown, ?_⟩
    simpa only [hch, List.map_append, List.map_cons] using hchildren
  · rw [heq] at h
    exact nomatch h

/-- A name that the module does not have leads to nothing. -/
theorem Module.call_of_not_mem_names {m : Module} {name : String} (h : name ∉ m.names)
    (a : Arguments) : m.call [name] a = throw .noAttribute := by
  obtain ⟨className, members, classMethods, children, sourceName, isScripted⟩ := m
  simp only [Module.names, List.mem_append, not_or] at h
  obtain ⟨⟨hmembers, hclass⟩, hchildren⟩ := h
  have hchild : Module.callChild children name [] a = throw .noAttribute := by
    rcases Module.callChild_cases name [] children with ⟨before, child, after, rfl, _⟩ | hnone
    · exact absurd (by simp) hchildren
    · exact hnone a
  simp only [Module.call, splitPath, Table.lookup_eq_none hmembers, Table.lookup_eq_none hclass,
    hchild]
  rfl

/-- The calls before the first whose name holds a dot. -/
def beforeDot (trace : Trace Datum) : Trace Datum :=
  trace.takeWhile fun i => !i.symbol.toList.contains '.'

theorem beforeDot_cons_of_dot {item : TraceItem Datum} (h : '.' ∈ item.symbol.toList)
    (rest : Trace Datum) : beforeDot (item :: rest) = [] := by
  simp [beforeDot, h]

theorem beforeDot_cons_of_plain {item : TraceItem Datum} (h : '.' ∉ item.symbol.toList)
    (rest : Trace Datum) : beforeDot (item :: rest) = item :: beforeDot rest := by
  simp [beforeDot, h]

/-- **THE NATIVE REPLAY STOPS AT A DOT**: into a module whose names hold no dot,
    a trace with a dotted name is replayed by whole names as it is by paths, up
    to that name, and no further. -/
theorem replayAt_whole_of_dotted : ∀ (trace : Trace Datum) {m n : Module} (w : World),
    SameBehaviour m n → (∀ name ∈ m.names, '.' ∉ name.toList) →
    (∃ i ∈ trace, '.' ∈ i.symbol.toList) →
      replayAt (fun symbol => [symbol]) m trace w
        = (replayAt (Text.split '.') n (beforeDot trace) >>= fun _ => throw .noAttribute) w := by
  intro trace
  induction trace with
  | nil =>
      rintro m n w _ _ ⟨i, hi, _⟩
      exact nomatch hi
  | cons item rest ih =>
      intro m n w hmn hplain hdotted
      by_cases hdot : '.' ∈ item.symbol.toList
      · -- the whole name is no name of the module; by paths nothing is left to replay
        have hname : item.symbol ∉ m.names := fun hmem => hplain _ hmem hdot
        have hcall : m.call [item.symbol] ⟨item.inputs, []⟩ w.store
            = (.error .noAttribute, w.store) := by
          rw [Module.call_of_not_mem_names hname]
          rfl
        rw [replayAt_of_error hcall, beforeDot_cons_of_dot hdot]
        rfl
      · -- the whole name is the path: one call on both sides, and the dot is further on
        have hsplit : Text.split '.' item.symbol = [item.symbol] := Text.split_of_not_mem hdot
        have hdotted' : ∃ i ∈ rest, '.' ∈ i.symbol.toList := by
          obtain ⟨i, hi, hi'⟩ := hdotted
          rcases List.mem_cons.mp hi with rfl | hmem
          · exact absurd hi' hdot
          · exact ⟨i, hmem, hi'⟩
        rw [beforeDot_cons_of_plain hdot]
        rcases hcall : m.call [item.symbol] ⟨item.inputs, []⟩ w.store with ⟨r, s⟩
        cases r with
        | error e =>
            have hcall' := hmn.call_eq_error hcall
            rw [← hsplit] at hcall'
            rw [replayAt_of_error hcall, Run.bind_of_error (replayAt_of_error hcall')]
        | ok r =>
            obtain ⟨out, m'⟩ := r
            obtain ⟨n', hcall', hmn'⟩ := hmn.call_eq_ok hcall
            rw [← hsplit] at hcall'
            let again : Trace Datum → Run World (Trace Datum) := fun more =>
              pure (⟨item.symbol, item.inputs, out⟩ :: more)
            let byPaths := replayAt (Text.split '.') n' (beforeDot rest)
            have hrest := ih { w with store := s } hmn' (Module.dotFree_call hplain hcall) hdotted'
            calc replayAt (fun symbol => [symbol]) m (item :: rest) w
                = (replayAt (fun symbol => [symbol]) m' rest >>= again) { w with store := s } :=
                  replayAt_of_ok hcall
              _ = ((byPaths >>= fun _ => throw .noAttribute) >>= again) { w with store := s } :=
                  Run.bind_congr hrest
              _ = (byPaths >>= fun _ => throw .noAttribute) { w with store := s } := by
                  rw [bind_assoc]
                  rfl
              _ = ((byPaths >>= again) >>= fun _ => throw .noAttribute) { w with store := s } := by
                  rw [bind_assoc]
                  rfl
              _ = (replayAt (Text.split '.') n (item :: beforeDot rest) >>= fun _ =>
                    throw .noAttribute) w := Run.bind_congr (replayAt_of_ok hcall').symm

/-- A replay that returns gets through the first part of its trace. -/
theorem replayAt_prefix {cut : String → List String} :
    ∀ {first rest again : Trace Datum} {n : Module} {w w' : World},
      replayAt cut n (first ++ rest) w = (.ok again, w') →
        ∃ part w₁, replayAt cut n first w = (.ok part, w₁) := by
  intro first
  induction first with
  | nil => exact fun _ => ⟨[], _, rfl⟩
  | cons item first ih =>
      intro rest again n w w' h
      rcases hcall : n.call (cut item.symbol) ⟨item.inputs, []⟩ w.store with ⟨r, s⟩
      cases r with
      | error e =>
          rw [List.cons_append, replayAt_of_error hcall] at h
          exact nomatch h
      | ok r =>
          obtain ⟨out, n'⟩ := r
          rw [List.cons_append, replayAt_of_ok hcall] at h
          obtain ⟨more, w₂, hmore, _⟩ := Run.bind_eq_ok h
          obtain ⟨part, w₁, hpart⟩ := ih hmore
          refine ⟨⟨item.symbol, item.inputs, out⟩ :: part, w₁, ?_⟩
          rw [replayAt_of_ok hcall, Run.bind_of_ok hpart]
          rfl

/-! ## Tests under both configurations -/

/-- Scripting keeps the behaviour of the programs of a test. -/
def Test.ScriptsAlike (t : Test World Program Datum) : Prop :=
  ∀ w p w', t.factory w = (.ok p, w') → SameBehaviour p.module p.script

/-- The names in the programs of a test hold no dot. -/
def Test.PlainNames (t : Test World Program Datum) : Prop :=
  ∀ w p w', t.factory w = (.ok p, w') → ∀ name ∈ p.module.names, '.' ∉ name.toList

/-- The test does not call into child modules: no recorded name holds a dot. -/
def Test.Undotted (t : Test World Program Datum) : Prop :=
  ∀ w golden w', t.golden w = (.ok golden, w') → ∀ i ∈ golden, '.' ∉ i.symbol.toList

section

variable {account : Fault → String} {t : Test World Program Datum} {golden : Trace Datum}
  {w w₁ : World}

/-- Without dots the two configurations do the same to a test. -/
theorem runTest_native_eq_scripted (hscript : t.ScriptsAlike) (hundotted : t.Undotted)
    (w : World) : runTest account nativeConfig t w = runTest account scriptedConfig t w := by
  obtain ⟨r, w', hruns⟩ := exists_runsTo account nativeConfig t w
  refine hruns.runTest_eq.trans (RunsTo.runTest_eq ?_).symm
  -- the native run and the scripted one, once the compilations are done
  have hsame : ∀ {g : Trace Datum} {p : Program} {w₁ w₂ w₃ : World}, t.golden w = (.ok g, w₁) →
      t.factory w₁ = (.ok p, w₂) →
      nativeConfig.run p.module g w₃ = scriptedConfig.run p.script g w₃ := by
    intro g p w₁ w₂ w₃ hgolden hfactory
    rw [run_nativeConfig, run_scriptedConfig]
    refine replayAt_congr g w₃ (hscript _ _ _ hfactory) fun i hi => ?_
    exact (Text.split_of_not_mem (hundotted _ _ _ hgolden i hi)).symm
  cases hruns with
  | goldenStops golden => exact .goldenStops golden
  | factoryStops golden factory => exact .factoryStops golden factory
  | compileStops golden factory compile => exact nomatch compile
  | runStops golden factory compile run =>
      cases compile
      exact .runStops golden factory rfl ((hsame golden factory).symm.trans run)
  | returns golden factory compile run =>
      cases compile
      exact .returns golden factory rfl ((hsame golden factory).symm.trans run)

/-- With a dot the native run of a test does not return a trace. -/
theorem trace_native_of_dotted (hscript : t.ScriptsAlike) (hplain : t.PlainNames)
    (hgolden : t.golden w = (.ok golden, w₁)) (hdotted : ∃ i ∈ golden, '.' ∈ i.symbol.toList) :
    (runTest account nativeConfig t w).1.trace = none := by
  obtain ⟨r, w', hruns⟩ := exists_runsTo account nativeConfig t w
  rw [hruns.runTest_eq]
  cases hruns with
  | goldenStops golden => rfl
  | factoryStops golden factory => rfl
  | compileStops golden factory compile => rfl
  | runStops golden factory compile run => rfl
  | returns golden factory compile run =>
      cases golden.symm.trans hgolden
      cases compile
      rw [run_nativeConfig, replayAt_whole_of_dotted _ _ (hscript _ _ _ factory)
        (hplain _ _ _ factory) hdotted] at run
      obtain ⟨_, _, _, hthrow⟩ := Run.bind_eq_ok run
      exact nomatch hthrow

/-- Where the scripted run of such a test returns, the native one stops for a
    member that is not there. -/
theorem runTest_native_of_dotted (hscript : t.ScriptsAlike) (hplain : t.PlainNames)
    (hgolden : t.golden w = (.ok golden, w₁)) (hdotted : ∃ i ∈ golden, '.' ∈ i.symbol.toList)
    (hreturns : (runTest account scriptedConfig t w).1.trace.isSome = true) :
    (runTest account nativeConfig t w).1
      = ⟨t.name, none, some (account .noAttribute), none, none⟩ := by
  obtain ⟨r, w', hruns⟩ := exists_runsTo account scriptedConfig t w
  rw [hruns.runTest_eq] at hreturns
  cases hruns with
  | goldenStops golden => exact nomatch hreturns
  | factoryStops golden factory => exact nomatch hreturns
  | compileStops golden factory compile => exact nomatch hreturns
  | runStops golden factory compile run => exact nomatch hreturns
  | @returns _ trace p a w₁ w₂ w₃ w' hgolden' factory compile run =>
      cases hgolden'.symm.trans hgolden
      cases compile
      rw [run_scriptedConfig, ← List.takeWhile_append_dropWhile
        (p := fun i : TraceItem Datum => !i.symbol.toList.contains '.') (l := golden)] at run
      -- the scripted run got past the calls before the dot, so the native one does, too
      obtain ⟨part, w₃, hpart⟩ := replayAt_prefix run
      have hnative : nativeConfig.run p.module golden w₂ = (.error .noAttribute, w₃) := by
        rw [run_nativeConfig, replayAt_whole_of_dotted _ _ (hscript _ _ _ factory)
          (hplain _ _ _ factory) hdotted]
        exact Run.bind_of_ok hpart
      rw [(RunsTo.runStops hgolden' factory rfl hnative).runTest_eq]

end

/-- Without dots the two configurations do the same to a list of tests. -/
theorem runTests_native_eq_scripted {account : Fault → String}
    {tests : List (Test World Program Datum)}
    (hscript : ∀ t ∈ tests, t.ScriptsAlike) (hundotted : ∀ t ∈ tests, t.Undotted) (w : World) :
    runTests account nativeConfig tests w = runTests account scriptedConfig tests w := by
  induction tests generalizing w with
  | nil => rfl
  | cons t ts ih =>
      obtain ⟨hst, hsts⟩ := List.forall_mem_cons.mp hscript
      obtain ⟨hut, huts⟩ := List.forall_mem_cons.mp hundotted
      rw [runTests_cons, runTests_cons, runTest_native_eq_scripted hst hut, ih hsts huts]

/-- **THE NATIVE AND THE SCRIPTED RUN AGREE, CALLS INTO CHILD MODULES APART.**
    Take tests of programs that scripting keeps the behaviour of and whose names
    hold no dot.  If no golden trace has a dotted name, both configurations give
    the same results and leave the same world.  A test whose golden trace has
    one never completes natively; if it completes in its scripted form, the
    native result is the error of a missing member. -/
theorem native_agrees_unless_dotted (account : Fault → String)
    (tests : List (Test World Program Datum))
    (hscript : ∀ t ∈ tests, t.ScriptsAlike) (hplain : ∀ t ∈ tests, t.PlainNames) :
    ((∀ t ∈ tests, t.Undotted) → ∀ w,
      runTests account nativeConfig tests w = runTests account scriptedConfig tests w) ∧
    ∀ t ∈ tests, ∀ w golden w₁, t.golden w = (.ok golden, w₁) →
      (∃ i ∈ golden, '.' ∈ i.symbol.toList) →
        (runTest account nativeConfig t w).1.trace = none ∧
        ((runTest account scriptedConfig t w).1.trace.isSome = true →
          (runTest account nativeConfig t w).1
            = ⟨t.name, none, some (account .noAttribute), none, none⟩) := by
  refine ⟨fun hundotted w => runTests_native_eq_scripted hscript hundotted w, ?_⟩
  intro t ht w golden w₁ hgolden hdotted
  exact ⟨trace_native_of_dotted (hscript t ht) (hplain t ht) hgolden hdotted,
    runTest_native_of_dotted (hscript t ht) (hplain t ht) hgolden hdotted⟩

/-! ## Tests that call at the top and tests that call below -/

section

variable {name : String} {program : Except Fault Program} {calls : List CallStep}

theorem scriptsAlike_programTest
    (h : ∀ p, program = .ok p → SameBehaviour p.module p.script) :
    (programTest name program calls).ScriptsAlike := by
  intro w p w' hfactory
  cases hfactory
  exact h p rfl

theorem plainNames_programTest
    (h : ∀ p, program = .ok p → ∀ name ∈ p.module.names, '.' ∉ name.toList) :
    (programTest name program calls).PlainNames := by
  intro w p w' hfactory
  cases hfactory
  exact h p rfl

/-- A test whose calls are at paths of one name records no dot. -/
theorem undotted_programTest (h : ∀ path args kwargs, .call path args kwargs ∈ calls →
    '.' ∉ (Text.joinWith "." path).toList) : (programTest name program calls).Undotted := by
  intro w golden w' hgolden i hi
  obtain ⟨p, moments, _, hrun, rfl⟩ := golden_programTest hgolden
  obtain ⟨m, hm, rfl⟩ := List.mem_map.mp hi
  obtain ⟨path, args, kwargs, hmem, hsymbol⟩ := hrun.exists_path m hm
  rw [hsymbol]
  exact h path args kwargs hmem

end

/-- A test that calls at the top only. -/
def tickingTop : Test World Program Datum :=
  programTest "top" (.ok ticking) [.call ["forward"] [.value (.list [.int 1])] []]

/-- A test that calls into the child, too. -/
def tickingBelow : Test World Program Datum := programTest "below" (.ok ticking) tickingCalls

theorem scriptsAlike_ticking (name : String) (calls : List CallStep) :
    (programTest name (.ok ticking) calls).ScriptsAlike :=
  scriptsAlike_programTest fun p hp => by
    cases hp
    exact sameBehaviour_refl _

theorem plainNames_ticking (name : String) (calls : List CallStep) :
    (programTest name (.ok ticking) calls).PlainNames :=
  plainNames_programTest fun p hp => by
    cases hp
    decide

theorem native_agrees_unless_dotted_ticking :
    tickingTop.ScriptsAlike ∧ tickingTop.PlainNames ∧ tickingTop.Undotted ∧
      (∀ w, runTests Fault.lastLine nativeConfig [tickingTop] w
        = runTests Fault.lastLine scriptedConfig [tickingTop] w) ∧
      tickingBelow.ScriptsAlike ∧ tickingBelow.PlainNames ∧
      (runTest Fault.lastLine scriptedConfig tickingBelow World.fresh).1.trace.isSome = true ∧
      (runTest Fault.lastLine nativeConfig tickingBelow World.fresh).1
        = ⟨"below", none, some (Fault.lastLine .noAttribute), none, none⟩ := by
  have hscript : ∀ t ∈ [tickingTop, tickingBelow], t.ScriptsAlike := by
    rintro t (_ | ⟨_, _ | ⟨_, h⟩⟩)
    · exact scriptsAlike_ticking _ _
    · exact scriptsAlike_ticking _ _
    · exact nomatch h
  have hplain : ∀ t ∈ [tickingTop, tickingBelow], t.PlainNames := by
    rintro t (_ | ⟨_, _ | ⟨_, h⟩⟩)
    · exact plainNames_ticking _ _
    · exact plainNames_ticking _ _
    · exact nomatch h
  have htop : tickingTop.Undotted := by
    refine undotted_programTest fun path args kwargs h => ?_
    cases List.mem_singleton.mp h
    decide
  have hreturns :
      (runTest Fault.lastLine scriptedConfig tickingBelow World.fresh).1.trace.isSome = true := by
    decide +kernel
  obtain ⟨golden, w₁, hgolden, hfirst⟩ : ∃ golden w₁,
      tickingBelow.golden World.fresh = (.ok golden, w₁) ∧
        golden.head?.map TraceItem.symbol = some "block.tick" := ⟨_, _, rfl, rfl⟩
  have hdotted : ∃ i ∈ golden, '.' ∈ i.symbol.toList := by
    obtain ⟨i, hi, hsymbol⟩ := Option.map_eq_some_iff.mp hfirst
    exact ⟨i, List.mem_of_mem_head? hi, by rw [hsymbol]; decide⟩
  refine ⟨hscript _ (by simp), hplain _ (by simp), htop, ?_, hscript _ (by simp),
    hplain _ (by simp), hreturns, ?_⟩
  · exact (native_agrees_unless_dotted _ [tickingTop] (by simpa using hscript tickingTop (by simp))
      (by simpa using hplain tickingTop (by simp))).1 (by simpa using htop)
  · exact ((native_agrees_unless_dotted _ [tickingTop, tickingBelow] hscript hplain).2 tickingBelow
      (by simp) World.fresh golden w₁ hgolden hdotted).2 hreturns

/-- A program whose child returns what it is given, and a test that calls the
    child. -/
def relayTest : Test World Program Datum :=
  programTest "relay"
    (.ok
      { module :=
          { className := "Relay"
            members := []
            classMethods := []
            children := [("m",
              { className := "Child"
                members := [("forward", .method (.define .echo none none false))]
                classMethods := []
                children := []
                sourceName := "Child"
                isScripted := false })]
            sourceName := "Relay"
            isScripted := false }
        scripted := none })
    [.call ["m", "forward"] [.value (.int 1)] []]

/-- A call into a child is recorded without error, and the two configurations
    do not agree on it. -/
theorem child_call_disagrees :
    relayTest.ScriptsAlike ∧ (∃ golden w, relayTest.golden World.fresh = (.ok golden, w)) ∧
      (runTests Fault.lastLine nativeConfig [relayTest] World.fresh).1
        ≠ (runTests Fault.lastLine scriptedConfig [relayTest] World.fresh).1 := by
  have hscript : relayTest.ScriptsAlike := by
    refine scriptsAlike_programTest fun p hp => ?_
    cases hp
    exact sameBehaviour_refl _
  have hplain : relayTest.PlainNames := by
    refine plainNames_programTest fun p hp => ?_
    cases hp
    decide
  have hscripted :
      (runTest Fault.lastLine scriptedConfig relayTest World.fresh).1.trace.isSome = true := by
    decide +kernel
  obtain ⟨golden, w₁, hgolden, hfirst⟩ : ∃ golden w₁,
      relayTest.golden World.fresh = (.ok golden, w₁) ∧
        golden.head?.map TraceItem.symbol = some "m.forward" := ⟨_, _, rfl, rfl⟩
  refine ⟨hscript, ⟨golden, w₁, hgolden⟩, fun heq => ?_⟩
  have hdotted : ∃ i ∈ golden, '.' ∈ i.symbol.toList := by
    obtain ⟨i, hi, hsymbol⟩ := Option.map_eq_some_iff.mp hfirst
    exact ⟨i, List.mem_of_mem_head? hi, by rw [hsymbol]; decide⟩
  have hnative : (runTest Fault.lastLine nativeConfig relayTest World.fresh).1.trace = none :=
    trace_native_of_dotted hscript hplain hgolden hdotted
  rw [runTests_cons, runTests_cons, List.cons.injEq] at heq
  rw [← heq.1, hnative] at hscripted
  exact nomatch hscripted

end DialectBench
