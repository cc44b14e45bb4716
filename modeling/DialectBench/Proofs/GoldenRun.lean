import DialectBench.Proofs.Replay

/-!
# The golden run, moment by moment

    The golden trace of a test names the calls that were made and holds the data
    that went in and came out.  It does not say what those data were worth at
    the time.  A MOMENT is a recorded call together with the store as it was
    when the call was made and as it was when the call returned, and `GoldenRun`
    follows a test call by call through its moments.  Every golden run that
    returns a trace has moments, and the trace is what they recorded.
-/

namespace DialectBench

/-- A call of a golden run, with the store when it was made and when it
    returned. -/
structure Moment where
  item : TraceItem Datum
  before : Store
  after : Store

/-- The calls of a test, made one after the other from a world and an instance
    with the results of earlier calls at hand, through moments, to a world. -/
inductive GoldenRun {S : Type} (call : Calling World S Datum) :
    World → S → List Datum → List CallStep → List Moment → World → Prop where
  | done (w : World) (p : S) (outputs : List Datum) : GoldenRun call w p outputs [] [] w
  | call {w w₁ w₂ w₃ w' : World} {p p' : S} {outputs ds vs : List Datum}
      {path : List String} {args : List Argument} {kwargs : List (String × Argument)}
      {out : Datum} {rest : List CallStep} {moments : List Moment}
      (positional : Argument.data outputs args w = (.ok ds, w₁))
      (keywords : Argument.data outputs (kwargs.map Prod.snd) w₁ = (.ok vs, w₂))
      (returns : call path ds ((kwargs.map Prod.fst).zip vs) p w₂ = (.ok (out, p'), w₃))
      (more : GoldenRun call w₃ p' (outputs ++ [out]) rest moments w') :
      GoldenRun call w p outputs (.call path args kwargs :: rest)
        (⟨⟨Text.joinWith "." path, ds, out⟩, w₂.store, w₃.store⟩ :: moments) w'

section

variable {S : Type} {call : Calling World S Datum}

/-- **A GOLDEN RUN HAS MOMENTS**: calls that all returned went through moments,
    and these are what the session recorded. -/
theorem runCalls_goldenRun : ∀ {calls : List CallStep} {outputs : List Datum} {p p' : S}
    {trace trace' : Trace Datum} {w w' : World},
    runCalls call calls outputs (p, trace) w = (.ok ((), p', trace'), w') →
      ∃ moments, GoldenRun call w p outputs calls moments w' ∧
        trace' = trace ++ moments.map Moment.item := by
  intro calls
  induction calls with
  | nil =>
      intro outputs p p' trace trace' w w' h
      cases h
      exact ⟨[], .done w p outputs, (List.append_nil _).symm⟩
  | cons step rest ih =>
      intro outputs p p' trace trace' w w' h
      cases step with
      | raise f => exact nomatch h
      | call path args kwargs =>
          -- a step puts two kinds of arguments into the store, calls, and goes on
          obtain ⟨ds, st₁, w₁, hds, h⟩ := session_bind_eq_ok h
          obtain ⟨positional, rfl⟩ := session_lift_eq_ok hds
          obtain ⟨vs, st₂, w₂, hvs, h⟩ := session_bind_eq_ok h
          obtain ⟨keywords, rfl⟩ := session_lift_eq_ok hvs
          obtain ⟨out, ⟨p₁, trace₁⟩, w₃, hcall, h⟩ := session_bind_eq_ok h
          obtain ⟨returns, rfl⟩ := tracedCall_eq_ok hcall
          obtain ⟨moments, hrun, rfl⟩ := ih h
          refine ⟨_ :: moments, .call positional keywords returns hrun, ?_⟩
          rw [List.append_assoc]
          rfl

theorem golden_callTest {name : String} {factory : Run World S} {calls : List CallStep}
    {golden : Trace Datum} {w w' : World}
    (h : (callTest call name factory calls).golden w = (.ok golden, w')) :
    ∃ p w₀ moments, factory w = (.ok p, w₀) ∧ GoldenRun call w₀ p [] calls moments w' ∧
      golden = moments.map Moment.item := by
  obtain ⟨p, w₀, hfactory, h⟩ := Run.bind_eq_ok h
  obtain ⟨⟨⟨⟩, p', trace⟩, w₂, hinvoke, hpure⟩ := Run.bind_eq_ok h
  cases hpure
  obtain ⟨moments, hrun, htrace⟩ := runCalls_goldenRun hinvoke
  exact ⟨p, w₀, moments, hfactory, hrun, htrace⟩

/-- A recorded name is the joined path of a call of the test. -/
theorem GoldenRun.exists_path {w w' : World} {p : S} {outputs : List Datum}
    {calls : List CallStep} {moments : List Moment}
    (h : GoldenRun call w p outputs calls moments w') : ∀ m ∈ moments, ∃ path args kwargs,
      .call path args kwargs ∈ calls ∧ m.item.symbol = Text.joinWith "." path := by
  induction h with
  | done w p outputs => exact fun m hm => (nomatch hm)
  | @call w w₁ w₂ w₃ w' p p' outputs ds vs path args kwargs out rest moments _ _ _ _ ih =>
      intro m hm
      rcases List.mem_cons.mp hm with rfl | hm
      · exact ⟨path, args, kwargs, List.mem_cons_self, rfl⟩
      · obtain ⟨path', args', kwargs', hmem, hsymbol⟩ := ih m hm
        exact ⟨path', args', kwargs', List.mem_cons_of_mem _ hmem, hsymbol⟩

end

theorem golden_programTest {name : String} {program : Except Fault Program}
    {calls : List CallStep} {golden : Trace Datum} {w w' : World}
    (h : (programTest name program calls).golden w = (.ok golden, w')) :
    ∃ p moments, program = .ok p ∧ GoldenRun Program.calling w p [] calls moments w' ∧
      golden = moments.map Moment.item := by
  obtain ⟨p, w₀, moments, hfactory, hrun, rfl⟩ := golden_callTest h
  cases hfactory
  exact ⟨p, moments, rfl, hrun, rfl⟩

/-- A call into a program that returned is a call into its module. -/
theorem Program.calling_eq_ok {p p' : Program} {path : List String} {ds : List Datum}
    {kwargs : List (String × Datum)} {out : Datum} {w w' : World}
    (h : Program.calling path ds kwargs p w = (.ok (out, p'), w')) :
    ∃ m' s, p.module.call path ⟨ds, kwargs⟩ w.store = (.ok (out, m'), s) ∧
      p' = { p with module := m' } ∧ w' = { w with store := s } := by
  obtain ⟨⟨o, m'⟩, w₁, hmodule, hpure⟩ := Run.bind_eq_ok h
  cases hpure
  obtain ⟨s, hcall, rfl⟩ := onStore_eq_ok hmodule
  exact ⟨m', s, hcall, rfl, rfl⟩

end DialectBench
