import DialectBench.Proofs.Apart
import DialectBench.Suite.Basic

/-!
# Tests of the suite keep apart

    A test of the suite evaluates code: to set up its program, to make the
    arguments of its calls, and in the calls themselves.  Over a STEADY library,
    which tells results by the calls that gave them and not by their number,
    code does the same whatever was computed before.  So the programs of the
    suite are deterministic, and its tests share nothing with others, operator
    results and random inputs included.
-/

namespace DialectBench.Suite

variable {lib : Library}

/-- The programs of the suite are deterministic. -/
theorem Blueprint.deterministic (hlib : lib.Steady) (b : Blueprint)
    (fields : List (String × Value)) :
    Program.Deterministic
      ⟨b.plain lib (setValues [] fields), some (b.scripted lib (setValues [] fields))⟩ := by
  have hforward : ∀ isScripted, (b.forward lib isScripted).behaviour.Deterministic := by
    intro isScripted
    have hbody := Code.deterministic_run hlib ⟨b.params.map (·.1), b.body, b.result⟩
    cases isScripted <;> exact hbody
  have hvalues : ∀ name method, (name, Member.method method) ∉ setValues [] fields :=
    fun name method h => nomatch mem_of_mem_setValues h
  refine ⟨⟨?_, ?_, fun name c h => (nomatch h)⟩, ⟨?_, ?_, fun name c h => (nomatch h)⟩⟩
  · exact fun name method h => absurd h (hvalues name method)
  · intro name method h
    cases List.mem_singleton.mp h
    exact hforward false
  · intro name method h
    rcases List.mem_cons.mp h with heq | hmem
    · cases heq
      exact hforward true
    · exact absurd hmem (hvalues name method)
  · exact fun name method h => nomatch h

section

variable {base : List Cell} {w w' : World}

/-- Work that is not told by the log, done on the world. -/
theorem onLog_world_alike {α : Type} {r : Run Log α} (hr : r.Unaware)
    (h : Store.OnTop base w.store w'.store) :
    Alike World.store base id (onStore (onLog r)) (onStore (onLog r)) w w' :=
  onStore_alike (onLog_alike hr h)

theorem onLog_world_advances {α : Type} (r : Run Log α) (hw : w.store.Acyclic) :
    Advances World.store (fun _ _ => True) (onStore (onLog r)) w :=
  onStore_advances (onLog_advances r hw)

theorem thawAllIn_advances (vs : List Value) (hw : w.store.Acyclic) :
    Advances World.store (fun s ds => ∀ d ∈ ds, s.Holds d) (thawAllIn vs) w := by
  induction vs generalizing w with
  | nil => exact .pure hw fun d hd => (nomatch hd)
  | cons v vs ih =>
      refine (onStore_advances (thawIn_advances hw v)).bind fun d w₁ hmoves hd => ?_
      refine (ih hmoves.acyclic).bind fun ds w₂ hmoves' hds => ?_
      exact .pure hmoves'.acyclic (List.forall_mem_cons.mpr ⟨hd.mono hmoves'.toLater, hds⟩)

theorem thawAllIn_alike (vs : List Value) (h : Store.OnTop base w.store w'.store) :
    Alike World.store base (List.map (Datum.above base)) (thawAllIn vs) (thawAllIn vs) w w' := by
  induction vs generalizing w w' with
  | nil => exact .pure h rfl
  | cons v vs ih =>
      refine (onStore_alike (thawIn_alike h v)).bind fun d w₁ w₁' _ h₁ => ?_
      exact (ih h₁).bind fun ds w₂ w₂' _ h₂ => .pure h₂ rfl

/-- Making a program of the suite. -/
theorem Blueprint.build_advances (hlib : lib.Steady) (b : Blueprint)
    (known : List (String × Value)) (hw : w.store.Acyclic) :
    Advances World.store programLodging.met (b.build lib known) w :=
  (onLog_world_advances _ hw).bind fun scope _ hmoves _ =>
    .pure hmoves.acyclic (b.deterministic hlib scope.assigned)

theorem Blueprint.build_alike (hlib : lib.Steady) (b : Blueprint)
    (known : List (String × Value)) (h : Store.OnTop base w.store w'.store) :
    Alike World.store base (programLodging.above base) (b.build lib known) (b.build lib known)
      w w' :=
  (onLog_world_alike (Stmt.execAll_unaware hlib _ _) h).bind fun _ _ _ _ h₁ => .pure h₁ rfl

end

/-! ## The steps of a test -/

theorem runSteps_advances (steps : List Step) : ∀ {vars : List (String × Value)} {p : Program}
    {trace : Trace Datum} {w : World}, w.store.Acyclic → p.Deterministic →
      HoldsTrace w.store trace →
        Advances World.store (fun s r => HoldsTrace s r.2.2)
          (runSteps lib steps vars (p, trace)) w := by
  induction steps with
  | nil => exact fun hw _ htrace => .pure hw htrace
  | cons step rest ih =>
      intro vars p trace w hw hp htrace
      cases step with
      | set x e =>
          refine (session_lift_advances (onLog_world_advances _ hw) (p, trace)).bind ?_
          rintro ⟨v, _⟩ w₁ hmoves ⟨_, rfl⟩
          exact ih hmoves.acyclic hp (htrace.mono hmoves.toLater)
      | call x args =>
          refine (session_lift_advances (onLog_world_advances _ hw) (p, trace)).bind ?_
          rintro ⟨values, _⟩ w₁ hmoves ⟨_, rfl⟩
          refine (session_lift_advances (thawAllIn_advances values hmoves.acyclic)
            (p, trace)).bind ?_
          rintro ⟨ds, _⟩ w₂ hmoves₂ ⟨hds, rfl⟩
          have hargs : Arguments.Held w₂.store ⟨ds, []⟩ := ⟨hds, fun k hk => (nomatch hk)⟩
          refine (tracedCall_advances callsMoveOn_deterministic_program ["forward"]
            hmoves₂.acyclic hargs hp (htrace.mono (hmoves.trans hmoves₂).toLater)).bind ?_
          rintro ⟨out, p', trace'⟩ w₃ hmoves₃ ⟨_, hp', htrace'⟩
          -- what the call returned is read, which changes nothing
          exact .of_eq (y := runSteps lib rest ((x, w₃.store.freeze out) :: vars) (p', trace')) rfl
            (ih hmoves₃.acyclic hp' htrace')

/-- **THE STEPS OF A TEST ARE ALIKE ON TOP OF OTHER CELLS.**  Induction on the
    steps; what a call returned reads the same, so that the same names are known
    to the next step. -/
theorem runSteps_alike (hlib : lib.Steady) {base : List Cell} (steps : List Step) :
    ∀ {vars : List (String × Value)} {p : Program} {trace : Trace Datum} {w w' : World},
      Store.OnTop base w.store w'.store → w.store.Acyclic → p.Deterministic →
        Alike World.store base (fun r => (r.1, sessionAbove programLodging base r.2))
          (runSteps lib steps vars (p, trace))
          (runSteps lib steps vars (sessionAbove programLodging base (p, trace))) w w' := by
  induction steps with
  | nil => exact fun h _ _ => .pure h rfl
  | cons step rest ih =>
      intro vars p trace w w' h hw hp
      cases step with
      | set x e =>
          refine (session_lift_alike (sessionAbove programLodging base)
            (onLog_world_alike (Expr.eval_unaware hlib _ e) h) (p, trace)).bind ?_
          rintro ⟨v, st₁⟩ w₁ w₁' hx h₁
          obtain ⟨hv, rfl⟩ := session_lift_eq_ok hx
          exact ih h₁ ((onLog_world_advances _ hw).moves_to hv).acyclic hp
      | call x args =>
          refine (session_lift_alike (sessionAbove programLodging base)
            (onLog_world_alike (Expr.evalAll_unaware hlib _ args) h) (p, trace)).bind ?_
          rintro ⟨values, st₁⟩ w₁ w₁' hx h₁
          obtain ⟨hvalues, rfl⟩ := session_lift_eq_ok hx
          have hmoves₁ := (onLog_world_advances _ hw).moves_to hvalues
          refine (session_lift_alike (sessionAbove programLodging base)
            (thawAllIn_alike values h₁) (p, trace)).bind ?_
          rintro ⟨ds, st₂⟩ w₂ w₂' hx h₂
          obtain ⟨hds, rfl⟩ := session_lift_eq_ok hx
          have hthaw := thawAllIn_advances values hmoves₁.acyclic
          have hmoves₂ := hthaw.moves_to hds
          have hargs : Arguments.Held w₂.store ⟨ds, []⟩ :=
            ⟨hthaw.good_of_ok hds, fun k hk => (nomatch hk)⟩
          refine (tracedCall_alike callsApart_program ["forward"] trace h₂ hmoves₂.acyclic hargs
            hp).bind ?_
          rintro ⟨out, p', trace'⟩ w₃ w₃' hx h₃
          obtain ⟨hreturns, rfl⟩ := tracedCall_eq_ok hx
          have hcall := callsMoveOn_deterministic_program ["forward"] ds [] p w₂ hmoves₂.acyclic
            hargs hp
          have hmoves₃ := hcall.moves_to hreturns
          obtain ⟨hout, hp'⟩ := hcall.good_of_ok hreturns
          have hread : w₃'.store.freeze (out.above base) = w₃.store.freeze out :=
            hmoves₃.acyclic.freeze_rename h₃.embeds hout
          let st := (p', trace ++ [⟨Text.joinWith "." ["forward"], ds, out⟩])
          refine .of_eq
            (show _ = runSteps lib rest ((x, w₃.store.freeze out) :: vars) st w₃ from rfl)
            (show _ = runSteps lib rest ((x, w₃.store.freeze out) :: vars)
              (sessionAbove programLodging base st) w₃' from ?_) (ih h₃ hmoves₃.acyclic hp')
          rw [← hread]
          rfl

/-- What a test of the suite does with a program: the random numbers start anew
    before the first step. -/
theorem invoke_test (t : SuiteTest) (known : List (String × Value))
    (st : Program × List (TraceItem Datum)) :
    (t.test lib known).invoke st
      = (monadLift (onStore (onLog (seed.exec lib (.ofVars []))))
            : Session World Program Datum Scope) st >>= fun r =>
          runSteps lib t.steps known r.2 := rfl

/-- **TESTS OF THE SUITE ARE SEPARATE**, over a library that is steady. -/
theorem separate_suiteTest (hlib : lib.Steady) (t : SuiteTest) (known : List (String × Value)) :
    Separate programLodging (t.test lib known) := by
  have hfactory : ∀ w : World, w.store.Acyclic →
      Advances World.store programLodging.met (t.test lib known).factory w :=
    fun w hw => t.program.build_advances hlib known hw
  refine ⟨⟨hfactory, fun w hw => ?_⟩, ⟨fun h _ => t.program.build_alike hlib known h,
    fun {base w w'} h hw => ?_⟩⟩
  · refine (hfactory w hw).bind fun p w₁ hmoves hp => ?_
    have htrace : HoldsTrace w₁.store [] := fun i hi => (nomatch hi)
    have hinvoke : Advances World.store (fun s r => HoldsTrace s r.2.2)
        ((t.test lib known).invoke (p, [])) w₁ := by
      rw [invoke_test]
      refine (session_lift_advances (onLog_world_advances _ hmoves.acyclic) (p, [])).bind ?_
      rintro ⟨_, _⟩ w₂ hmoves₂ ⟨_, rfl⟩
      exact runSteps_advances t.steps hmoves₂.acyclic hp (htrace.mono hmoves₂.toLater)
    exact hinvoke.bind fun r w₃ hmoves₃ htrace' => .pure hmoves₃.acyclic htrace'
  · refine (t.program.build_alike hlib known h).bind fun p w₁ w₁' hp h₁ => ?_
    have hmade := hfactory w hw
    have hmoves := hmade.moves_to hp
    have hinvoke : Alike World.store base (fun r => (r.1, sessionAbove programLodging base r.2))
        ((t.test lib known).invoke (p, [])) ((t.test lib known).invoke (p, [])) w₁ w₁' := by
      rw [invoke_test]
      refine (session_lift_alike (sessionAbove programLodging base)
        (onLog_world_alike (Stmt.exec_unaware hlib _ _) h₁) (p, [])).bind ?_
      rintro ⟨_, st₂⟩ w₂ w₂' hx h₂
      obtain ⟨hseed, rfl⟩ := session_lift_eq_ok hx
      exact runSteps_alike hlib t.steps h₂
        ((onLog_world_advances _ hmoves.acyclic).moves_to hseed).acyclic (hmade.good_of_ok hp)
    exact hinvoke.bind fun _ _ _ _ h₃ => .pure h₃ rfl

end DialectBench.Suite
