import DialectBench.Proofs.Crossing
import DialectBench.Proofs.NativeReplay

/-!
# Tests move the store on

    What was shown for one call goes for all that is done to a world: arguments
    are put into the store, calls are made and recorded, configurations compile
    and replay, and tests are run one after the other.  Through all of it
    objects are only added and changed in place, none gets inside itself, and
    what is passed around and recorded is in the store.  It does not matter
    where the work stops.

    Instances can be of any sort.  They may NEED things of the store that they
    live in, such as cells of their own; all that is asked of calls is that they
    move the store on and leave an instance with what it needs.
-/

namespace DialectBench

/-- What instances need of a store; a store that moves on still has it. -/
structure Needs (S : Type) where
  met : Store → S → Prop
  mono : ∀ {s t : Store} {p : S}, s.Later t → met s p → met t p

/-- Instances that need nothing. -/
def Needs.none {S : Type} : Needs S := ⟨fun _ _ => True, fun _ _ => trivial⟩

/-- The data of recorded calls are in the store. -/
def HoldsTrace (s : Store) (trace : Trace Datum) : Prop :=
  ∀ i ∈ trace, (∀ d ∈ i.inputs, s.Holds d) ∧ s.Holds i.output

theorem HoldsTrace.mono {s t : Store} (h : s.Later t) {trace : Trace Datum}
    (ht : HoldsTrace s trace) : HoldsTrace t trace :=
  fun i hi => ⟨fun d hd => ((ht i hi).1 d hd).mono h, (ht i hi).2.mono h⟩

theorem Store.Later.holds_all {s t : Store} (h : s.Later t) {ds : List Datum}
    (hds : ∀ d ∈ ds, s.Holds d) : ∀ d ∈ ds, t.Holds d := fun d hd => (hds d hd).mono h

section

variable {α β : Type} {good : Store → α → Prop} {w : World}

theorem onStore_advances {r : Run Store α} (h : Advances id good r w.store) :
    Advances World.store good (onStore r) w := ⟨h.moves, h.returns⟩

theorem onShop_advances {r : Run Pipeline.Shop α} (hw : w.store.Acyclic) :
    Advances World.store (fun _ _ => True) (onShop r) w :=
  ⟨Store.Moves.refl hw, fun _ _ => trivial⟩

/-- Work on the world in a session leaves the state of the session alone. -/
theorem session_lift_advances {σ : Type} {r : Run World α} (h : Advances World.store good r w)
    (st : σ) :
    Advances World.store (fun s out => good s out.1 ∧ out.2 = st)
      ((monadLift r : StateT σ (Run World) α) st) w :=
  h.bind fun _ _ hmoves hgood => .pure hmoves.acyclic ⟨hgood, rfl⟩

/-- Work on each element of a list in turn. -/
theorem mapM_advances (good : Store → α → Prop) {f : β → Run World α} (xs : List β)
    (hmono : ∀ s t a, Store.Later s t → good s a → good t a)
    (hf : ∀ x ∈ xs, ∀ w : World, w.store.Acyclic → Advances World.store good (f x) w)
    (hw : w.store.Acyclic) :
    Advances World.store (fun s as => ∀ a ∈ as, good s a) (xs.mapM f) w := by
  induction xs generalizing w with
  | nil => exact .pure hw fun a ha => (nomatch ha)
  | cons x xs ih =>
      obtain ⟨hx, hxs⟩ := List.forall_mem_cons.mp hf
      rw [List.mapM_cons]
      refine (hx w hw).bind fun a w₁ hmoves ha => ?_
      refine (ih hxs hmoves.acyclic).bind fun as w₂ hmoves' has => ?_
      exact .pure hmoves'.acyclic
        (List.forall_mem_cons.mpr ⟨hmono _ _ a hmoves'.toLater ha, has⟩)

end

/-! ## The calls of a test -/

/-- Calls into instances move the store on: they return something that is in the
    store and leave the instance with what it needs. -/
def CallsMoveOn {S : Type} (needs : Needs S) (call : Calling World S Datum) : Prop :=
  ∀ path ds kwargs p (w : World), w.store.Acyclic → Arguments.Held w.store ⟨ds, kwargs⟩ →
    needs.met w.store p →
      Advances World.store (fun s r => s.Holds r.1 ∧ needs.met s r.2) (call path ds kwargs p) w

section

variable {w : World} {outputs : List Datum}

theorem Argument.datum_advances (arg : Argument) (hw : w.store.Acyclic)
    (hout : ∀ o ∈ outputs, w.store.Holds o) :
    Advances World.store Store.Holds (arg.datum outputs) w := by
  cases arg with
  | value v => exact onStore_advances (thawIn_advances hw v)
  | ref n =>
      rw [Argument.datum]
      cases hn : outputs[n]? with
      | none => exact .throw hw _
      | some o => exact .pure hw (hout o (List.mem_of_getElem? hn))

theorem Argument.data_advances (args : List Argument) (hw : w.store.Acyclic)
    (hout : ∀ o ∈ outputs, w.store.Holds o) :
    Advances World.store (fun s ds => ∀ d ∈ ds, s.Holds d) (Argument.data outputs args) w := by
  induction args generalizing w with
  | nil => exact .pure hw fun d hd => (nomatch hd)
  | cons arg args ih =>
      refine (arg.datum_advances hw hout).bind fun d w₁ hmoves hd => ?_
      refine (ih hmoves.acyclic (hmoves.holds_all hout)).bind fun ds w₂ hmoves' hds => ?_
      exact .pure hmoves'.acyclic (List.forall_mem_cons.mpr ⟨hd.mono hmoves'.toLater, hds⟩)

theorem holds_zip {s : Store} {names : List String} {ds : List Datum}
    (h : ∀ d ∈ ds, s.Holds d) : ∀ k ∈ names.zip ds, s.Holds k.2 :=
  fun _ hk => h _ (List.of_mem_zip hk).2

/-- The arguments of a call of a test are in the store when the call is made. -/
theorem Argument.data_held {w₁ w₂ : World} {ds vs : List Datum} {args : List Argument}
    {kwargs : List (String × Argument)} (hw : w.store.Acyclic)
    (hout : ∀ o ∈ outputs, w.store.Holds o)
    (positional : Argument.data outputs args w = (.ok ds, w₁))
    (keywords : Argument.data outputs (kwargs.map Prod.snd) w₁ = (.ok vs, w₂)) :
    w.store.Moves w₂.store ∧
      Arguments.Held w₂.store ⟨ds, (kwargs.map Prod.fst).zip vs⟩ := by
  have hargs := Argument.data_advances args hw hout
  have h₁ := hargs.moves_to positional
  have hkwargs := Argument.data_advances (kwargs.map Prod.snd) h₁.acyclic (h₁.holds_all hout)
  have h₂ := hkwargs.moves_to keywords
  exact ⟨h₁.trans h₂, h₂.holds_all (hargs.good_of_ok positional),
    holds_zip (hkwargs.good_of_ok keywords)⟩

/-- The results of the calls so far are in the store after one more call. -/
theorem Store.Later.holds_concat {s t : Store} (h : s.Later t) {out : Datum}
    (hout : ∀ o ∈ outputs, s.Holds o) (ho : t.Holds out) :
    ∀ o ∈ outputs ++ [out], t.Holds o :=
  List.forall_mem_append.mpr ⟨h.holds_all hout, List.forall_mem_singleton.mpr ho⟩

variable {S : Type} {needs : Needs S} {call : Calling World S Datum}

/-- A recorded call moves the store on, and what was recorded is held. -/
theorem tracedCall_advances (hcall : CallsMoveOn needs call) {p : S} (path : List String)
    {ds : List Datum} {kwargs : List (String × Datum)} {trace : Trace Datum}
    (hw : w.store.Acyclic) (hargs : Arguments.Held w.store ⟨ds, kwargs⟩)
    (hp : needs.met w.store p) (htrace : HoldsTrace w.store trace) :
    Advances World.store (fun s r => s.Holds r.1 ∧ needs.met s r.2.1 ∧ HoldsTrace s r.2.2)
      (tracedCall call path ds kwargs (p, trace)) w := by
  refine (hcall path ds kwargs p w hw hargs hp).bind ?_
  rintro ⟨out, p'⟩ w₁ hmoves ⟨hout, hp'⟩
  refine .pure hmoves.acyclic ⟨hout, hp', List.forall_mem_append.mpr ⟨?_, ?_⟩⟩
  · exact htrace.mono hmoves.toLater
  · exact List.forall_mem_singleton.mpr ⟨hmoves.holds_all hargs.positional, hout⟩

/-- **A GOLDEN RUN MOVES THE STORE ON.**  Induction on the calls. -/
theorem runCalls_advances (hcall : CallsMoveOn needs call) (calls : List CallStep) :
    ∀ {outputs : List Datum} {p : S} {trace : Trace Datum} {w : World}, w.store.Acyclic →
      needs.met w.store p → (∀ o ∈ outputs, w.store.Holds o) → HoldsTrace w.store trace →
        Advances World.store (fun s r => HoldsTrace s r.2.2)
          (runCalls call calls outputs (p, trace)) w := by
  induction calls with
  | nil => exact fun hw _ _ htrace => .pure hw htrace
  | cons step rest ih =>
      intro outputs p trace w hw hp hout htrace
      cases step with
      | raise f => exact .throw hw f
      | call path args kwargs =>
          -- the arguments are put into the store first, those by name after the others
          refine (session_lift_advances (Argument.data_advances args hw hout) (p, trace)).bind ?_
          rintro ⟨ds, _⟩ w₁ hmoves ⟨hds, rfl⟩
          refine (session_lift_advances (Argument.data_advances (kwargs.map Prod.snd)
            hmoves.acyclic (hmoves.holds_all hout)) (p, trace)).bind ?_
          rintro ⟨vs, _⟩ w₂ hmoves₂ ⟨hvs, rfl⟩
          have hlater := hmoves.toLater.trans hmoves₂.toLater
          refine (tracedCall_advances hcall path hmoves₂.acyclic
            ⟨hmoves₂.holds_all hds, holds_zip hvs⟩ (needs.mono hlater hp)
            (htrace.mono hlater)).bind ?_
          rintro ⟨out, p', trace'⟩ w₃ hmoves₃ ⟨hout', hp', htrace'⟩
          exact ih hmoves₃.acyclic hp'
            ((hlater.trans hmoves₃.toLater).holds_concat hout hout') htrace'

end

/-- A test moves the store on when it makes an instance and in its golden run. -/
structure Test.MovesOn {S : Type} (needs : Needs S) (t : Test World S Datum) : Prop where
  factory : ∀ w : World, w.store.Acyclic → Advances World.store needs.met t.factory w
  golden : ∀ w : World, w.store.Acyclic → Advances World.store HoldsTrace t.golden w

theorem movesOn_callTest {S : Type} {needs : Needs S} {call : Calling World S Datum}
    (hcall : CallsMoveOn needs call) {factory : Run World S}
    (hfactory : ∀ w : World, w.store.Acyclic → Advances World.store needs.met factory w)
    (name : String) (calls : List CallStep) :
    (callTest call name factory calls).MovesOn needs := by
  refine ⟨hfactory, fun w hw => ?_⟩
  refine (hfactory w hw).bind fun p w₁ hmoves hp => ?_
  have hout : ∀ o ∈ ([] : List Datum), w₁.store.Holds o := fun o ho => (nomatch ho)
  have htrace : HoldsTrace w₁.store [] := fun i hi => (nomatch hi)
  exact (runCalls_advances hcall calls hmoves.acyclic hp hout htrace).bind
    fun r w₂ hmoves' htrace' => .pure hmoves'.acyclic htrace'

/-! ## Configurations -/

/-- A configuration moves the store on when it compiles and when it runs. -/
structure Config.MovesOn {S A : Type} (needs : Needs S) (needs' : Needs A)
    (c : Config World S A Datum) : Prop where
  compile : ∀ p (w : World), w.store.Acyclic → needs.met w.store p →
    Advances World.store needs'.met (c.compile p) w
  run : ∀ a trace (w : World), w.store.Acyclic → needs'.met w.store a →
    HoldsTrace w.store trace → Advances World.store HoldsTrace (c.run a trace) w

section

variable {A : Type} {needs : Needs A}

/-- Replaying moves the store on if each call does. -/
theorem replay_advances {call : String → List Datum → StateT A (Run World) Datum}
    (hcall : ∀ symbol ds a (w : World), w.store.Acyclic → (∀ d ∈ ds, w.store.Holds d) →
      needs.met w.store a →
        Advances World.store (fun s r => s.Holds r.1 ∧ needs.met s r.2) (call symbol ds a) w) :
    ∀ (trace : Trace Datum) {a : A} {w : World}, w.store.Acyclic → needs.met w.store a →
      HoldsTrace w.store trace →
        Advances World.store (fun s r => HoldsTrace s r.1) (replay call trace a) w := by
  intro trace
  induction trace with
  | nil => exact fun hw _ _ => .pure hw fun i hi => (nomatch hi)
  | cons item rest ih =>
      intro a w hw ha htrace
      obtain ⟨hitem, hrest⟩ := List.forall_mem_cons.mp htrace
      refine (hcall item.symbol item.inputs a w hw hitem.1 ha).bind ?_
      rintro ⟨out, a'⟩ w₁ hmoves ⟨hout, ha'⟩
      refine (ih hmoves.acyclic ha' (HoldsTrace.mono hmoves.toLater hrest)).bind ?_
      rintro ⟨again, a''⟩ w₂ hmoves' hagain
      refine .pure hmoves'.acyclic (List.forall_mem_cons.mpr ⟨⟨?_, ?_⟩, hagain⟩)
      · exact (hmoves.toLater.trans hmoves'.toLater).holds_all hitem.1
      · exact hout.mono hmoves'.toLater

/-- A configuration that makes recorded calls at paths moves the store on. -/
theorem movesOn_pathConfig {S : Type} {needs' : Needs S} {compile : S → Run World A}
    (hcompile : ∀ p (w : World), w.store.Acyclic → needs'.met w.store p →
      Advances World.store needs.met (compile p) w)
    {call : Calling World A Datum} (hcall : CallsMoveOn needs call) (cut : String → List String) :
    (pathConfig compile call cut).MovesOn needs' needs := by
  refine ⟨hcompile, fun a trace w hw ha htrace => ?_⟩
  refine (replay_advances ?_ trace hw ha htrace).bind fun r w₁ hmoves hr => .pure hmoves.acyclic hr
  exact fun symbol ds a w hw hds ha => hcall _ ds [] a w hw ⟨hds, fun k hk => (nomatch hk)⟩ ha

theorem convertDatum_advances (d : Direction) {x : Datum} {w : World} (hw : w.store.Acyclic)
    (hx : w.store.Holds x) : Advances World.store Store.Holds (convertDatum d x) w := by
  have htracks := Datum.convert_tracks d hw hx
  refine onStore_advances ⟨htracks.grows.moves, fun y hy => ?_⟩
  -- a conversion that returns is one that was wanted
  cases hv : (w.store.freeze x).convert d with
  | error e =>
      rw [htracks.stops e hv] at hy
      exact nomatch hy
  | ok v =>
      obtain ⟨y', hy', himage⟩ := htracks.returns v hv
      cases hy.symm.trans hy'
      exact himage.shows.held

theorem convertData_advances (d : Direction) {xs : List Datum} {w : World}
    (hw : w.store.Acyclic) (hxs : ∀ x ∈ xs, w.store.Holds x) :
    Advances World.store (fun s ds => ∀ d ∈ ds, s.Holds d) (convertData d xs) w := by
  induction xs generalizing w with
  | nil => exact .pure hw fun d hd => (nomatch hd)
  | cons x xs ih =>
      obtain ⟨hx, hxs⟩ := List.forall_mem_cons.mp hxs
      refine (convertDatum_advances d hw hx).bind fun y w₁ hmoves hy => ?_
      refine (ih hmoves.acyclic (hmoves.holds_all hxs)).bind fun ys w₂ hmoves' hys => ?_
      exact .pure hmoves'.acyclic (List.forall_mem_cons.mpr ⟨hy.mono hmoves'.toLater, hys⟩)

theorem onArrays_advances {call : ArrayCalling A}
    (hcall : ∀ symbol ds a (w : World), w.store.Acyclic → (∀ d ∈ ds, w.store.Holds d) →
      needs.met w.store a →
        Advances World.store (fun s r => s.Holds r.1 ∧ needs.met s r.2) (call symbol ds a) w)
    (symbol : String) {ds : List Datum} {a : A} {w : World} (hw : w.store.Acyclic)
    (hds : ∀ d ∈ ds, w.store.Holds d) (ha : needs.met w.store a) :
    Advances World.store (fun s r => s.Holds r.1 ∧ needs.met s r.2)
      (onArrays call symbol ds a) w := by
  refine (session_lift_advances (convertData_advances .toArrays hw hds) a).bind ?_
  rintro ⟨inputs, a₁⟩ w₁ hmoves ⟨hin, rfl⟩
  refine (hcall symbol inputs a₁ w₁ hmoves.acyclic hin (needs.mono hmoves.toLater ha)).bind ?_
  rintro ⟨out, a₂⟩ w₂ hmoves₂ ⟨hout, ha₂⟩
  exact (convertDatum_advances .fromArrays hmoves₂.acyclic hout).bind fun _ _ hmoves₃ hy =>
    .pure hmoves₃.acyclic ⟨hy, needs.mono hmoves₃.toLater ha₂⟩

end

/-! ## Programs -/

theorem callsMoveOn_module : CallsMoveOn .none Module.calling := fun path _ _ m _ hw hargs _ =>
  onStore_advances ⟨(m.call_advances path hw hargs).moves,
    fun r hr => ⟨(m.call_advances path hw hargs).returns r hr, trivial⟩⟩

theorem callsMoveOn_program : CallsMoveOn .none Program.calling :=
  fun path ds kwargs p w hw hargs _ =>
    (callsMoveOn_module path ds kwargs p.module w hw hargs trivial).bind
      fun _ _ hmoves hout => .pure hmoves.acyclic hout

theorem movesOn_programTest (name : String) (program : Except Fault Program)
    (calls : List CallStep) : (programTest name program calls).MovesOn .none :=
  movesOn_callTest callsMoveOn_program
    (fun _ hw => ⟨Store.Moves.refl hw, fun _ _ => trivial⟩) name calls

theorem movesOn_nativeConfig : nativeConfig.MovesOn .none .none :=
  movesOn_pathConfig (fun _ _ hw _ => .pure hw trivial) callsMoveOn_module _

theorem movesOn_scriptedConfig : scriptedConfig.MovesOn .none .none :=
  movesOn_pathConfig (fun _ _ hw _ => .pure hw trivial) callsMoveOn_module _

theorem Module.callingMember_advances (symbol : String) (ds : List Datum) (m : Module) (w : World)
    (hw : w.store.Acyclic) (hds : ∀ d ∈ ds, w.store.Holds d)
    (hm : (Needs.none : Needs Module).met w.store m) :
    Advances World.store (fun s r => s.Holds r.1 ∧ (Needs.none : Needs Module).met s r.2)
      (Module.callingMember symbol ds m) w :=
  callsMoveOn_module [symbol] ds [] m w hw ⟨hds, fun _ hk => (nomatch hk)⟩ hm

theorem Program.notices_advances (p : Program) {w : World} (hw : w.store.Acyclic) :
    Advances World.store (fun _ _ => True) p.notices w := by
  unfold Program.notices
  dsimp only
  cases p.told.outcome with
  | error e => exact .throw hw e
  | ok u => exact .pure hw trivial

theorem movesOn_backendConfig (t : Pipeline.Toolchain) (d : Pipeline.Dialect) (b : Backend) :
    (backendConfig t d b).MovesOn .none .none := by
  refine ⟨fun p w hw _ => ?_, fun a trace w hw _ htrace => ?_⟩
  · have hlower : Advances World.store (fun _ _ => True) (p.lower t d b.stages) w :=
      (p.notices_advances hw).bind fun _ _ hmoves _ =>
        (onShop_advances hmoves.acyclic).bind fun _ _ hmoves' _ => .pure hmoves'.acyclic trivial
    exact hlower.bind fun _ _ hmoves _ => .pure hmoves.acyclic trivial
  · show Advances World.store HoldsTrace (runOnArrays Module.callingMember b.loaded trace) w
    cases b.loaded with
    | error e => exact .throw hw e
    | ok m =>
        have hm : (Needs.none : Needs Module).met w.store m := trivial
        refine (replay_advances ?_ trace hw hm htrace).bind fun r w₁ hmoves hr =>
          .pure hmoves.acyclic hr
        intro symbol ds m w hw hds hm
        exact onArrays_advances Module.callingMember_advances symbol hw hds hm

theorem movesOn_fixedConfig (compileFault runFault : Option Fault) (trace : Trace Value) :
    (fixedConfig compileFault runFault trace).MovesOn .none .none := by
  refine ⟨fun p w hw _ => ?_, fun a golden w hw _ _ => ?_⟩
  · cases compileFault with
    | some f => exact .throw hw f
    | none => exact .pure hw trivial
  · cases runFault with
    | some f => exact .throw hw f
    | none =>
        refine mapM_advances (fun s (i : TraceItem Datum) =>
          (∀ d ∈ i.inputs, s.Holds d) ∧ s.Holds i.output) trace ?_ ?_ hw
        · exact fun s t i hlater hi => ⟨hlater.holds_all hi.1, hi.2.mono hlater⟩
        · intro i _ w hw
          refine (mapM_advances Store.Holds i.inputs (fun _ _ _ h hd => Store.Holds.mono h hd)
            (fun v _ w hw => onStore_advances (thawIn_advances hw v)) hw).bind
            fun inputs w₁ hmoves hin => ?_
          refine (onStore_advances (thawIn_advances hmoves.acyclic i.output)).bind
            fun out w₂ hmoves' hout => ?_
          exact .pure hmoves'.acyclic ⟨hmoves'.holds_all hin, hout⟩

/-! ## Tests one after the other -/

section

variable {S A : Type} {needs : Needs S} {needs' : Needs A} (account : Fault → String)
  {c : Config World S A Datum}

theorem prepare_advances (hc : c.MovesOn needs needs') {t : Test World S Datum}
    (ht : t.MovesOn needs) {w : World} (hw : w.store.Acyclic) :
    Advances World.store (fun s r => HoldsTrace s r.1 ∧ needs'.met s r.2) (prepare c t) w := by
  refine (ht.golden w hw).bind fun g w₁ h₁ hg => ?_
  refine (ht.factory w₁ h₁.acyclic).bind fun p w₂ h₂ hp => ?_
  refine (hc.compile p w₂ h₂.acyclic hp).bind fun a w₃ h₃ ha => ?_
  exact .pure h₃.acyclic ⟨HoldsTrace.mono (h₂.trans h₃).toLater hg, ha⟩

/-- Running a test moves the store on, however the test ends. -/
theorem runTest_moves (hc : c.MovesOn needs needs') {t : Test World S Datum}
    (ht : t.MovesOn needs) {w : World} (hw : w.store.Acyclic) :
    w.store.Moves (runTest account c t w).2.store := by
  have hprepare := prepare_advances hc ht hw
  rcases hp : prepare c t w with ⟨r, w₃⟩
  have hmoves := hprepare.moves_to hp
  cases r with
  | error e =>
      rw [runTest_of_prepare_error hp]
      exact hmoves
  | ok r =>
      obtain ⟨hg, ha⟩ := hprepare.good_of_ok hp
      rw [runTest_of_prepare_ok hp]
      exact hmoves.trans (hc.run r.2 r.1 w₃ hmoves.acyclic ha hg).moves

/-- **TESTS MOVE THE STORE ON**, as many as there are. -/
theorem runTests_moves (hc : c.MovesOn needs needs') {tests : List (Test World S Datum)}
    (ht : ∀ t ∈ tests, t.MovesOn needs) {w : World} (hw : w.store.Acyclic) :
    w.store.Moves (runTests account c tests w).2.store := by
  induction tests generalizing w with
  | nil => exact Store.Moves.refl hw
  | cons t ts ih =>
      obtain ⟨ht, hts⟩ := List.forall_mem_cons.mp ht
      rw [runTests_cons]
      have hmoves := runTest_moves account hc ht hw
      exact hmoves.trans (ih hts hmoves.acyclic)

end

end DialectBench
