import DialectBench.Proofs.Onward

/-!
# Tests that keep apart

    A test is APART from others if it shares no objects with them: whatever
    cells are in the store already, its factory and its golden run do on top of
    them what they do without them.  A configuration is STATELESS if compiling
    and running what was compiled are of that kind, too; then neither the
    objects of other tests nor what was left of earlier compilations can be
    noticed.

    Instances can be of any sort, with cells of their own or without.  Tests are
    apart if the calls into instances are, and a configuration that makes calls
    is stateless if these are apart.  Programs whose methods are not told by the
    log of library calls are one sort, and a backend is stateless if its
    compiler is not told by the number of pipelines.
-/

namespace DialectBench

/-- Recorded calls as they are found on top of other cells. -/
def traceAbove (base : List Cell) (trace : Trace Datum) : Trace Datum :=
  trace.map (TraceItem.map (Datum.above base))

theorem traceAbove_append (base : List Cell) (first rest : Trace Datum) :
    traceAbove base (first ++ rest) = traceAbove base first ++ traceAbove base rest :=
  List.map_append

/-- What instances need, and how one is found on top of other cells. -/
structure Lodging (S : Type) extends Needs S where
  above : List Cell → S → S

/-- Instances of a kind that have no cells of their own. -/
def Lodging.fixed {S : Type} (fine : S → Prop) : Lodging S where
  met := fun _ p => fine p
  mono := fun _ h => h
  above := fun _ p => p

/-- A test shares no objects with what is in the store. -/
structure Test.Apart {S : Type} (lodging : Lodging S) (t : Test World S Datum) : Prop where
  factory : ∀ {base : List Cell} {w w' : World}, Store.OnTop base w.store w'.store →
    w.store.Acyclic → Alike World.store base (lodging.above base) t.factory t.factory w w'
  golden : ∀ {base : List Cell} {w w' : World}, Store.OnTop base w.store w'.store →
    w.store.Acyclic → Alike World.store base (traceAbove base) t.golden t.golden w w'

/-- A configuration keeps no state when it compiles instances and runs what it
    compiled. -/
structure Config.Stateless {S A : Type} (lodging : Lodging S) (lodging' : Lodging A)
    (c : Config World S A Datum) : Prop where
  compile : ∀ {base : List Cell} {w w' : World} {p : S}, Store.OnTop base w.store w'.store →
    w.store.Acyclic → lodging.met w.store p →
      Alike World.store base (lodging'.above base) (c.compile p)
        (c.compile (lodging.above base p)) w w'
  run : ∀ {base : List Cell} {w w' : World} {a : A} {trace : Trace Datum},
    Store.OnTop base w.store w'.store → w.store.Acyclic → lodging'.met w.store a →
      HoldsTrace w.store trace →
        Alike World.store base (traceAbove base) (c.run a trace)
          (c.run (lodging'.above base a) (traceAbove base trace)) w w'

/-- A test moves the store on and shares nothing with others. -/
structure Separate {S : Type} (lodging : Lodging S) (t : Test World S Datum) : Prop where
  movesOn : t.MovesOn lodging.toNeeds
  apart : t.Apart lodging

/-- A configuration moves the store on and keeps no state. -/
structure Config.Separates {S A : Type} (lodging : Lodging S) (lodging' : Lodging A)
    (c : Config World S A Datum) : Prop where
  movesOn : c.MovesOn lodging.toNeeds lodging'.toNeeds
  stateless : c.Stateless lodging lodging'

section

variable {α : Type} {base : List Cell} {moved : α → α} {w w' : World}

theorem onStore_alike {x y : Run Store α} (h : Alike id base moved x y w.store w'.store) :
    Alike World.store base moved (onStore x) (onStore y) w w' := ⟨h.onTop, h.outcome⟩

theorem onShop_alike {r : Run Pipeline.Shop α} (hr : r.Unaware)
    (h : Store.OnTop base w.store w'.store) :
    Alike World.store base id (onShop r) (onShop r) w w' := by
  refine ⟨h, ?_⟩
  show (r w'.shop).1 = (r w.shop).1.map id
  rw [hr w'.shop w.shop]
  cases (r w.shop).1 <;> rfl

/-- Work in a session that leaves the state of the session alone. -/
theorem session_lift_alike {σ : Type} {x y : Run World α} (g : σ → σ)
    (h : Alike World.store base moved x y w w') (st : σ) :
    Alike World.store base (fun r => (moved r.1, g r.2))
      ((monadLift x : StateT σ (Run World) α) st) ((monadLift y : StateT σ (Run World) α) (g st))
      w w' := h.bind fun _ _ _ _ h₁ => .pure h₁ rfl

/-- Work on each element of a list in turn. -/
theorem mapM_alike {β : Type} {f : β → Run World α} (xs : List β)
    (hf : ∀ x ∈ xs, ∀ {w w' : World}, Store.OnTop base w.store w'.store →
      Alike World.store base moved (f x) (f x) w w')
    (h : Store.OnTop base w.store w'.store) :
    Alike World.store base (List.map moved) (xs.mapM f) (xs.mapM f) w w' := by
  induction xs generalizing w w' with
  | nil => exact .pure h rfl
  | cons x xs ih =>
      obtain ⟨hx, hxs⟩ := List.forall_mem_cons.mp hf
      rw [List.mapM_cons]
      refine (hx h).bind fun a w₁ w₁' _ h₁ => ?_
      exact (ih hxs h₁).bind fun as w₂ w₂' _ h₂ => .pure h₂ rfl

end

/-! ## The calls of a test -/

/-- Calls into instances do on top of other cells what they do without them. -/
def CallsApart {S : Type} (lodging : Lodging S) (call : Calling World S Datum) : Prop :=
  ∀ path ds kwargs p base (w w' : World), Store.OnTop base w.store w'.store →
    w.store.Acyclic → Arguments.Held w.store ⟨ds, kwargs⟩ → lodging.met w.store p →
      Alike World.store base (fun r => (r.1.above base, lodging.above base r.2))
        (call path ds kwargs p)
        (call path (ds.map (Datum.above base)) (kwargs.map fun k => (k.1, k.2.above base))
          (lodging.above base p)) w w'

section

variable {base : List Cell} {w w' : World} {outputs : List Datum}

theorem Argument.datum_alike (arg : Argument) (h : Store.OnTop base w.store w'.store) :
    Alike World.store base (Datum.above base) (arg.datum outputs)
      (arg.datum (outputs.map (Datum.above base))) w w' := by
  cases arg with
  | value v => exact onStore_alike (thawIn_alike h v)
  | ref n =>
      rw [Argument.datum, Argument.datum, List.getElem?_map]
      cases outputs[n]? with
      | none => exact .throw h _
      | some o => exact .pure h rfl

theorem Argument.data_alike (args : List Argument) (h : Store.OnTop base w.store w'.store) :
    Alike World.store base (List.map (Datum.above base)) (Argument.data outputs args)
      (Argument.data (outputs.map (Datum.above base)) args) w w' := by
  induction args generalizing w w' with
  | nil => exact .pure h rfl
  | cons arg args ih =>
      refine (arg.datum_alike h).bind fun d w₁ w₁' _ h₁ => ?_
      exact (ih h₁).bind fun ds w₂ w₂' _ h₂ => .pure h₂ rfl

variable {S : Type} {lodging : Lodging S} {call : Calling World S Datum}

/-- The state of a session as it is found on top of other cells. -/
def sessionAbove (lodging : Lodging S) (base : List Cell) (st : S × Trace Datum) :
    S × Trace Datum := (lodging.above base st.1, traceAbove base st.2)

theorem tracedCall_alike (hcall : CallsApart lodging call) {p : S} (path : List String)
    {ds : List Datum} {kwargs : List (String × Datum)} (trace : Trace Datum)
    (h : Store.OnTop base w.store w'.store) (hw : w.store.Acyclic)
    (hargs : Arguments.Held w.store ⟨ds, kwargs⟩) (hp : lodging.met w.store p) :
    Alike World.store base (fun r => (r.1.above base, sessionAbove lodging base r.2))
      (tracedCall call path ds kwargs (p, trace))
      (tracedCall call path (ds.map (Datum.above base))
        (kwargs.map fun k => (k.1, k.2.above base)) (sessionAbove lodging base (p, trace)))
      w w' := by
  refine (hcall path ds kwargs p base w w' h hw hargs hp).bind fun r w₁ w₁' _ h₁ => .pure h₁ ?_
  have hrecord := traceAbove_append base trace [⟨Text.joinWith "." path, ds, r.1⟩]
  exact congrArg (fun t => (r.1.above base, lodging.above base r.2, t)) hrecord.symm

/-- **A GOLDEN RUN IS ALIKE ON TOP OF OTHER CELLS.**  Induction on the calls; the
    instance keeps what it needs, and the results of earlier calls stay held. -/
theorem runCalls_alike (hmoves : CallsMoveOn lodging.toNeeds call)
    (hcall : CallsApart lodging call) (calls : List CallStep) :
    ∀ {outputs : List Datum} {p : S} {trace : Trace Datum} {w w' : World},
      Store.OnTop base w.store w'.store → w.store.Acyclic → lodging.met w.store p →
      (∀ o ∈ outputs, w.store.Holds o) →
        Alike World.store base (fun r => (r.1, sessionAbove lodging base r.2))
          (runCalls call calls outputs (p, trace))
          (runCalls call calls (outputs.map (Datum.above base))
            (sessionAbove lodging base (p, trace))) w w' := by
  induction calls with
  | nil => exact fun h _ _ _ => .pure h rfl
  | cons step rest ih =>
      intro outputs p trace w w' h hw hp hout
      cases step with
      | raise f => exact .throw h f
      | call path args kwargs =>
          refine (session_lift_alike (sessionAbove lodging base) (Argument.data_alike args h)
            (p, trace)).bind ?_
          rintro ⟨ds, st₁⟩ w₁ w₁' hx h₁
          obtain ⟨positional, rfl⟩ := session_lift_eq_ok hx
          refine (session_lift_alike (sessionAbove lodging base)
            (Argument.data_alike (kwargs.map Prod.snd) h₁) (p, trace)).bind ?_
          rintro ⟨vs, st₂⟩ w₂ w₂' hx h₂
          obtain ⟨keywords, rfl⟩ := session_lift_eq_ok hx
          obtain ⟨hbefore, hheld⟩ := Argument.data_held hw hout positional keywords
          have hp₂ := lodging.mono hbefore.toLater hp
          have hzip : (kwargs.map Prod.fst).zip (vs.map (Datum.above base))
              = ((kwargs.map Prod.fst).zip vs).map fun k => (k.1, k.2.above base) := by
            rw [List.zip_map_right]
            rfl
          -- on top of the others the call is made with the same names and moved data
          show Alike World.store base _
            ((tracedCall call path ds ((kwargs.map Prod.fst).zip vs) >>= fun out =>
              runCalls call rest (outputs ++ [out])) (p, trace))
            ((tracedCall call path (ds.map (Datum.above base))
              ((kwargs.map Prod.fst).zip (vs.map (Datum.above base))) >>= fun out =>
                runCalls call rest (outputs.map (Datum.above base) ++ [out]))
              (sessionAbove lodging base (p, trace))) w₂ w₂'
          rw [hzip]
          refine (tracedCall_alike hcall path trace h₂ hbefore.acyclic hheld hp₂).bind ?_
          rintro ⟨out, p', trace'⟩ w₃ w₃' hx h₃
          obtain ⟨hreturns, rfl⟩ := tracedCall_eq_ok hx
          have hadvances := hmoves path ds _ p w₂ hbefore.acyclic hheld hp₂
          have hafter := hadvances.moves_to hreturns
          obtain ⟨hdone, hp'⟩ := hadvances.good_of_ok hreturns
          have hmap : outputs.map (Datum.above base) ++ [out.above base]
              = (outputs ++ [out]).map (Datum.above base) := by
            rw [List.map_append, List.map_singleton]
          show Alike World.store base _ _
            (runCalls call rest (outputs.map (Datum.above base) ++ [out.above base])
              (sessionAbove lodging base _)) _ _
          rw [hmap]
          exact ih h₃ hafter.acyclic hp' ((hbefore.trans hafter).holds_concat hout hdone)

/-- Tests are apart if their factories and the calls that they make are. -/
theorem apart_callTest (hmoves : CallsMoveOn lodging.toNeeds call)
    (hcall : CallsApart lodging call) {factory : Run World S}
    (hmakes : ∀ w : World, w.store.Acyclic → Advances World.store lodging.met factory w)
    (hfactory : ∀ {base : List Cell} {w w' : World}, Store.OnTop base w.store w'.store →
      w.store.Acyclic → Alike World.store base (lodging.above base) factory factory w w')
    (name : String) (calls : List CallStep) :
    (callTest call name factory calls).Apart lodging := by
  refine ⟨hfactory, fun {base w w'} h hw => ?_⟩
  refine (hfactory h hw).bind fun p w₁ w₁' hp h₁ => ?_
  have hmade := hmakes w hw
  have hnone : ∀ o ∈ ([] : List Datum), w₁.store.Holds o := fun o ho => (nomatch ho)
  exact (runCalls_alike hmoves hcall calls h₁ (hmade.moves_to hp).acyclic (hmade.good_of_ok hp)
    hnone).bind fun _ _ _ _ h₂ => .pure h₂ rfl

end

/-! ## Configurations -/

section

variable {A : Type} {lodging : Lodging A}

/-- Replaying is alike on top of other cells if each call is. -/
theorem replay_alike {base : List Cell}
    {call : String → List Datum → StateT A (Run World) Datum}
    (hmoves : ∀ symbol ds a (w : World), w.store.Acyclic → (∀ d ∈ ds, w.store.Holds d) →
      lodging.met w.store a →
        Advances World.store (fun s r => s.Holds r.1 ∧ lodging.met s r.2) (call symbol ds a) w)
    (hcall : ∀ symbol ds a (w w' : World), Store.OnTop base w.store w'.store →
      w.store.Acyclic → (∀ d ∈ ds, w.store.Holds d) → lodging.met w.store a →
        Alike World.store base (fun r => (r.1.above base, lodging.above base r.2))
          (call symbol ds a) (call symbol (ds.map (Datum.above base)) (lodging.above base a))
          w w') :
    ∀ (trace : Trace Datum) {a : A} {w w' : World}, Store.OnTop base w.store w'.store →
      w.store.Acyclic → lodging.met w.store a → HoldsTrace w.store trace →
        Alike World.store base (fun r => (traceAbove base r.1, lodging.above base r.2))
          (replay call trace a) (replay call (traceAbove base trace) (lodging.above base a))
          w w' := by
  intro trace
  induction trace with
  | nil => exact fun h _ _ _ => .pure h rfl
  | cons item rest ih =>
      intro a w w' h hw ha htrace
      obtain ⟨hitem, hrest⟩ := List.forall_mem_cons.mp htrace
      refine (hcall item.symbol item.inputs a w w' h hw hitem.1 ha).bind ?_
      rintro ⟨out, a'⟩ w₁ w₁' hx h₁
      have hadvances := hmoves item.symbol item.inputs a w hw hitem.1 ha
      have hmoves₁ := hadvances.moves_to hx
      refine (ih h₁ hmoves₁.acyclic (hadvances.good_of_ok hx).2
        (HoldsTrace.mono hmoves₁.toLater hrest)).bind ?_
      exact fun _ _ _ _ h₂ => .pure h₂ rfl

/-- A configuration that makes recorded calls at paths is stateless if its
    compilation and the calls are apart. -/
theorem stateless_pathConfig {S : Type} {lodging' : Lodging S} {compile : S → Run World A}
    (hcompile : ∀ {base : List Cell} {w w' : World} {p : S},
      Store.OnTop base w.store w'.store → w.store.Acyclic → lodging'.met w.store p →
        Alike World.store base (lodging.above base) (compile p)
          (compile (lodging'.above base p)) w w')
    {call : Calling World A Datum} (hmoves : CallsMoveOn lodging.toNeeds call)
    (hcall : CallsApart lodging call) (cut : String → List String) :
    (pathConfig compile call cut).Stateless lodging' lodging := by
  refine ⟨hcompile, fun {base w w' a trace} h hw ha htrace => ?_⟩
  have hnone : ∀ {s : Store}, ∀ k ∈ ([] : List (String × Datum)), s.Holds k.2 :=
    fun k hk => (nomatch hk)
  refine (replay_alike ?_ ?_ trace h hw ha htrace).bind fun _ _ _ _ h₁ => .pure h₁ rfl
  · exact fun symbol ds a w hw hds ha => hmoves _ ds [] a w hw ⟨hds, hnone⟩ ha
  · exact fun symbol ds a w w' h hw hds ha => hcall _ ds [] a base w w' h hw ⟨hds, hnone⟩ ha

variable {base : List Cell} {w w' : World}

theorem convertData_alike (d : Direction) {xs : List Datum}
    (h : Store.OnTop base w.store w'.store) (hw : w.store.Acyclic)
    (hxs : ∀ x ∈ xs, w.store.Holds x) :
    Alike World.store base (List.map (Datum.above base)) (convertData d xs)
      (convertData d (xs.map (Datum.above base))) w w' := by
  induction xs generalizing w w' with
  | nil => exact .pure h rfl
  | cons x xs ih =>
      obtain ⟨hx, hxs⟩ := List.forall_mem_cons.mp hxs
      refine (onStore_alike (Datum.convert_alike hw hx h)).bind fun y w₁ w₁' hy h₁ => ?_
      have hmoves := (convertDatum_advances d hw hx).moves_to hy
      exact (ih h₁ hmoves.acyclic (hmoves.holds_all hxs)).bind fun _ _ _ _ h₂ => .pure h₂ rfl

/-- A call across the border is alike if the call itself is. -/
theorem onArrays_alike {call : ArrayCalling A}
    (hmoves : ∀ symbol ds a (w : World), w.store.Acyclic → (∀ d ∈ ds, w.store.Holds d) →
      lodging.met w.store a →
        Advances World.store (fun s r => s.Holds r.1 ∧ lodging.met s r.2) (call symbol ds a) w)
    (hcall : ∀ symbol ds a (w w' : World), Store.OnTop base w.store w'.store →
      w.store.Acyclic → (∀ d ∈ ds, w.store.Holds d) → lodging.met w.store a →
        Alike World.store base (fun r => (r.1.above base, lodging.above base r.2))
          (call symbol ds a) (call symbol (ds.map (Datum.above base)) (lodging.above base a))
          w w')
    (symbol : String) {ds : List Datum} {a : A} (h : Store.OnTop base w.store w'.store)
    (hw : w.store.Acyclic) (hds : ∀ d ∈ ds, w.store.Holds d) (ha : lodging.met w.store a) :
    Alike World.store base (fun r => (r.1.above base, lodging.above base r.2))
      (onArrays call symbol ds a)
      (onArrays call symbol (ds.map (Datum.above base)) (lodging.above base a)) w w' := by
  refine (session_lift_alike (lodging.above base) (convertData_alike _ h hw hds) a).bind ?_
  rintro ⟨inputs, a₁⟩ w₁ w₁' hx h₁
  obtain ⟨hinputs, rfl⟩ := session_lift_eq_ok hx
  have hconvert := convertData_advances .toArrays hw hds
  have hmoves₁ := hconvert.moves_to hinputs
  have hheld := hconvert.good_of_ok hinputs
  have ha₁ := lodging.mono hmoves₁.toLater ha
  refine (hcall symbol inputs a₁ w₁ w₁' h₁ hmoves₁.acyclic hheld ha₁).bind ?_
  rintro ⟨out, a₂⟩ w₂ w₂' hx h₂
  have hadvances := hmoves symbol inputs a₁ w₁ hmoves₁.acyclic hheld ha₁
  exact session_lift_alike (lodging.above base) (onStore_alike (Datum.convert_alike
    (hadvances.moves_to hx).acyclic (hadvances.good_of_ok hx).1 h₂)) a₂

end

/-! ## The compiler -/

namespace Pipeline

/-- What passes do is not told by the number of pipelines run before. -/
def Toolchain.Steady (t : Toolchain) : Prop :=
  ∀ n k pipeline ir, t.passes n pipeline ir = t.passes k pipeline ir

/-- Desks on which a stage finds the same. -/
structure Desk.Same (d d' : Desk) : Prop where
  ir : d.ir = d'.ir
  kept : d.kept = d'.kept
  stderr : d.shop.stderr = d'.shop.stderr

/-- Work that does the same on desks on which it finds the same. -/
def Level {α : Type} (r : Run Desk α) : Prop :=
  ∀ d d', d.Same d' → (r d).1 = (r d').1 ∧ (r d).2.Same (r d').2

/-- Work whose outcome and whose module are told by the module alone. -/
def Blind (r : Run Desk Unit) : Prop :=
  ∀ d d', d.ir = d'.ir → (r d).1 = (r d').1 ∧ (r d).2.ir = (r d').2.ir

section

variable {α β : Type}

theorem level_pure (a : α) : Level (pure a) := fun _ _ h => ⟨rfl, h⟩

theorem level_throw (e : Fault) : Level (throw e : Run Desk α) := fun _ _ h => ⟨rfl, h⟩

theorem level_lift (x : Except Fault α) : Level (x : Run Desk α) := by
  cases x with
  | error e => exact level_throw e
  | ok a => exact level_pure a

theorem Level.bind {x : Run Desk α} {f : α → Run Desk β} (hx : Level x) (hf : ∀ a, Level (f a)) :
    Level (x >>= f) := by
  intro d d' h
  obtain ⟨hout, hsame⟩ := hx d d' h
  rcases hd : x d with ⟨r, d₁⟩
  rcases hd' : x d' with ⟨r', d₁'⟩
  rw [hd, hd'] at hout hsame
  obtain rfl : r = r' := hout
  cases r with
  | error e =>
      rw [Run.bind_of_error hd, Run.bind_of_error hd']
      exact ⟨rfl, hsame⟩
  | ok a =>
      rw [Run.bind_of_ok hd, Run.bind_of_ok hd']
      exact hf a d₁ d₁' hsame

/-- Work that starts with a look at the desk. -/
theorem level_look {f : Desk → Run Desk β} (hf : ∀ d d', d.Same d' → f d = f d')
    (hlevel : ∀ d, Level (f d)) : Level (get >>= f) := by
  intro d d' h
  show (f d d).1 = (f d' d').1 ∧ (f d d).2.Same (f d' d').2
  rw [hf d d' h]
  exact hlevel d' d d' h

theorem level_modify {f : Desk → Desk} (hf : ∀ d d', d.Same d' → (f d).Same (f d')) :
    Level (modify f) := fun d d' h => ⟨rfl, hf d d' h⟩

theorem level_onSurroundings {f : Shop → Shop}
    (hf : ∀ s s', s.stderr = s'.stderr → (f s).stderr = (f s').stderr) :
    Level (onSurroundings f) :=
  level_modify fun d d' h => ⟨h.ir, h.kept, hf d.shop d'.shop h.stderr⟩

theorem level_writeDiagnostics (text : String) : Level (writeDiagnostics text) :=
  level_onSurroundings fun _ _ h => congrArg (Stderr.write · text) h

/-- What is told by the module alone is not told by what was done before, as long
    as that left the same module. -/
theorem Blind.after {x y : Run Desk Unit} (hy : Blind y) {d d' : Desk}
    (hx : (x d).1 = (x d').1 ∧ (x d).2.ir = (x d').2.ir) :
    ((x >>= fun _ => y) d).1 = ((x >>= fun _ => y) d').1 ∧
      ((x >>= fun _ => y) d).2.ir = ((x >>= fun _ => y) d').2.ir := by
  obtain ⟨hout, hir⟩ := hx
  rcases hd : x d with ⟨r, d₁⟩
  rcases hd' : x d' with ⟨r', d₁'⟩
  rw [hd, hd'] at hout hir
  obtain rfl : r = r' := hout
  cases r with
  | error e =>
      rw [Run.bind_of_error hd, Run.bind_of_error hd']
      exact ⟨rfl, hir⟩
  | ok a =>
      rw [Run.bind_of_ok hd, Run.bind_of_ok hd']
      exact hy d₁ d₁' hir

/-- Work with its own error stream does not notice the one outside. -/
theorem redirected_level {body : Run Desk Unit} {handle : Fault → Run Desk Unit}
    (hbody : Level body) (hhandle : ∀ e, Level (handle e)) (d d' : Desk) (hir : d.ir = d'.ir)
    (hkept : d.kept = d'.kept) :
    (redirected body handle d).1 = (redirected body handle d').1 ∧
      (redirected body handle d).2.ir = (redirected body handle d').2.ir := by
  -- on both desks the work starts with an empty stream
  obtain ⟨hout, hsame⟩ := hbody { d with shop := { d.shop with stderr := .buffer "" } }
    { d' with shop := { d'.shop with stderr := .buffer "" } } ⟨hir, hkept, rfl⟩
  unfold redirected
  rcases h : body { d with shop := { d.shop with stderr := .buffer "" } } with ⟨r, d₁⟩
  rcases h' : body { d' with shop := { d'.shop with stderr := .buffer "" } } with ⟨r', d₁'⟩
  rw [h, h'] at hout hsame
  obtain rfl : r = r' := hout
  cases r with
  | error e =>
      obtain ⟨hout, hsame⟩ := hhandle e d₁ d₁' hsame
      exact ⟨hout, hsame.ir⟩
  | ok a => exact ⟨rfl, hsame.ir⟩

end

section

variable {t : Toolchain}

theorem level_keepText : Level keepText := by
  refine level_look (fun d d' h => by rw [h.ir]) fun d => (level_lift _).bind fun text => ?_
  exact level_modify fun _ _ h => ⟨h.ir, rfl, h.stderr⟩

theorem level_runPasses (n : Nat) (pipeline : String) : Level (runPasses t n pipeline) := by
  refine level_look (fun d d' h => by rw [h.ir]) fun d => ?_
  refine (level_writeDiagnostics _).bind fun _ => ?_
  have hleave : Level (modify fun d' : Desk => { d' with ir := (t.passes n pipeline d.ir).ir }) :=
    level_modify fun _ _ h => ⟨rfl, h.kept, h.stderr⟩
  exact hleave.bind fun _ => level_lift _

/-- The number of a pipeline is not noticed. -/
theorem Toolchain.Steady.runPasses_eq (ht : t.Steady) (n k : Nat) (pipeline : String) :
    runPasses t n pipeline = runPasses t k pipeline := by
  unfold runPasses
  rw [funext fun ir => ht n k pipeline ir]

theorem level_runPipeline (ht : t.Steady) (pipeline : String) :
    Level (runPipeline t pipeline) := by
  refine level_look (fun d d' _ => ?_) fun d => ?_
  · dsimp only
    rw [ht.runPasses_eq d.shop.attempted.length d'.shop.attempted.length]
  · have hread : Level (readPipeline t pipeline) :=
      (level_writeDiagnostics _).bind fun _ => level_lift _
    have hcount : Level
        (onSurroundings fun s => { s with attempted := s.attempted ++ [pipeline] }) :=
      level_onSurroundings fun _ _ h => h
    exact hcount.bind fun _ => hread.bind fun _ => level_runPasses _ pipeline

theorem level_reportFailure (st : Stage) (name : String) : Level (reportFailure t st name) := by
  have hopen : Level (openFile (name ++ ".mlir")) := by
    unfold openFile
    split
    · exact level_throw _
    · exact level_onSurroundings fun _ _ h => h
  refine hopen.bind fun _ => level_look (fun d d' h => by rw [h.kept]) fun d => ?_
  cases d.kept with
  | none => exact level_throw _
  | some text =>
      have hwrite : Level (writeFile (name ++ ".mlir") text) :=
        level_onSurroundings fun _ _ h => h
      exact hwrite.bind fun _ => level_look (fun d d' h => by rw [h.stderr]) fun d => level_throw _

/-- **A STAGE IS BLIND** to all but its module: it has its own error stream, and
    it forgets the text that was taken by an earlier one. -/
theorem blind_runStage (ht : t.Steady) (st : Stage) : Blind (runStage t st) := by
  intro d d' h
  have hbody : Level (keepText >>= fun _ => runPipeline t st.pipeline) :=
    level_keepText.bind fun _ => level_runPipeline ht st.pipeline
  have hstage := redirected_level hbody (fun _ => level_reportFailure (t := t) st d'.ir.name)
    { d with kept := none } { d' with kept := none } h rfl
  have hd : runStage t st d = redirected (keepText >>= fun _ => runPipeline t st.pipeline)
      (fun _ => reportFailure t st d'.ir.name) { d with kept := none } := by
    rw [← h]
    rfl
  rw [hd]
  exact hstage

theorem blind_runStages (ht : t.Steady) (stages : List Stage) : Blind (runStages t stages) := by
  induction stages with
  | nil => exact fun d d' h => ⟨rfl, h⟩
  | cons st rest ih => exact fun d d' h => ih.after (blind_runStage ht st d d' h)

/-- An import does not notice the error stream outside. -/
theorem importProgram_level (t : Toolchain) (d d' : Desk) (hir : d.ir = d'.ir)
    (hkept : d.kept = d'.kept) :
    (importProgram t d).1 = (importProgram t d').1 ∧
      (importProgram t d).2.ir = (importProgram t d').2.ir := by
  refine redirected_level ((level_writeDiagnostics _).bind fun _ => ?_) (fun e => ?_) d d' hir hkept
  · cases t.imported with
    | error reason => exact level_throw _
    | ok ir => exact level_modify fun _ _ h => ⟨rfl, h.kept, h.stderr⟩
  · exact level_look (fun d d' h => by rw [h.stderr]) fun d => level_throw _

/-- Lowering does not notice what was lowered before. -/
theorem lower_unaware (ht : t.Steady) (d : Dialect) (backend : List Stage) :
    (onNewModule (lower t d >>= fun _ => runStages t backend)).Unaware := by
  intro s s'
  have himport := importProgram_level t (.start s .empty) (.start s' .empty) rfl rfl
  obtain ⟨hout, hir⟩ := (blind_runStages ht backend).after
    ((blind_runStages ht [frontStage, d.stage]).after himport)
  exact congrArg₂ (fun (out : Except Fault Unit) ir => out.map fun () => ir) hout hir

end

end Pipeline

/-! ## Programs -/

/-- The module of a program and its scripted form are deterministic. -/
structure Program.Deterministic (p : Program) : Prop where
  module : p.module.Deterministic
  script : p.script.Deterministic

/-- Modules that are deterministic. -/
abbrev moduleLodging : Lodging Module := .fixed Module.Deterministic

/-- Programs that are deterministic. -/
abbrev programLodging : Lodging Program := .fixed Program.Deterministic

theorem Program.Deterministic.withModule {p : Program} (hp : p.Deterministic) {m : Module}
    (hm : m.Deterministic) : ({ p with module := m } : Program).Deterministic := by
  obtain ⟨module, scripted⟩ := p
  cases scripted with
  | none => exact ⟨hm, hm⟩
  | some q => exact ⟨hm, hp.script⟩

theorem callsMoveOn_deterministic_module : CallsMoveOn moduleLodging.toNeeds Module.calling := by
  intro path ds kwargs m w hw hargs hm
  obtain ⟨hmoves, hreturns⟩ := m.call_advances path hw hargs
  refine onStore_advances ⟨hmoves, fun r hr => ⟨hreturns r hr, ?_⟩⟩
  have hcall : m.call path ⟨ds, kwargs⟩ w.store = (.ok r, (m.call path ⟨ds, kwargs⟩ w.store).2) :=
    Prod.ext hr rfl
  exact Module.Deterministic.call hm hcall

theorem callsApart_module : CallsApart moduleLodging Module.calling :=
  fun path _ _ m _ _ _ h hw hargs hm => onStore_alike (m.call_alike path hm h hw hargs)

theorem callsMoveOn_deterministic_program :
    CallsMoveOn programLodging.toNeeds Program.calling :=
  fun path ds kwargs p w hw hargs hp =>
    (callsMoveOn_deterministic_module path ds kwargs p.module w hw hargs hp.module).bind
      fun _ _ hmoves hr => .pure hmoves.acyclic ⟨hr.1, hp.withModule hr.2⟩

theorem callsApart_program : CallsApart programLodging Program.calling :=
  fun path ds kwargs p base w w' h hw hargs hp =>
    (callsApart_module path ds kwargs p.module base w w' h hw hargs hp.module).bind
      fun _ _ _ _ h₁ => .pure h₁ rfl

/-- Tests of deterministic programs are separate. -/
theorem separate_programTest {program : Except Fault Program}
    (hdet : ∀ p, program = .ok p → p.Deterministic) (name : String) (calls : List CallStep) :
    Separate programLodging (programTest name program calls) := by
  have hmakes : ∀ w : World, w.store.Acyclic →
      Advances World.store programLodging.met (fun w => (program, w)) w :=
    fun w hw => ⟨Store.Moves.refl hw, fun p hp => hdet p hp⟩
  refine ⟨movesOn_callTest callsMoveOn_deterministic_program hmakes name calls,
    apart_callTest callsMoveOn_deterministic_program callsApart_program hmakes ?_ name calls⟩
  exact fun h _ => ⟨h, by cases program <;> rfl⟩

/-- The configurations that call into a form of the program keep no state. -/
theorem separates_pathConfig {form : Program → Module}
    (hform : ∀ p, p.Deterministic → (form p).Deterministic) (cut : String → List String) :
    (pathConfig (fun p => return form p) Module.calling cut).Separates programLodging
      moduleLodging :=
  ⟨movesOn_pathConfig (fun p _ hw hp => .pure hw (hform p hp)) callsMoveOn_deterministic_module cut,
    stateless_pathConfig (fun h _ _ => .pure h rfl) callsMoveOn_deterministic_module
      callsApart_module cut⟩

theorem separates_nativeConfig : nativeConfig.Separates programLodging moduleLodging :=
  separates_pathConfig (fun _ hp => hp.module) _

theorem separates_scriptedConfig : scriptedConfig.Separates programLodging moduleLodging :=
  separates_pathConfig (fun _ hp => hp.script) _

theorem separates_fixedConfig (compileFault runFault : Option Fault) (trace : Trace Value) :
    (fixedConfig compileFault runFault trace).Separates programLodging (.fixed fun _ => True) := by
  have hmoves := movesOn_fixedConfig compileFault runFault trace
  refine ⟨⟨fun p w hw _ => hmoves.compile p w hw trivial,
    fun a golden w hw _ h => hmoves.run a golden w hw trivial h⟩, fun h _ _ => ?_, ?_⟩
  · cases compileFault with
    | some f => exact .throw h f
    | none => exact .pure h rfl
  · intro base w w' a golden h _ _ _
    cases runFault with
    | some f => exact .throw h f
    | none =>
        refine mapM_alike trace ?_ h
        intro i _ w w' h
        refine (mapM_alike i.inputs (fun v _ {_ _} h => onStore_alike (thawIn_alike h v)) h).bind
          fun inputs w₁ w₁' _ h₁ => ?_
        exact (onStore_alike (thawIn_alike h₁ i.output)).bind fun _ _ _ _ h₂ => .pure h₂ rfl

/-- A backend keeps no state if its compiler is steady and what it loads is
    deterministic. -/
theorem separates_backendConfig {t : Pipeline.Toolchain} (ht : t.Steady) (d : Pipeline.Dialect)
    {b : Backend} (hb : ∀ m, b.loaded = .ok m → m.Deterministic) :
    (backendConfig t d b).Separates programLodging (.fixed fun _ => True) := by
  have hmoves := movesOn_backendConfig t d b
  refine ⟨⟨fun p w hw _ => hmoves.compile p w hw trivial,
    fun a golden w hw _ h => hmoves.run a golden w hw trivial h⟩, ?_, ?_⟩
  · intro base w w' p h _ _
    have hnotices : Alike World.store base id p.notices p.notices w w' := by
      unfold Program.notices
      dsimp only
      cases p.told.outcome with
      | error e => exact .throw h e
      | ok u => exact .pure h rfl
    have hlower : Alike World.store base id (p.lower t d b.stages) (p.lower t d b.stages) w w' :=
      hnotices.bind fun _ _ _ _ h₁ =>
        (onShop_alike (Pipeline.lower_unaware ht d b.stages) h₁).bind
          fun _ _ _ _ h₂ => .pure h₂ rfl
    exact hlower.bind fun _ _ _ _ h₁ => .pure h₁ rfl
  · intro base w w' a trace h hw _ htrace
    show Alike World.store base (traceAbove base)
      (runOnArrays Module.callingMember b.loaded trace)
      (runOnArrays Module.callingMember b.loaded (traceAbove base trace)) w w'
    have hmember : ∀ symbol ds m (w : World), w.store.Acyclic → (∀ d ∈ ds, w.store.Holds d) →
        moduleLodging.met w.store m →
          Advances World.store (fun s r => s.Holds r.1 ∧ moduleLodging.met s r.2)
            (Module.callingMember symbol ds m) w := fun symbol ds m w hw hds hm =>
      callsMoveOn_deterministic_module [symbol] ds [] m w hw ⟨hds, fun _ hk => (nomatch hk)⟩ hm
    have halike : ∀ symbol ds m (w w' : World), Store.OnTop base w.store w'.store →
        w.store.Acyclic → (∀ d ∈ ds, w.store.Holds d) → moduleLodging.met w.store m →
          Alike World.store base (fun r => (r.1.above base, moduleLodging.above base r.2))
            (Module.callingMember symbol ds m)
            (Module.callingMember symbol (ds.map (Datum.above base)) m) w w' :=
      fun symbol ds m w w' h hw hds hm =>
        callsApart_module [symbol] ds [] m base w w' h hw ⟨hds, fun _ hk => (nomatch hk)⟩ hm
    cases hloaded : b.loaded with
    | error e => exact .throw h e
    | ok m =>
        have hm : moduleLodging.met w.store m := hb m hloaded
        refine (replay_alike ?_ ?_ trace h hw hm htrace).bind fun _ _ _ _ h₁ => .pure h₁ rfl
        · exact fun symbol ds m w hw hds hm => onArrays_advances hmember symbol hw hds hm
        · exact fun symbol ds m w w' h hw hds hm => onArrays_alike hmember halike symbol h hw hds hm

end DialectBench
