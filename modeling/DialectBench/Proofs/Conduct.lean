import DialectBench.Proofs.Calls
import DialectBench.Proofs.DottedPath
import DialectBench.Bench.Program

/-!
# What instances do, seen from outside

    A CONDUCT says what is expected of instances of a program in terms of values
    only: in a state, a call at a path on some values gives a value and leads to
    a state.  Work REALISES a conduct if it makes instances that stand for its
    states: called on data that show the values, they return a datum that shows
    the value and stand for the next state.  An instance may keep objects of its
    own in the store and change them, but it leaves alone what it is given and
    what it has returned; data are SAFE from it then.

    So calls whose values follow a conduct can be made with every realisation of
    it, and what is recorded of them reads the same: the test that first makes
    them, the configuration that makes them again by name, and the test that is
    made of the record all give one trace.
-/

namespace DialectBench

/-! ## Sessions -/

section

variable {ω σ α β : Type}

/-- A session goes on where its first part returned. -/
theorem session_bind_of_ok {x : StateT σ (Run ω) α} {f : α → StateT σ (Run ω) β} {st st' : σ}
    {w w' : ω} {a : α} (h : x st w = (.ok (a, st'), w')) : (x >>= f) st w = f a st' w' :=
  Run.bind_of_ok h

/-- A session that returned went through its first part. -/
theorem session_bind_eq_ok {x : StateT σ (Run ω) α} {f : α → StateT σ (Run ω) β} {st : σ}
    {r : β × σ} {w w' : ω} (h : (x >>= f) st w = (.ok r, w')) :
    ∃ a st₁ w₁, x st w = (.ok (a, st₁), w₁) ∧ f a st₁ w₁ = (.ok r, w') := by
  obtain ⟨⟨a, st₁⟩, w₁, hx, hf⟩ := Run.bind_eq_ok h
  exact ⟨a, st₁, w₁, hx, hf⟩

/-- Work on the world leaves the state of a session alone. -/
theorem session_lift_of_ok {r : Run ω α} {st : σ} {w w' : ω} {a : α}
    (h : r w = (.ok a, w')) :
    (monadLift r : StateT σ (Run ω) α) st w = (.ok (a, st), w') :=
  Run.bind_of_ok h

/-- Work on the world that returned in a session left the state alone. -/
theorem session_lift_eq_ok {r : Run ω α} {st st' : σ} {w w' : ω} {a : α}
    (h : (monadLift r : StateT σ (Run ω) α) st w = (.ok (a, st'), w')) :
    r w = (.ok a, w') ∧ st' = st := by
  obtain ⟨b, w₁, hr, hpure⟩ := Run.bind_eq_ok h
  cases hpure
  exact ⟨hr, rfl⟩

end

/-- Work on the store as work on the world. -/
theorem onStore_of_ok {α : Type} {r : Run Store α} {w : World} {a : α} {s : Store}
    (h : r w.store = (.ok a, s)) : onStore r w = (.ok a, { w with store := s }) := by
  unfold onStore
  rw [h]

theorem onStore_eq_ok {α : Type} {r : Run Store α} {w w' : World} {a : α}
    (h : onStore r w = (.ok a, w')) :
    ∃ s, r w.store = (.ok a, s) ∧ w' = { w with store := s } := by
  unfold onStore at h
  rcases hr : r w.store with ⟨out, s⟩
  rw [hr] at h
  cases h
  exact ⟨s, rfl, rfl⟩

section

variable {S : Type} {call : Calling World S Datum} {p p' : S} {path : List String}
  {ds : List Datum} {kwargs : List (String × Datum)} {trace trace' : Trace Datum} {out : Datum}
  {w w' : World}

/-- A recorded call: the session keeps the instance that is left and adds the
    call to its trace. -/
theorem tracedCall_of_ok (h : call path ds kwargs p w = (.ok (out, p'), w')) :
    tracedCall call path ds kwargs (p, trace) w
      = (.ok (out, p', trace ++ [⟨Text.joinWith "." path, ds, out⟩]), w') :=
  (Run.bind_of_ok h).trans rfl

/-- A recorded call that returned: the call, and what was recorded of it. -/
theorem tracedCall_eq_ok
    (h : tracedCall call path ds kwargs (p, trace) w = (.ok (out, p', trace'), w')) :
    call path ds kwargs p w = (.ok (out, p'), w') ∧
      trace' = trace ++ [⟨Text.joinWith "." path, ds, out⟩] := by
  obtain ⟨⟨o, p₁⟩, w₁, hcall, hpure⟩ := Run.bind_eq_ok h
  cases hpure
  exact ⟨hcall, rfl⟩

/-- One call of a test, as the session makes and records it. -/
theorem runCalls_call {outputs : List Datum} {args : List Argument} {rest : List CallStep}
    {w₁ : World} (hdata : Argument.data outputs args w = (.ok ds, w₁))
    (hcall : call path ds [] p w₁ = (.ok (out, p'), w')) :
    runCalls call (.call path args [] :: rest) outputs (p, trace) w
      = runCalls call rest (outputs ++ [out])
          (p', trace ++ [⟨Text.joinWith "." path, ds, out⟩]) w' := by
  have hnone : Argument.data outputs (([] : List (String × Argument)).map Prod.snd) w₁
      = (.ok [], w₁) := rfl
  rw [runCalls, session_bind_of_ok (session_lift_of_ok hdata),
    session_bind_of_ok (session_lift_of_ok hnone)]
  exact session_bind_of_ok (tracedCall_of_ok hcall)

end

/-! ## Safe data -/

/-- A datum shows a value and reaches none of these cells. -/
structure Safe (these : Nat → Prop) (s : Store) (d : Datum) (v : Value) : Prop where
  kept : s.KeptFrom these d
  freeze_eq : s.freeze d = v

section

variable {these those : Nat → Prop} {s t : Store} {d : Datum} {v : Value}

theorem Safe.shows (h : Safe these s d v) : s.Shows d v := ⟨h.kept.held, h.freeze_eq⟩

theorem Safe.extends (h : Safe these s d v) (hs : s.Acyclic) (hext : s.Extends t) :
    Safe these t d v :=
  ⟨h.kept.extends hs hext, (hs.freeze_extends hext h.kept.held).trans h.freeze_eq⟩

/-- A datum is safe from cells that came after it. -/
theorem Safe.of_new (h : Safe these s d v) (hs : s.Acyclic) (hext : s.Extends t)
    (hnew : ∀ b, those b → s.cells.length ≤ b) : Safe those t d v := by
  refine ⟨?_, (h.extends hs hext).freeze_eq⟩
  refine h.kept.mono hs hext.changesOnly fun b hb hthose => ?_
  exact absurd hb (Nat.not_lt.mpr (hnew b hthose))

/-- What is put into a store is safe from all that was there. -/
theorem Value.thaw_safe (v : Value) (hs : s.Acyclic) (hold : ∀ b, these b → b < s.cells.length) :
    s.Grows (v.thaw s).2 ∧ Safe these (v.thaw s).2 (v.thaw s).1 v :=
  ⟨(v.thaw_shows hs).1, v.thaw_keptFrom hs hold, (v.thaw_shows hs).2.freeze_eq⟩

theorem Safe.forall₂_extends (hs : s.Acyclic) (hext : s.Extends t) {ds : List Datum}
    {vs : List Value} (h : List.Forall₂ (Safe these s) ds vs) :
    List.Forall₂ (Safe these t) ds vs := h.imp fun _ _ hd => hd.extends hs hext

theorem Safe.forall₂_shows {ds : List Datum} {vs : List Value}
    (h : List.Forall₂ (Safe these s) ds vs) : List.Forall₂ s.Shows ds vs :=
  h.imp fun _ _ => Safe.shows

end

/-- What a call may have done to the store when it returned: it changed at most
    cells that the instance owned, the instance owns none of the old ones but
    such, and what was returned reaches none that it owns. -/
structure Contained {S : Type} (owns : S → Nat → Prop) (p : S) (s : Store) (p' : S)
    (out : Datum) (t : Store) : Prop where
  acyclic : t.Acyclic
  changes : s.ChangesOnly (owns p) t
  owned_lt : ∀ b, owns p' b → b < t.cells.length
  owned_old : ∀ b, b < s.cells.length → owns p' b → owns p b
  output : t.KeptFrom (owns p') out

/-- **WHAT IS SAFE STAYS SAFE** through a contained call. -/
theorem Contained.safe {S : Type} {owns : S → Nat → Prop} {p p' : S} {s t : Store} {out d : Datum}
    {v : Value} (h : Contained owns p s p' out t) (hs : s.Acyclic) (hd : Safe (owns p) s d v) :
    Safe (owns p') t d v :=
  ⟨hd.kept.mono hs h.changes h.owned_old,
    (hd.kept.freeze_eq hs h.acyclic h.changes).trans hd.freeze_eq⟩

/-! ## Conducts and their realisations -/

/-- What is expected of instances: in a state, a call at a path on some values
    gives a value and leads to a state. -/
abbrev Conduct (σ : Type) := σ → List String → List Value → Value → σ → Prop

/-- Instances follow a conduct: an instance that stands for a state of it, called
    as the conduct says on data that are safe from the instance, returns a datum
    that shows the value, and stands for the next state. -/
structure Follows {S σ : Type} (call : Calling World S Datum) (conduct : Conduct σ)
    (stands : Store → S → σ → Prop) (owns : S → Nat → Prop) : Prop where
  owned_lt : ∀ {s p q}, stands s p q → ∀ b, owns p b → b < s.cells.length
  mono : ∀ {s t : Store} {p q}, s.Acyclic → s.Grows t → stands s p q → stands t p q
  step : ∀ {w : World} {p q q' path ds vs v}, w.store.Acyclic → stands w.store p q →
    List.Forall₂ (Safe (owns p) w.store) ds vs → conduct q path vs v q' →
      ∃ out p' w', call path ds [] p w = (.ok (out, p'), w') ∧
        Contained owns p w.store p' out w'.store ∧ w'.store.freeze out = v ∧
        stands w'.store p' q'

/-- Work makes instances that follow a conduct from a state on.  What a new
    instance owns is new. -/
def Realises {S σ : Type} (make : Run World S) (call : Calling World S Datum)
    (conduct : Conduct σ) (start : σ) : Prop :=
  ∃ stands owns, Follows call conduct stands owns ∧
    ∀ w : World, w.store.Acyclic → ∃ p w', make w = (.ok p, w') ∧ w.store.Grows w'.store ∧
      stands w'.store p start ∧ ∀ b, owns p b → w.store.cells.length ≤ b

/-- What an argument stands for, given what the earlier calls returned. -/
def Argument.Means (outs : List Value) : Argument → Value → Prop
  | .value v, w => w = v
  | .ref n, w => outs[n]? = some w

/-- The calls of a test follow a conduct from a state on, with the results of
    earlier calls at hand, and this is what they come to.  Each is at a path of
    names without dots and passes positional arguments. -/
inductive Conducts {σ : Type} (conduct : Conduct σ) :
    σ → List Value → List CallStep → Trace Value → Prop where
  | done (q : σ) (outs : List Value) : Conducts conduct q outs [] []
  | call {q q' : σ} {outs : List Value} {path : List String} {args : List Argument}
      {vs : List Value} {v : Value} {rest : List CallStep} {trace : Trace Value}
      (nonempty : path ≠ []) (dotFree : ∀ name ∈ path, '.' ∉ name.toList)
      (values : List.Forall₂ (Argument.Means outs) args vs) (step : conduct q path vs v q')
      (more : Conducts conduct q' (outs ++ [v]) rest trace) :
      Conducts conduct q outs (.call path args [] :: rest)
        (⟨Text.joinWith "." path, vs, v⟩ :: trace)

/-- The calls of a recorded trace follow a conduct from a state on, each at the
    path that its name spells. -/
def Plays {σ : Type} (conduct : Conduct σ) : σ → Trace Value → Prop
  | _, [] => True
  | q, i :: rest => ∃ q', conduct q (Text.split '.' i.symbol) i.inputs i.output q' ∧
      Plays conduct q' rest

/-- **NAMES SPELL PATHS**: what calls come to can be played, since cutting a name
    at the dots undoes joining the path. -/
theorem Conducts.plays {σ : Type} {conduct : Conduct σ} {q : σ} {outs : List Value}
    {calls : List CallStep} {trace : Trace Value} (h : Conducts conduct q outs calls trace) :
    Plays conduct q trace := by
  induction h with
  | done q outs => trivial
  | @call q q' outs path args vs v rest trace nonempty dotFree values step _ ih =>
      refine ⟨q', ?_, ih⟩
      show conduct q (Text.split '.' (Text.joinWith "." path)) vs v q'
      rw [Text.split_joinWith rfl nonempty dotFree]
      exact step

/-! ## Traces and what they show -/

/-- A trace as it reads in a world. -/
def World.read (w : World) (trace : Trace Datum) : Trace Value :=
  trace.map (TraceItem.map w.store.freeze)

/-- A recorded call has the name and shows the inputs of another. -/
structure Ready (these : Nat → Prop) (s : Store) (i : TraceItem Datum) (v : TraceItem Value) :
    Prop where
  symbol : i.symbol = v.symbol
  inputs : List.Forall₂ (Safe these s) i.inputs v.inputs

/-- A recorded call shows another. -/
structure Recorded (these : Nat → Prop) (s : Store) (i : TraceItem Datum) (v : TraceItem Value) :
    Prop extends Ready these s i v where
  output : Safe these s i.output v.output

section

variable {these those : Nat → Prop} {s t : Store} {i : TraceItem Datum} {v : TraceItem Value}

theorem Ready.imp (h : Ready these s i v)
    (hsafe : ∀ d v, Safe these s d v → Safe those t d v) : Ready those t i v :=
  ⟨h.symbol, h.inputs.imp hsafe⟩

theorem Recorded.imp (h : Recorded these s i v)
    (hsafe : ∀ d v, Safe these s d v → Safe those t d v) : Recorded those t i v :=
  ⟨h.toReady.imp hsafe, hsafe _ _ h.output⟩

/-- A trace reads as the calls that it shows. -/
theorem read_eq_of_recorded {w : World} {trace : Trace Datum} {vals : Trace Value}
    (h : List.Forall₂ (Recorded these w.store) trace vals) : w.read trace = vals := by
  induction h with
  | nil => rfl
  | @cons i v _ _ hi _ ih =>
      obtain ⟨symbol, inputs, output⟩ := v
      have hin := (Store.forall₂_shows_iff.mp (Safe.forall₂_shows hi.inputs)).2
      rw [World.read, List.map_cons, TraceItem.map, hi.symbol, hin, hi.output.freeze_eq]
      exact congrArg _ ih

end

/-! ## Making the calls -/

section

variable {these : Nat → Prop} {w : World}

theorem Argument.datum_safe {arg : Argument} {v : Value} {outputs : List Datum}
    {outs : List Value} (hv : arg.Means outs v) (hw : w.store.Acyclic)
    (hold : ∀ b, these b → b < w.store.cells.length)
    (hout : List.Forall₂ (Safe these w.store) outputs outs) :
    ∃ d w', arg.datum outputs w = (.ok d, w') ∧ w.store.Grows w'.store ∧
      Safe these w'.store d v := by
  cases arg with
  | value u =>
      obtain rfl : v = u := hv
      obtain ⟨hgrows, hsafe⟩ := v.thaw_safe hw hold
      exact ⟨_, { w with store := (v.thaw w.store).2 }, rfl, hgrows, hsafe⟩
  | ref n =>
      obtain ⟨hn, hget⟩ := List.getElem?_eq_some_iff.mp hv
      have hn' : n < outputs.length := hout.length_eq ▸ hn
      have hsafe : Safe these w.store outputs[n] outs[n] := hout.get hn' hn
      refine ⟨outputs[n], w, ?_, Store.Grows.refl hw, hget ▸ hsafe⟩
      rw [Argument.datum, List.getElem?_eq_getElem hn']
      rfl

/-- The arguments of a call are put into the store, or are there. -/
theorem Argument.data_safe {args : List Argument} {vs : List Value} {outputs : List Datum}
    {outs : List Value} (h : List.Forall₂ (Argument.Means outs) args vs) (hw : w.store.Acyclic)
    (hold : ∀ b, these b → b < w.store.cells.length)
    (hout : List.Forall₂ (Safe these w.store) outputs outs) :
    ∃ ds w', Argument.data outputs args w = (.ok ds, w') ∧ w.store.Grows w'.store ∧
      List.Forall₂ (Safe these w'.store) ds vs := by
  induction h generalizing w with
  | nil => exact ⟨[], w, rfl, Store.Grows.refl hw, .nil⟩
  | cons hv _ ih =>
      obtain ⟨d, w₁, hd, hgrows, hsafe⟩ := Argument.datum_safe hv hw hold hout
      have hold₁ := fun b hb => Nat.lt_of_lt_of_le (hold b hb) hgrows.kept.length_le
      obtain ⟨ds, w₂, hds, hgrows', hsafes⟩ :=
        ih hgrows.acyclic hold₁ (Safe.forall₂_extends hw hgrows.kept hout)
      exact ⟨d :: ds, w₂, (Run.bind_of_ok hd).trans (Run.bind_of_ok hds), hgrows.trans hgrows',
        .cons (hsafe.extends hgrows.acyclic hgrows'.kept) hsafes⟩

/-- Work on each element of a list in turn, as long as each part of it returns
    and what it achieves is not lost as the store grows. -/
theorem mapM_grows {α β : Type} {f : α → Run World β} {P : Store → β → α → Prop}
    (hmono : ∀ (s t : Store) b a, s.Acyclic → s.Extends t → P s b a → P t b a) {n : Nat}
    (hf : ∀ a (w : World), w.store.Acyclic → n ≤ w.store.cells.length →
      ∃ b w', f a w = (.ok b, w') ∧ w.store.Grows w'.store ∧ P w'.store b a) :
    ∀ (xs : List α) (w : World), w.store.Acyclic → n ≤ w.store.cells.length →
      ∃ ys w', xs.mapM f w = (.ok ys, w') ∧ w.store.Grows w'.store ∧
        List.Forall₂ (P w'.store) ys xs := by
  intro xs
  induction xs with
  | nil =>
      intro w hw _
      exact ⟨[], w, rfl, Store.Grows.refl hw, .nil⟩
  | cons x xs ih =>
      intro w hw hn
      obtain ⟨y, w₁, hy, hgrows, hP⟩ := hf x w hw hn
      obtain ⟨ys, w₂, hys, hgrows', hall⟩ :=
        ih w₁ hgrows.acyclic (Nat.le_trans hn hgrows.kept.length_le)
      refine ⟨y :: ys, w₂, ?_, hgrows.trans hgrows',
        .cons (hmono _ _ y x hgrows.acyclic hgrows'.kept hP) hall⟩
      rw [List.mapM_cons, Run.bind_of_ok hy, Run.bind_of_ok hys]
      rfl

/-- The calls of a recorded trace are made ready in a world. -/
theorem thawInputs_ready (vals : Trace Value) (hw : w.store.Acyclic)
    (hold : ∀ b, these b → b < w.store.cells.length) :
    ∃ items w', thawInputs vals w = (.ok items, w') ∧ w.store.Grows w'.store ∧
      List.Forall₂ (Ready these w'.store) items vals := by
  have hlt : ∀ (u : World), w.store.cells.length ≤ u.store.cells.length →
      ∀ b, these b → b < u.store.cells.length := fun u hu b hb => Nat.lt_of_lt_of_le (hold b hb) hu
  refine mapM_grows (P := Ready these) ?_ ?_ vals w hw (Nat.le_refl _)
  · exact fun s t i v hs hext hi => hi.imp fun d v hd => hd.extends hs hext
  · intro v u hu hn
    obtain ⟨ds, u', hds, hgrows, hsafe⟩ := mapM_grows (P := Safe these)
      (f := fun v => onStore (thawIn v)) (fun s t d v hs hext hd => hd.extends hs hext)
      (fun v u hu hn => by
        obtain ⟨hgrows, hsafe⟩ := v.thaw_safe hu (hlt u hn)
        exact ⟨_, { u with store := (v.thaw u.store).2 }, rfl, hgrows, hsafe⟩) v.inputs u hu hn
    refine ⟨⟨v.symbol, ds, .leaf .none⟩, u', ?_, hgrows, rfl, hsafe⟩
    rw [Run.bind_of_ok hds]
    rfl

end

section

variable {S σ : Type} {call : Calling World S Datum} {conduct : Conduct σ}
  {stands : Store → S → σ → Prop} {owns : S → Nat → Prop}

/-- **THE GOLDEN RUN**: calls that follow a conduct return, made with an instance
    that follows it, and what is recorded of them shows what they come to.  What
    was safe from the instance stays so.  Induction on the calls. -/
theorem runCalls_of_conducts (hf : Follows call conduct stands owns) {q : σ} {outs : List Value}
    {calls : List CallStep} {vals : Trace Value} (h : Conducts conduct q outs calls vals) :
    ∀ {p : S} {outputs : List Datum} (trace : Trace Datum) {w : World}, w.store.Acyclic →
      stands w.store p q → List.Forall₂ (Safe (owns p) w.store) outputs outs →
        ∃ items p' w', runCalls call calls outputs (p, trace) w
            = (.ok ((), p', trace ++ items), w') ∧
          w'.store.Acyclic ∧ (∀ d v, Safe (owns p) w.store d v → Safe (owns p') w'.store d v) ∧
          List.Forall₂ (Recorded (owns p') w'.store) items vals := by
  induction h with
  | done q outs =>
      intro p outputs trace w hw _ _
      exact ⟨[], p, w, by rw [List.append_nil]; rfl, hw, fun _ _ hd => hd, .nil⟩
  | @call q q' outs path args vs v rest vals nonempty dotFree values step _ ih =>
      intro p outputs trace w hw hstands hout
      obtain ⟨ds, w₁, hdata, hgrows, hds⟩ :=
        Argument.data_safe values hw (hf.owned_lt hstands) hout
      obtain ⟨out, p₁, w₂, hcall, hcontained, hv, hstands₁⟩ :=
        hf.step hgrows.acyclic (hf.mono hw hgrows hstands) hds step
      -- through putting the arguments into the store and the call
      have hsafe : ∀ d v, Safe (owns p) w.store d v → Safe (owns p₁) w₂.store d v :=
        fun d v hd => hcontained.safe hgrows.acyclic (hd.extends hw hgrows.kept)
      have hout₁ : List.Forall₂ (Safe (owns p₁) w₂.store) (outputs ++ [out]) (outs ++ [v]) :=
        List.rel_append (hout.imp hsafe) (.cons ⟨hcontained.output, hv⟩ .nil)
      obtain ⟨items, p', w', hrun, hac, hsafe', hrec⟩ :=
        ih (trace ++ [⟨Text.joinWith "." path, ds, out⟩]) hcontained.acyclic hstands₁ hout₁
      refine ⟨⟨Text.joinWith "." path, ds, out⟩ :: items, p', w', ?_, hac,
        fun d v hd => hsafe' d v (hsafe d v hd), .cons ⟨⟨rfl, ?_⟩, ?_⟩ hrec⟩
      · rw [runCalls_call hdata hcall, hrun, List.append_assoc]
        rfl
      · exact hds.imp fun d v hd => hsafe' d v (hcontained.safe hgrows.acyclic hd)
      · exact hsafe' out v ⟨hcontained.output, hv⟩

/-- **REPLAYING BY NAME**: the calls of a trace that a conduct plays can be made
    again with an instance that follows it, and the same trace is recorded. -/
theorem replay_of_plays (hf : Follows call conduct stands owns) {vals : Trace Value} :
    ∀ {q : σ} {a : S} {items : Trace Datum} {w : World}, Plays conduct q vals →
      w.store.Acyclic → stands w.store a q →
      List.Forall₂ (Ready (owns a) w.store) items vals →
        ∃ again a' w',
          replay (fun symbol args => call (Text.split '.' symbol) args []) items a w
            = (.ok (again, a'), w') ∧
          w'.store.Acyclic ∧ (∀ d v, Safe (owns a) w.store d v → Safe (owns a') w'.store d v) ∧
          List.Forall₂ (Recorded (owns a') w'.store) again vals := by
  induction vals with
  | nil =>
      intro q a items w _ hw _ hready
      cases hready
      exact ⟨[], a, w, rfl, hw, fun _ _ hd => hd, .nil⟩
  | cons v vals ih =>
      rintro q a items w ⟨q', hstep, hplays⟩ hw hstands hready
      cases hready with
      | @cons i _ items _ hi hrest =>
          obtain ⟨out, a₁, w₁, hcall, hcontained, hv, hstands₁⟩ :=
            hf.step hw hstands hi.inputs hstep
          rw [← hi.symbol] at hcall
          have hsafe : ∀ d v, Safe (owns a) w.store d v → Safe (owns a₁) w₁.store d v :=
            fun d v hd => hcontained.safe hw hd
          obtain ⟨again, a', w', hrun, hac, hsafe', hrec⟩ := ih hplays hcontained.acyclic hstands₁
            (hrest.imp fun _ _ hj => hj.imp hsafe)
          refine ⟨⟨i.symbol, i.inputs, out⟩ :: again, a', w', ?_, hac,
            fun d v hd => hsafe' d v (hsafe d v hd),
            .cons ⟨⟨hi.symbol, hi.inputs.imp fun d v hd => hsafe' d v (hsafe d v hd)⟩, ?_⟩ hrec⟩
          · rw [replay, session_bind_of_ok hcall, session_bind_of_ok hrun]
            rfl
          · exact hsafe' out v.output ⟨hcontained.output, hv⟩

/-- **REPLAYING AS A TEST**: the session that makes the calls of a trace that a
    conduct plays records that trace. -/
theorem replayTraced_of_plays (hf : Follows call conduct stands owns) {vals : Trace Value} :
    ∀ {q : σ} {p : S} {items : Trace Datum} (trace : Trace Datum) {w : World},
      Plays conduct q vals → w.store.Acyclic → stands w.store p q →
      List.Forall₂ (Ready (owns p) w.store) items vals →
        ∃ again p' w',
          replayTraced call items (p, trace) w = (.ok ((), p', trace ++ again), w') ∧
          w'.store.Acyclic ∧ (∀ d v, Safe (owns p) w.store d v → Safe (owns p') w'.store d v) ∧
          List.Forall₂ (Recorded (owns p') w'.store) again vals := by
  induction vals with
  | nil =>
      intro q p items trace w _ hw _ hready
      cases hready
      exact ⟨[], p, w, by rw [List.append_nil]; rfl, hw, fun _ _ hd => hd, .nil⟩
  | cons v vals ih =>
      rintro q p items trace w ⟨q', hstep, hplays⟩ hw hstands hready
      cases hready with
      | @cons i _ items _ hi hrest =>
          obtain ⟨out, p₁, w₁, hcall, hcontained, hv, hstands₁⟩ :=
            hf.step hw hstands hi.inputs hstep
          rw [← hi.symbol] at hcall
          -- the name is cut into a path to make the call and joined again to record it
          have hname : Text.joinWith "." (Text.split '.' i.symbol) = i.symbol :=
            Text.joinWith_split rfl i.symbol
          have hsafe : ∀ d v, Safe (owns p) w.store d v → Safe (owns p₁) w₁.store d v :=
            fun d v hd => hcontained.safe hw hd
          obtain ⟨again, p', w', hrun, hac, hsafe', hrec⟩ :=
            ih (trace ++ [⟨i.symbol, i.inputs, out⟩]) hplays hcontained.acyclic hstands₁
              (hrest.imp fun _ _ hj => hj.imp hsafe)
          refine ⟨⟨i.symbol, i.inputs, out⟩ :: again, p', w', ?_, hac,
            fun d v hd => hsafe' d v (hsafe d v hd),
            .cons ⟨⟨hi.symbol, hi.inputs.imp fun d v hd => hsafe' d v (hsafe d v hd)⟩, ?_⟩ hrec⟩
          · rw [replayTraced, session_bind_of_ok (tracedCall_of_ok hcall), hname, hrun,
              List.append_assoc]
            rfl
          · exact hsafe' out v.output ⟨hcontained.output, hv⟩

end

/-! ## Tests and replayers -/

section

variable {S A σ : Type} {conduct : Conduct σ} {start : σ}

/-- **THE GOLDEN TRACE** of a test whose calls follow a conduct reads as what
    they come to, whatever realisation of the conduct they are made with; and so
    it does after calls with instances that are made later. -/
theorem golden_of_conducts {factory : Run World S} {call : Calling World S Datum}
    (hreal : Realises factory call conduct start) {calls : List CallStep} {vals : Trace Value}
    (hcalls : Conducts conduct start [] calls vals) (name : String) {w : World}
    (hw : w.store.Acyclic) :
    ∃ golden w₁ these, (callTest call name factory calls).golden w = (.ok golden, w₁) ∧
      w₁.store.Acyclic ∧ List.Forall₂ (Recorded these w₁.store) golden vals := by
  obtain ⟨stands, owns, hf, hmake⟩ := hreal
  obtain ⟨p, w₀, hp, hgrows, hstands, _⟩ := hmake w hw
  obtain ⟨items, p', w₁, hrun, hac, _, hrec⟩ :=
    runCalls_of_conducts hf hcalls [] hgrows.acyclic hstands .nil
  refine ⟨items, w₁, owns p', ?_, hac, hrec⟩
  exact (Run.bind_of_ok hp).trans (Run.bind_of_ok hrun)

/-- Making the calls of a golden trace again, by name, with a new instance of
    what compiles to a realisation. -/
theorem rerun_of_plays {factory : Run World S} {compile : S → Run World A}
    {call : Calling World A Datum} (hreal : Realises (factory >>= compile) call conduct start)
    {these : Nat → Prop} {vals : Trace Value} (hplays : Plays conduct start vals) {w : World}
    (hw : w.store.Acyclic) {golden : Trace Datum}
    (hgolden : List.Forall₂ (Recorded these w.store) golden vals) :
    ∃ again w', (do
        let p ← factory
        let a ← (pathConfig compile call (Text.split '.')).compile p
        (pathConfig compile call (Text.split '.')).run a golden) w = (.ok again, w') ∧
      w'.read again = vals ∧ w'.read golden = vals := by
  obtain ⟨stands, owns, hf, hmake⟩ := hreal
  obtain ⟨a, w₁, ha, hgrows, hstands, hnew⟩ := hmake w hw
  have hsafe : ∀ d v, Safe these w.store d v → Safe (owns a) w₁.store d v :=
    fun d v hd => hd.of_new hw hgrows.kept hnew
  have hready : List.Forall₂ (Ready (owns a) w₁.store) golden vals :=
    hgolden.imp fun _ _ hi => (hi.imp hsafe).toReady
  obtain ⟨again, a', w₂, hrun, _, hsafe', hrec⟩ :=
    replay_of_plays hf hplays hgrows.acyclic hstands hready
  obtain ⟨p, u, hp, hcompile⟩ := Run.bind_eq_ok ha
  refine ⟨again, w₂, ?_, read_eq_of_recorded hrec, read_eq_of_recorded (hgolden.imp fun _ _ hi =>
    hi.imp fun d v hd => hsafe' d v (hsafe d v hd))⟩
  exact (Run.bind_of_ok hp).trans ((Run.bind_of_ok hcompile).trans (Run.bind_of_ok hrun))

/-- The test made of a recorded trace that a conduct plays has that trace as its
    golden trace, with every realisation of the conduct. -/
theorem goldenTrace_of_plays {factory : Run World S} {call : Calling World S Datum}
    (hreal : Realises factory call conduct start) {vals : Trace Value}
    (hplays : Plays conduct start vals) (name : String) :
    goldenTrace (replayTest call name factory vals) = .ok vals := by
  obtain ⟨stands, owns, hf, hmake⟩ := hreal
  obtain ⟨p, w₀, hp, hgrows, hstands, _⟩ := hmake World.fresh Store.acyclic_empty
  obtain ⟨items, w₁, hitems, hgrows', hready⟩ :=
    thawInputs_ready vals hgrows.acyclic (hf.owned_lt hstands)
  obtain ⟨again, p', w₂, hrun, _, _, hrec⟩ := replayTraced_of_plays hf [] hplays hgrows'.acyclic
    (hf.mono hgrows.acyclic hgrows' hstands) hready
  have hinvoke : (replayTest call name factory vals).invoke (p, []) w₀
      = (.ok ((), p', [] ++ again), w₂) :=
    (session_bind_of_ok (session_lift_of_ok hitems)).trans hrun
  have hgolden : (replayTest call name factory vals).golden World.fresh = (.ok again, w₂) :=
    (Run.bind_of_ok hp).trans (Run.bind_of_ok hinvoke)
  unfold goldenTrace
  rw [hgolden]
  exact congrArg Except.ok (read_eq_of_recorded hrec)

end

end DialectBench
