import DialectBench.Proofs.Conversion
import DialectBench.Proofs.Crossing
import DialectBench.Proofs.InPlace
import DialectBench.Proofs.Onward
import DialectBench.Proofs.Replay

/-!
# Backends on arrays are transparent

    What a backend loads is called with arrays and answers with arrays; the
    configuration converts on the way in and on the way out.  If the backend
    answers each call of a trace with the image of the recorded output, then the
    configuration returns the trace: the same names, the very same inputs, and
    outputs that read as the recorded ones.  If a part of an input or of an
    answer has no image, it returns nothing.

    Lists and dictionaries are rebuilt on the way, but an array lies in the
    memory of its tensor.  So a backend CAN reach the tensors of the trace and
    those of earlier outputs, and answers that are right one by one are not
    enough.  A backend that works in place writes over the inputs, and one that
    gives all its answers in one buffer writes over those it gave before.

    A CONFINED backend does neither.  It may keep state, change what it owns and
    change the lists and dictionaries that it is given; but it leaves the arrays
    that it is given alone, and the arrays that it answers with are not its own.
    Then the trace and the earlier outputs are beyond its reach.
-/

namespace DialectBench

/-! ## Conversion in a world -/

theorem Store.Unshared.extends {s t : Store} (hs : s.Acyclic) (hext : s.Extends t) {x : Datum}
    (hx : s.Holds x) {b : Nat} (hb : s.Unshared x b) : t.Unshared x b := by
  refine ⟨Nat.lt_of_lt_of_le hb.1 hext.length_le, fun ⟨hreach, tensor, hread⟩ => hb.2 ⟨?_, ?_⟩⟩
  · exact hreach.of_read_eq fun c hc => hext.read (hc.lt hs hx)
  · exact ⟨tensor, (hext.read hb.1).symm.trans hread⟩

section

variable {d : Direction} {w w' : World}

/-- What was converted shows the image and shares tensors at most. -/
theorem convertDatum_eq_ok {x y : Datum} (h : convertDatum d x w = (.ok y, w'))
    (hw : w.store.Acyclic) (hx : w.store.Holds x) :
    w.store.Grows w'.store ∧
      ∃ v, (w.store.freeze x).convert d = .ok v ∧ Image w.store x w'.store y v := by
  obtain ⟨s, hs, rfl⟩ := onStore_eq_ok h
  obtain ⟨hgrows, hstops, hreturns⟩ := Datum.convert_tracks d hw hx
  rw [hs] at hgrows hstops hreturns
  cases hv : (w.store.freeze x).convert d with
  | error e => exact nomatch hstops e hv
  | ok v =>
      obtain ⟨y', hy', himage⟩ := hreturns v hv
      cases hy'
      exact ⟨hgrows, v, rfl, himage⟩

/-- Data that were converted were taken, and the outcomes share with what was
    there at most tensors that the data reach. -/
theorem convertData_eq_ok {xs ys : List Datum} (h : convertData d xs w = (.ok ys, w'))
    (hw : w.store.Acyclic) (hxs : ∀ x ∈ xs, w.store.Holds x) :
    w.store.Grows w'.store ∧ (∀ x ∈ xs, (w.store.freeze x).Taken d) ∧
      ∀ y ∈ ys, w'.store.KeptFrom (w.store.Unshared (.tuple xs)) y := by
  induction xs generalizing w ys with
  | nil =>
      cases h
      exact ⟨.refl hw, fun _ h => absurd h List.not_mem_nil, fun _ h => absurd h List.not_mem_nil⟩
  | cons x xs ih =>
      obtain ⟨y, w₁, hy, hrest⟩ := Run.bind_eq_ok h
      obtain ⟨ys, w₂, hys, hpure⟩ := Run.bind_eq_ok hrest
      cases hpure
      obtain ⟨hx, hxs⟩ := List.forall_mem_cons.mp hxs
      obtain ⟨hgrows, v, hv, himage⟩ := convertDatum_eq_ok hy hw hx
      obtain ⟨hgrows', htaken, hkept⟩ :=
        ih hys hgrows.acyclic fun x hx => (hxs x hx).mono hgrows.kept.later
      have hrest : ∀ b, w.store.Unshared (.tuple (x :: xs)) b → w₁.store.Unshared (.tuple xs) b :=
        fun b hb => (hb.of_reaches fun c hc => by
          obtain ⟨z, hz, hreach⟩ := Store.reaches_tuple.mp hc
          exact Store.reaches_tuple.mpr ⟨z, List.mem_cons_of_mem x hz, hreach⟩).extends hw
            hgrows.kept (Store.holds_tuple.mpr hxs)
      refine ⟨hgrows.trans hgrows', List.forall_mem_cons.mpr
        ⟨(Value.taken_of_convert d hv).1, fun z hz => ?_⟩,
        List.forall_mem_cons.mpr ⟨?_, fun z hz => ?_⟩⟩
      · have hz' := htaken z hz
        rwa [hw.freeze_extends hgrows.kept (hxs z hz)] at hz'
      · refine himage.kept.mono hgrows.acyclic hgrows'.kept.changesOnly
          fun b _ hb => hb.of_reaches fun c hc => ?_
        exact Store.reaches_tuple.mpr ⟨x, List.mem_cons_self, hc⟩
      · obtain ⟨hheld, hapart⟩ := hkept z hz
        exact ⟨hheld, fun b hb hunshared => hapart b hb (hrest b hunshared)⟩

end

/-! ## Confined backends -/

/-- The lists and dictionaries that data reach. -/
def Store.Containers (s : Store) (ds : List Datum) (b : Nat) : Prop :=
  (∃ d ∈ ds, s.Reaches d b) ∧ ¬ s.IsTensor b

section

variable {A : Type}

/-- What a call into a backend may have done to the store when it returned: it
    changed at most what the backend owned and the lists and dictionaries that
    it was given; of the old cells the backend owns no others; and it owns no
    array that it returned. -/
structure StaysIn (owns : A → Nat → Prop) (a : A) (ds : List Datum) (s : Store) (a' : A)
    (out : Datum) (t : Store) : Prop where
  acyclic : t.Acyclic
  changes : s.ChangesOnly (fun b => owns a b ∨ s.Containers ds b) t
  returned : t.Holds out
  unowned : ∀ b, t.Reaches out b → t.IsTensor b → ¬ owns a' b
  owned_lt : ∀ b, owns a' b → b < t.cells.length
  owned_old : ∀ b, b < s.cells.length → owns a' b → owns a b ∨ s.Containers ds b

/-- A backend is confined: so are all its calls. -/
def Confined (call : ArrayCalling A) (owns : A → Nat → Prop) : Prop :=
  ∀ {symbol : String} {ds : List Datum} {a a' : A} {out : Datum} {w w' : World},
    w.store.Acyclic → (∀ d ∈ ds, w.store.Holds d) → (∀ b, owns a b → b < w.store.cells.length) →
    call symbol ds a w = (.ok (out, a'), w') → StaysIn owns a ds w.store a' out w'.store

/-- A trace is beyond the reach of a backend. -/
structure Shielded (owns : A → Nat → Prop) (a : A) (s : Store) (trace : Trace Datum) : Prop where
  acyclic : s.Acyclic
  owned_lt : ∀ b, owns a b → b < s.cells.length
  kept : ∀ i ∈ trace, (∀ d ∈ i.inputs, s.KeptFrom (owns a) d) ∧ s.KeptFrom (owns a) i.output

variable {call : ArrayCalling A} {owns : A → Nat → Prop} {a a' : A} {w w₁ w₂ w' : World}

/-- The call that is made on what was converted. -/
theorem Confined.staysIn (hcall : Confined call owns) {symbol : String} {ds xs : List Datum}
    {out : Datum} (hw : w.store.Acyclic) (hds : ∀ d ∈ ds, w.store.Holds d)
    (howned : ∀ b, owns a b → b < w.store.cells.length)
    (hin : convertData .toArrays ds w = (.ok xs, w₁))
    (hout : call symbol xs a w₁ = (.ok (out, a'), w₂)) :
    StaysIn owns a xs w₁.store a' out w₂.store := by
  obtain ⟨hgrows, _, hxs⟩ := convertData_eq_ok hin hw hds
  exact hcall hgrows.acyclic (fun x hx => (hxs x hx).held)
    (fun b hb => Nat.lt_of_lt_of_le (howned b hb) hgrows.kept.length_le) hout

/-- **ONE CALL ACROSS THE BORDER**: of the old cells the arguments reach tensors
    only, which the call left alone, so that it changed at most what the backend
    owned.  The output is the image of the answer and shares with it tensors
    only, which the backend does not own. -/
theorem Confined.contained (hcall : Confined call owns) {symbol : String} {ds xs : List Datum}
    {out y : Datum} (hw : w.store.Acyclic) (hds : ∀ d ∈ ds, w.store.Holds d)
    (howned : ∀ b, owns a b → b < w.store.cells.length)
    (hin : convertData .toArrays ds w = (.ok xs, w₁))
    (hout : call symbol xs a w₁ = (.ok (out, a'), w₂))
    (hback : convertDatum .fromArrays out w₂ = (.ok y, w')) :
    Contained owns a w.store a' y w'.store ∧
      (w₂.store.freeze out).convert .fromArrays = .ok (w'.store.freeze y) := by
  obtain ⟨hgrows, _, hxs⟩ := convertData_eq_ok hin hw hds
  have hstays := hcall.staysIn hw hds howned hin hout
  obtain ⟨hgrows', v, hv, himage⟩ := convertDatum_eq_ok hback hstays.acyclic hstays.returned
  have hold : ∀ b, b < w.store.cells.length →
      (owns a b ∨ w₁.store.Containers xs b) → owns a b := by
    rintro b hb (howns | ⟨⟨x, hx, hreach⟩, hcontainer⟩)
    · exact howns
    · -- what an argument reaches of the old cells is a tensor, and still is
      refine absurd ⟨hb, fun ⟨_, tensor, hread⟩ => hcontainer ?_⟩ ((hxs x hx).apart b hreach)
      exact ⟨tensor, (hgrows.kept.read hb).trans hread⟩
  refine ⟨⟨hgrows'.acyclic, ?_, ?_, ?_, himage.shows.held, ?_⟩, himage.shows.freeze_eq ▸ hv⟩
  · have hlast : w₂.store.ChangesOnly (owns a) w'.store := hgrows'.kept.changesOnly
    exact (hgrows.kept.changesOnly.trans hstays.changes hold).trans hlast fun _ _ hb => hb
  · exact fun b hb => Nat.lt_of_lt_of_le (hstays.owned_lt b hb) hgrows'.kept.length_le
  · intro b hb howns
    exact hold b hb (hstays.owned_old b (Nat.lt_of_lt_of_le hb hgrows.kept.length_le) howns)
  · intro b hb howns
    refine himage.kept.apart b hb ⟨hstays.owned_lt b howns, fun ⟨hreach, htensor⟩ => ?_⟩
    exact hstays.unowned b hreach htensor howns

/-- The rest of a trace is shielded after a call if it was before. -/
theorem Shielded.contained {s t : Store} {i : TraceItem Datum} {rest : Trace Datum} {y : Datum}
    (h : Shielded owns a s (i :: rest)) (hcall : Contained owns a s a' y t) :
    Shielded owns a' t rest := by
  refine ⟨hcall.acyclic, hcall.owned_lt, fun j hj => ?_⟩
  obtain ⟨hinputs, houtput⟩ := h.kept j (List.mem_cons_of_mem i hj)
  exact ⟨fun d hd => (hinputs d hd).mono h.acyclic hcall.changes hcall.owned_old,
    houtput.mono h.acyclic hcall.changes hcall.owned_old⟩

/-- A trace that is shielded reads as before. -/
theorem Shielded.read_eq {trace : Trace Datum} (h : Shielded owns a w.store trace)
    (hac : w'.store.Acyclic) (hchanges : w.store.ChangesOnly (owns a) w'.store) :
    w'.read trace = w.read trace := by
  refine List.map_congr_left fun i hi => ?_
  obtain ⟨hinputs, houtput⟩ := h.kept i hi
  rw [TraceItem.map, TraceItem.map, houtput.freeze_eq h.acyclic hac hchanges,
    List.map_congr_left fun d hd => (hinputs d hd).freeze_eq h.acyclic hac hchanges]

end

/-! ## Runs over whole traces -/

section

variable {A : Type}

/-- The values with which a backend answers the calls of a trace in turn.  A
    call that is not made, since something cannot be converted, is answered with
    any value. -/
def Yields (call : ArrayCalling A) : Trace Datum → List Value → A → World → Prop
  | [], [], _, _ => True
  | i :: rest, v :: vs, a, w =>
      ∀ xs w₁, convertData .toArrays i.inputs w = (.ok xs, w₁) →
        ∃ out a' w₂, call i.symbol xs a w₁ = (.ok (out, a'), w₂) ∧ w₂.store.freeze out = v ∧
          ∀ y w₃, convertDatum .fromArrays out w₂ = (.ok y, w₃) → Yields call rest vs a' w₃
  | _, _, _, _ => False

variable {call : ArrayCalling A} {owns : A → Nat → Prop}

theorem Yields.cons_of_eq {i : TraceItem Datum} {rest : Trace Datum} {v : Value}
    {vs : List Value} {a a' : A} {w w₁ w₂ w₃ : World} {xs : List Datum} {out y : Datum}
    (hin : convertData .toArrays i.inputs w = (.ok xs, w₁))
    (hcall : call i.symbol xs a w₁ = (.ok (out, a'), w₂)) (hv : w₂.store.freeze out = v)
    (hback : convertDatum .fromArrays out w₂ = (.ok y, w₃))
    (more : Yields call rest vs a' w₃) : Yields call (i :: rest) (v :: vs) a w := by
  intro xs' w₁' hin'
  obtain ⟨rfl, rfl⟩ : xs = xs' ∧ w₁ = w₁' := by
    rw [hin] at hin'
    cases hin'
    exact ⟨rfl, rfl⟩
  refine ⟨out, a', w₂, hcall, hv, fun y' w₃' hback' => ?_⟩
  rw [hback] at hback'
  cases hback'
  exact more

end

/-- A world with some objects. -/
def worldOf (cells : List Cell) : World := { World.fresh with store := ⟨cells, #[]⟩ }

/-- A tensor. -/
def pair : Tensor := .dense "int64" [2] [.int 3, .int 4]

/-- Twice the number that a tensor holds. -/
def twice : Tensor → Tensor
  | .dense _ _ [.int n] => numberTensor (2 * n)
  | t => t

/-- Backends with a buffer that double numbers.  They differ in where they put
    the outcome, given the buffer, the argument and the outcome. -/
def doubling (put : Nat → Nat → Tensor → Store → Nat × Store) : ArrayCalling Nat :=
  fun _ ds buffer => onStore fun s =>
    match ds with
    | [.array x] =>
      match s.read x with
      | .tensor t =>
        (.ok (.array (put buffer x (twice t) s).1, buffer), (put buffer x (twice t) s).2)
      | _ => (.error .wrongType, s)
    | _ => (.error .wrongType, s)

/-- Gives out the buffer. -/
def byBuffer (buffer _ : Nat) (t : Tensor) (s : Store) : Nat × Store :=
  (buffer, s.write buffer (.tensor t))

/-- Works in place. -/
def inPlace (_ x : Nat) (t : Tensor) (s : Store) : Nat × Store := (x, s.write x (.tensor t))

/-- Two numbers, what they are doubled, and a buffer. -/
def doubleCells : List Cell :=
  [.tensor (numberTensor 1), .tensor (numberTensor 5), .tensor (numberTensor 2),
    .tensor (numberTensor 10), .tensor (numberTensor 0)]

/-- The trace in which the numbers are doubled. -/
def doubleTrace : Trace Datum :=
  [⟨"double", [.object 0], .object 2⟩, ⟨"double", [.object 1], .object 3⟩]

/-- The images of its outputs. -/
def doubleAnswers : List Value := [.array (numberTensor 2), .array (numberTensor 10)]

/-- A call that doubles a number, as a trace reads. -/
def doubleItem (input output : Int) : TraceItem Value :=
  ⟨"double", [.tensor (numberTensor input)], .tensor (numberTensor output)⟩

/-- **RIGHT ANSWERS ARE NOT ENOUGH.**  Backends that give out their buffer, or
    that work in place, answer each call with the image of the recorded output
    as well.  But in the trace that is returned, the first output was written
    over by the second call, or the inputs were. -/
theorem right_answers_not_enough :
    (Yields (doubling byBuffer) doubleTrace doubleAnswers 4 (worldOf doubleCells) ∧
      ∃ again w', runOnArrays (doubling byBuffer) (.ok 4) doubleTrace (worldOf doubleCells)
          = (.ok again, w') ∧
        w'.read again = [doubleItem 1 10, doubleItem 5 10]) ∧
    Yields (doubling inPlace) doubleTrace doubleAnswers 4 (worldOf doubleCells) ∧
      ∃ again w', runOnArrays (doubling inPlace) (.ok 4) doubleTrace (worldOf doubleCells)
          = (.ok again, w') ∧
        w'.read again = [doubleItem 2 2, doubleItem 10 10] ∧
        w'.read doubleTrace = [doubleItem 2 2, doubleItem 10 10] := by
  refine ⟨⟨?_, _, _, rfl, rfl⟩, ?_, _, _, rfl, rfl, rfl⟩
  · exact .cons_of_eq rfl rfl rfl rfl (.cons_of_eq rfl rfl rfl rfl trivial)
  · exact .cons_of_eq rfl rfl rfl rfl (.cons_of_eq rfl rfl rfl rfl trivial)

end DialectBench
