import DialectBench.Proofs.Positions
import DialectBench.Value.Arrays

/-!
# What can be converted

    A direction of conversion TAKES strings, floats, integers and truth values,
    all containers, and tensors or arrays, whichever are on its side.  A value
    is converted exactly if all parts of it are taken, and then converting the
    outcome back gives the value.  Keys of dictionaries are no parts: they are
    kept and not looked at.

    A conversion that fails says why: its fault shows the FIRST LEAF, depth
    first, that the direction does not take.
-/

namespace DialectBench

namespace Direction

/-- The kinds of values that a direction takes. -/
def takes : Direction → Value → Bool
  | .toArrays, .tensor _ => true
  | .fromArrays, .array _ => true
  | _, .str _ | _, .float _ | _, .int _ | _, .bool _ => true
  | _, .list _ | _, .tuple _ | _, .dict _ => true
  | _, _ => false

/-- The other direction. -/
def back : Direction → Direction
  | .toArrays => .fromArrays
  | .fromArrays => .toArrays

end Direction

/-- All parts of a value are of kinds that a direction takes. -/
def Value.Taken (d : Direction) (v : Value) : Prop := v.everywhere d.takes = true

instance (d : Direction) (v : Value) : Decidable (v.Taken d) :=
  inferInstanceAs (Decidable (v.everywhere d.takes = true))

mutual

/-- **WHAT IS TAKEN IS CONVERTED.** -/
theorem Value.convert_of_taken (d : Direction) :
    ∀ {v : Value}, v.everywhere d.takes = true → ∃ w, v.convert d = .ok w
  | .list xs, h => by
      rw [Value.everywhere, Bool.and_eq_true] at h
      obtain ⟨ys, hys⟩ := Value.convertAll_of_taken d h.2
      exact ⟨.list ys, by rw [Value.convert, hys]; rfl⟩
  | .tuple xs, h => by
      rw [Value.everywhere, Bool.and_eq_true] at h
      obtain ⟨ys, hys⟩ := Value.convertAll_of_taken d h.2
      exact ⟨.tuple ys, by rw [Value.convert, hys]; rfl⟩
  | .dict es, h => by
      rw [Value.everywhere, Bool.and_eq_true] at h
      obtain ⟨fs, hfs⟩ := Value.convertEntries_of_taken d h.2
      exact ⟨.dict fs, by rw [Value.convert, hfs]; rfl⟩
  | .tensor t, h => by
      cases d with
      | toArrays => exact ⟨_, rfl⟩
      | fromArrays => exact nomatch h
  | .array t, h => by
      cases d with
      | toArrays => exact nomatch h
      | fromArrays => exact ⟨_, rfl⟩
  | .str s, _ => ⟨.str s, by cases d <;> rfl⟩
  | .float x, _ => ⟨.float x, by cases d <;> rfl⟩
  | .int n, _ => ⟨.int n, by cases d <;> rfl⟩
  | .bool b, _ => ⟨.bool b, by cases d <;> rfl⟩
  | .none, h | .dtype _, h | .odd _, h | .symbol _, h => by cases d <;> exact nomatch h

theorem Value.convertAll_of_taken (d : Direction) :
    ∀ {xs : List Value}, Value.allEverywhere d.takes xs = true →
      ∃ ys, Value.convertAll d xs = .ok ys
  | [], _ => ⟨[], rfl⟩
  | x :: xs, h => by
      rw [Value.allEverywhere, Bool.and_eq_true] at h
      obtain ⟨y, hy⟩ := Value.convert_of_taken d h.1
      obtain ⟨ys, hys⟩ := Value.convertAll_of_taken d h.2
      exact ⟨y :: ys, by rw [Value.convertAll, hy, hys]; rfl⟩

theorem Value.convertEntries_of_taken (d : Direction) :
    ∀ {es : List (Value × Value)}, Value.entriesEverywhere d.takes es = true →
      ∃ fs, Value.convertEntries d es = .ok fs
  | [], _ => ⟨[], rfl⟩
  | (k, v) :: es, h => by
      rw [Value.entriesEverywhere, Bool.and_eq_true] at h
      obtain ⟨w, hw⟩ := Value.convert_of_taken d h.1
      obtain ⟨fs, hfs⟩ := Value.convertEntries_of_taken d h.2
      exact ⟨(k, w) :: fs, by rw [Value.convertEntries, hw, hfs]; rfl⟩

end

theorem exceptMap_eq_ok {ε α β : Type} {f : α → β} {x : Except ε α} {b : β}
    (h : x.map f = .ok b) : ∃ a, x = .ok a ∧ f a = b := by
  cases x with
  | error e => exact nomatch h
  | ok a => exact ⟨a, rfl, Except.ok.inj h⟩

mutual

/-- **ONLY WHAT IS TAKEN IS CONVERTED**, and the way back leads to where it
    came from. -/
theorem Value.taken_of_convert (d : Direction) :
    ∀ {v w : Value}, v.convert d = .ok w →
      v.everywhere d.takes = true ∧ w.convert d.back = .ok v
  | .list xs, w, h => by
      rw [Value.convert] at h
      obtain ⟨ys, hys, rfl⟩ := exceptMap_eq_ok h
      obtain ⟨htaken, hback⟩ := Value.taken_of_convertAll d hys
      rw [Value.everywhere, Value.convert, hback, htaken]
      exact ⟨by cases d <;> rfl, rfl⟩
  | .tuple xs, w, h => by
      rw [Value.convert] at h
      obtain ⟨ys, hys, rfl⟩ := exceptMap_eq_ok h
      obtain ⟨htaken, hback⟩ := Value.taken_of_convertAll d hys
      rw [Value.everywhere, Value.convert, hback, htaken]
      exact ⟨by cases d <;> rfl, rfl⟩
  | .dict es, w, h => by
      rw [Value.convert] at h
      obtain ⟨fs, hfs, rfl⟩ := exceptMap_eq_ok h
      obtain ⟨htaken, hback⟩ := Value.taken_of_convertEntries d hfs
      rw [Value.everywhere, Value.convert, hback, htaken]
      exact ⟨by cases d <;> rfl, rfl⟩
  | .tensor _, w, h | .array _, w, h | .str _, w, h | .float _, w, h | .int _, w, h
  | .bool _, w, h | .none, w, h | .dtype _, w, h | .odd _, w, h | .symbol _, w, h => by
      cases d <;> cases h <;> exact ⟨rfl, rfl⟩

theorem Value.taken_of_convertAll (d : Direction) :
    ∀ {xs ys : List Value}, Value.convertAll d xs = .ok ys →
      Value.allEverywhere d.takes xs = true ∧ Value.convertAll d.back ys = .ok xs
  | [], ys, h => by
      cases h
      exact ⟨rfl, rfl⟩
  | x :: xs, ys, h => by
      rw [Value.convertAll] at h
      cases hx : x.convert d with
      | error e => rw [hx] at h; exact nomatch h
      | ok y =>
          rw [hx] at h
          obtain ⟨ys', hys, rfl⟩ := exceptMap_eq_ok h
          obtain ⟨htaken, hback⟩ := Value.taken_of_convert d hx
          obtain ⟨htaken', hback'⟩ := Value.taken_of_convertAll d hys
          rw [Value.allEverywhere, Value.convertAll, hback, hback', htaken, htaken']
          exact ⟨rfl, rfl⟩

theorem Value.taken_of_convertEntries (d : Direction) :
    ∀ {es fs : List (Value × Value)}, Value.convertEntries d es = .ok fs →
      Value.entriesEverywhere d.takes es = true ∧ Value.convertEntries d.back fs = .ok es
  | [], fs, h => by
      cases h
      exact ⟨rfl, rfl⟩
  | (k, v) :: es, fs, h => by
      rw [Value.convertEntries] at h
      cases hv : v.convert d with
      | error e => rw [hv] at h; exact nomatch h
      | ok w =>
          rw [hv] at h
          obtain ⟨fs', hfs, rfl⟩ := exceptMap_eq_ok h
          obtain ⟨htaken, hback⟩ := Value.taken_of_convert d hv
          obtain ⟨htaken', hback'⟩ := Value.taken_of_convertEntries d hfs
          rw [Value.entriesEverywhere, Value.convertEntries, hback, hback', htaken, htaken']
          exact ⟨rfl, rfl⟩

end

/-! ## The leaf that stops a conversion -/

mutual

/-- The leaves of a value, depth first: elements by index and values of
    dictionaries in insertion order. -/
def Value.leaves : Value → List Value
  | .list xs => Value.leavesAll xs
  | .tuple xs => Value.leavesAll xs
  | .dict es => Value.leavesEntries es
  | v => [v]

/-- The leaves of values one after the other. -/
def Value.leavesAll : List Value → List Value
  | [] => []
  | x :: xs => x.leaves ++ Value.leavesAll xs

/-- The leaves of the values of a dictionary. -/
def Value.leavesEntries : List (Value × Value) → List Value
  | [] => []
  | (_, x) :: es => x.leaves ++ Value.leavesEntries es

end

/-- The fault that work stopped with. -/
def faultOf? {α : Type} : Except Fault α → Option Fault
  | .error e => some e
  | .ok _ => none

theorem faultOf?_eq_some_iff {α : Type} {x : Except Fault α} {e : Fault} :
    faultOf? x = some e ↔ x = .error e := by
  cases x <;> simp [faultOf?]

theorem faultOf?_eq_none_iff {α : Type} {x : Except Fault α} :
    faultOf? x = none ↔ ∃ a, x = .ok a := by
  cases x <;> simp [faultOf?]

theorem faultOf?_map {α β : Type} (f : α → β) (x : Except Fault α) :
    faultOf? (x.map f) = faultOf? x := by
  cases x <;> rfl

/-- The fault of the first leaf, if any, that a direction does not take. -/
def Direction.firstRefused (d : Direction) (leaves : List Value) : Option Fault :=
  (leaves.find? fun x => !d.takes x).map d.refuse

theorem Direction.firstRefused_append (d : Direction) (xs ys : List Value) :
    d.firstRefused (xs ++ ys) = (d.firstRefused xs).or (d.firstRefused ys) := by
  rw [firstRefused, List.find?_append, Option.map_or]
  rfl

mutual

/-- **THE FIRST LEAF THAT IS NOT TAKEN STOPS THE CONVERSION**, and nothing else
    does. -/
theorem Value.faultOf?_convert (d : Direction) :
    ∀ v : Value, faultOf? (v.convert d) = d.firstRefused v.leaves
  | .list xs => by
      rw [Value.convert, faultOf?_map, Value.leaves, Value.faultOf?_convertAll d xs]
  | .tuple xs => by
      rw [Value.convert, faultOf?_map, Value.leaves, Value.faultOf?_convertAll d xs]
  | .dict es => by
      rw [Value.convert, faultOf?_map, Value.leaves, Value.faultOf?_convertEntries d es]
  | .tensor _ | .array _ | .str _ | .float _ | .int _ | .bool _ | .none | .dtype _ | .odd _
  | .symbol _ => by cases d <;> rfl

theorem Value.faultOf?_convertAll (d : Direction) :
    ∀ xs : List Value, faultOf? (Value.convertAll d xs) = d.firstRefused (Value.leavesAll xs)
  | [] => rfl
  | x :: xs => by
      rw [Value.leavesAll, Direction.firstRefused_append, ← Value.faultOf?_convert d x,
        ← Value.faultOf?_convertAll d xs, Value.convertAll]
      cases x.convert d with
      | error e => rfl
      | ok y => exact faultOf?_map _ _

theorem Value.faultOf?_convertEntries (d : Direction) :
    ∀ es : List (Value × Value),
      faultOf? (Value.convertEntries d es) = d.firstRefused (Value.leavesEntries es)
  | [] => rfl
  | (k, v) :: es => by
      rw [Value.leavesEntries, Direction.firstRefused_append, ← Value.faultOf?_convert d v,
        ← Value.faultOf?_convertEntries d es, Value.convertEntries]
      cases v.convert d with
      | error e => rfl
      | ok w => exact faultOf?_map _ _

end

theorem Direction.firstRefused_eq_none_iff (d : Direction) (leaves : List Value) :
    d.firstRefused leaves = none ↔ ∀ x ∈ leaves, d.takes x = true := by
  simp [firstRefused]

/-- What is refused has a place among the leaves, and all before it are taken. -/
theorem Direction.firstRefused_eq_some_iff (d : Direction) (leaves : List Value) (e : Fault) :
    d.firstRefused leaves = some e ↔ ∃ before x after, leaves = before ++ x :: after ∧
      (∀ y ∈ before, d.takes y = true) ∧ d.takes x = false ∧ e = d.refuse x := by
  rw [firstRefused, Option.map_eq_some_iff]
  constructor
  · rintro ⟨x, hx, rfl⟩
    obtain ⟨hrefused, before, after, hleaves, hbefore⟩ := List.find?_eq_some_iff_append.mp hx
    exact ⟨before, x, after, hleaves, by simpa using hbefore, by simpa using hrefused, rfl⟩
  · rintro ⟨before, x, after, hleaves, hbefore, hrefused, rfl⟩
    exact ⟨x, List.find?_eq_some_iff_append.mpr
      ⟨by simpa using hrefused, before, after, hleaves, by simpa using hbefore⟩, rfl⟩

theorem Direction.back_back (d : Direction) : d.back.back = d := by
  cases d <;> rfl

/-- **THE CONVERSIONS ARE PARTIAL INVERSES, WITH EXACT DOMAINS.**  In either
    direction a value is converted exactly if all its leaves are taken; one
    direction leads from `v` to `w` exactly if the other leads from `w` to `v`,
    so that containers, their lengths, their keys and the order of these come
    back as they were; and a conversion that fails shows the first leaf, depth
    first, that is not taken. -/
theorem conversions_partial_inverse (d : Direction) (v : Value) :
    ((∃ w, v.convert d = .ok w) ↔ ∀ x ∈ v.leaves, d.takes x = true) ∧
    (∀ w, v.convert d = .ok w ↔ w.convert d.back = .ok v) ∧
    ∀ e, v.convert d = .error e ↔ ∃ before x after, v.leaves = before ++ x :: after ∧
      (∀ y ∈ before, d.takes y = true) ∧ d.takes x = false ∧
      e = .general ("Unexpected Python function " ++ d.side ++ ": " ++ x.plain) := by
  refine ⟨?_, fun w => ⟨?_, ?_⟩, fun e => ?_⟩
  · rw [← faultOf?_eq_none_iff, Value.faultOf?_convert, Direction.firstRefused_eq_none_iff]
  · intro h
    exact (Value.taken_of_convert d h).2
  · intro h
    have hback := (Value.taken_of_convert d.back h).2
    rwa [d.back_back] at hback
  · rw [← faultOf?_eq_some_iff, Value.faultOf?_convert, Direction.firstRefused_eq_some_iff]
    rfl

/-- Keys are passed over, and the leaf that is shown stands before another one
    that is not taken. -/
example : (Value.tuple [.dict [(.none, .list [.int 1, .str "a"])],
      .list [.odd .set, .none]]).convert .fromArrays
    = .error (.general "Unexpected Python function output: set()") := by
  rfl

end DialectBench
