import DialectBench.Value.Basic
import DialectBench.Fault

/-!
# Keys of dictionaries

Equality and order of the values that serve as keys.  Numbers are equal when they are the same
number, whatever their kind; not a number equals nothing.  Order is partial: numbers compare with
numbers, strings with strings by code points, and tuples by their first unequal components; any
other pair does not compare, and a sort that meets one fails.
-/

namespace DialectBench

/-- The number that a value counts as in comparisons; not a number has none. -/
def Value.number? : Value → Option Decimal.Number
  | .bool b => some (.ofInt (if b then 1 else 0))
  | .int n => some (.ofInt n)
  | .float x => Decimal.Number.ofFloat? x
  | .odd .complex => some (.ofInt 0)
  | _ => Option.none

/-- Equality of values that are no tuples. -/
def Value.sameAtom (v w : Value) : Bool :=
  match v.number?, w.number? with
  | some a, some b => a.same b
  | _, _ =>
    match v, w with
    | .none, .none => true
    | .str s, .str t => s == t
    | .dtype m, .dtype n => m == n
    | .odd .bytes, .odd .bytes => true
    | _, _ => false

mutual

/-- Equality of keys. -/
def Value.same : Value → Value → Bool
  | .tuple xs, .tuple ys => Value.sameAll xs ys
  | v, w => v.sameAtom w

/-- Equality of lists of keys. -/
def Value.sameAll : List Value → List Value → Bool
  | [], [] => true
  | x :: xs, y :: ys => x.same y && Value.sameAll xs ys
  | _, _ => false

end

/-- A float, integer or truth value. -/
def Value.isReal : Value → Bool
  | .bool _ | .int _ | .float _ => true
  | _ => false

/-- Order of values that are no tuples; `none` if they do not compare. -/
def Value.ltAtom? (v w : Value) : Option Bool :=
  if v.isReal && w.isReal then
    match v.number?, w.number? with
    | some a, some b => some (a.lt b)
    | _, _ => some false
  else match v, w with
    | .str s, .str t => some (decide (s < t))
    | .odd .bytes, .odd .bytes => some false
    | _, _ => Option.none

mutual

/-- Strict order of keys; `none` if they do not compare. -/
def Value.lt? : Value → Value → Option Bool
  | .tuple xs, .tuple ys => Value.ltAll? xs ys
  | v, w => v.ltAtom? w

/-- Strict order of tuples, decided at the first unequal components. -/
def Value.ltAll? : List Value → List Value → Option Bool
  | [], [] => some false
  | [], _ :: _ => some true
  | _ :: _, [] => some false
  | x :: xs, y :: ys => if x.same y then Value.ltAll? xs ys else x.lt? y

end

/-- Inserts a key into an ordered list, behind the keys that it is not below.  The place is found by
    halving: the key is compared with the middle of the list and then goes into one of the halves.
    The first argument bounds the number of halvings; the length of the list is enough. -/
def insertWithin (k : Value) : Nat → List Value → Except Fault (List Value)
  | 0, xs => .ok (k :: xs)
  | fuel + 1, xs =>
    match xs.drop (xs.length / 2) with
    | [] => .ok [k]
    | x :: above =>
      let below := xs.take (xs.length / 2)
      match k.lt? x with
      | none => .error .wrongType
      | some true => (insertWithin k fuel below).map (· ++ x :: above)
      | some false => (insertWithin k fuel above).map (below ++ x :: ·)

/-- Inserts a key into an ordered list. -/
def insertKey (k : Value) (xs : List Value) : Except Fault (List Value) :=
  insertWithin k xs.length xs

/-- Inserts keys one after the other. -/
def insertKeys : List Value → List Value → Except Fault (List Value)
  | [], acc => .ok acc
  | k :: ks, acc =>
    match insertKey k acc with
    | .error e => .error e
    | .ok acc' => insertKeys ks acc'

/-- Cuts off the keys that go on with a run: those below their predecessor each (`down`), or those
    not below it. -/
def cutRun (down : Bool) (last : Value) : List Value → Except Fault (List Value × List Value)
  | [] => .ok ([], [])
  | k :: ks =>
    match k.lt? last with
    | none => .error .wrongType
    | some goesDown =>
      if goesDown == down then (cutRun down k ks).map fun r => (k :: r.1, r.2)
      else .ok ([], k :: ks)

/-- The longest run at the start, in ascending order, and the keys behind it. -/
def firstRun : List Value → Except Fault (List Value × List Value)
  | [] => .ok ([], [])
  | [k] => .ok ([k], [])
  | k :: l :: rest =>
    match l.lt? k with
    | none => .error .wrongType
    | some down =>
      (cutRun down l rest).map fun r =>
        (if down then (k :: l :: r.1).reverse else k :: l :: r.1, r.2)

/-- The keys in ascending order, equal ones in the order given.  The run at the start stays, and the
    other keys are inserted into it one after the other; where the order is not total this decides
    which pairs are compared, and so whether the sort fails. -/
def sortKeys (ks : List Value) : Except Fault (List Value) :=
  match firstRun ks with
  | .error e => .error e
  | .ok (run, rest) => insertKeys rest run

/-- The value at a key. -/
def lookup? {α : Type} (k : Value) : List (Value × α) → Option α
  | [] => none
  | (k', a) :: es => if k'.same k then some a else lookup? k es

/-- Sets the value at a key: an equal key keeps its place and spelling, a new one goes to the
    end. -/
def setEntry (k v : Value) : List (Value × Value) → List (Value × Value)
  | [] => [(k, v)]
  | (k', v') :: es => if k'.same k then (k', v) :: es else (k', v') :: setEntry k v es

/-- The dictionary with given entries, later values of equal keys winning. -/
def Value.ofEntries (es : List (Value × Value)) : Value :=
  .dict (es.foldl (fun acc e => setEntry e.1 e.2 acc) [])

end DialectBench
