import DialectBench.Proofs.KeyOrder
import DialectBench.Report.Finding

/-! # Positions in values and what disagrees there

    A comparison of two values is about POSITIONS: paths of steps that lead
    into both of them.  This file says, without running any comparison, which
    positions there are (`Value.Child`), when the pair at a position disagrees
    by itself (`Disagree`), and which positions mismatch (`MismatchAt`): those
    reached through pairs that agree, whose own pair does not.

    Depth-first order is the lexicographic order of paths over `Step.Before`. -/

namespace DialectBench

/-! ## Parts of values -/

/-- A step leads from a container to one of its elements. -/
inductive Value.Child : Value → Step → Value → Prop where
  | list {xs : List Value} {i : Nat} {x : Value} (h : xs[i]? = some x) :
      Child (.list xs) (.list i) x
  | tuple {xs : List Value} {i : Nat} {x : Value} (h : xs[i]? = some x) :
      Child (.tuple xs) (.tuple i) x
  | dict {es : List (Value × Value)} {k x : Value} (h : (k, x) ∈ es) :
      Child (.dict es) (.dict k) x

/-- A path leads from a value to a part of it. -/
inductive Value.At : Value → List Step → Value → Prop where
  | here (v : Value) : At v [] v
  | into {v x y : Value} {s : Step} {p : List Step} (h : v.Child s x)
      (rest : At x p y) : At v (s :: p) y

theorem Value.child_list_iff (xs : List Value) (s : Step) (x : Value) :
    (Value.list xs).Child s x ↔ ∃ i, s = .list i ∧ xs[i]? = some x := by
  constructor
  · intro h
    cases h with
    | list h => exact ⟨_, rfl, h⟩
  · rintro ⟨i, rfl, h⟩
    exact .list h

theorem Value.child_tuple_iff (xs : List Value) (s : Step) (x : Value) :
    (Value.tuple xs).Child s x ↔ ∃ i, s = .tuple i ∧ xs[i]? = some x := by
  constructor
  · intro h
    cases h with
    | tuple h => exact ⟨_, rfl, h⟩
  · rintro ⟨i, rfl, h⟩
    exact .tuple h

theorem Value.child_dict_iff (es : List (Value × Value)) (s : Step) (x : Value) :
    (Value.dict es).Child s x ↔ ∃ k, s = .dict k ∧ (k, x) ∈ es := by
  constructor
  · intro h
    cases h with
    | dict h => exact ⟨_, rfl, h⟩
  · rintro ⟨k, rfl, h⟩
    exact .dict h

theorem Value.Child.sizeOf_lt {v x : Value} {s : Step} (h : v.Child s x) :
    sizeOf x < sizeOf v := by
  cases h with
  | list h =>
      have := List.sizeOf_lt_of_mem (List.mem_of_getElem? h)
      simp only [Value.list.sizeOf_spec]
      omega
  | tuple h =>
      have := List.sizeOf_lt_of_mem (List.mem_of_getElem? h)
      simp only [Value.tuple.sizeOf_spec]
      omega
  | dict h =>
      have := List.sizeOf_lt_of_mem h
      simp only [Prod.mk.sizeOf_spec] at this
      simp only [Value.dict.sizeOf_spec]
      omega

/-- What holds of a value whenever it holds of its elements holds of every
    value. -/
theorem Value.parts_induction {P : Value → Prop}
    (step : ∀ v : Value, (∀ s x, v.Child s x → P x) → P v) (v : Value) : P v := by
  induction hn : sizeOf v using Nat.strongRecOn generalizing v with
  | _ n ih =>
      refine step v ?_
      intro s x hchild
      exact ih (sizeOf x) (hn ▸ hchild.sizeOf_lt) x rfl

/-! ## Tests that hold all through a value -/

mutual

/-- Whether a test holds at a value and at all parts of it; keys of
    dictionaries are no parts. -/
def Value.everywhere (test : Value → Bool) : Value → Bool
  | .list xs => test (.list xs) && Value.allEverywhere test xs
  | .tuple xs => test (.tuple xs) && Value.allEverywhere test xs
  | .dict es => test (.dict es) && Value.entriesEverywhere test es
  | v => test v

/-- Whether a test holds all through the elements of a sequence. -/
def Value.allEverywhere (test : Value → Bool) : List Value → Bool
  | [] => true
  | x :: xs => x.everywhere test && Value.allEverywhere test xs

/-- Whether a test holds all through the values of a dictionary. -/
def Value.entriesEverywhere (test : Value → Bool) :
    List (Value × Value) → Bool
  | [] => true
  | (_, x) :: es => x.everywhere test && Value.entriesEverywhere test es

end

theorem Value.everywhere_self {test : Value → Bool} {v : Value}
    (h : v.everywhere test = true) : test v = true := by
  cases v <;> simp_all [Value.everywhere]

private theorem allEverywhere_mem {test : Value → Bool} {xs : List Value}
    (h : Value.allEverywhere test xs = true) :
    ∀ x ∈ xs, x.everywhere test = true := by
  induction xs with
  | nil => intro x hx; exact nomatch hx
  | cons y ys ih =>
      rw [Value.allEverywhere, Bool.and_eq_true] at h
      intro x hx
      rcases List.mem_cons.mp hx with rfl | hx
      · exact h.1
      · exact ih h.2 x hx

private theorem entriesEverywhere_mem {test : Value → Bool}
    {es : List (Value × Value)} (h : Value.entriesEverywhere test es = true) :
    ∀ e ∈ es, e.2.everywhere test = true := by
  induction es with
  | nil => intro e he; exact nomatch he
  | cons e es ih =>
      obtain ⟨k, x⟩ := e
      rw [Value.entriesEverywhere, Bool.and_eq_true] at h
      intro e he
      rcases List.mem_cons.mp he with rfl | he
      · exact h.1
      · exact ih h.2 e he

theorem Value.everywhere_child {test : Value → Bool} {v x : Value} {s : Step}
    (h : v.everywhere test = true) (hchild : v.Child s x) :
    x.everywhere test = true := by
  cases hchild with
  | list hx =>
      rw [Value.everywhere, Bool.and_eq_true] at h
      exact allEverywhere_mem h.2 x (List.mem_of_getElem? hx)
  | tuple hx =>
      rw [Value.everywhere, Bool.and_eq_true] at h
      exact allEverywhere_mem h.2 x (List.mem_of_getElem? hx)
  | dict hx =>
      rw [Value.everywhere, Bool.and_eq_true] at h
      exact entriesEverywhere_mem h.2 _ hx

/-- Whether a value is a string. -/
def Value.isStr : Value → Bool
  | .str _ => true
  | _ => false

/-- Whether a dictionary is keyed by strings, each of them once; other values
    have no keys. -/
def Value.hasStringKeys : Value → Bool
  | .dict es => (es.map Prod.fst).all Value.isStr &&
      decide ((es.map Prod.fst).map stringRank).Nodup
  | _ => true

/-- Whether a value is no float that equals zero. -/
def Value.isNoZero : Value → Bool
  | .float x => !(x == 0.0)
  | _ => true

theorem Value.hasStringKeys_dict {es : List (Value × Value)}
    (h : (Value.dict es).hasStringKeys = true) :
    ∃ names : List String, es.map Prod.fst = names.map Value.str ∧
      names.Nodup := by
  rw [Value.hasStringKeys, Bool.and_eq_true, decide_eq_true_eq] at h
  refine ⟨(es.map Prod.fst).map stringRank, ?_, h.2⟩
  rw [List.map_map]
  refine ((List.map_congr_left ?_).trans (List.map_id _)).symm
  intro k hk
  have hstr := List.all_eq_true.mp h.1 k hk
  cases k <;> first | rfl | exact nomatch hstr

/-! ## Kinds, keys and steps -/

/-- The kind under which a golden value is compared; truth values count as
    integers, and some kinds are not compared at all. -/
def Value.comparedAs : Value → Option String
  | .float _ => some "float"
  | .bool _ => some "int"
  | .int _ => some "int"
  | .str _ => some "str"
  | .tuple _ => some "tuple"
  | .list _ => some "list"
  | .dict _ => some "dict"
  | .tensor _ => some "torch.Tensor"
  | _ => Option.none

/-- The elements of a list or a tuple. -/
def Value.items? : Value → Option (List Value)
  | .list xs => some xs
  | .tuple xs => some xs
  | _ => Option.none

/-- The keys of a dictionary in ascending order. -/
def SortedKeys (es : List (Value × Value)) (ks : List Value) : Prop :=
  ∃ names : List String, ks = names.map Value.str ∧
    names.Pairwise (· < ·) ∧ ∀ k, k ∈ ks ↔ k ∈ es.map Prod.fst

/-- Two dictionaries have the same keys. -/
def SameKeys (es fs : List (Value × Value)) : Prop :=
  ∀ k, k ∈ es.map Prod.fst ↔ k ∈ fs.map Prod.fst

theorem comparedAs_of_int? {v : Value} {n : Int} (h : v.int? = some n) :
    v.comparedAs = some "int" := by
  cases v <;> first | rfl | exact nomatch h

theorem comparedAs_of_items? {v : Value} {xs : List Value}
    (h : v.items? = some xs) :
    v = .list xs ∧ v.comparedAs = some "list" ∨
      v = .tuple xs ∧ v.comparedAs = some "tuple" := by
  cases v <;> simp_all [Value.items?, Value.comparedAs]

theorem SortedKeys.mem_iff {es : List (Value × Value)} {ks : List Value}
    (h : SortedKeys es ks) (k : Value) : k ∈ ks ↔ k ∈ es.map Prod.fst := by
  obtain ⟨-, -, -, hmem⟩ := h
  exact hmem k

/-- Keys in strictly ascending order are determined by which keys there are. -/
theorem SortedKeys.unique {es fs : List (Value × Value)} {ks ls : List Value}
    (hes : SortedKeys es ks) (hfs : SortedKeys fs ls) (hsame : SameKeys es fs) :
    ks = ls := by
  obtain ⟨as, rfl, hasc, hmem⟩ := hes
  obtain ⟨bs, rfl, hbsc, hmem'⟩ := hfs
  have hiff : ∀ a, a ∈ as ↔ a ∈ bs := by
    intro a
    have h₁ := (hmem (.str a)).trans ((hsame _).trans (hmem' (.str a)).symm)
    simpa using h₁
  -- both lists ascend strictly, so neither repeats a key and only one order is left
  have hperm : as.Perm bs :=
    (List.perm_ext_iff_of_nodup (hasc.imp ne_of_lt) (hbsc.imp ne_of_lt)).mpr hiff
  have heq : as = bs := hperm.eq_of_pairwise
    (fun a b _ _ hab hba => absurd hba (lt_asymm hab)) hasc hbsc
  rw [heq]

/-- Steps out of one container, in order: by index, or by key. -/
def Step.Before : Step → Step → Prop
  | .list i, .list j => i < j
  | .tuple i, .tuple j => i < j
  | .dict (.str a), .dict (.str b) => a < b
  | _, _ => False

theorem Step.before_irrefl (s : Step) : ¬ s.Before s := by
  intro h
  cases s with
  | list i => exact Nat.lt_irrefl i h
  | tuple i => exact Nat.lt_irrefl i h
  | dict k =>
      cases k with
      | str a => exact lt_irrefl a h
      | _ => exact h

/-! ## Pairs that disagree -/

variable [Gauge]

/-- A value and a golden value disagree by themselves, elements aside: in kind,
    in length, in their keys, or as leaves.  Of tensors the shape is looked at
    first, then the element type, then the elements. -/
inductive Disagree : Value → Value → Mismatch → Prop where
  | golden {v g : Value} (h : g.comparedAs = none) :
      Disagree v g (.golden g.kind)
  | kind {v g : Value} {k : String} (hg : g.comparedAs = some k)
      (hv : v.comparedAs ≠ some k) : Disagree v g (.kind k v.kind)
  | float {x y : Float} (h : (x - y).abs / y > floatTolerance) :
      Disagree (.float x) (.float y) (.float x y)
  | int {v g : Value} {m n : Int} (hv : v.int? = some m)
      (hg : g.int? = some n) (h : m ≠ n) : Disagree v g (.leaf v g)
  | str {s t : String} (h : s ≠ t) :
      Disagree (.str s) (.str t) (.leaf (.str s) (.str t))
  | length {v g : Value} {xs ys : List Value}
      (hkind : v.comparedAs = g.comparedAs) (hv : v.items? = some xs)
      (hg : g.items? = some ys) (h : xs.length ≠ ys.length) :
      Disagree v g (.length xs.length ys.length)
  | keys {es fs : List (Value × Value)} {ks ls : List Value}
      (h : ¬ SameKeys es fs) (hes : SortedKeys es ks) (hfs : SortedKeys fs ls) :
      Disagree (.dict es) (.dict fs) (.keys ks ls)
  | shape {t u : Tensor} (h : t.shape? ≠ u.shape?) :
      Disagree (.tensor t) (.tensor u)
        (.shape (t.shape?.getD []) (u.shape?.getD []))
  | dtype {t u : Tensor} (hshape : t.shape? = u.shape?)
      (h : t.dtype? ≠ u.dtype?) :
      Disagree (.tensor t) (.tensor u)
        (.dtype (t.dtype?.getD "") (u.dtype?.getD ""))
  | tensor {t u : Tensor} (hshape : t.shape? = u.shape?)
      (hdtype : t.dtype? = u.dtype?) (h : Gauge.close t u = false) :
      Disagree (.tensor t) (.tensor u) (.tensor t u)

/-- A pair agrees by itself, elements aside. -/
def Agree (v g : Value) : Prop := ∀ m : Mismatch, ¬ Disagree v g m

/-- **A MISMATCHING POSITION**: a path that leads into both values through
    pairs that agree, to a pair that disagrees. -/
inductive MismatchAt : Value → Value → List Step → Mismatch → Prop where
  | here {v g : Value} {m : Mismatch} (h : Disagree v g m) :
      MismatchAt v g [] m
  | into {v g v' g' : Value} {s : Step} {p : List Step} {m : Mismatch}
      (hagree : Agree v g) (hv : v.Child s v') (hg : g.Child s g')
      (h : MismatchAt v' g' p m) : MismatchAt v g (s :: p) m

/-! ## What disagrees, kind by kind -/

theorem disagree_iff_of_unsupported {v g : Value} (h : g.comparedAs = none)
    (m : Mismatch) : Disagree v g m ↔ m = .golden g.kind := by
  constructor
  · intro hd
    cases hd with
    | golden => rfl
    | kind hg => rw [h] at hg; exact nomatch hg
    | int _ hg => cases g <;> simp_all [Value.comparedAs, Value.int?]
    | length _ _ hg => cases g <;> simp_all [Value.comparedAs, Value.items?]
    | _ => exact nomatch h
  · rintro rfl
    exact .golden h

theorem disagree_iff_of_kind {v g : Value} {k : String}
    (hg : g.comparedAs = some k) (hv : v.comparedAs ≠ some k) (m : Mismatch) :
    Disagree v g m ↔ m = .kind k v.kind := by
  constructor
  · intro hd
    cases hd with
    | golden h => rw [hg] at h; exact nomatch h
    | kind hg' =>
        rw [hg] at hg'
        rw [Option.some.inj hg']
    | int hv' hg' =>
        rw [comparedAs_of_int? hg'] at hg
        exact absurd ((comparedAs_of_int? hv').trans hg) hv
    | length hkind => exact absurd (hkind.trans hg) hv
    | _ => exact absurd hg hv
  · rintro rfl
    exact .kind hg hv

theorem disagree_float_iff (x y : Float) (m : Mismatch) :
    Disagree (.float x) (.float y) m ↔
      (x - y).abs / y > floatTolerance ∧ m = .float x y := by
  constructor
  · intro hd
    cases hd with
    | golden h => exact nomatch h
    | kind hg hv => exact absurd hg hv
    | float h => exact ⟨h, rfl⟩
    | int hv => exact nomatch hv
    | length _ hv => exact nomatch hv
  · rintro ⟨h, rfl⟩
    exact .float h

theorem disagree_int_iff {v g : Value} {a b : Int} (hv : v.int? = some a)
    (hg : g.int? = some b) (m : Mismatch) :
    Disagree v g m ↔ a ≠ b ∧ m = .leaf v g := by
  constructor
  · intro hd
    cases hd with
    | golden h => rw [comparedAs_of_int? hg] at h; exact nomatch h
    | kind hk hne =>
        rw [comparedAs_of_int? hg] at hk
        exact absurd ((comparedAs_of_int? hv).trans hk) hne
    | int hv' hg' h =>
        rw [hv] at hv'
        rw [hg] at hg'
        obtain rfl := Option.some.inj hv'
        obtain rfl := Option.some.inj hg'
        exact ⟨h, rfl⟩
    | length _ hi => cases v <;> simp_all [Value.int?, Value.items?]
    | _ => exact nomatch hv
  · rintro ⟨h, rfl⟩
    exact .int hv hg h

theorem disagree_str_iff (s t : String) (m : Mismatch) :
    Disagree (.str s) (.str t) m ↔ s ≠ t ∧ m = .leaf (.str s) (.str t) := by
  constructor
  · intro hd
    cases hd with
    | golden h => exact nomatch h
    | kind hg hv => exact absurd hg hv
    | int hv => exact nomatch hv
    | length _ hv => exact nomatch hv
    | str h => exact ⟨h, rfl⟩
  · rintro ⟨h, rfl⟩
    exact .str h

theorem disagree_items_iff {v g : Value} {xs ys : List Value}
    (hkind : v.comparedAs = g.comparedAs) (hv : v.items? = some xs)
    (hg : g.items? = some ys) (m : Mismatch) :
    Disagree v g m ↔
      xs.length ≠ ys.length ∧ m = .length xs.length ys.length := by
  constructor
  · intro hd
    cases hd with
    | golden h =>
        rcases comparedAs_of_items? hg with ⟨-, hc⟩ | ⟨-, hc⟩
        · rw [hc] at h; exact nomatch h
        · rw [hc] at h; exact nomatch h
    | kind hk hne => exact absurd (hkind.trans hk) hne
    | int hi =>
        rcases comparedAs_of_items? hv with ⟨rfl, -⟩ | ⟨rfl, -⟩
        · exact nomatch hi
        · exact nomatch hi
    | length _ hv' hg' h =>
        rw [hv] at hv'
        rw [hg] at hg'
        obtain rfl := Option.some.inj hv'
        obtain rfl := Option.some.inj hg'
        exact ⟨h, rfl⟩
    | _ => exact nomatch hv
  · rintro ⟨h, rfl⟩
    exact .length hkind hv hg h

theorem disagree_dict_iff {es fs : List (Value × Value)} {ks ls : List Value}
    (hes : SortedKeys es ks) (hfs : SortedKeys fs ls) (m : Mismatch) :
    Disagree (.dict es) (.dict fs) m ↔
      ¬ SameKeys es fs ∧ m = .keys ks ls := by
  have hrefl : ∀ gs : List (Value × Value), SameKeys gs gs :=
    fun gs k => Iff.rfl
  constructor
  · intro hd
    cases hd with
    | golden h => exact nomatch h
    | kind hg hv => exact absurd hg hv
    | int hv => exact nomatch hv
    | length _ hv => exact nomatch hv
    | keys h hes' hfs' =>
        refine ⟨h, ?_⟩
        rw [hes'.unique hes (hrefl es), hfs'.unique hfs (hrefl fs)]
  · rintro ⟨h, rfl⟩
    exact .keys h hes hfs

end DialectBench
