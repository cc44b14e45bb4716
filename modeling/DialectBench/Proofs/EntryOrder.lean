import Mathlib.Algebra.Order.Field.Rat
import Mathlib.Data.Sum.Order
import DialectBench.Proofs.Findings
import DialectBench.Report.Trace

/-!
# The order of entries does not show

    A dictionary holds its entries in the order of insertion.  A comparison sorts
    the keys of both sides and then looks entries up, so that order should not
    show: not in a list of keys that a message prints, not in the order of
    findings, not in which fault is met first.

    The sort compares keys by `lt?`, look-ups by `same`.  Each key that is a string
    or a number has a PLACE in one linear order, and the two tests read it off:
    `lt?` is order of places where it is defined, and `same` is equality.  So the
    keys of a dictionary, all strings or all numbers and no two of them the same,
    are sorted into one list, whatever order they came in
    (`sortKeys_eq_of_perm`), and looking a key up finds one value
    (`lookup?_eq_of_perm`).

    `Value.Reordered` relates values that differ in the order of entries, at any
    depth.  Reordered values put and pass the same tests (`orderFree`).
-/

namespace DialectBench

/-! ## Places of numbers -/

namespace Decimal

/-- The point of the line of numbers, with both ends, at which a number is. -/
def Number.point : Number → WithBot (WithTop ℚ)
  | .below => ⊥
  | .ratio n k => ((n / 2 ^ k : ℚ) : WithTop ℚ)
  | .above => (⊤ : WithTop ℚ)

theorem Number.lt_iff (a b : Number) : a.lt b = true ↔ a.point < b.point := by
  cases a with
  | below => cases b <;> simp [Number.lt, Number.point]
  | above => cases b <;> simp [Number.lt, Number.point]
  | ratio n j =>
      cases b with
      | below => simp [Number.lt, Number.point]
      | above => exact iff_of_true rfl (WithBot.coe_lt_coe.mpr (WithTop.coe_lt_top _))
      | ratio m k =>
          rw [Number.lt, decide_eq_true_eq, Number.point, Number.point, WithBot.coe_lt_coe,
            WithTop.coe_lt_coe, div_lt_div_iff₀ (pow_pos two_pos j) (pow_pos two_pos k)]
          show n * ((2 ^ k : ℕ) : ℤ) < m * ((2 ^ j : ℕ) : ℤ) ↔ _
          norm_cast

theorem Number.same_iff (a b : Number) : a.same b = true ↔ a.point = b.point := by
  cases a with
  | below => cases b <;> simp [Number.same, Number.point]
  | above => cases b <;> simp [Number.same, Number.point]
  | ratio n j =>
      cases b with
      | below => simp [Number.same, Number.point]
      | above => simp [Number.same, Number.point]
      | ratio m k =>
          rw [Number.same, decide_eq_true_eq, Number.point, Number.point, WithBot.coe_inj,
            WithTop.coe_inj, div_eq_div_iff (pow_ne_zero j two_ne_zero) (pow_ne_zero k two_ne_zero)]
          show n * ((2 ^ k : ℕ) : ℤ) = m * ((2 ^ j : ℕ) : ℤ) ↔ _
          norm_cast

end Decimal

/-! ## Places of keys -/

/-- Whether a value is a number that has a place among others: an integer, a truth
    value, or a float other than not a number. -/
def Value.isNumber (k : Value) : Bool := k.isReal && k.number?.isSome

/-- Whether a value is a string or such a number. -/
def Value.isKey (k : Value) : Bool := k.isStr || k.isNumber

/-- A place among keys: on the line, or among the strings, which come behind it. -/
abbrev Place := WithBot (WithTop ℚ) ⊕ₗ String

/-- The place of a key. -/
def Value.place (k : Value) : Place :=
  match k.number? with
  | some n => toLex (.inl n.point)
  | Option.none => toLex (.inr (stringRank k))

theorem Value.isStr_iff {k : Value} : k.isStr = true ↔ ∃ s, k = .str s := by
  constructor
  · intro h
    cases k <;> first | exact ⟨_, rfl⟩ | exact nomatch h
  · rintro ⟨s, rfl⟩
    rfl

theorem Value.isNumber_iff {k : Value} :
    k.isNumber = true ↔ k.isReal = true ∧ ∃ n, k.number? = some n := by
  rw [Value.isNumber, Bool.and_eq_true, Option.isSome_iff_exists]

theorem Value.ne_tuple_of_isKey {k : Value} (h : k.isKey = true) (xs : List Value) :
    k ≠ .tuple xs := by
  rintro rfl
  exact nomatch h

theorem Value.place_of_number {k : Value} {n : Decimal.Number} (h : k.number? = some n) :
    k.place = toLex (.inl n.point) := by
  simp only [Value.place, h]

theorem Value.place_str (s : String) : (Value.str s).place = toLex (.inr s) := rfl

/-- Keys are the same exactly if their places are. -/
theorem Value.same_iff_place {a b : Value} (ha : a.isKey = true) (hb : b.isKey = true) :
    a.same b = true ↔ a.place = b.place := by
  have hatom : a.same b = a.sameAtom b := by
    rw [Value.same]
    intro xs ys h
    exact absurd h (Value.ne_tuple_of_isKey ha xs)
  rw [hatom]
  rw [Value.isKey, Bool.or_eq_true, Value.isStr_iff, Value.isNumber_iff] at ha hb
  rcases ha with ⟨s, rfl⟩ | ⟨-, n, hn⟩ <;> rcases hb with ⟨t, rfl⟩ | ⟨-, m, hm⟩
  · simp [Value.sameAtom, Value.number?, Value.place_str]
  · -- a string is the same as no number, and their places are on different sides
    rw [Value.place_str, Value.place_of_number hm]
    cases b <;> simp_all [Value.sameAtom, Value.number?]
  · rw [Value.place_str, Value.place_of_number hn]
    cases a <;> simp_all [Value.sameAtom, Value.number?]
  · rw [Value.place_of_number hn, Value.place_of_number hm]
    simp only [Value.sameAtom, hn, hm, n.same_iff, toLex_inj, Sum.inl.injEq]

/-- Whether keys have a common order: all of them strings, or all numbers. -/
def orderedKeys (ks : List Value) : Bool := ks.all Value.isStr || ks.all Value.isNumber

/-- No two keys are the same. -/
def DistinctKeys (ks : List Value) : Prop := ks.Pairwise fun a b => a.same b = false

instance (ks : List Value) : Decidable (DistinctKeys ks) :=
  inferInstanceAs (Decidable (ks.Pairwise fun a b => a.same b = false))

theorem mem_keys_setEntry {k v l : Value} {es : List (Value × Value)}
    (h : l ∈ (setEntry k v es).map Prod.fst) : l ∈ es.map Prod.fst ∨ l = k := by
  induction es with
  | nil => exact .inr (List.mem_singleton.mp h)
  | cons e es ih =>
      obtain ⟨k', v'⟩ := e
      rw [setEntry] at h
      split at h
      · exact .inl h
      · rcases List.mem_cons.mp h with rfl | h
        · exact .inl List.mem_cons_self
        · exact (ih h).imp_left (List.mem_cons_of_mem _)

theorem distinctKeys_setEntry (k v : Value) {es : List (Value × Value)}
    (hd : DistinctKeys (es.map Prod.fst)) : DistinctKeys ((setEntry k v es).map Prod.fst) := by
  induction es with
  | nil => exact List.pairwise_singleton _ k
  | cons e es ih =>
      obtain ⟨k', v'⟩ := e
      obtain ⟨hfresh, hrest⟩ := List.pairwise_cons.mp hd
      rw [setEntry]
      split
      · exact hd
      · next hne =>
          refine List.pairwise_cons.mpr ⟨?_, ih hrest⟩
          intro l hl
          rcases mem_keys_setEntry hl with hl | rfl
          · exact hfresh l hl
          · exact Bool.eq_false_iff.mpr hne

/-- A dictionary made of entries has distinct keys, whatever the entries. -/
theorem Value.ofEntries_distinctKeys (es : List (Value × Value)) :
    ∃ fs, Value.ofEntries es = .dict fs ∧ DistinctKeys (fs.map Prod.fst) := by
  refine ⟨_, rfl, ?_⟩
  refine List.foldlRecOn (motive := fun acc : List (Value × Value) =>
    DistinctKeys (acc.map Prod.fst)) es _ List.Pairwise.nil ?_
  intro acc hacc e _
  exact distinctKeys_setEntry e.1 e.2 hacc

theorem isKey_of_orderedKeys {ks : List Value} (h : orderedKeys ks = true) :
    ∀ k ∈ ks, k.isKey = true := by
  intro k hk
  rw [orderedKeys, Bool.or_eq_true, List.all_eq_true, List.all_eq_true] at h
  rw [Value.isKey, Bool.or_eq_true]
  exact h.imp (fun h => h k hk) (fun h => h k hk)

/-- Keys of a common order are ranked by their places. -/
theorem ranked_place {ks : List Value} (h : orderedKeys ks = true) : Ranked Value.place ks := by
  intro a ha b hb
  have hatom : a.lt? b = a.ltAtom? b := by
    rw [Value.lt?]
    intro xs ys hxs
    exact absurd hxs (Value.ne_tuple_of_isKey (isKey_of_orderedKeys h a ha) xs)
  rw [hatom]
  rw [orderedKeys, Bool.or_eq_true, List.all_eq_true, List.all_eq_true] at h
  rcases h with hstr | hnum
  · obtain ⟨s, rfl⟩ := Value.isStr_iff.mp (hstr a ha)
    obtain ⟨t, rfl⟩ := Value.isStr_iff.mp (hstr b hb)
    simp [Value.ltAtom?, Value.isReal, Value.place_str]
  · obtain ⟨hareal, n, hn⟩ := Value.isNumber_iff.mp (hnum a ha)
    obtain ⟨hbreal, m, hm⟩ := Value.isNumber_iff.mp (hnum b hb)
    rw [Value.place_of_number hn, Value.place_of_number hm]
    simp only [Value.ltAtom?, hareal, hbreal, hn, hm, Bool.and_self, if_true, Option.some.injEq]
    rw [Bool.eq_iff_iff, decide_eq_true_eq, n.lt_iff, Sum.Lex.inl_lt_inl_iff]

/-- Keys no two of which are the same have distinct places. -/
theorem DistinctKeys.nodup_places {ks : List Value} (hd : DistinctKeys ks)
    (hkeys : ∀ k ∈ ks, k.isKey = true) : (ks.map Value.place).Nodup := by
  refine List.pairwise_map.mpr (hd.imp_of_mem ?_)
  intro a b ha hb hne heq
  rw [(Value.same_iff_place (hkeys a ha) (hkeys b hb)).mpr heq] at hne
  exact nomatch hne

/-- **THE SORT FORGETS THE ORDER OF INSERTION.**  Both sorts return the keys in
    ascending order of places, and keys at one place are one key. -/
theorem sortKeys_eq_of_perm {ks ls : List Value} (hordered : orderedKeys ks = true)
    (hd : DistinctKeys ks) (hperm : ks.Perm ls) : sortKeys ls = sortKeys ks := by
  have hrank := ranked_place hordered
  obtain ⟨xs, hxs, hxperm, hxasc⟩ := sortKeys_ranked Value.place ks hrank
  obtain ⟨ys, hys, hyperm, hyasc⟩ :=
    sortKeys_ranked Value.place ls (hrank.subset hperm.symm.subset)
  have hnodup := hd.nodup_places (isKey_of_orderedKeys hordered)
  have heq : ys = xs := by
    refine List.Perm.eq_of_pairwise ?_ hyasc hxasc (hyperm.trans (hperm.symm.trans hxperm.symm))
    intro a b ha hb hab hba
    exact List.inj_on_of_nodup_map hnodup (hperm.mem_iff.mpr (hyperm.mem_iff.mp ha))
      (hxperm.mem_iff.mp hb) (le_antisymm hab hba)
  rw [hxs, hys, heq]

/-! ## Looking up -/

variable {α : Type}

/-- Looking a key up finds the entry at its place, if there is one entry at each. -/
theorem lookup?_eq_some_iff {k : Value} (hk : k.isKey = true) (x : α) :
    ∀ {es : List (Value × α)}, (∀ l ∈ es.map Prod.fst, l.isKey = true) →
      ((es.map Prod.fst).map Value.place).Nodup →
      (lookup? k es = some x ↔ ∃ l, (l, x) ∈ es ∧ l.place = k.place) := by
  intro es
  induction es with
  | nil =>
      intro _ _
      exact iff_of_false (fun h => nomatch h) (fun ⟨_, h, _⟩ => nomatch h)
  | cons e es ih =>
      obtain ⟨l, y⟩ := e
      intro hkeys hnodup
      obtain ⟨hl, hkeys⟩ := List.forall_mem_cons.mp hkeys
      obtain ⟨hfresh, hnodup⟩ := List.nodup_cons.mp hnodup
      have hsame := Value.same_iff_place hl hk
      rw [lookup?]
      by_cases hlk : l.place = k.place
      · -- found here, and nowhere further on
        have hout : ∀ l', (l', x) ∈ es → l'.place ≠ k.place := by
          intro l' hmem hl'
          refine hfresh (List.mem_map.mpr ⟨l', ?_, hl'.trans hlk.symm⟩)
          exact List.mem_map.mpr ⟨_, hmem, rfl⟩
        rw [if_pos (hsame.mpr hlk)]
        constructor
        · rintro ⟨rfl⟩
          exact ⟨l, List.mem_cons_self, hlk⟩
        · rintro ⟨l', hmem, hl'⟩
          rcases List.mem_cons.mp hmem with heq | hmem
          · rw [(Prod.mk.inj heq).2]
          · exact absurd hl' (hout l' hmem)
      · rw [if_neg fun h => hlk (hsame.mp h), ih hkeys hnodup]
        constructor
        · rintro ⟨l', hmem, hl'⟩
          exact ⟨l', List.mem_cons_of_mem _ hmem, hl'⟩
        · rintro ⟨l', hmem, hl'⟩
          rcases List.mem_cons.mp hmem with heq | hmem
          · exact absurd ((Prod.mk.inj heq).1 ▸ hl') hlk
          · exact ⟨l', hmem, hl'⟩

theorem mem_of_lookup? {k : Value} {x : α} {es : List (Value × α)} (h : lookup? k es = some x) :
    ∃ l, (l, x) ∈ es := by
  induction es with
  | nil => exact nomatch h
  | cons e es ih =>
      obtain ⟨l, y⟩ := e
      rw [lookup?] at h
      split at h
      · cases h
        exact ⟨l, List.mem_cons_self⟩
      · obtain ⟨l', hmem⟩ := ih h
        exact ⟨l', List.mem_cons_of_mem _ hmem⟩

theorem lookup?_eq_of_perm {es fs : List (Value × α)} {k : Value} (hk : k.isKey = true)
    (hkeys : ∀ l ∈ es.map Prod.fst, l.isKey = true) (hd : DistinctKeys (es.map Prod.fst))
    (hperm : es.Perm fs) : lookup? k fs = lookup? k es := by
  have hkeysPerm := hperm.map Prod.fst
  have hnodup := hd.nodup_places hkeys
  have hkeys' : ∀ l ∈ fs.map Prod.fst, l.isKey = true := by
    intro l hl
    exact hkeys l (hkeysPerm.mem_iff.mpr hl)
  refine Option.ext fun x => ?_
  rw [lookup?_eq_some_iff hk x hkeys hnodup,
    lookup?_eq_some_iff hk x hkeys' ((hkeysPerm.map Value.place).nodup_iff.mp hnodup)]
  exact exists_congr fun l => and_congr_left fun _ => hperm.symm.mem_iff

/-! ## Reordered values -/

/-- Values that differ in nothing but the order of entries, at any depth: the
    entries of a dictionary may be permuted, and the values at its keys reordered
    in their turn. -/
inductive Value.Reordered : Value → Value → Prop where
  | refl (v : Value) : v.Reordered v
  | list {xs ys : List Value} (items : List.Forall₂ Value.Reordered xs ys) :
      (Value.list xs).Reordered (.list ys)
  | tuple {xs ys : List Value} (items : List.Forall₂ Value.Reordered xs ys) :
      (Value.tuple xs).Reordered (.tuple ys)
  | dict {es fs gs : List (Value × Value)} (keys : fs.map Prod.fst = es.map Prod.fst)
      (values : List.Forall₂ Value.Reordered (es.map Prod.snd) (fs.map Prod.snd))
      (order : fs.Perm gs) : (Value.dict es).Reordered (.dict gs)

theorem forall₂_reordered_refl (xs : List Value) : List.Forall₂ Value.Reordered xs xs :=
  List.forall₂_same.mpr fun x _ => .refl x

theorem Value.Reordered.of_list {xs : List Value} {w : Value} (h : (Value.list xs).Reordered w) :
    ∃ ys, w = .list ys ∧ List.Forall₂ Value.Reordered xs ys := by
  cases h with
  | refl => exact ⟨xs, rfl, forall₂_reordered_refl xs⟩
  | list items => exact ⟨_, rfl, items⟩

theorem Value.Reordered.of_tuple {xs : List Value} {w : Value}
    (h : (Value.tuple xs).Reordered w) :
    ∃ ys, w = .tuple ys ∧ List.Forall₂ Value.Reordered xs ys := by
  cases h with
  | refl => exact ⟨xs, rfl, forall₂_reordered_refl xs⟩
  | tuple items => exact ⟨_, rfl, items⟩

theorem Value.Reordered.of_dict {es : List (Value × Value)} {w : Value}
    (h : (Value.dict es).Reordered w) :
    ∃ fs gs : List (Value × Value), w = .dict gs ∧ fs.map Prod.fst = es.map Prod.fst ∧
      List.Forall₂ Value.Reordered (es.map Prod.snd) (fs.map Prod.snd) ∧ fs.Perm gs := by
  cases h with
  | refl => exact ⟨es, es, rfl, rfl, forall₂_reordered_refl _, .refl _⟩
  | dict keys values order => exact ⟨_, _, rfl, keys, values, order⟩

theorem Value.Reordered.kind_eq {v w : Value} (h : v.Reordered w) : w.kind = v.kind := by
  cases h <;> rfl

theorem Value.Reordered.comparedAs_eq {v w : Value} (h : v.Reordered w) :
    w.comparedAs = v.comparedAs := by
  cases h <;> rfl

/-- The kinds of values with parts. -/
def containerKinds : List String := ["list", "tuple", "dict"]

/-- Values without parts have no entries to reorder. -/
theorem Value.Reordered.eq_of_leaf {v w : Value} {k : String} (h : v.Reordered w)
    (hk : v.comparedAs = some k) (hleaf : k ∉ containerKinds) : w = v := by
  cases h with
  | refl => rfl
  | list items =>
      cases hk
      exact absurd (by simp [containerKinds]) hleaf
  | tuple items =>
      cases hk
      exact absurd (by simp [containerKinds]) hleaf
  | dict keys values order =>
      cases hk
      exact absurd (by simp [containerKinds]) hleaf

theorem Value.eq_list_of_comparedAs {v : Value} (h : v.comparedAs = some "list") :
    ∃ xs, v = .list xs := by
  cases v <;> simp [Value.comparedAs] at h ⊢

theorem Value.eq_tuple_of_comparedAs {v : Value} (h : v.comparedAs = some "tuple") :
    ∃ xs, v = .tuple xs := by
  cases v <;> simp [Value.comparedAs] at h ⊢

theorem Value.eq_dict_of_comparedAs {v : Value} (h : v.comparedAs = some "dict") :
    ∃ es, v = .dict es := by
  cases v <;> simp [Value.comparedAs] at h ⊢

/-- Whether a dictionary has keys of a common order, no two of them the same; other
    values have no keys. -/
def Value.hasSortableKeys : Value → Bool
  | .dict es => orderedKeys (es.map Prod.fst) && decide (DistinctKeys (es.map Prod.fst))
  | _ => true

theorem Value.hasSortableKeys_dict {es : List (Value × Value)}
    (h : (Value.dict es).hasSortableKeys = true) :
    orderedKeys (es.map Prod.fst) = true ∧ DistinctKeys (es.map Prod.fst) := by
  rwa [Value.hasSortableKeys, Bool.and_eq_true, decide_eq_true_eq] at h

/-- Looking a key up in reordered entries finds a reordered value. -/
theorem lookup?_reordered (k : Value) {es fs : List (Value × Value)}
    (keys : fs.map Prod.fst = es.map Prod.fst)
    (values : List.Forall₂ Value.Reordered (es.map Prod.snd) (fs.map Prod.snd)) :
    Option.Rel Value.Reordered (lookup? k es) (lookup? k fs) := by
  induction es generalizing fs with
  | nil =>
      obtain rfl := List.map_eq_nil_iff.mp keys
      exact .none
  | cons e es ih =>
      obtain ⟨l, x⟩ := e
      cases fs with
      | nil => exact nomatch keys
      | cons f fs =>
          obtain ⟨l', y⟩ := f
          obtain ⟨hl, hkeys⟩ := List.cons.inj keys
          obtain rfl : l' = l := hl
          obtain ⟨hxy, hvalues⟩ := List.forall₂_cons.mp values
          rw [lookup?, lookup?]
          split
          · exact .some hxy
          · exact ih hkeys hvalues

/-! ## Tests of reordered values -/

/-- What the test at a key says, if both dictionaries have the key. -/
def testAt (ts : List (Value × Comparison)) (es : List (Value × Value)) (k : Value) :
    Option Findings :=
  (lookup? k ts).bind fun t => (lookup? k es).map t

theorem testEntries_cons (ts : List (Value × Comparison)) (es : List (Value × Value)) (k : Value)
    (ks : List Value) :
    testEntries ts es (k :: ks) = do
      let fs ← (testAt ts es k).getD (.error (.missingKey k.show))
      let rest ← testEntries ts es ks
      return fs.map (Finding.under (.dict k)) ++ rest := by
  rw [testEntries, testAt]
  cases lookup? k ts with
  | none => rfl
  | some t =>
      cases lookup? k es with
      | none => rfl
      | some v =>
          dsimp only [Option.bind, Option.map, Option.getD]
          cases t v with
          | error e => rfl
          | ok fs => cases testEntries ts es ks <;> rfl

theorem testEntries_congr {ts ts' : List (Value × Comparison)} {es es' : List (Value × Value)}
    {ks : List Value} (h : ∀ k ∈ ks, testAt ts' es' k = testAt ts es k) :
    testEntries ts' es' ks = testEntries ts es ks := by
  induction ks with
  | nil => rfl
  | cons k ks ih =>
      obtain ⟨hk, hks⟩ := List.forall_mem_cons.mp h
      rw [testEntries_cons, testEntries_cons, hk, ih hks]

/-- What a reordered dictionary keeps: its keys are sorted into the same list, and
    looking one of them up finds a reordered value. -/
theorem Value.Reordered.dict_keeps {es gs : List (Value × Value)}
    (h : (Value.dict es).Reordered (.dict gs)) (hes : (Value.dict es).hasSortableKeys = true) :
    sortKeys (gs.map Prod.fst) = sortKeys (es.map Prod.fst) ∧
      ∀ k : Value, k.isKey = true →
        Option.Rel Value.Reordered (lookup? k es) (lookup? k gs) := by
  obtain ⟨hordered, hdistinct⟩ := Value.hasSortableKeys_dict hes
  obtain ⟨fs, gs', hgs, keys, values, order⟩ := h.of_dict
  cases hgs
  have hisKey : ∀ l ∈ fs.map Prod.fst, l.isKey = true := by
    rw [keys]
    exact isKey_of_orderedKeys hordered
  refine ⟨sortKeys_eq_of_perm hordered hdistinct (keys ▸ order.map Prod.fst), ?_⟩
  intro k hk
  rw [lookup?_eq_of_perm hk hisKey (keys ▸ hdistinct) order]
  exact lookup?_reordered k keys values

section

variable [Gauge]

/-- The test that a golden value puts to a value does not depend on the order of
    entries, in either. -/
def OrderFree (g v : Value) : Prop :=
  ∀ g' v', g.Reordered g' → v.Reordered v' → g'.test v' = g.test v

theorem testItems_congr (step : Nat → Step) {gs gs' : List Value}
    (hgs : List.Forall₂ Value.Reordered gs gs') :
    ∀ {vs vs' : List Value}, List.Forall₂ Value.Reordered vs vs' →
      (∀ g ∈ gs, ∀ v ∈ vs, OrderFree g v) → ∀ i,
      testItems step i (Value.tests gs') vs' = testItems step i (Value.tests gs) vs := by
  induction hgs with
  | nil =>
      intro vs vs' _ _ i
      rfl
  | @cons g g' gs gs' hg hgs ih =>
      intro vs vs' hvs hfree i
      cases hvs with
      | nil => rfl
      | cons hv hvs =>
          have hfirst := hfree _ List.mem_cons_self _ List.mem_cons_self _ _ hg hv
          have hrest := ih hvs (fun g hg v hv =>
            hfree g (List.mem_cons_of_mem _ hg) v (List.mem_cons_of_mem _ hv)) (i + 1)
          rw [Value.tests, Value.tests, testItems, testItems, hfirst, hrest]

theorem testSequence_congr (step : Nat → Step) {gs gs' vs vs' : List Value}
    (hgs : List.Forall₂ Value.Reordered gs gs') (hvs : List.Forall₂ Value.Reordered vs vs')
    (hfree : ∀ g ∈ gs, ∀ v ∈ vs, OrderFree g v) :
    testSequence step (Value.tests gs') vs' = testSequence step (Value.tests gs) vs := by
  rw [testSequence, testSequence, tests_length, tests_length, hgs.length_eq, hvs.length_eq,
    testItems_congr step hgs hvs hfree 0]

theorem testAt_congr {k : Value} {ges ges' ves ves' : List (Value × Value)}
    (hg : Option.Rel Value.Reordered (lookup? k ges) (lookup? k ges'))
    (hv : Option.Rel Value.Reordered (lookup? k ves) (lookup? k ves'))
    (hfree : ∀ g v, lookup? k ges = some g → lookup? k ves = some v → OrderFree g v) :
    testAt (Value.entryTests ges') ves' k = testAt (Value.entryTests ges) ves k := by
  rw [testAt, testAt, lookup?_entryTests, lookup?_entryTests]
  generalize lookup? k ges = g at hg hfree ⊢
  generalize lookup? k ves = v at hv hfree ⊢
  generalize lookup? k ges' = g' at hg ⊢
  generalize lookup? k ves' = v' at hv ⊢
  cases hg with
  | none => rfl
  | some hg =>
      cases hv with
      | none => rfl
      | some hv => exact congrArg some (hfree _ _ rfl rfl _ _ hg hv)

/-- Dictionaries: the sorted keys are those of before, and so is the test at each
    of them. -/
theorem testDict_congr {ges ges' ves ves' : List (Value × Value)}
    (hg : (Value.dict ges).Reordered (.dict ges')) (hv : (Value.dict ves).Reordered (.dict ves'))
    (hges : (Value.dict ges).hasSortableKeys = true)
    (hves : (Value.dict ves).hasSortableKeys = true)
    (hfree : ∀ k l g v, (k, g) ∈ ges → (l, v) ∈ ves → OrderFree g v) :
    testDict (Value.entryTests ges') ves' = testDict (Value.entryTests ges) ves := by
  obtain ⟨hgsort, hglookup⟩ := hg.dict_keeps hges
  obtain ⟨hvsort, hvlookup⟩ := hv.dict_keeps hves
  have hgordered := (Value.hasSortableKeys_dict hges).1
  obtain ⟨gkeys, hgkeys, hperm, -⟩ := sortKeys_ranked Value.place _ (ranked_place hgordered)
  have hat : ∀ k ∈ gkeys, testAt (Value.entryTests ges') ves' k
      = testAt (Value.entryTests ges) ves k := by
    intro k hk
    have hkey := isKey_of_orderedKeys hgordered k (hperm.mem_iff.mp hk)
    refine testAt_congr (hglookup k hkey) (hvlookup k hkey) ?_
    intro g v hgk hvk
    obtain ⟨l, hg⟩ := mem_of_lookup? hgk
    obtain ⟨m, hv⟩ := mem_of_lookup? hvk
    exact hfree l m g v hg hv
  rw [testDict, testDict, entryTests_keys, entryTests_keys, hgsort, hvsort, hgkeys]
  simp only [testEntries_congr hat]

/-- Lists and tuples: `wrap` makes the sequence and `step` leads into it. -/
theorem OrderFree.of_sequence_parts (wrap : List Value → Value) (step : Nat → Step)
    {gs vs : List Value}
    (hwrap : ∀ xs w, (wrap xs).Reordered w →
      ∃ ys, w = wrap ys ∧ List.Forall₂ Value.Reordered xs ys)
    (htest : ∀ gs vs, (wrap gs).test (wrap vs) = testSequence step (Value.tests gs) vs)
    (hchild : ∀ xs i x, xs[i]? = some x → (wrap xs).Child (step i) x)
    (hparts : ∀ s t x y, (wrap gs).Child s x → (wrap vs).Child t y → OrderFree x y) :
    OrderFree (wrap gs) (wrap vs) := by
  intro g' v' hg hv
  obtain ⟨gs', rfl, hgs⟩ := hwrap gs g' hg
  obtain ⟨vs', rfl, hvs⟩ := hwrap vs v' hv
  rw [htest, htest]
  refine testSequence_congr step hgs hvs ?_
  intro x hx y hy
  obtain ⟨i, hi⟩ := List.mem_iff_getElem?.mp hx
  obtain ⟨j, hj⟩ := List.mem_iff_getElem?.mp hy
  exact hparts (step i) (step j) x y (hchild gs i x hi) (hchild vs j y hj)

theorem OrderFree.of_dict_parts {ges ves : List (Value × Value)}
    (hges : (Value.dict ges).hasSortableKeys = true)
    (hves : (Value.dict ves).hasSortableKeys = true)
    (hparts : ∀ s t x y, (Value.dict ges).Child s x → (Value.dict ves).Child t y →
      OrderFree x y) : OrderFree (.dict ges) (.dict ves) := by
  intro g' v' hg hv
  obtain ⟨_, ges', rfl, -⟩ := hg.of_dict
  obtain ⟨_, ves', rfl, -⟩ := hv.of_dict
  refine testDict_congr hg hv hges hves ?_
  intro k l x y hx hy
  exact hparts (.dict k) (.dict l) x y (.dict hx) (.dict hy)

/-- One level: parts that do not depend on the order of entries make a whole that
    does not. -/
theorem orderFree_of_parts {g v : Value} (hg : g.hasSortableKeys = true)
    (hv : v.hasSortableKeys = true)
    (hparts : ∀ s t x y, g.Child s x → v.Child t y → OrderFree x y) : OrderFree g v := by
  intro g' v' hgg hvv
  have hgkind : g'.comparedAs = g.comparedAs := hgg.comparedAs_eq
  have hvkind : v'.comparedAs = v.comparedAs := hvv.comparedAs_eq
  cases hk : g.comparedAs with
  | none => rw [test_of_unsupported hk, test_of_unsupported (hgkind.trans hk), hgg.kind_eq]
  | some k =>
      by_cases hvk : v.comparedAs = some k
      · by_cases hcontainer : k ∈ containerKinds
        · -- containers of one kind are looked into
          simp only [containerKinds, List.mem_cons, List.not_mem_nil, or_false] at hcontainer
          rcases hcontainer with rfl | rfl | rfl
          · obtain ⟨gs, rfl⟩ := Value.eq_list_of_comparedAs hk
            obtain ⟨vs, rfl⟩ := Value.eq_list_of_comparedAs hvk
            exact OrderFree.of_sequence_parts .list .list (fun _ _ => Value.Reordered.of_list)
              (fun _ _ => rfl) (fun _ _ _ => .list) hparts _ _ hgg hvv
          · obtain ⟨gs, rfl⟩ := Value.eq_tuple_of_comparedAs hk
            obtain ⟨vs, rfl⟩ := Value.eq_tuple_of_comparedAs hvk
            exact OrderFree.of_sequence_parts .tuple .tuple (fun _ _ => Value.Reordered.of_tuple)
              (fun _ _ => rfl) (fun _ _ _ => .tuple) hparts _ _ hgg hvv
          · obtain ⟨ges, rfl⟩ := Value.eq_dict_of_comparedAs hk
            obtain ⟨ves, rfl⟩ := Value.eq_dict_of_comparedAs hvk
            exact OrderFree.of_dict_parts hg hv hparts _ _ hgg hvv
        · -- leaves of one kind have not changed
          rw [hgg.eq_of_leaf hk hcontainer, hvv.eq_of_leaf hvk hcontainer]
      · -- of sides of different kinds only the kinds are told
        rw [test_of_kind hk hvk, test_of_kind (hgkind.trans hk) (hvkind ▸ hvk), hvv.kind_eq]

/-- **REORDERED VALUES PUT AND PASS THE SAME TESTS.**  Induction on the golden
    value; the value follows it down. -/
theorem orderFree (g : Value) : ∀ v : Value, g.everywhere Value.hasSortableKeys = true →
    v.everywhere Value.hasSortableKeys = true → OrderFree g v := by
  induction g using Value.parts_induction with
  | step g ih =>
      intro v hg hv
      refine orderFree_of_parts (Value.everywhere_self hg) (Value.everywhere_self hv) ?_
      intro s t x y hx hy
      exact ih s x hx y (Value.everywhere_child hg hx) (Value.everywhere_child hv hy)

/-- **THE ORDER OF ENTRIES DOES NOT SHOW.**  Take a value and a golden value in
    which the keys of each dictionary are all strings, or all integers, truth
    values and floats other than not a number.  If both are reordered, at any
    depth, the report gives the same reasons in the same order, or stops with the
    same fault. -/
theorem valueReasons_reordered (c : Context) {value golden value' golden' : Value}
    (hvalue : value.everywhere Value.hasSortableKeys = true)
    (hgolden : golden.everywhere Value.hasSortableKeys = true)
    (hv : value.Reordered value') (hg : golden.Reordered golden') :
    valueReasons c value' golden' = valueReasons c value golden := by
  have htest : golden'.test value' = golden.test value :=
    orderFree golden value hgolden hvalue golden' value' hg hv
  rw [valueReasons, valueReasons, htest]

end

/-- A golden value with dictionaries in a list, one in another, and keys of three
    kinds of numbers. -/
def tangledGolden : Value :=
  .list [.dict [(.int 2, .dict [(.str "b", .int 1), (.str "a", .int 2)]),
    (.float 0.5, .int 3), (.bool true, .str "x")]]

/-- The same, both dictionaries in another order. -/
def untangledGolden : Value :=
  .list [.dict [(.float 0.5, .int 3), (.bool true, .str "x"),
    (.int 2, .dict [(.str "a", .int 2), (.str "b", .int 1)])]]

/-- A value that differs from it in two places, with other spellings of the keys. -/
def tangledValue : Value :=
  .list [.dict [(.float 2.0, .dict [(.str "b", .int 5), (.str "a", .int 2)]),
    (.int 1, .str "x"), (.float 0.5, .int 4)]]

theorem valueReasons_reordered_tangled :
    tangledValue.everywhere Value.hasSortableKeys = true ∧
      tangledGolden.everywhere Value.hasSortableKeys = true ∧
      tangledGolden.Reordered untangledGolden ∧
      valueReasons .empty tangledValue untangledGolden
        = valueReasons .empty tangledValue tangledGolden := by
  have hvalue : tangledValue.everywhere Value.hasSortableKeys = true := by decide +kernel
  have hgolden : tangledGolden.everywhere Value.hasSortableKeys = true := by decide +kernel
  have hinner : (Value.dict [(.str "b", .int 1), (.str "a", .int 2)]).Reordered
      (.dict [(.str "a", .int 2), (.str "b", .int 1)]) :=
    .dict rfl (forall₂_reordered_refl _) (.swap _ _ _)
  have houter : List.Forall₂ Value.Reordered
      [.dict [(.str "b", .int 1), (.str "a", .int 2)], .int 3, .str "x"]
      [.dict [(.str "a", .int 2), (.str "b", .int 1)], .int 3, .str "x"] :=
    .cons hinner (forall₂_reordered_refl _)
  have hreordered : tangledGolden.Reordered untangledGolden := by
    refine .list (.cons ?_ .nil)
    exact @Value.Reordered.dict _ [(.int 2, .dict [(.str "a", .int 2), (.str "b", .int 1)]),
      (.float 0.5, .int 3), (.bool true, .str "x")] _ rfl houter
        ((List.Perm.swap _ _ _).trans ((List.Perm.swap _ _ _).cons _))
  exact ⟨hvalue, hgolden, hreordered,
    valueReasons_reordered .empty hvalue hgolden (.refl _) hreordered⟩

end DialectBench
