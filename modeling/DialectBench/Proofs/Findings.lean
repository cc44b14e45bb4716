import DialectBench.Proofs.Positions
import DialectBench.Report.Trace

/-! # Findings are the mismatching positions

    `Value.test` returns early, descends into three kinds of containers and
    joins what the elements report.  This file shows that for string-keyed
    values and golden values without zeros it always returns, and that its
    findings are EXACTLY the mismatching positions of `MismatchAt`, each once,
    in depth-first order.

    The route: every descent of the test is one loop over the pairs of
    elements that one step reaches in both values (`testPairs`).  If the loop
    runs over exactly those pairs, and each pair reports exactly its own
    mismatches, the container does too (`settled_of_testPairs`).  Lists, tuples
    and dictionaries only have to name their pairs. -/

namespace DialectBench

/-! ## Pairs of elements -/

/-- The pairs of elements of two sequences, numbered from `i` on. -/
def itemPairs (step : Nat → Step) (i : Nat) (vs gs : List Value) :
    List (Step × Value × Value) :=
  ((vs.zip gs).zipIdx i).map fun e => (step e.2, e.1)

theorem mem_itemPairs_iff (step : Nat → Step) (vs gs : List Value) (s : Step)
    (v g : Value) :
    (s, v, g) ∈ itemPairs step 0 vs gs ↔
      ∃ i, s = step i ∧ vs[i]? = some v ∧ gs[i]? = some g := by
  rw [itemPairs, List.mem_map]
  constructor
  · rintro ⟨⟨⟨v', g'⟩, i⟩, hmem, heq⟩
    obtain ⟨rfl, rfl, rfl⟩ : step i = s ∧ v' = v ∧ g' = g := by simpa using heq
    have hget := List.mk_mem_zipIdx_iff_getElem?.mp hmem
    obtain ⟨hv, hg⟩ := List.getElem?_zip_eq_some.mp hget
    exact ⟨i, rfl, hv, hg⟩
  · rintro ⟨i, rfl, hv, hg⟩
    exact ⟨((v, g), i), List.mk_mem_zipIdx_iff_getElem?.mpr
      (List.getElem?_zip_eq_some.mpr ⟨hv, hg⟩), rfl⟩

theorem same_str (a b : String) :
    (Value.str a).same (.str b) = (a == b) := by
  simp [Value.same, Value.sameAtom, Value.number?]

theorem sameAll_strings (as bs : List String) :
    Value.sameAll (as.map Value.str) (bs.map Value.str) = true ↔ as = bs := by
  induction as generalizing bs with
  | nil => cases bs <;> simp [Value.sameAll]
  | cons a as ih => cases bs <;> simp [Value.sameAll, same_str, ih]

/-- Looking up a string finds the entry at it, if each string is there once. -/
theorem lookup?_str_iff {β : Type} (a : String) (x : β) :
    ∀ (es : List (Value × β)) (names : List String),
      es.map Prod.fst = names.map Value.str → names.Nodup →
      (lookup? (.str a) es = some x ↔ (Value.str a, x) ∈ es) := by
  intro es
  induction es with
  | nil =>
      intro names _ _
      exact iff_of_false (fun h => nomatch h) (fun h => nomatch h)
  | cons e es ih =>
      intro names hnames hnodup
      obtain ⟨k, y⟩ := e
      cases names with
      | nil => exact nomatch hnames
      | cons n names =>
          obtain ⟨rfl, hrest⟩ := List.cons.inj hnames
          obtain ⟨hfresh, hnodup⟩ := List.nodup_cons.mp hnodup
          rw [lookup?, same_str, List.mem_cons, Prod.mk.injEq, Value.str.injEq]
          by_cases hna : n = a
          · -- found here, and nowhere further on
            subst hna
            have hout : (Value.str n, x) ∉ es := by
              intro hmem
              have : Value.str n ∈ es.map Prod.fst :=
                List.mem_map.mpr ⟨_, hmem, rfl⟩
              rw [hrest] at this
              exact hfresh (by simpa using this)
            simp [hout, eq_comm]
          · have hne : (n == a) = false := beq_eq_false_iff_ne.mpr hna
            rw [hne]
            simp only [Bool.false_eq_true, if_false]
            rw [ih names hrest hnodup]
            simp [Ne.symm hna]

/-- The pairs of values of two dictionaries at keys that both have. -/
def entryPairs (ves ges : List (Value × Value)) (ks : List Value) :
    List (Step × Value × Value) :=
  ks.filterMap fun k =>
    match lookup? k ves, lookup? k ges with
    | some v, some g => some (.dict k, v, g)
    | _, _ => none

/-- The sort of the keys of a string-keyed dictionary returns them in order. -/
theorem exists_sortedKeys {es : List (Value × Value)} {names : List String}
    (hnames : es.map Prod.fst = names.map Value.str) (hnodup : names.Nodup) :
    ∃ sorted : List String,
      sortKeys (es.map Prod.fst) = .ok (sorted.map Value.str) ∧
      sorted.Pairwise (· < ·) ∧ SortedKeys es (sorted.map Value.str) := by
  obtain ⟨sorted, hsort, hperm, hasc⟩ := sortKeys_strings names hnodup
  refine ⟨sorted, by rw [hnames, hsort], hasc, sorted, rfl, hasc, ?_⟩
  intro k
  rw [hnames]
  exact (hperm.map Value.str).mem_iff

theorem mem_entryPairs_iff {ves ges : List (Value × Value)}
    {vnames gnames sorted : List String}
    (hv : ves.map Prod.fst = vnames.map Value.str) (hvn : vnames.Nodup)
    (hg : ges.map Prod.fst = gnames.map Value.str) (hgn : gnames.Nodup)
    (hkeys : ∀ k, k ∈ sorted.map Value.str ↔ k ∈ ges.map Prod.fst)
    (s : Step) (v g : Value) :
    (s, v, g) ∈ entryPairs ves ges (sorted.map Value.str) ↔
      (Value.dict ves).Child s v ∧ (Value.dict ges).Child s g := by
  rw [entryPairs, List.mem_filterMap, Value.child_dict_iff, Value.child_dict_iff]
  constructor
  · rintro ⟨k, hk, heq⟩
    obtain ⟨a, -, rfl⟩ := List.mem_map.mp hk
    split at heq
    · next v' g' hv' hg' =>
        obtain ⟨rfl, rfl, rfl⟩ : .dict (.str a) = s ∧ v' = v ∧ g' = g := by
          simpa using heq
        exact ⟨⟨_, rfl, (lookup?_str_iff a v' ves vnames hv hvn).mp hv'⟩,
          ⟨_, rfl, (lookup?_str_iff a g' ges gnames hg hgn).mp hg'⟩⟩
    · exact nomatch heq
  · rintro ⟨⟨k, rfl, hcv⟩, ⟨k', hkk, hcg⟩⟩
    obtain rfl := Step.dict.inj hkk
    have hk : k ∈ ges.map Prod.fst := List.mem_map.mpr ⟨_, hcg, rfl⟩
    refine ⟨k, (hkeys k).mpr hk, ?_⟩
    rw [hg] at hk
    obtain ⟨a, -, rfl⟩ := List.mem_map.mp hk
    rw [(lookup?_str_iff a v ves vnames hv hvn).mpr hcv,
      (lookup?_str_iff a g ges gnames hg hgn).mpr hcg]

/-- A string that is a key of a dictionary is found in it. -/
theorem exists_lookup?_of_key {es : List (Value × Value)} {names : List String}
    (hnames : es.map Prod.fst = names.map Value.str) (hnodup : names.Nodup)
    {a : String} (h : Value.str a ∈ es.map Prod.fst) :
    ∃ x, lookup? (.str a) es = some x := by
  obtain ⟨⟨k, x⟩, hmem, hk⟩ := List.mem_map.mp h
  obtain rfl : k = .str a := hk
  exact ⟨x, (lookup?_str_iff a x es names hnames hnodup).mpr hmem⟩

/-- The pairs follow the keys, so their steps are in the order of the keys. -/
theorem entryPairs_ordered (ves ges : List (Value × Value))
    {sorted : List String} (hasc : sorted.Pairwise (· < ·)) :
    ((entryPairs ves ges (sorted.map Value.str)).map Prod.fst).Pairwise
      Step.Before := by
  have hsub : ((entryPairs ves ges (sorted.map Value.str)).map Prod.fst).Sublist
      (sorted.map fun a => Step.dict (.str a)) := by
    induction sorted with
    | nil => exact List.Sublist.refl _
    | cons a sorted ih =>
        have hrest := ih (List.pairwise_cons.mp hasc).2
        rw [List.map_cons, entryPairs, List.filterMap_cons]
        split
        · exact hrest.cons _
        · next q hq =>
            split at hq
            · obtain rfl := Option.some.inj hq
              exact hrest.cons_cons _
            · exact nomatch hq
  have hsteps : (sorted.map fun a => Step.dict (.str a)).Pairwise Step.Before := by
    refine List.pairwise_map.mpr (hasc.imp ?_)
    intro a b hab
    exact hab
  exact hsteps.sublist hsub

theorem chainAll_eq_foldl (places : List String) (c : Context) :
    c.chainAll places = places.foldl Context.chain c := by
  induction places generalizing c with
  | nil => simp [Context.chainAll]
  | cons place places ih =>
      rw [List.foldl_cons, ← ih]
      simp [Context.chainAll, Context.chain]

/-! ## What a test is to find -/

section

variable [Gauge]

/-- Findings that are the mismatching positions, in depth-first order. -/
structure Exact (value golden : Value) (fs : List Finding) : Prop where
  found : ∀ (p : List Step) (m : Mismatch),
    (⟨p, m⟩ : Finding) ∈ fs ↔ MismatchAt value golden p m
  ordered : (fs.map Finding.path).Pairwise (List.Lex Step.Before)

/-- The test returns, and its findings are exact. -/
def Settled (value golden : Value) : Prop :=
  ∃ fs, golden.test value = .ok fs ∧ Exact value golden fs

/-! ## Pairs that are not descended into -/

theorem exact_of_disagree {v g : Value} {m : Mismatch}
    (h : ∀ m', Disagree v g m' ↔ m' = m) : Exact v g [.here m] := by
  refine ⟨?_, List.pairwise_singleton _ _⟩
  intro p m'
  rw [List.mem_singleton, Finding.here, Finding.mk.injEq]
  constructor
  · rintro ⟨rfl, rfl⟩
    exact .here ((h m').mpr rfl)
  · intro hm
    cases hm with
    | here hd => exact ⟨rfl, (h m').mp hd⟩
    | into hagree => exact absurd ((h m).mpr rfl) (hagree m)

/-- A pair that can fail in one way only, and does. -/
theorem exact_of_failed {v g : Value} {m : Mismatch} {P : Prop}
    (hd : ∀ m', Disagree v g m' ↔ P ∧ m' = m) (hP : P) : Exact v g [.here m] := by
  refine exact_of_disagree ?_
  intro m'
  rw [hd m']
  exact ⟨fun h => h.2, fun h => ⟨hP, h⟩⟩

/-- A pair that agrees and has no parts has no mismatching position. -/
theorem exact_of_agree {v g : Value} (hagree : Agree v g)
    (hleaf : ∀ s x, ¬ v.Child s x) : Exact v g [] := by
  refine ⟨?_, List.Pairwise.nil⟩
  intro p m
  refine iff_of_false (fun h => nomatch h) ?_
  intro hm
  cases hm with
  | here hd => exact hagree m hd
  | into _ hv => exact hleaf _ _ hv

/-- Leaves are compared by one test, which words its failure in one way. -/
theorem settled_of_leaf {v g : Value} {m : Mismatch} {P : Prop} [Decidable P]
    (hd : ∀ m', Disagree v g m' ↔ P ∧ m' = m)
    (hleaf : ∀ s x, ¬ v.Child s x)
    (htest : g.test v = if P then .ok [.here m] else .ok []) :
    Settled v g := by
  by_cases hP : P
  · exact ⟨[.here m], by rw [htest, if_pos hP], exact_of_failed hd hP⟩
  · refine ⟨[], by rw [htest, if_neg hP], exact_of_agree ?_ hleaf⟩
    intro m' hm'
    exact hP ((hd m').mp hm').1

theorem test_of_unsupported {g : Value} (h : g.comparedAs = none) (v : Value) :
    g.test v = .ok [.here (.golden g.kind)] := by
  cases g <;> first | rfl | exact nomatch h

theorem test_of_kind {v g : Value} {k : String} (hg : g.comparedAs = some k)
    (hv : v.comparedAs ≠ some k) : g.test v = .ok [.here (.kind k v.kind)] := by
  cases g <;> cases hg <;> cases v <;>
    first | rfl | exact absurd rfl hv

theorem settled_of_unsupported {v g : Value} (h : g.comparedAs = none) :
    Settled v g :=
  ⟨[.here (.golden g.kind)], test_of_unsupported h v,
    exact_of_disagree (disagree_iff_of_unsupported h)⟩

theorem settled_of_kind {v g : Value} {k : String}
    (hg : g.comparedAs = some k) (hv : v.comparedAs ≠ some k) :
    Settled v g :=
  ⟨[.here (.kind k v.kind)], test_of_kind hg hv,
    exact_of_disagree (disagree_iff_of_kind hg hv)⟩

theorem settled_float (x y : Float) (hy : (y == 0.0) = false) :
    Settled (.float x) (.float y) := by
  refine settled_of_leaf (disagree_float_iff x y) (fun s x h => nomatch h) ?_
  show testFloat x y = _
  rw [testFloat, hy]
  rfl

theorem settled_int {v g : Value} {a b : Int} (hv : v.int? = some a)
    (hg : g.int? = some b) : Settled v g := by
  refine settled_of_leaf (disagree_int_iff hv hg) ?_ ?_
  · intro s x h
    cases h <;> exact nomatch hv
  · have htest : g.test v = testInt g b v := by
      cases g <;> cases hg <;> rfl
    rw [htest, testInt, hv]
    simp

theorem settled_str (s t : String) : Settled (.str s) (.str t) := by
  refine settled_of_leaf (disagree_str_iff s t) (fun s x h => nomatch h) ?_
  show (if s != t then _ else _) = _
  simp [Finding.here]

/-- Tensors are looked at three times, and only the first failure counts. -/
theorem settled_tensor (t u : Tensor) : Settled (.tensor t) (.tensor u) := by
  refine ⟨testTensor t u, rfl, ?_⟩
  unfold testTensor
  by_cases hshape : t.shape? = u.shape?
  · by_cases hdtype : t.dtype? = u.dtype?
    · cases hclose : Gauge.close t u with
      | false =>
          simp only [hshape, hdtype, bne_self_eq_false, Bool.false_eq_true,
            if_false, Bool.not_false, if_true]
          refine exact_of_disagree fun m => ?_
          constructor
          · intro h
            cases h <;> first | rfl | contradiction
          · rintro rfl
            exact .tensor hshape hdtype hclose
      | true =>
          simp only [hshape, hdtype, bne_self_eq_false, Bool.false_eq_true,
            if_false, Bool.not_true]
          refine exact_of_agree ?_ (fun s x h => nomatch h)
          intro m h
          cases h with
          | tensor _ _ hc => rw [hclose] at hc; exact nomatch hc
          | _ => contradiction
    · have hne : (t.dtype? != u.dtype?) = true := bne_iff_ne.mpr hdtype
      simp only [hshape, hne, bne_self_eq_false, Bool.false_eq_true, if_false,
        if_true]
      refine exact_of_disagree fun m => ?_
      constructor
      · intro h
        cases h <;> first | rfl | contradiction
      · rintro rfl
        exact .dtype hshape hdtype
  · have hne : (t.shape? != u.shape?) = true := bne_iff_ne.mpr hshape
    simp only [hne, if_true]
    refine exact_of_disagree fun m => ?_
    constructor
    · intro h
      cases h <;> first | rfl | contradiction
    · rintro rfl
      exact .shape hshape

/-! ## The loop over pairs of elements -/

/-- Tests pairs of a value and a golden value, each reached by a step. -/
def testPairs : List (Step × Value × Value) → Findings
  | [] => .ok []
  | (s, v, g) :: rest =>
    match g.test v with
    | .error e => .error e
    | .ok fs =>
      match testPairs rest with
      | .error e => .error e
      | .ok more => .ok (fs.map (Finding.under s) ++ more)

/-- **THE LOOP LOSES NOTHING AND ADDS NOTHING**: if the steps are in order and
    every pair is settled, the findings are those of the pairs, each below its
    own step, in depth-first order. -/
theorem testPairs_settled (pairs : List (Step × Value × Value))
    (hsteps : (pairs.map Prod.fst).Pairwise Step.Before)
    (hpairs : ∀ s v g, (s, v, g) ∈ pairs → Settled v g) :
    ∃ fs, testPairs pairs = .ok fs ∧
      (∀ p m, (⟨p, m⟩ : Finding) ∈ fs ↔ ∃ s v g p', (s, v, g) ∈ pairs ∧
        p = s :: p' ∧ MismatchAt v g p' m) ∧
      (fs.map Finding.path).Pairwise (List.Lex Step.Before) := by
  induction pairs with
  | nil =>
      refine ⟨[], rfl, ?_, List.Pairwise.nil⟩
      intro p m
      exact iff_of_false (fun h => nomatch h)
        (fun ⟨s, v, g, p', h, _⟩ => nomatch h)
  | cons q rest ih =>
      obtain ⟨s, v, g⟩ := q
      obtain ⟨hfirst, hlater⟩ := List.pairwise_cons.mp hsteps
      obtain ⟨fs, htest, hexact⟩ := hpairs s v g (List.mem_cons_self ..)
      obtain ⟨more, hmore, hfound, hordered⟩ := ih hlater
        (fun s' v' g' h => hpairs s' v' g' (List.mem_cons_of_mem _ h))
      refine ⟨fs.map (Finding.under s) ++ more, ?_, ?_, ?_⟩
      · rw [testPairs, htest]
        simp only [hmore]
      · intro p m
        rw [List.mem_append, hfound p m, List.mem_map]
        constructor
        · rintro (⟨⟨p', m'⟩, hmem, heq⟩ | ⟨s', v', g', p', hmem, heq, hm⟩)
          · rw [Finding.under, Finding.mk.injEq] at heq
            obtain ⟨rfl, rfl⟩ := heq
            exact ⟨s, v, g, p', List.mem_cons_self .., rfl,
              (hexact.found p' m').mp hmem⟩
          · exact ⟨s', v', g', p', List.mem_cons_of_mem _ hmem, heq, hm⟩
        · rintro ⟨s', v', g', p', hmem, rfl, hm⟩
          rcases List.mem_cons.mp hmem with heq | hmem
          · obtain ⟨rfl, rfl, rfl⟩ : s' = s ∧ v' = v ∧ g' = g := by
              simpa using heq
            exact Or.inl ⟨⟨p', m⟩, (hexact.found p' m).mpr hm, rfl⟩
          · exact Or.inr ⟨s', v', g', p', hmem, rfl, hm⟩
      · rw [List.map_append, List.map_map]
        refine List.pairwise_append.mpr ⟨?_, hordered, ?_⟩
        · -- one step in front of all paths changes nothing about their order
          have hunder : (Finding.path ∘ Finding.under s)
              = fun f => s :: f.path := rfl
          rw [hunder, List.pairwise_map]
          exact (List.pairwise_map.mp hexact.ordered).imp
            fun h => List.Lex.cons h
        · -- paths below an earlier step come before all paths below a later one
          intro p hp q hq
          obtain ⟨f, -, rfl⟩ := List.mem_map.mp hp
          obtain ⟨⟨q', m⟩, hmem, rfl⟩ := List.mem_map.mp hq
          obtain ⟨s', v', g', p', hmem', rfl, -⟩ := (hfound q' m).mp hmem
          exact List.Lex.rel (hfirst s' (List.mem_map.mpr ⟨_, hmem', rfl⟩))

/-- A container is settled when its test runs over exactly the pairs that one
    step reaches, and all of these are settled. -/
theorem settled_of_testPairs {v g : Value} (pairs : List (Step × Value × Value))
    (htest : g.test v = testPairs pairs) (hagree : Agree v g)
    (hsteps : (pairs.map Prod.fst).Pairwise Step.Before)
    (hmem : ∀ s v' g', (s, v', g') ∈ pairs ↔ v.Child s v' ∧ g.Child s g')
    (hparts : ∀ s v' g', v.Child s v' → g.Child s g' → Settled v' g') :
    Settled v g := by
  obtain ⟨fs, hfs, hfound, hordered⟩ := testPairs_settled pairs hsteps
    (fun s v' g' h => hparts s v' g' ((hmem s v' g').mp h).1
      ((hmem s v' g').mp h).2)
  refine ⟨fs, htest.trans hfs, ?_, hordered⟩
  intro p m
  rw [hfound p m]
  constructor
  · rintro ⟨s, v', g', p', hpair, rfl, hm⟩
    obtain ⟨hv, hg⟩ := (hmem s v' g').mp hpair
    exact .into hagree hv hg hm
  · intro hm
    cases hm with
    | here hd => exact absurd hd (hagree m)
    | into _ hv hg hm => exact ⟨_, _, _, _, (hmem _ _ _).mpr ⟨hv, hg⟩, rfl, hm⟩

/-! ## Sequences -/

theorem testItems_eq_testPairs (step : Nat → Step) :
    ∀ (gs vs : List Value) (i : Nat),
      testItems step i (Value.tests gs) vs
        = testPairs (itemPairs step i vs gs) := by
  intro gs
  induction gs with
  | nil =>
      intro vs i
      simp [itemPairs, testPairs, Value.tests, testItems]
  | cons g gs ih =>
      intro vs i
      cases vs with
      | nil => simp [itemPairs, testPairs, Value.tests, testItems]
      | cons v vs =>
          have hpairs : itemPairs step i (v :: vs) (g :: gs)
              = (step i, v, g) :: itemPairs step (i + 1) vs gs := rfl
          rw [hpairs, testPairs, ← ih vs (i + 1)]
          rfl

theorem tests_length (gs : List Value) :
    (Value.tests gs).length = gs.length := by
  induction gs with
  | nil => rfl
  | cons g gs ih => rw [Value.tests, List.length_cons, ih, List.length_cons]

/-- Lists and tuples: `wrap` makes the sequence and `step` leads into it. -/
theorem settled_sequence (wrap : List Value → Value) (step : Nat → Step)
    (vs gs : List Value)
    (hkind : (wrap vs).comparedAs = (wrap gs).comparedAs)
    (hitems : ∀ xs, (wrap xs).items? = some xs)
    (htest : (wrap gs).test (wrap vs) = testSequence step (Value.tests gs) vs)
    (hchild : ∀ xs s x, (wrap xs).Child s x ↔ ∃ i, s = step i ∧ xs[i]? = some x)
    (hinj : ∀ i j, step i = step j → i = j)
    (hbefore : ∀ i j, i < j → (step i).Before (step j))
    (hparts : ∀ s v' g', (wrap vs).Child s v' → (wrap gs).Child s g' →
      Settled v' g') :
    Settled (wrap vs) (wrap gs) := by
  have hdis := disagree_items_iff hkind (hitems vs) (hitems gs)
  rw [testSequence, tests_length] at htest
  by_cases hlen : vs.length = gs.length
  · simp only [hlen, bne_self_eq_false, Bool.false_eq_true, if_false,
      testItems_eq_testPairs] at htest
    refine settled_of_testPairs _ htest ?_ ?_ ?_ hparts
    · intro m hm
      exact ((hdis m).mp hm).1 hlen
    · -- the steps are numbered by position, and positions ascend
      rw [itemPairs, List.map_map]
      refine List.pairwise_map.mpr ?_
      have hidx : (((vs.zip gs).zipIdx 0).map Prod.snd).Pairwise (· < ·) := by
        rw [List.zipIdx_map_snd]
        exact List.pairwise_lt_range'
      exact (List.pairwise_map.mp hidx).imp fun h => hbefore _ _ h
    · intro s v' g'
      rw [mem_itemPairs_iff, hchild, hchild]
      constructor
      · rintro ⟨i, rfl, hv, hg⟩
        exact ⟨⟨i, rfl, hv⟩, ⟨i, rfl, hg⟩⟩
      · rintro ⟨⟨i, rfl, hv⟩, ⟨j, hij, hg⟩⟩
        obtain rfl := hinj i j hij
        exact ⟨i, rfl, hv, hg⟩
  · have hne : (vs.length != gs.length) = true := bne_iff_ne.mpr hlen
    simp only [hne, if_true] at htest
    exact ⟨_, htest, exact_of_failed hdis hlen⟩

theorem settled_list (vs gs : List Value)
    (hparts : ∀ s v' g', (Value.list vs).Child s v' → (Value.list gs).Child s g' →
      Settled v' g') : Settled (.list vs) (.list gs) :=
  settled_sequence .list .list vs gs rfl (fun _ => rfl) rfl
    Value.child_list_iff (fun _ _ h => Step.list.inj h) (fun _ _ h => h) hparts

theorem settled_tuple (vs gs : List Value)
    (hparts : ∀ s v' g', (Value.tuple vs).Child s v' → (Value.tuple gs).Child s g' →
      Settled v' g') : Settled (.tuple vs) (.tuple gs) :=
  settled_sequence .tuple .tuple vs gs rfl (fun _ => rfl) rfl
    Value.child_tuple_iff (fun _ _ h => Step.tuple.inj h) (fun _ _ h => h) hparts

/-! ## Dictionaries -/

theorem lookup?_entryTests (k : Value) (es : List (Value × Value)) :
    lookup? k (Value.entryTests es) = (lookup? k es).map Value.test := by
  induction es with
  | nil => rfl
  | cons e es ih =>
      obtain ⟨k', g⟩ := e
      rw [Value.entryTests, lookup?, lookup?, ih]
      split <;> rfl

theorem entryTests_keys (es : List (Value × Value)) :
    (Value.entryTests es).map Prod.fst = es.map Prod.fst := by
  induction es with
  | nil => rfl
  | cons e es ih => rw [Value.entryTests, List.map_cons, ih, List.map_cons]

theorem testEntries_eq_testPairs (ves ges : List (Value × Value)) :
    ∀ ks : List Value,
      (∀ k ∈ ks, (∃ v, lookup? k ves = some v) ∧ ∃ g, lookup? k ges = some g) →
      testEntries (Value.entryTests ges) ves ks
        = testPairs (entryPairs ves ges ks) := by
  intro ks
  induction ks with
  | nil => intro _; rfl
  | cons k ks ih =>
      intro hks
      obtain ⟨⟨v, hv⟩, ⟨g, hg⟩⟩ := hks k (List.mem_cons_self ..)
      have hpairs : entryPairs ves ges (k :: ks)
          = (.dict k, v, g) :: entryPairs ves ges ks := by
        rw [entryPairs, List.filterMap_cons]
        simp only [hv, hg]
        rfl
      rw [hpairs, testPairs, testEntries, lookup?_entryTests, hg, hv,
        ← ih fun k' hk' => hks k' (List.mem_cons_of_mem _ hk')]
      rfl

theorem settled_dict (ves ges : List (Value × Value))
    (hv : (Value.dict ves).hasStringKeys = true)
    (hg : (Value.dict ges).hasStringKeys = true)
    (hparts : ∀ s v' g', (Value.dict ves).Child s v' →
      (Value.dict ges).Child s g' → Settled v' g') :
    Settled (.dict ves) (.dict ges) := by
  obtain ⟨vnames, hvkeys, hvnodup⟩ := Value.hasStringKeys_dict hv
  obtain ⟨gnames, hgkeys, hgnodup⟩ := Value.hasStringKeys_dict hg
  obtain ⟨vsorted, hvsort, -, hvs⟩ := exists_sortedKeys hvkeys hvnodup
  obtain ⟨gsorted, hgsort, hgasc, hgs⟩ := exists_sortedKeys hgkeys hgnodup
  have hdis := disagree_dict_iff hvs hgs
  have htest : (Value.dict ges).test (.dict ves)
      = if !Value.sameAll (gsorted.map Value.str) (vsorted.map Value.str)
        then .ok [.here (.keys (vsorted.map Value.str) (gsorted.map Value.str))]
        else testEntries (Value.entryTests ges) ves (gsorted.map Value.str) := by
    show testDict (Value.entryTests ges) ves = _
    rw [testDict, entryTests_keys, hgsort, hvsort]
  by_cases hsame : SameKeys ves ges
  · have heq : gsorted = vsorted :=
      (List.map_injective_iff.mpr fun _ _ => Value.str.inj)
        (hvs.unique hgs hsame).symm
    rw [(sameAll_strings _ _).mpr heq] at htest
    -- every key of the golden dictionary is found on both sides
    have hfound : ∀ k ∈ gsorted.map Value.str,
        (∃ v, lookup? k ves = some v) ∧ ∃ g, lookup? k ges = some g := by
      intro k hk
      have hkg := (hgs.mem_iff k).mp hk
      obtain ⟨a, -, rfl⟩ := List.mem_map.mp hk
      exact ⟨exists_lookup?_of_key hvkeys hvnodup ((hsame _).mpr hkg),
        exists_lookup?_of_key hgkeys hgnodup hkg⟩
    rw [testEntries_eq_testPairs ves ges _ hfound] at htest
    refine settled_of_testPairs _ htest ?_ (entryPairs_ordered ves ges hgasc)
      (mem_entryPairs_iff hvkeys hvnodup hgkeys hgnodup hgs.mem_iff) hparts
    intro m hm
    exact ((hdis m).mp hm).1 hsame
  · have hne : gsorted ≠ vsorted := by
      rintro rfl
      exact hsame fun k => (hvs.mem_iff k).symm.trans (hgs.mem_iff k)
    have hfalse : Value.sameAll (gsorted.map Value.str) (vsorted.map Value.str)
        = false := by
      rw [← Bool.not_eq_true, sameAll_strings]
      exact hne
    rw [hfalse] at htest
    exact ⟨_, htest, exact_of_failed hdis hsame⟩

/-! ## All values -/

/-- **EVERY PAIR IS SETTLED**, by induction on the parts of the golden value:
    a pair of one kind is settled by its kind's lemma, any other by
    `settled_of_kind`. -/
theorem settled_of_stringKeyed (golden : Value) :
    ∀ value : Value, value.everywhere Value.hasStringKeys = true →
      golden.everywhere Value.hasStringKeys = true →
      golden.everywhere Value.isNoZero = true → Settled value golden := by
  induction golden using Value.parts_induction with
  | step g ih =>
      intro v hv hg hz
      have hparts : ∀ s v' g', v.Child s v' → g.Child s g' → Settled v' g' := by
        intro s v' g' hcv hcg
        exact ih s g' hcg v' (Value.everywhere_child hv hcv)
          (Value.everywhere_child hg hcg) (Value.everywhere_child hz hcg)
      -- one case for each kind of golden value; truth values count as integers
      cases g with
      | float y =>
          cases v with
          | float x =>
              exact settled_float x y
                (by simpa [Value.isNoZero] using Value.everywhere_self hz)
          | _ => exact settled_of_kind rfl (by simp [Value.comparedAs])
      | bool b =>
          cases v with
          | bool a => exact settled_int rfl rfl
          | int n => exact settled_int rfl rfl
          | _ => exact settled_of_kind rfl (by simp [Value.comparedAs])
      | int m =>
          cases v with
          | bool a => exact settled_int rfl rfl
          | int n => exact settled_int rfl rfl
          | _ => exact settled_of_kind rfl (by simp [Value.comparedAs])
      | str t =>
          cases v with
          | str s => exact settled_str s t
          | _ => exact settled_of_kind rfl (by simp [Value.comparedAs])
      | tuple gs =>
          cases v with
          | tuple vs => exact settled_tuple vs gs hparts
          | _ => exact settled_of_kind rfl (by simp [Value.comparedAs])
      | list gs =>
          cases v with
          | list vs => exact settled_list vs gs hparts
          | _ => exact settled_of_kind rfl (by simp [Value.comparedAs])
      | dict ges =>
          cases v with
          | dict ves =>
              exact settled_dict ves ges (Value.everywhere_self hv)
                (Value.everywhere_self hg) hparts
          | _ => exact settled_of_kind rfl (by simp [Value.comparedAs])
      | tensor u =>
          cases v with
          | tensor t => exact settled_tensor t u
          | _ => exact settled_of_kind rfl (by simp [Value.comparedAs])
      | _ => exact settled_of_unsupported rfl

/-- Without a mismatching position the two values agree wherever a path leads
    into both, and the other way round. -/
theorem no_mismatch_iff_agree (v g : Value) :
    (∀ p m, ¬ MismatchAt v g p m) ↔
      ∀ p v' g', v.At p v' → g.At p g' → Agree v' g' := by
  constructor
  · intro h p
    induction p generalizing v g with
    | nil =>
        intro v' g' hv hg
        cases hv
        cases hg
        intro m hd
        exact h [] m (.here hd)
    | cons s p ih =>
        intro v' g' hv hg
        cases hv with
        | into hcv hv =>
            cases hg with
            | into hcg hg =>
                have hagree : Agree v g := fun m hd => h [] m (.here hd)
                exact ih _ _ (fun q m hm => h (s :: q) m (.into hagree hcv hcg hm))
                  v' g' hv hg
  · intro h p m hm
    induction hm with
    | here hd => exact h [] _ _ (.here _) (.here _) _ hd
    | into _ hcv hcg _ ih =>
        exact ih fun q v' g' hv hg => h (_ :: q) v' g' (.into hcv hv) (.into hcg hg)

/-- **REPORTS ARE EXACT**: on string-keyed values without golden zeros the
    comparison returns; its reasons are the mismatching positions, each of
    them once and in depth-first order; each reason is worded in the context
    chained with one place a step; and there is no reason exactly when the two
    values agree at every position. -/
theorem valueReasons_exact (c : Context) (value golden : Value)
    (hv : value.everywhere Value.hasStringKeys = true)
    (hg : golden.everywhere Value.hasStringKeys = true)
    (hz : golden.everywhere Value.isNoZero = true) :
    ∃ fs : List Finding,
      valueReasons c value golden = .ok (fs.map fun f =>
        ((f.path.map Step.text).foldl Context.chain c).format f.cause.message) ∧
      (∀ p m, (⟨p, m⟩ : Finding) ∈ fs ↔ MismatchAt value golden p m) ∧
      (fs.map Finding.path).Pairwise (List.Lex Step.Before) ∧
      (fs.map Finding.path).Nodup ∧
      (valueReasons c value golden = .ok [] ↔
        ∀ p v' g', value.At p v' → golden.At p g' → Agree v' g') := by
  obtain ⟨fs, htest, hfound, hordered⟩ :=
    settled_of_stringKeyed golden value hv hg hz
  have hreasons : valueReasons c value golden = .ok (fs.map fun f =>
      ((f.path.map Step.text).foldl Context.chain c).format f.cause.message) := by
    rw [valueReasons, htest]
    refine congrArg Except.ok (List.map_congr_left fun f _ => ?_)
    rw [Finding.report, chainAll_eq_foldl]
  refine ⟨fs, hreasons, hfound, hordered, ?_, ?_⟩
  · refine hordered.imp ?_
    rintro p q hlex rfl
    exact List.lex_irrefl Step.before_irrefl p hlex
  · rw [← no_mismatch_iff_agree, hreasons, Except.ok.injEq, List.map_eq_nil_iff]
    constructor
    · rintro rfl p m hm
      exact nomatch (hfound p m).mpr hm
    · intro hnone
      refine List.eq_nil_iff_forall_not_mem.mpr ?_
      rintro ⟨p, m⟩ hmem
      exact hnone p m ((hfound p m).mp hmem)

end

/-- A golden value with a part that is not compared. -/
def nestedGolden : Value :=
  .dict [(.str "b", .list [.int 1, .tuple [.bool true, .float 2.0]]),
    (.str "a", .none)]

/-- A value that differs from `nestedGolden` in the last element of its tuple. -/
def nestedValue : Value :=
  .dict [(.str "a", .none),
    (.str "b", .list [.int 1, .tuple [.int 1, .str "two"]])]

theorem valueReasons_exact_nested :
    nestedValue.everywhere Value.hasStringKeys = true ∧
    nestedGolden.everywhere Value.hasStringKeys = true ∧
    nestedGolden.everywhere Value.isNoZero = true ∧
    ∃ fs : List Finding,
      valueReasons .empty nestedValue nestedGolden = .ok (fs.map fun f =>
        ((f.path.map Step.text).foldl Context.chain .empty).format
          f.cause.message) ∧
      (∀ p m, (⟨p, m⟩ : Finding) ∈ fs ↔
        MismatchAt nestedValue nestedGolden p m) ∧
      (fs.map Finding.path).Pairwise (List.Lex Step.Before) ∧
      (fs.map Finding.path).Nodup ∧
      (valueReasons .empty nestedValue nestedGolden = .ok [] ↔
        ∀ p v' g', nestedValue.At p v' → nestedGolden.At p g' → Agree v' g') := by
  have hv : nestedValue.everywhere Value.hasStringKeys = true := by decide
  have hg : nestedGolden.everywhere Value.hasStringKeys = true := by decide
  have hz : nestedGolden.everywhere Value.isNoZero = true := by decide
  exact ⟨hv, hg, hz, valueReasons_exact .empty nestedValue nestedGolden hv hg hz⟩

example : valueReasons .empty nestedValue nestedGolden = .ok
    ["@ dict element at key 'a'\nERROR: unexpected golden value of type `NoneType`",
      "@ dict element at key 'b'\n@ list element 1\n@ tuple element 1\n" ++
        "ERROR: expected a value of type `float` but got `str`"] := by
  rfl

end DialectBench
