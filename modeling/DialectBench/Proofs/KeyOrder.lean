import Mathlib.Data.String.Basic
import Mathlib.Data.List.Sort
import DialectBench.Value.Key

/-! # Sorting the keys of a dictionary

    `sortKeys` keeps the run at the start of the keys and inserts the others
    into it by halving.  It compares keys by `lt?`, which fails on keys of
    different kinds, so neither that it returns nor that it sorts is clear.

    This file shows both wherever the keys are RANKED: some map into a linear
    order decides every comparison that the sort can make.  The result is then
    a permutation of the keys in ascending order (`sortKeys_ranked`).  Strings
    are ranked by themselves (`sortKeys_strings`). -/

namespace DialectBench

variable {α : Type} [LinearOrder α]

/-- Among these keys, one is below another exactly when its rank is. -/
def Ranked (rank : Value → α) (ks : List Value) : Prop :=
  ∀ a ∈ ks, ∀ b ∈ ks, a.lt? b = some (decide (rank a < rank b))

/-- Keys in ascending order of their ranks. -/
def Ascending (rank : Value → α) (ks : List Value) : Prop :=
  ks.Pairwise fun a b => rank a ≤ rank b

theorem Ranked.subset {rank : Value → α} {ks ls : List Value}
    (h : Ranked rank ks) (hsub : ls ⊆ ks) : Ranked rank ls := by
  intro a ha b hb
  exact h a (hsub ha) b (hsub hb)

/-- Ascending pieces whose borders are in order make an ascending whole. -/
theorem ascending_append {rank : Value → α} {xs ys : List Value} {x : Value}
    (hxs : Ascending rank xs) (hys : Ascending rank ys)
    (hlow : ∀ a ∈ xs, rank a ≤ rank x) (hhigh : ∀ b ∈ ys, rank x ≤ rank b) :
    Ascending rank (xs ++ x :: ys) := by
  refine List.pairwise_append.mpr ⟨hxs, List.pairwise_cons.mpr ⟨hhigh, hys⟩, ?_⟩
  intro a ha b hb
  rcases List.mem_cons.mp hb with rfl | hb
  · exact hlow a ha
  · exact le_trans (hlow a ha) (hhigh b hb)

/-! ## Insertion by halving -/

/-- A list that is not empty is cut by its middle element. -/
private theorem take_middle_drop {xs above : List Value} {x : Value}
    (h : xs.drop (xs.length / 2) = x :: above) :
    xs = xs.take (xs.length / 2) ++ x :: above := by
  rw [← h, List.take_append_drop]

/-- **INSERTION KEEPS THE ORDER** and loses nothing.  Induction on the number
    of halvings allowed: each leaves a half that is shorter by one at least. -/
theorem insertWithin_ranked (rank : Value → α) (k : Value) :
    ∀ (fuel : Nat) (xs : List Value), xs.length ≤ fuel →
      Ranked rank (k :: xs) → Ascending rank xs →
      ∃ ys, insertWithin k fuel xs = .ok ys ∧ ys.Perm (k :: xs) ∧
        Ascending rank ys := by
  intro fuel
  induction fuel with
  | zero =>
      intro xs hlen _ _
      obtain rfl := List.length_eq_zero_iff.mp (Nat.le_zero.mp hlen)
      exact ⟨[k], rfl, List.Perm.refl _, List.pairwise_singleton _ k⟩
  | succ fuel ih =>
      intro xs hlen hrank hasc
      cases hdrop : xs.drop (xs.length / 2) with
      | nil =>
          have hnil : xs = [] := by
            have := List.drop_eq_nil_iff.mp hdrop
            exact List.length_eq_zero_iff.mp (by omega)
          subst hnil
          exact ⟨[k], rfl, List.Perm.refl _, List.pairwise_singleton _ k⟩
      | cons x above =>
          have hcut := take_middle_drop hdrop
          generalize hbelow : xs.take (xs.length / 2) = below at hcut
          have hsizes : below.length ≤ fuel ∧ above.length ≤ fuel := by
            have h₁ : below.length = min (xs.length / 2) xs.length := by
              rw [← hbelow, List.length_take]
            have h₂ := congrArg List.length hcut
            rw [List.length_append, List.length_cons] at h₂
            omega
          have hright : x :: above ⊆ xs := by
            rw [hcut]
            exact List.subset_append_right below (x :: above)
          have hleft : below ⊆ xs := by
            rw [hcut]
            exact List.subset_append_left below (x :: above)
          have hlt : k.lt? x = some (decide (rank k < rank x)) :=
            hrank k List.mem_cons_self x
              (List.mem_cons_of_mem k (hright List.mem_cons_self))
          have hparts := hcut ▸ hasc
          obtain ⟨hb, hxa, hcross⟩ := List.pairwise_append.mp hparts
          obtain ⟨hxabove, ha⟩ := List.pairwise_cons.mp hxa
          rw [insertWithin, hdrop]
          simp only [hbelow, hlt]
          by_cases hkx : rank k < rank x
          · -- the key goes into the lower half, and the middle stays above it
            obtain ⟨ys, hys, hperm, hyasc⟩ := ih below hsizes.1
              (hrank.subset (List.cons_subset_cons k hleft)) hb
            rw [decide_eq_true hkx]
            refine ⟨ys ++ x :: above, by rw [hys]; rfl, ?_, ?_⟩
            · rw [hcut]
              exact hperm.append_right (x :: above)
            · refine ascending_append hyasc ha ?_ hxabove
              intro a hmem
              rcases List.mem_cons.mp (hperm.mem_iff.mp hmem) with rfl | hmem
              · exact le_of_lt hkx
              · exact hcross a hmem x (List.mem_cons_self ..)
          · -- keys that are not below the middle go behind it, equal ones too
            obtain ⟨ys, hys, hperm, hyasc⟩ := ih above hsizes.2
              (hrank.subset (List.cons_subset_cons k
                (List.Subset.trans (List.subset_cons_self x above) hright))) ha
            rw [decide_eq_false hkx]
            refine ⟨below ++ x :: ys, by rw [hys]; rfl, ?_, ?_⟩
            · rw [hcut]
              exact ((hperm.cons x).append_left below).trans
                ((List.Perm.swap k x above).append_left below |>.trans
                  List.perm_middle)
            · refine ascending_append hb hyasc ?_ ?_
              · intro a hmem
                exact hcross a hmem x (List.mem_cons_self ..)
              · intro b hmem
                rcases List.mem_cons.mp (hperm.mem_iff.mp hmem) with rfl | hmem
                · exact le_of_not_gt hkx
                · exact hxabove b hmem

theorem insertKeys_ranked (rank : Value → α) :
    ∀ (ks acc : List Value), Ranked rank (ks ++ acc) → Ascending rank acc →
      ∃ ys, insertKeys ks acc = .ok ys ∧ ys.Perm (ks ++ acc) ∧
        Ascending rank ys := by
  intro ks
  induction ks with
  | nil =>
      intro acc _ hasc
      exact ⟨acc, rfl, List.Perm.refl _, hasc⟩
  | cons k ks ih =>
      intro acc hrank hasc
      obtain ⟨acc', hacc', hperm', hasc'⟩ :=
        insertWithin_ranked rank k acc.length acc (Nat.le_refl _)
          (hrank.subset (List.cons_subset_cons k (List.subset_append_right ks acc))) hasc
      have hperm'' : (ks ++ acc').Perm (k :: ks ++ acc) :=
        (hperm'.append_left ks).trans List.perm_middle
      obtain ⟨ys, hys, hperm, hyasc⟩ := ih acc' (hrank.subset hperm''.subset) hasc'
      refine ⟨ys, ?_, ?_, hyasc⟩
      · rw [insertKeys, insertKey, hacc']
        exact hys
      · exact hperm.trans hperm''

/-! ## The run at the start -/

/-- A run goes on in its direction and what is cut off stays as it is. -/
theorem cutRun_ranked (rank : Value → α) (down : Bool) :
    ∀ (ks : List Value) (last : Value), Ranked rank (last :: ks) →
      ∃ run rest, cutRun down last ks = .ok (run, rest) ∧ ks = run ++ rest ∧
        (last :: run).Pairwise fun a b =>
          if down then rank b ≤ rank a else rank a ≤ rank b := by
  intro ks
  induction ks with
  | nil =>
      intro last _
      exact ⟨[], [], rfl, rfl, List.pairwise_singleton _ last⟩
  | cons k ks ih =>
      intro last hrank
      have hlt : k.lt? last = some (decide (rank k < rank last)) :=
        hrank k (by simp) last (by simp)
      rw [cutRun, hlt]
      by_cases hdir : decide (rank k < rank last) = down
      · obtain ⟨run, rest, hcut, hks, hpair⟩ := ih k (hrank.subset (List.subset_cons_self last _))
        refine ⟨k :: run, rest, ?_, ?_, ?_⟩
        · simp [hdir, hcut, Except.map]
        · rw [hks, List.cons_append]
        · -- the step from `last` to `k` and the run from `k` on are of one direction
          have hstep : if down then rank k ≤ rank last else rank last ≤ rank k := by
            cases down with
            | true => simpa using le_of_lt (of_decide_eq_true hdir)
            | false => simpa using le_of_not_gt (of_decide_eq_false hdir)
          refine List.pairwise_cons.mpr ⟨?_, hpair⟩
          intro b hb
          rcases List.mem_cons.mp hb with rfl | hb
          · exact hstep
          · have hkb := (List.pairwise_cons.mp hpair).1 b hb
            cases down with
            | true => exact le_trans hkb hstep
            | false => exact le_trans hstep hkb
      · refine ⟨[], k :: ks, ?_, rfl, List.pairwise_singleton _ last⟩
        simp [hdir]

theorem firstRun_ranked (rank : Value → α) (ks : List Value)
    (hrank : Ranked rank ks) :
    ∃ run rest, firstRun ks = .ok (run, rest) ∧ (rest ++ run).Perm ks ∧
      Ascending rank run := by
  match ks with
  | [] => exact ⟨[], [], rfl, List.Perm.refl _, List.Pairwise.nil⟩
  | [k] => exact ⟨[k], [], rfl, List.Perm.refl _, List.pairwise_singleton _ k⟩
  | k :: l :: more =>
      have hlt : l.lt? k = some (decide (rank l < rank k)) :=
        hrank l (by simp) k (by simp)
      obtain ⟨run, rest, hcut, hmore, hpair⟩ :=
        cutRun_ranked rank (decide (rank l < rank k)) (l :: more) k hrank
      rw [cutRun, hlt] at hcut
      simp only [beq_self_eq_true, if_true] at hcut
      cases hc : cutRun (decide (rank l < rank k)) l more with
      | error e => rw [hc] at hcut; exact nomatch hcut
      | ok r =>
          rw [hc] at hcut
          obtain ⟨hrun, hrest⟩ := Prod.mk.inj (Except.ok.inj hcut)
          rw [firstRun, hlt]
          simp only [hc, Except.map]
          by_cases hdown : rank l < rank k
          · simp only [hdown, decide_true, if_true] at hpair ⊢
            refine ⟨_, _, rfl, ?_, ?_⟩
            · rw [hrest, hmore, hrun]
              exact ((List.reverse_perm _).append_left rest).trans
                (List.perm_append_comm)
            · rw [hrun]
              exact List.pairwise_reverse.mpr hpair
          · simp only [hdown, decide_false, Bool.false_eq_true, if_false] at hpair ⊢
            refine ⟨_, _, rfl, ?_, ?_⟩
            · rw [hrest, hmore, hrun]
              exact List.perm_append_comm
            · rw [hrun]
              exact hpair

/-- **RANKED KEYS ARE SORTED**: the sort returns, and returns the keys in
    ascending order. -/
theorem sortKeys_ranked (rank : Value → α) (ks : List Value)
    (hrank : Ranked rank ks) :
    ∃ ys, sortKeys ks = .ok ys ∧ ys.Perm ks ∧ Ascending rank ys := by
  obtain ⟨run, rest, hrun, hperm, hasc⟩ := firstRun_ranked rank ks hrank
  obtain ⟨ys, hys, hperm', hyasc⟩ := insertKeys_ranked rank rest run
    (hrank.subset hperm.subset) hasc
  refine ⟨ys, ?_, hperm'.trans hperm, hyasc⟩
  rw [sortKeys, hrun]
  exact hys

/-! ## Strings as keys -/

/-- The rank of a string is the string. -/
def stringRank : Value → String
  | .str s => s
  | _ => ""

theorem ranked_strings (names : List String) :
    Ranked stringRank (names.map Value.str) := by
  intro a ha b hb
  obtain ⟨s, -, rfl⟩ := List.mem_map.mp ha
  obtain ⟨t, -, rfl⟩ := List.mem_map.mp hb
  simp [Value.lt?, Value.ltAtom?, Value.isReal, stringRank]

/-- Distinct strings come back in strictly ascending order. -/
theorem sortKeys_strings (names : List String) (hnodup : names.Nodup) :
    ∃ sorted : List String, sortKeys (names.map Value.str)
        = .ok (sorted.map Value.str) ∧
      sorted.Perm names ∧ sorted.Pairwise (· < ·) := by
  obtain ⟨ys, hys, hperm, hasc⟩ :=
    sortKeys_ranked stringRank _ (ranked_strings names)
  have hnames : (names.map Value.str).map stringRank = names := by
    rw [List.map_map]
    exact List.map_id names
  have hback : (ys.map stringRank).map Value.str = ys := by
    rw [List.map_map]
    refine (List.map_congr_left ?_).trans (List.map_id ys)
    intro y hy
    obtain ⟨s, -, rfl⟩ := List.mem_map.mp (hperm.mem_iff.mp hy)
    rfl
  have hsorted : (ys.map stringRank).Perm names := hnames ▸ hperm.map stringRank
  have hle : (ys.map stringRank).Pairwise (· ≤ ·) := List.pairwise_map.mpr hasc
  have hne : (ys.map stringRank).Pairwise (· ≠ ·) := hsorted.nodup_iff.mpr hnodup
  refine ⟨ys.map stringRank, by rw [hback]; exact hys, hsorted, ?_⟩
  exact (hle.and hne).imp fun h => lt_of_le_of_ne h.1 h.2

end DialectBench
