import DialectBench.Text.Lines

/-!
# Joining and cutting are inverse

    Pieces joined with a separator and cut at it again are the same pieces, as
    long as there is a piece and no piece holds the separator.  A text cut at a
    separator and joined again is the same text, whatever it holds.

    Both are shown on lists of characters, by the recursion that cuts; `String`
    only comes in at the end.
-/

namespace DialectBench.Text

variable {sep : Char} {sepText : String}

/-! ## Cutting -/

theorem splitChars_ne_nil (sep : Char) (cs : List Char) : splitChars sep cs ≠ [] := by
  cases cs with
  | nil => exact List.cons_ne_nil _ _
  | cons c rest =>
      rw [splitChars]
      by_cases h : (c == sep) = true
      · rw [if_pos h]
        exact List.cons_ne_nil _ _
      · rw [if_neg h]
        cases splitChars sep rest with
        | nil => exact List.cons_ne_nil _ _
        | cons piece pieces => exact List.cons_ne_nil _ _

/-- A character other than the separator goes to the front of the first piece. -/
theorem splitChars_cons_of_ne {c : Char} (h : c ≠ sep) {rest : List Char} {piece : List Char}
    {pieces : List (List Char)} (hr : splitChars sep rest = piece :: pieces) :
    splitChars sep (c :: rest) = (c :: piece) :: pieces := by
  rw [splitChars, if_neg (mt beq_iff_eq.mp h), hr]

/-- The first separator ends the first piece. -/
theorem splitChars_append_sep {cs : List Char} (h : sep ∉ cs) (rest : List Char) :
    splitChars sep (cs ++ sep :: rest) = cs :: splitChars sep rest := by
  induction cs with
  | nil => rw [List.nil_append, splitChars, if_pos (beq_self_eq_true sep)]
  | cons c cs ih =>
      have hc : c ≠ sep := fun heq => h (heq ▸ List.mem_cons_self)
      exact splitChars_cons_of_ne hc (ih fun hmem => h (List.mem_cons_of_mem c hmem))

/-- Without a separator there is one piece. -/
theorem splitChars_of_not_mem {cs : List Char} (h : sep ∉ cs) : splitChars sep cs = [cs] := by
  induction cs with
  | nil => rfl
  | cons c cs ih =>
      have hc : c ≠ sep := fun heq => h (heq ▸ List.mem_cons_self)
      exact splitChars_cons_of_ne hc (ih fun hmem => h (List.mem_cons_of_mem c hmem))

theorem split_of_not_mem {s : String} (h : sep ∉ s.toList) : split sep s = [s] := by
  unfold split
  rw [splitChars_of_not_mem h, List.map_singleton, String.ofList_toList]

/-! ## Joining, then cutting -/

/-- **CUTTING UNDOES JOINING** for pieces that do not hold the separator.  The
    empty list of pieces is the exception: it is joined to the empty text, which
    is cut into one empty piece. -/
theorem split_joinWith (hsep : sepText.toList = [sep]) {pieces : List String}
    (hne : pieces ≠ []) (hfree : ∀ p ∈ pieces, sep ∉ p.toList) :
    split sep (joinWith sepText pieces) = pieces := by
  unfold split
  induction pieces with
  | nil => exact absurd rfl hne
  | cons p rest ih =>
      obtain ⟨hp, hrest⟩ := List.forall_mem_cons.mp hfree
      -- a last piece has no separator behind it, every other one has
      cases rest with
      | nil =>
          rw [joinWith, splitChars_of_not_mem hp, List.map_singleton, String.ofList_toList]
      | cons q rest =>
          rw [joinWith, String.toList_append, String.toList_append, hsep, List.append_assoc,
            List.singleton_append, splitChars_append_sep hp, List.map_cons,
            String.ofList_toList, ih (List.cons_ne_nil _ _) hrest]

/-- Pieces of which none is empty are joined to the empty text only if there is
    none. -/
theorem joinWith_ne_empty {pieces : List String} (hne : pieces ≠ [])
    (hfull : ∀ p ∈ pieces, p ≠ "") : joinWith sepText pieces ≠ "" := by
  cases pieces with
  | nil => exact absurd rfl hne
  | cons p rest =>
      have hp : p ≠ "" := hfull p List.mem_cons_self
      cases rest with
      | nil => exact hp
      | cons q rest =>
          intro heq
          have hlist := congrArg String.toList heq
          rw [joinWith, String.toList_append, String.toList_append] at hlist
          have hnil := (List.append_eq_nil_iff.mp (List.append_eq_nil_iff.mp hlist).1).1
          exact hp (String.toList_inj.mp hnil)

/-- **JOINING LOSES NOTHING** of pieces that are not empty and do not hold the
    separator, be there any or not. -/
theorem joinWith_eq_iff (hsep : sepText.toList = [sep]) {xs ys : List String}
    (hxs : ∀ p ∈ xs, p ≠ "" ∧ sep ∉ p.toList) (hys : ∀ p ∈ ys, p ≠ "" ∧ sep ∉ p.toList) :
    joinWith sepText xs = joinWith sepText ys ↔ xs = ys := by
  refine ⟨fun heq => ?_, fun heq => heq ▸ rfl⟩
  by_cases hx : xs = []
  · by_cases hy : ys = []
    · rw [hx, hy]
    · rw [hx] at heq
      exact absurd heq.symm (joinWith_ne_empty hy fun p hp => (hys p hp).1)
  · by_cases hy : ys = []
    · rw [hy] at heq
      exact absurd heq (joinWith_ne_empty hx fun p hp => (hxs p hp).1)
    · rw [← split_joinWith hsep hx fun p hp => (hxs p hp).2, heq,
        split_joinWith hsep hy fun p hp => (hys p hp).2]

/-! ## Cutting, then joining -/

/-- A character in front of the first piece is in front of what the pieces
    join to. -/
theorem toList_joinWith_cons (c : Char) (piece : List Char) (pieces : List String) :
    (joinWith sepText (String.ofList (c :: piece) :: pieces)).toList
      = c :: (joinWith sepText (String.ofList piece :: pieces)).toList := by
  cases pieces with
  | nil => rw [joinWith, joinWith, String.toList_ofList, String.toList_ofList]
  | cons q rest =>
      rw [joinWith, joinWith, String.toList_append, String.toList_append,
        String.toList_append, String.toList_append, String.toList_ofList,
        String.toList_ofList]
      rfl

theorem toList_joinWith_splitChars (hsep : sepText.toList = [sep]) (cs : List Char) :
    (joinWith sepText ((splitChars sep cs).map String.ofList)).toList = cs := by
  induction cs with
  | nil => rfl
  | cons c rest ih =>
      obtain ⟨piece, pieces, hr⟩ := List.exists_cons_of_ne_nil (splitChars_ne_nil sep rest)
      rw [hr, List.map_cons] at ih
      by_cases h : c = sep
      · subst h
        rw [splitChars, if_pos (beq_self_eq_true c), hr, List.map_cons, List.map_cons,
          joinWith, String.toList_append, String.toList_append, String.toList_ofList, hsep, ih]
        rfl
      · rw [splitChars_cons_of_ne h hr, List.map_cons, toList_joinWith_cons, ih]

/-- **JOINING UNDOES CUTTING**, for every text. -/
theorem joinWith_split (hsep : sepText.toList = [sep]) (s : String) :
    joinWith sepText (split sep s) = s := by
  rw [← String.toList_inj]
  exact toList_joinWith_splitChars hsep s.toList

/-- The empty piece counts: a text that ends in the separator has one more. -/
example : split '.' "model.layer." = ["model", "layer", ""] := by decide

end DialectBench.Text
