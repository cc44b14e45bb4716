import Mathlib.Order.Lattice.Nat
import DialectBench.Promotion

/-!
# Promotion does not depend on the order of operands

    The PLAIN element types are those that promotion knows a common type for:
    all but the quantized ones and the short complex one, with `undefined` for
    no type among them.  Each plain type has two HEIGHTS, and no two have the
    same.  Mostly they are equal, and the types lie on a line; a type that has
    a rival (`byte` and `char`, `half` and `bfloat16`, `double` and
    `complexFloat`) is higher than it in one of the heights and lower in the
    other.  Promotion takes the greater of each height, so the table of
    promotion is a part of a product of two orders.

    Hence the type of a tier after any number of operands is told by the SET of
    these operands: neither their order nor repetitions matter, and groups of
    operands can be promoted apart and put together.
-/

namespace DialectBench

/-! ## Heights -/

namespace ElementType

/-- The types that have common types. -/
def plainTypes : List ElementType := [
  byte, char, short, int, long, half, float, double, complexFloat, complexDouble, bool, bfloat16,
  undefined]

/-- The two heights of a type. -/
def heights : ElementType → ℕ × ℕ
  | bool => (1, 1)
  | byte => (2, 1)
  | char => (1, 2)
  | short => (2, 2)
  | int => (3, 3)
  | long => (4, 4)
  | half => (5, 4)
  | bfloat16 => (4, 5)
  | float => (5, 5)
  | double => (6, 5)
  | complexFloat => (5, 6)
  | complexDouble => (6, 6)
  | _ => ⊥

/-- No two plain types have the same heights. -/
theorem heights_injOn : ∀ a ∈ plainTypes, ∀ b ∈ plainTypes, a.heights = b.heights → a = b := by
  decide +kernel

/-- **PROMOTION TAKES THE GREATER HEIGHTS**: two plain types have a common type,
    it is plain, and each of its heights is the greater one of theirs. -/
theorem promoteSkip_plain {a b : ElementType} (ha : a ∈ plainTypes) (hb : b ∈ plainTypes) :
    ∃ c ∈ plainTypes, promoteSkip a b = some c ∧ c.heights = a.heights ⊔ b.heights := by
  have table : ∀ a ∈ plainTypes, ∀ b ∈ plainTypes, ∃ c ∈ plainTypes,
      promoteSkip a b = some c ∧ c.heights = a.heights ⊔ b.heights := by decide +kernel
  exact table a ha b hb

/-- A lower tier changes the type of a higher one to a plain type, and it is
    undefined only if both are. -/
theorem combine_plain {a b : ElementType} (ha : a ∈ plainTypes) (hb : b ∈ plainTypes) :
    ∃ c ∈ plainTypes, combine a b = some c ∧ (c = undefined ↔ a = undefined ∧ b = undefined) := by
  have table : ∀ a ∈ plainTypes, ∀ b ∈ plainTypes, ∃ c ∈ plainTypes,
      combine a b = some c ∧ (c = undefined ↔ a = undefined ∧ b = undefined) := by decide +kernel
  exact table a ha b hb

end ElementType

/-! ## The types of the tiers -/

namespace TierTypes

theorem get_set (t : TierTypes) (e : ElementType) (tier tier' : Tier) :
    (t.set e tier).get tier' = if tier = tier' then e else t.get tier' := by
  cases tier <;> cases tier' <;> rfl

theorem eq_of_get {s t : TierTypes} (h : ∀ tier, s.get tier = t.get tier) : s = t := by
  obtain ⟨d, w, z⟩ := s
  obtain ⟨d', w', z'⟩ := t
  obtain rfl : d = d' := h .dimensioned
  obtain rfl : w = w' := h .wrapped
  obtain rfl : z = z' := h .zeroDim
  rfl

/-- The types of all tiers are plain. -/
def Plain (t : TierTypes) : Prop := ∀ tier, t.get tier ∈ ElementType.plainTypes

theorem start_plain : start.Plain := by
  intro tier
  cases tier <;> decide

/-- Plain types are told by their heights. -/
theorem Plain.eq_of_heights {s t : TierTypes} (hs : s.Plain) (ht : t.Plain)
    (h : ∀ tier, (s.get tier).heights = (t.get tier).heights) : s = t := by
  apply eq_of_get
  intro tier
  exact ElementType.heights_injOn _ (hs tier) _ (ht tier) (h tier)

/-- The heights that an operand brings to a tier: the least to a tier that it
    does not belong to. -/
def brings (tier : Tier) (o : OperandType) : ℕ × ℕ :=
  if o.tier = tier then o.type.heights else ⊥

/-- **ONE OPERAND** raises the heights of its tier to its own, and leaves the
    other tiers as they are. -/
theorem add_plain {t : TierTypes} {o : OperandType} (ht : t.Plain)
    (ho : o.type ∈ ElementType.plainTypes) :
    ∃ t', t.add o = some t' ∧ t'.Plain ∧
      ∀ tier, (t'.get tier).heights = (t.get tier).heights ⊔ brings tier o := by
  obtain ⟨c, hc, hsome, hheights⟩ := ElementType.promoteSkip_plain (ht o.tier) ho
  refine ⟨t.set c o.tier, ?_, ?_, ?_⟩
  · rw [add, hsome]
    rfl
  · intro tier
    rw [get_set]
    split
    · exact hc
    · exact ht tier
  · intro tier
    rw [get_set, brings]
    split
    · next h => rw [hheights, h]
    · exact (sup_bot_eq _).symm

/-- **ALL OPERANDS**: the heights of a tier after a list of operands are the
    greatest that the SET of these operands brings to it. -/
theorem foldlM_add_plain (os : List OperandType) :
    ∀ {t : TierTypes}, t.Plain → (∀ o ∈ os, o.type ∈ ElementType.plainTypes) →
      ∃ t', os.foldlM add t = some t' ∧ t'.Plain ∧
        ∀ tier, (t'.get tier).heights = (t.get tier).heights ⊔ os.toFinset.sup (brings tier) := by
  induction os with
  | nil =>
      intro t ht _
      exact ⟨t, rfl, ht, fun tier => (sup_bot_eq _).symm⟩
  | cons o os ih =>
      intro t ht hos
      obtain ⟨ho, hrest⟩ := List.forall_mem_cons.mp hos
      obtain ⟨t₁, hadd, ht₁, hheights₁⟩ := add_plain ht ho
      obtain ⟨t₂, hfold, ht₂, hheights₂⟩ := ih ht₁ hrest
      refine ⟨t₂, ?_, ht₂, ?_⟩
      · rw [List.foldlM_cons, hadd]
        exact hfold
      · intro tier
        rw [hheights₂, hheights₁, List.toFinset_cons, Finset.sup_insert, sup_assoc]

/-- The types of a list of operands are the plain types whose heights are the
    greatest that the operands bring. -/
theorem ofOperands_plain {os : List OperandType}
    (hos : ∀ o ∈ os, o.type ∈ ElementType.plainTypes) :
    ∃ t, ofOperands os = some t ∧ t.Plain ∧
      ∀ tier, (t.get tier).heights = os.toFinset.sup (brings tier) := by
  obtain ⟨t, hfold, ht, hheights⟩ := foldlM_add_plain os start_plain hos
  refine ⟨t, hfold, ht, ?_⟩
  intro tier
  rw [hheights]
  cases tier <;> exact bot_sup_eq _

/-- Lists of the same operands have the same types. -/
theorem ofOperands_congr {os os' : List OperandType}
    (hos : ∀ o ∈ os, o.type ∈ ElementType.plainTypes) (h : os.toFinset = os'.toFinset) :
    ofOperands os' = ofOperands os := by
  have hos' : ∀ o ∈ os', o.type ∈ ElementType.plainTypes := by
    intro o ho
    rw [← List.mem_toFinset, ← h, List.mem_toFinset] at ho
    exact hos o ho
  obtain ⟨t, hsome, ht, hheights⟩ := ofOperands_plain hos
  obtain ⟨t', hsome', ht', hheights'⟩ := ofOperands_plain hos'
  rw [hsome, hsome', ht'.eq_of_heights ht]
  intro tier
  rw [hheights, hheights', h]

/-- Plain types are promoted tier by tier to the greater heights. -/
theorem merge_plain {s t : TierTypes} (hs : s.Plain) (ht : t.Plain) :
    ∃ u, s.merge t = some u ∧ u.Plain ∧
      ∀ tier, (u.get tier).heights = (s.get tier).heights ⊔ (t.get tier).heights := by
  obtain ⟨d, hd, hdsome, hdheights⟩ :=
    ElementType.promoteSkip_plain (hs .dimensioned) (ht .dimensioned)
  obtain ⟨w, hw, hwsome, hwheights⟩ := ElementType.promoteSkip_plain (hs .wrapped) (ht .wrapped)
  obtain ⟨z, hz, hzsome, hzheights⟩ := ElementType.promoteSkip_plain (hs .zeroDim) (ht .zeroDim)
  refine ⟨⟨d, w, z⟩, ?_, ?_, ?_⟩
  · simp only [get] at hdsome hwsome hzsome
    rw [merge, hdsome, hwsome, hzsome]
    rfl
  · intro tier
    cases tier with
    | dimensioned => exact hd
    | wrapped => exact hw
    | zeroDim => exact hz
  · intro tier
    cases tier with
    | dimensioned => exact hdheights
    | wrapped => exact hwheights
    | zeroDim => exact hzheights

/-- Groups of operands can be promoted apart. -/
theorem ofOperands_append {xs ys : List OperandType}
    (h : ∀ o ∈ xs ++ ys, o.type ∈ ElementType.plainTypes) :
    ∃ s t, ofOperands xs = some s ∧ ofOperands ys = some t ∧
      s.merge t = ofOperands (xs ++ ys) := by
  obtain ⟨s, hs, hsplain, hsheights⟩ :=
    ofOperands_plain fun o ho => h o (List.mem_append_left ys ho)
  obtain ⟨t, ht, htplain, htheights⟩ :=
    ofOperands_plain fun o ho => h o (List.mem_append_right xs ho)
  obtain ⟨u, hu, huplain, huheights⟩ := ofOperands_plain h
  obtain ⟨v, hv, hvplain, hvheights⟩ := merge_plain hsplain htplain
  refine ⟨s, t, hs, ht, ?_⟩
  rw [hv, hu, hvplain.eq_of_heights huplain]
  intro tier
  rw [hvheights, hsheights, htheights, huheights, List.toFinset_append, Finset.sup_union]

/-- The result of plain types is plain, and undefined only if all of them are. -/
theorem result_plain {t : TierTypes} (ht : t.Plain) :
    ∃ e, t.result = some e ∧ (e = .undefined ↔ t = start) := by
  obtain ⟨lower, hlower, hsome, hundef⟩ := ElementType.combine_plain (ht .zeroDim) (ht .wrapped)
  obtain ⟨e, _, hsome', hundef'⟩ := ElementType.combine_plain (ht .dimensioned) hlower
  refine ⟨e, ?_, ?_⟩
  · simp only [get] at hsome hsome'
    rw [result, hsome]
    exact hsome'
  · obtain ⟨d, w, z⟩ := t
    rw [hundef', hundef, start, TierTypes.mk.injEq]
    constructor
    · rintro ⟨hd, hz, hw⟩
      exact ⟨hd, hw, hz⟩
    · rintro ⟨hd, hw, hz⟩
      exact ⟨hd, hz, hw⟩

/-- No type is there only if no operand has one. -/
theorem undefined_of_start {os : List OperandType}
    (hos : ∀ o ∈ os, o.type ∈ ElementType.plainTypes) (h : ofOperands os = some start) :
    ∀ o ∈ os, o.type = .undefined := by
  intro o ho
  obtain ⟨t, hsome, _, hheights⟩ := ofOperands_plain hos
  rw [h] at hsome
  cases hsome
  -- what the operand brings to its own tier is not above the heights of no type
  have hle : brings o.tier o ≤ os.toFinset.sup (brings o.tier) :=
    Finset.le_sup (List.mem_toFinset.mpr ho)
  have hbot : (start.get o.tier).heights = ⊥ := by cases o.tier <;> rfl
  rw [← hheights, hbot, le_bot_iff, brings, if_pos rfl] at hle
  exact ElementType.heights_injOn _ (hos o ho) _ (by decide) hle

end TierTypes

/-- **PROMOTION DOES NOT DEPEND ON ORDER OR GROUPING.**  Operands of plain types
    have types and a result.  In any other order they have the same; looking at
    one of them again, at any place, changes nothing; cutting the list in two,
    promoting each part and putting the types together tier by tier gives the
    same types; and the result is undefined only if the type of every operand
    is. -/
theorem promotion_order_free (os : List OperandType)
    (hos : ∀ o ∈ os, o.type ∈ ElementType.plainTypes) :
    ∃ t e, TierTypes.ofOperands os = some t ∧ t.result = some e ∧
      (∀ os', os'.Perm os → TierTypes.ofOperands os' = some t ∧
        (TierTypes.ofOperands os').bind TierTypes.result = some e) ∧
      (∀ xs ys, xs ++ ys = os → ∀ o ∈ os, TierTypes.ofOperands (xs ++ o :: ys) = some t) ∧
      (∀ xs ys, xs ++ ys = os → ∃ s u, TierTypes.ofOperands xs = some s ∧
        TierTypes.ofOperands ys = some u ∧ s.merge u = some t) ∧
      (e = .undefined → ∀ o ∈ os, o.type = .undefined) := by
  obtain ⟨t, ht, hplain, _⟩ := TierTypes.ofOperands_plain hos
  obtain ⟨e, he, hundef⟩ := TierTypes.result_plain hplain
  refine ⟨t, e, ht, he, ?_, ?_, ?_, ?_⟩
  · intro os' hperm
    have hsame : TierTypes.ofOperands os' = some t :=
      (TierTypes.ofOperands_congr hos (List.toFinset_eq_of_perm _ _ hperm).symm).trans ht
    rw [hsame]
    exact ⟨rfl, he⟩
  · rintro xs ys rfl o ho
    refine (TierTypes.ofOperands_congr hos ?_).trans ht
    ext o'
    simp only [List.mem_toFinset, List.mem_append, List.mem_cons] at ho ⊢
    constructor
    · rintro (h | h)
      · exact .inl h
      · exact .inr (.inr h)
    · rintro (h | rfl | h)
      · exact .inl h
      · exact ho
      · exact .inr h
  · rintro xs ys rfl
    obtain ⟨s, u, hs, hu, hmerge⟩ := TierTypes.ofOperands_append hos
    exact ⟨s, u, hs, hu, hmerge.trans ht⟩
  · intro h
    rw [hundef] at h
    exact TierTypes.undefined_of_start hos (h ▸ ht)

/-- Operands of all tiers, with rivals in two of them. -/
def mixedOperands : List OperandType :=
  [⟨.dimensioned, .byte⟩, ⟨.zeroDim, .bfloat16⟩, ⟨.dimensioned, .char⟩, ⟨.wrapped, .complexFloat⟩,
    ⟨.zeroDim, .half⟩, ⟨.dimensioned, .bool⟩]

theorem promotion_order_free_mixedOperands :
    (∀ o ∈ mixedOperands, o.type ∈ ElementType.plainTypes) ∧
      TierTypes.ofOperands mixedOperands = some ⟨.short, .complexFloat, .float⟩ ∧
      (∀ os, os.Perm mixedOperands →
        (TierTypes.ofOperands os).bind TierTypes.result = some .complexFloat) ∧
      TierTypes.ofOperands (mixedOperands ++ [⟨.zeroDim, .half⟩])
        = some ⟨.short, .complexFloat, .float⟩ := by
  have hplain : ∀ o ∈ mixedOperands, o.type ∈ ElementType.plainTypes := by decide
  have htypes : TierTypes.ofOperands mixedOperands = some ⟨.short, .complexFloat, .float⟩ := by
    decide
  obtain ⟨t, e, ht, he, hperm, hagain, _, _⟩ := promotion_order_free mixedOperands hplain
  obtain rfl : t = ⟨.short, .complexFloat, .float⟩ := Option.some.inj (ht.symm.trans htypes)
  obtain rfl : e = .complexFloat := Option.some.inj (he.symm.trans (by decide))
  refine ⟨hplain, htypes, ?_, ?_⟩
  · intro os h
    exact (hperm os h).2
  · exact hagain mixedOperands [] (List.append_nil _) _ (by decide)

-- with the short complex type the order does matter
example : TierTypes.ofOperands [⟨.wrapped, .complexHalf⟩, ⟨.wrapped, .int⟩, ⟨.wrapped, .bool⟩]
    ≠ TierTypes.ofOperands [⟨.wrapped, .int⟩, ⟨.wrapped, .bool⟩, ⟨.wrapped, .complexHalf⟩] := by
  decide

end DialectBench
