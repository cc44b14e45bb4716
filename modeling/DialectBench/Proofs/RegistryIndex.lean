import Mathlib.Data.List.Induction
import Mathlib.Data.List.Nodup
import DialectBench.Operator.Registry

/-!
# The indexes of a registry

    A registry keeps its operators in two tables that are filled one operator
    after the other.  A table filled like this is an INDEX: at a key stands the
    last element that has it.  So a look-up is decided by which elements have
    the key, and if only one has it, their order does not matter.

    The description of a registry is written from the index by keys after it
    was sorted.  Where no two operators have one key, there is only one sorted
    order, so the description does not depend on the order of the operators
    either.
-/

namespace DialectBench

/-! ## Indexes -/

section

variable {κ α : Type} [BEq κ] {key : α → κ}

/-- The table that the elements of a list fill one after the other, each at its
    key. -/
def Table.index (key : α → κ) (as : List α) : Table κ α :=
  as.foldl (fun t a => Table.set (key a) a t) []

theorem Table.index_append (as : List α) (a : α) :
    Table.index key (as ++ [a]) = Table.set (key a) a (Table.index key as) := by
  simp [Table.index]

variable [LawfulBEq κ]

/-- **THE LAST ONE COUNTS**: a look-up finds the last element with the key. -/
theorem Table.lookup_index (as : List α) (k : κ) :
    (Table.index key as).lookup k = as.reverse.find? fun a => key a == k := by
  induction as using List.reverseRecOn with
  | nil => rfl
  | append_singleton as a ih =>
      rw [Table.index_append, Table.lookup_set, ih, List.reverse_append, List.reverse_singleton,
        List.singleton_append, List.find?_cons, BEq.comm]
      cases key a == k <;> rfl

/-- Two lists with the same elements at a key, one at most, have the same in
    their indexes. -/
theorem Table.lookup_index_congr {as bs : List α} {k : κ}
    (hmem : ∀ a, key a = k → (a ∈ as ↔ a ∈ bs))
    (hone : ∀ a ∈ as, ∀ b ∈ as, key a = k → key b = k → a = b) :
    (Table.index key as).lookup k = (Table.index key bs).lookup k := by
  rw [Table.lookup_index, Table.lookup_index]
  have hfound : ∀ {cs : List α} {a : α}, cs.reverse.find? (fun a => key a == k) = some a →
      a ∈ cs ∧ key a = k := by
    intro cs a h
    have hkey : (key a == k) = true := by simpa using List.find?_some h
    exact ⟨List.mem_reverse.mp (List.mem_of_find?_eq_some h), beq_iff_eq.mp hkey⟩
  have hmissed : ∀ {cs : List α}, cs.reverse.find? (fun a => key a == k) = none →
      ∀ a ∈ cs, key a ≠ k := by
    intro cs h a ha heq
    exact List.find?_eq_none.mp h a (List.mem_reverse.mpr ha) (beq_iff_eq.mpr heq)
  cases ha : as.reverse.find? fun a => key a == k with
  | none =>
      cases hb : bs.reverse.find? fun a => key a == k with
      | none => rfl
      | some b =>
          obtain ⟨hbs, hk⟩ := hfound hb
          exact absurd hk (hmissed ha b ((hmem b hk).mpr hbs))
  | some a =>
      obtain ⟨has, hka⟩ := hfound ha
      cases hb : bs.reverse.find? fun a => key a == k with
      | none => exact absurd hka (hmissed hb a ((hmem a hka).mp has))
      | some b =>
          obtain ⟨hbs, hkb⟩ := hfound hb
          rw [hone a has b ((hmem b hkb).mpr hbs) hka hkb]

theorem Table.set_of_not_mem {k : κ} {t : Table κ α} (h : k ∉ t.map Prod.fst) (a : α) :
    Table.set k a t = t ++ [(k, a)] := by
  induction t with
  | nil => rfl
  | cons e rest ih =>
      obtain ⟨k', a'⟩ := e
      have hk : k' ≠ k := fun heq => h (heq ▸ List.mem_cons_self)
      rw [Table.set, if_neg (mt beq_iff_eq.mp hk), ih fun hmem => h (List.mem_cons_of_mem _ hmem)]
      rfl

/-- Where no two elements have one key, the index is the list itself. -/
theorem Table.index_of_nodup {as : List α} (h : (as.map key).Nodup) :
    Table.index key as = as.map fun a => (key a, a) := by
  induction as using List.reverseRecOn with
  | nil => rfl
  | append_singleton as a ih =>
      rw [List.map_append, List.nodup_append] at h
      obtain ⟨has, _, hnew⟩ := h
      have hkey : key a ∉ (as.map fun a => (key a, a)).map Prod.fst := by
        rw [List.map_map]
        intro hmem
        exact hnew _ hmem (key a) List.mem_cons_self rfl
      rw [Table.index_append, ih has, Table.set_of_not_mem hkey, List.map_append]
      rfl

end

/-! ## Registries -/

namespace Registry

theorem ofList_eq (os : List Operator) :
    ofList os = ⟨Table.index Operator.key os, Table.index Operator.triple os⟩ := by
  unfold ofList Table.index empty
  generalize ([] : Table String Operator) = byKey
  generalize ([] : Table Triple Operator) = byTriple
  induction os generalizing byKey byTriple with
  | nil => rfl
  | cons o os ih => exact ih _ _

theorem get_ofList_congr {os os' : List Operator} {k : String}
    (hmem : ∀ o : Operator, o.key = k → (o ∈ os ↔ o ∈ os'))
    (hone : ∀ o ∈ os, ∀ o' ∈ os, o.key = k → o'.key = k → o = o') :
    (ofList os).get k = (ofList os').get k := by
  unfold get
  rw [ofList_eq, ofList_eq, Table.lookup_index_congr hmem hone]

theorem getTriple_ofList_congr {os os' : List Operator} {t : Triple}
    (hmem : ∀ o : Operator, o.triple = t → (o ∈ os ↔ o ∈ os'))
    (hone : ∀ o ∈ os, ∀ o' ∈ os, o.triple = t → o'.triple = t → o = o') :
    (ofList os).getTriple t = (ofList os').getTriple t := by
  unfold getTriple
  rw [ofList_eq, ofList_eq, Table.lookup_index_congr hmem hone]

/-! ## The description -/

/-- Entries in the order of their keys, as the description sorts them. -/
def keyLe (a b : String × Operator) : Bool := !decide (b.1 < a.1)

theorem keyLe_iff {a b : String × Operator} : keyLe a b = true ↔ a.1 ≤ b.1 := by
  rw [keyLe, Bool.not_eq_true', decide_eq_false_iff_not, String.not_lt]

/-- Sorting by keys forgets the order that there was, if no key occurs twice. -/
theorem mergeSort_eq_of_perm {t u : Table String Operator} (h : t.Perm u)
    (hd : (t.map Prod.fst).Nodup) : t.mergeSort keyLe = u.mergeSort keyLe := by
  have htrans : ∀ a b c, keyLe a b = true → keyLe b c = true → keyLe a c = true := by
    intro a b c hab hbc
    exact keyLe_iff.mpr (String.le_trans (keyLe_iff.mp hab) (keyLe_iff.mp hbc))
  have htotal : ∀ a b, (keyLe a b || keyLe b a) = true := by
    intro a b
    rw [Bool.or_eq_true, keyLe_iff, keyLe_iff]
    exact String.le_total a.1 b.1
  refine List.Perm.eq_of_pairwise ?_ (List.pairwise_mergeSort htrans htotal t)
    (List.pairwise_mergeSort htrans htotal u)
    ((List.mergeSort_perm t _).trans (h.trans (List.mergeSort_perm u _).symm))
  intro a b ha hb hab hba
  have hkey : a.1 = b.1 := String.le_antisymm (keyLe_iff.mp hab) (keyLe_iff.mp hba)
  have hat : a ∈ t := (List.mergeSort_perm t _).mem_iff.mp ha
  have hbt : b ∈ t := h.mem_iff.mpr ((List.mergeSort_perm u _).mem_iff.mp hb)
  exact List.inj_on_of_nodup_map hd hat hbt hkey

/-- **THE DESCRIPTION IS ORDER-FREE** where no two operators have one key. -/
theorem dump_eq_of_perm {os os' : List Operator} (h : os.Perm os')
    (hd : (os.map Operator.key).Nodup) : (ofList os).dump = (ofList os').dump := by
  have hd' : (os'.map Operator.key).Nodup := (h.map _).nodup_iff.mp hd
  have hsorted : (os.map fun o => (o.key, o)).mergeSort keyLe
      = (os'.map fun o => (o.key, o)).mergeSort keyLe := by
    refine mergeSort_eq_of_perm (h.map _) ?_
    rw [List.map_map]
    exact hd
  unfold dump
  rw [ofList_eq, ofList_eq, Table.index_of_nodup hd, Table.index_of_nodup hd']
  show String.join ((List.mergeSort _ keyLe).map _) = String.join ((List.mergeSort _ keyLe).map _)
  rw [hsorted]

end Registry

end DialectBench
