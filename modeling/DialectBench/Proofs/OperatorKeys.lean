import Mathlib.Data.List.Perm.Subperm
import Mathlib.Data.List.TakeWhile
import DialectBench.Proofs.DefinitionReader
import DialectBench.Proofs.RegistryIndex

/-!
# Keys identify operators

    A key is a name followed by types.  The types are free texts, which may hold
    any of the marks that the key itself uses, but the name stands in front of
    them and holds none: its scope ends at the first colon, the name as a whole
    at the first blank, and the overload starts at the first point.  So the name
    can be read off the key, whatever the types are (`readTriple_key`).

    A registry indexes its operators by keys and by triples.  The key determines
    the triple, so the index by triples is the coarser one: it has no more
    entries, and the operator that it holds at a triple is the last one with its
    key as well (`registry_indexes_agree`).
-/

namespace DialectBench

/-! ## Indexes by two keys of which one determines the other -/

section

variable {α κ κ' : Type} {key : α → κ} {key' : α → κ'} {as : List α} {a : α} {k : κ}

/-- The last element of a list that has a key. -/
def IsLastWith (key : α → κ) (k : κ) (as : List α) (a : α) : Prop :=
  key a = k ∧ ∃ before after, as = before ++ a :: after ∧ ∀ b ∈ after, key b ≠ k

theorem IsLastWith.mem (h : IsLastWith key k as a) : a ∈ as := by
  obtain ⟨-, before, after, rfl, -⟩ := h
  exact List.mem_append_right before List.mem_cons_self

/-- The last element with a key is the last one with any key that determines it. -/
theorem IsLastWith.of_determined {k' : κ'} (h : IsLastWith key' k' as a)
    (hdet : ∀ b ∈ as, key b = key a → key' b = key' a) : IsLastWith key (key a) as a := by
  obtain ⟨hkey, before, after, rfl, hafter⟩ := h
  refine ⟨rfl, before, after, rfl, ?_⟩
  intro b hb heq
  have hmem : b ∈ before ++ a :: after := List.mem_append_right before (List.mem_cons_of_mem a hb)
  exact hafter b hb ((hdet b hmem heq).trans hkey)

variable [BEq κ] [LawfulBEq κ] [BEq κ'] [LawfulBEq κ']

theorem Table.lookup_index_eq_some_iff :
    (Table.index key as).lookup k = some a ↔ IsLastWith key k as a := by
  rw [Table.lookup_index, List.find?_eq_some_iff_append]
  constructor
  · rintro ⟨hkey, front, back, hrev, hfront⟩
    refine ⟨beq_iff_eq.mp hkey, back.reverse, front.reverse, ?_, ?_⟩
    · rw [← List.reverse_reverse as, hrev]
      simp
    · intro b hb heq
      have hne := hfront b (List.mem_reverse.mp hb)
      rw [beq_iff_eq.mpr heq] at hne
      exact Bool.noConfusion hne
  · rintro ⟨hkey, before, after, rfl, hafter⟩
    refine ⟨beq_iff_eq.mpr hkey, after.reverse, before.reverse, by simp, ?_⟩
    intro b hb
    rw [Bool.not_eq_true', beq_eq_false_iff_ne]
    exact hafter b (List.mem_reverse.mp hb)

/-- A key of an element of the list has a last element. -/
theorem exists_isLastWith (key : α → κ) (h : a ∈ as) : ∃ b, IsLastWith key (key a) as b := by
  cases hb : (Table.index key as).lookup (key a) with
  | some b => exact ⟨b, Table.lookup_index_eq_some_iff.mp hb⟩
  | none =>
      rw [Table.lookup_index] at hb
      have hnone := List.find?_eq_none.mp hb a (List.mem_reverse.mpr h)
      exact absurd (beq_self_eq_true (key a)) hnone

theorem Table.nodup_index (key : α → κ) (as : List α) :
    ((Table.index key as).map Prod.fst).Nodup := by
  induction as using List.reverseRecOn with
  | nil => exact List.nodup_nil
  | append_singleton as a ih =>
      rw [Table.index_append]
      by_cases h : key a ∈ (Table.index key as).map Prod.fst
      · rw [Table.map_fst_set h]
        exact ih
      · rw [Table.set_of_not_mem h, List.map_append]
        refine List.nodup_append.mpr ⟨ih, List.nodup_singleton _, ?_⟩
        rintro k hk k' hk' rfl
        rw [List.mem_singleton.mp hk'] at hk
        exact h hk

theorem Table.isLastWith_of_mem_index (h : (k, a) ∈ Table.index key as) :
    IsLastWith key k as a :=
  Table.lookup_index_eq_some_iff.mp (Table.lookup_of_mem (Table.nodup_index key as) h)

/-- **AN INDEX BY A DETERMINED KEY IS NO LARGER.** -/
theorem Table.length_index_le
    (hdet : ∀ a ∈ as, ∀ b ∈ as, key a = key b → key' a = key' b) :
    (Table.index key' as).length ≤ (Table.index key as).length := by
  -- every key of the one index is the key of an entry of the other
  have hsub : (Table.index key' as).map Prod.fst ⊆ (Table.index key as).map fun e => key' e.2 := by
    intro k' hk'
    obtain ⟨e, he, rfl⟩ := List.mem_map.mp hk'
    have hlast := Table.isLastWith_of_mem_index (k := e.1) (a := e.2) he
    obtain ⟨b, hb⟩ := exists_isLastWith key hlast.mem
    have hentry := Table.mem_of_lookup (Table.lookup_index_eq_some_iff.mpr hb)
    refine List.mem_map.mpr ⟨(key e.2, b), hentry, ?_⟩
    rw [hdet b hb.mem e.2 hlast.mem hb.1, hlast.1]
  have hle := (List.subperm_of_subset (Table.nodup_index key' as) hsub).length_le
  rwa [List.length_map, List.length_map] at hle

end

namespace Operator

open Text

/-! ## Reading the name off a key -/

/-- An operator whose scope, base name and overload are names; there may be no
    overload. -/
structure ProperlyNamed (o : Operator) : Prop where
  scope : IsName o.scope
  base : IsName o.base
  overload : o.overload ≠ "" → IsName o.overload

/-- The triple that a key starts with. -/
def readTriple (key : String) : Triple :=
  let scope := cutWhile (· != ':') key.toList
  let name := cutWhile (· != ' ') (dropText "::" scope.2)
  let base := cutWhile (· != '.') name.1
  ⟨String.ofList scope.1, String.ofList base.1, String.ofList (dropText "." base.2)⟩

theorem not_mem_of_isName {s : String} (h : IsName s) {c : Char} (hc : isNameChar c = false) :
    c ∉ s.toList := by
  intro hmem
  rw [h.2 c hmem] at hc
  exact Bool.noConfusion hc

/-- A key is the name, a blank, and types. -/
theorem exists_key_eq (o : Operator) :
    ∃ rest, o.key.toList = o.scope.toList ++ ':' :: (':' ::
      ((o.base.toList ++ (overloadSuffix o.overload).toList) ++ ' ' :: rest)) := by
  have hkey := o.keyed
  unfold keyText at hkey
  split at hkey
  · cases hkey
  · next ins hins =>
      cases houts : typesText o.isVarret o.returns with
      | error e =>
          rw [houts] at hkey
          cases hkey
      | ok outs =>
          rw [houts] at hkey
          refine ⟨": (".toList ++ (ins.toList ++ (") -> (".toList ++ (outs.toList ++ [')']))), ?_⟩
          rw [← Except.ok.inj hkey]
          simp only [String.toList_append, List.append_assoc]
          rfl

theorem overloadSuffix_cases (overload : String) :
    overload = "" ∧ overloadSuffix overload = "" ∨
      overload ≠ "" ∧ overloadSuffix overload = "." ++ overload := by
  by_cases h : overload.isEmpty = true
  · exact .inl ⟨String.isEmpty_iff.mp h, if_pos h⟩
  · exact .inr ⟨fun heq => h (String.isEmpty_iff.mpr heq), if_neg h⟩

/-- The name of an operator has no blank. -/
theorem ProperlyNamed.blank_not_mem {o : Operator} (h : o.ProperlyNamed) :
    ' ' ∉ o.base.toList ++ (overloadSuffix o.overload).toList := by
  rw [List.mem_append, not_or]
  refine ⟨not_mem_of_isName h.base (by decide), ?_⟩
  rcases overloadSuffix_cases o.overload with ⟨-, hsuffix⟩ | ⟨hne, hsuffix⟩
  · rw [hsuffix]
    decide
  · rw [hsuffix, String.toList_append, List.mem_append, not_or]
    exact ⟨by decide, not_mem_of_isName (h.overload hne) (by decide)⟩

/-- The base name ends at the first point, and without a point there is no
    overload. -/
theorem ProperlyNamed.cutWhile_base {o : Operator} (h : o.ProperlyNamed) :
    ∃ rest, cutWhile (· != '.') (o.base.toList ++ (overloadSuffix o.overload).toList)
        = (o.base.toList, rest) ∧ dropText "." rest = o.overload.toList := by
  have hpoint : '.' ∉ o.base.toList := not_mem_of_isName h.base (by decide)
  rcases overloadSuffix_cases o.overload with ⟨hempty, hsuffix⟩ | ⟨-, hsuffix⟩
  · refine ⟨[], ?_, by rw [hempty]; rfl⟩
    rw [hsuffix, cutWhile, String.toList_empty, List.append_nil,
      List.takeWhile_eq_self_iff.mpr (ne_of_not_mem hpoint),
      List.dropWhile_eq_nil_iff.mpr (ne_of_not_mem hpoint)]
  · refine ⟨'.' :: o.overload.toList, ?_, rfl⟩
    rw [hsuffix, String.toList_append]
    exact cutWhile_append_cons (ne_of_not_mem hpoint) (by decide) _

/-- **THE TRIPLE CAN BE READ OFF THE KEY**, whatever the types are. -/
theorem readTriple_key {o : Operator} (h : o.ProperlyNamed) : readTriple o.key = o.triple := by
  have hcolon : ':' ∉ o.scope.toList := not_mem_of_isName h.scope (by decide)
  have hscope : ∀ cs, dropText "::" (':' :: ':' :: cs) = cs := fun cs => dropText_append "::" cs
  obtain ⟨types, hkey⟩ := o.exists_key_eq
  obtain ⟨rest, hbase, hoverload⟩ := h.cutWhile_base
  rw [readTriple, hkey, cutWhile_append_cons (ne_of_not_mem hcolon) (by decide)]
  simp only [hscope]
  rw [cutWhile_append_cons (ne_of_not_mem h.blank_not_mem) (by decide)]
  simp only [hbase, hoverload, String.ofList_toList]
  rfl

theorem ProperlyNamed.triple_eq_of_key {o o' : Operator} (h : o.ProperlyNamed)
    (h' : o'.ProperlyNamed) (heq : o.key = o'.key) : o.triple = o'.triple := by
  rw [← readTriple_key h, heq, readTriple_key h']

end Operator

/-! ## The two indexes of a registry -/

namespace Registry

open Text

theorem get_eq_ok_iff {r : Registry} {k : String} {o : Operator} :
    r.get k = .ok o ↔ r.byKey.lookup k = some o := by
  unfold get
  cases r.byKey.lookup k with
  | none => exact ⟨nofun, nofun⟩
  | some o' => rw [Except.ok.injEq, Option.some.injEq]

theorem getTriple_eq_ok_iff {r : Registry} {t : Triple} {o : Operator} :
    r.getTriple t = .ok o ↔ r.byTriple.lookup t = some o := by
  unfold getTriple
  cases r.byTriple.lookup t with
  | none => exact ⟨nofun, nofun⟩
  | some o' => rw [Except.ok.injEq, Option.some.injEq]

theorem get_ofList_iff {os : List Operator} {k : String} {o : Operator} :
    (ofList os).get k = .ok o ↔ IsLastWith Operator.key k os o := by
  rw [get_eq_ok_iff, ofList_eq, Table.lookup_index_eq_some_iff]

theorem getTriple_ofList_iff {os : List Operator} {t : Triple} {o : Operator} :
    (ofList os).getTriple t = .ok o ↔ IsLastWith Operator.triple t os o := by
  rw [getTriple_eq_ok_iff, ofList_eq, Table.lookup_index_eq_some_iff]

/-- **KEYS IDENTIFY OPERATORS AND THE INDEXES AGREE.**  For operators whose names
    are names a key determines the triple.  In a registry of such operators every
    key and every triple is found, a look-up gives the last operator that has
    what is looked up, and what is found by its triple is found by its key too. -/
theorem registry_indexes_agree :
    (∀ o o' : Operator, o.ProperlyNamed → o'.ProperlyNamed → o.key = o'.key →
      o.triple = o'.triple) ∧
    ∀ os : List Operator, (∀ o ∈ os, o.ProperlyNamed) →
      (∀ o ∈ os, (∃ last, (ofList os).get o.key = .ok last ∧ last.triple = o.triple) ∧
        ∃ last, (ofList os).getTriple o.triple = .ok last) ∧
      (∀ k o, (ofList os).get k = .ok o ↔ IsLastWith Operator.key k os o) ∧
      (∀ t o, (ofList os).getTriple t = .ok o ↔ IsLastWith Operator.triple t os o) ∧
      (∀ t o, (ofList os).getTriple t = .ok o → (ofList os).get o.key = .ok o) ∧
      (ofList os).byTriple.length ≤ (ofList os).byKey.length := by
  refine ⟨fun o o' h h' heq => h.triple_eq_of_key h' heq, ?_⟩
  intro os hos
  have hdet : ∀ a ∈ os, ∀ b ∈ os, a.key = b.key → a.triple = b.triple :=
    fun a ha b hb heq => (hos a ha).triple_eq_of_key (hos b hb) heq
  refine ⟨?_, fun k o => get_ofList_iff, fun t o => getTriple_ofList_iff, ?_, ?_⟩
  · intro o ho
    obtain ⟨last, hlast⟩ := exists_isLastWith Operator.key ho
    obtain ⟨last', hlast'⟩ := exists_isLastWith Operator.triple ho
    exact ⟨⟨last, get_ofList_iff.mpr hlast, hdet last hlast.mem o ho hlast.1⟩,
      last', getTriple_ofList_iff.mpr hlast'⟩
  · intro t o hfound
    have hlast := getTriple_ofList_iff.mp hfound
    exact get_ofList_iff.mpr
      (hlast.of_determined fun b hb heq => hdet b hb o hlast.mem heq)
  · rw [ofList_eq]
    exact Table.length_index_le hdet

/-- An operator with one parameter. -/
def sized (type : String) (isC10 : Bool) : Operator :=
  { Operator.ofTypes "aten" "size" "int" [("self", type)] [] with isC10 }

/-- Three operators with one triple, of which the first two share their key and the last has a type
    that looks like a key. -/
def sizes : List Operator := [sized "Tensor" true, sized "Tensor" false, sized "a::b.c : (" true]

/-- The later of two operators with one key is found at the key, and the last of all at the
    triple. -/
theorem registry_indexes_agree_sizes :
    (∀ o ∈ sizes, o.ProperlyNamed) ∧
    (ofList sizes).get (sized "Tensor" true).key = .ok (sized "Tensor" false) ∧
    (ofList sizes).getTriple (sized "Tensor" true).triple = .ok (sized "a::b.c : (" true) ∧
    (ofList sizes).get (sized "a::b.c : (" true).key = .ok (sized "a::b.c : (" true) ∧
    (ofList sizes).byTriple.length ≤ (ofList sizes).byKey.length := by
  have hnamed : ∀ type isC10, (sized type isC10).ProperlyNamed := fun _ _ =>
    ⟨(by decide : IsName "aten"), (by decide : IsName "size"), fun _ => (by decide : IsName "int")⟩
  have hall : ∀ o ∈ sizes, o.ProperlyNamed := by
    simp only [sizes, List.forall_mem_cons]
    exact ⟨hnamed _ _, hnamed _ _, hnamed _ _, nofun⟩
  obtain ⟨-, hget, hgetTriple, hreach, hlength⟩ := registry_indexes_agree.2 sizes hall
  have hkey : IsLastWith Operator.key (sized "Tensor" true).key sizes (sized "Tensor" false) := by
    refine ⟨rfl, [sized "Tensor" true], [sized "a::b.c : (" true], rfl, ?_⟩
    intro o ho
    rw [List.mem_singleton.mp ho]
    decide
  have htriple : IsLastWith Operator.triple (sized "Tensor" true).triple sizes
      (sized "a::b.c : (" true) :=
    ⟨rfl, [sized "Tensor" true, sized "Tensor" false], [], rfl, nofun⟩
  have hfound := (hgetTriple _ _).mpr htriple
  exact ⟨hall, (hget _ _).mpr hkey, hfound, hreach _ _ hfound, hlength⟩

end Registry

end DialectBench
