import Mathlib.Data.List.Forall2
import DialectBench.Operator.Basic

/-!
# Operators by the types of their parameters

    The parameters of an operator are read one after the other, and the first
    that cannot be read stops the reading.  So a reading returns exactly if it
    does for each of them (`mapM_eq_ok_iff`).

    Where each parameter has a name and a type, the key can be read; an operator
    is then given by its names and types alone (`Operator.ofTypes`).
-/

namespace DialectBench

section

variable {ε α β : Type} {f : α → Except ε β} {as : List α} {bs : List β}

/-- **STEPS IN ORDER** return exactly if each of them does. -/
theorem mapM_eq_ok_iff :
    as.mapM f = .ok bs ↔ List.Forall₂ (fun a b => f a = .ok b) as bs := by
  induction as generalizing bs with
  | nil =>
      rw [List.mapM_nil, List.forall₂_nil_left_iff]
      exact ⟨fun h => (Except.ok.inj h).symm, fun h => congrArg Except.ok h.symm⟩
  | cons a as ih =>
      rw [List.mapM_cons, List.forall₂_cons_left_iff]
      cases ha : f a with
      | error e => exact ⟨fun h => (nomatch h), fun ⟨_, _, hb, _⟩ => (nomatch hb)⟩
      | ok b =>
          cases hrest : as.mapM f with
          | error e =>
              refine ⟨fun h => (nomatch h), fun ⟨_, _, _, hbs, _⟩ => ?_⟩
              exact nomatch hrest.symm.trans (ih.mpr hbs)
          | ok cs =>
              constructor
              · intro h
                cases h
                exact ⟨b, cs, rfl, ih.mp hrest, rfl⟩
              · rintro ⟨c, bs, hc, hbs, rfl⟩
                cases hc
                cases hrest.symm.trans (ih.mpr hbs)
                rfl

/-- Steps that all return do so in order. -/
theorem mapM_of_forall {P : β → Prop} (h : ∀ a ∈ as, ∃ b, f a = .ok b ∧ P b) :
    ∃ bs, as.mapM f = .ok bs ∧ ∀ b ∈ bs, P b := by
  induction as with
  | nil => exact ⟨[], rfl, fun _ hb => nomatch hb⟩
  | cons a as ih =>
      obtain ⟨⟨b, hb, hP⟩, has⟩ := List.forall_mem_cons.mp h
      obtain ⟨bs, hbs, hPs⟩ := ih has
      exact ⟨b :: bs, mapM_eq_ok_iff.mpr (.cons hb (mapM_eq_ok_iff.mp hbs)),
        List.forall_mem_cons.mpr ⟨hP, hPs⟩⟩

end

/-- The parameter with a name and a type. -/
def Param.ofType (name type : String) : Param := ⟨[("name", .str name), ("type", .str type)]⟩

namespace Operator

/-- The parameters with names and types. -/
def params (ps : List (String × String)) : List Param := ps.map fun p => .ofType p.1 p.2

theorem typesText_params (ps : List (String × String)) :
    typesText false (params ps) = .ok (Text.joinWith ", " (ps.map Prod.snd)) := by
  have htypes : (params ps).mapM Param.type = .ok (ps.map Prod.snd) := by
    rw [mapM_eq_ok_iff, params, List.forall₂_map_left_iff, List.forall₂_map_right_iff]
    exact List.forall₂_same.mpr fun _ _ => rfl
  rw [typesText, if_neg Bool.false_ne_true, htypes]
  rfl

/-- The operator of a name whose parameters and results have names and types. -/
def ofTypes (scope base overload : String) (arguments returns : List (String × String)) :
    Operator where
  scope := scope
  base := base
  overload := overload
  isC10 := true
  isVararg := false
  isVarret := false
  isMutable := false
  arguments := params arguments
  returns := params returns
  key := scope ++ "::" ++ base ++ overloadSuffix overload ++ " : (" ++
    Text.joinWith ", " (arguments.map Prod.snd) ++ ") -> (" ++
    Text.joinWith ", " (returns.map Prod.snd) ++ ")"
  keyed := by
    rw [keyText, typesText_params, typesText_params]
    rfl

end Operator

end DialectBench
