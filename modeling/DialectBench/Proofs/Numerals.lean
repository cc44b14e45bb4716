/-!
# Numerals

    A number is written in decimal digits, behind a sign if it is negative, and
    its text tells it (`toString_int_injective`).
-/

namespace DialectBench.Text

theorem isDigit_of_mem_repr {n : Nat} {c : Char} (h : c ∈ n.repr.toList) : c.isDigit = true :=
  Nat.isDigit_of_mem_toDigits (by decide) (by decide) (Nat.toList_repr ▸ h)

theorem repr_nat_injective {m n : Nat} (h : m.repr = n.repr) : m = n := by
  have hdigits : Nat.toDigits 10 m = Nat.toDigits 10 n := by
    rw [← Nat.toList_repr, h, Nat.toList_repr]
  calc m = Nat.ofDigitChars 10 (Nat.toDigits 10 m) 0 := Nat.ofDigitChars_ten_toDigits.symm
    _ = Nat.ofDigitChars 10 (Nat.toDigits 10 n) 0 := by rw [hdigits]
    _ = n := Nat.ofDigitChars_ten_toDigits

theorem toString_negSucc (m : Nat) : toString (Int.negSucc m) = "-" ++ (m + 1).repr := rfl

/-- An integer is written with digits, behind a sign if it is negative. -/
theorem mem_toString_int {n : Int} {c : Char} (h : c ∈ (toString n).toList) :
    c = '-' ∨ c.isDigit = true := by
  cases n with
  | ofNat m => exact .inr (isDigit_of_mem_repr (n := m) h)
  | negSucc m =>
      rw [toString_negSucc, String.toList_append] at h
      rcases List.mem_append.mp h with hminus | hdigit
      · exact .inl (List.mem_singleton.mp hminus)
      · exact .inr (isDigit_of_mem_repr hdigit)

theorem toString_int_ne_empty (n : Int) : toString n ≠ "" := by
  cases n with
  | ofNat m => exact Nat.repr_ne_empty
  | negSucc m =>
      rw [toString_negSucc]
      simp

/-- A text that has a letter or a question mark is not that of an integer. -/
theorem toString_int_ne {n : Int} {s : String} {c : Char} (hmem : c ∈ s.toList)
    (hsign : c ≠ '-') (hdigit : c.isDigit = false) : toString n ≠ s := by
  rintro rfl
  rcases mem_toString_int hmem with h | h
  · exact hsign h
  · exact Bool.false_ne_true (hdigit.symm.trans h)

/-- A natural number is written without a sign. -/
theorem repr_nat_ne_toString_negSucc (m n : Nat) : m.repr ≠ toString (Int.negSucc n) := by
  intro h
  have hsign : '-' ∈ m.repr.toList := by
    rw [h, toString_negSucc, String.toList_append]
    exact List.mem_append_left _ List.mem_cons_self
  exact absurd (isDigit_of_mem_repr hsign) (by decide)

/-- **THE TEXT OF AN INTEGER TELLS THE INTEGER.** -/
theorem toString_int_injective {m n : Int} (h : toString m = toString n) : m = n := by
  cases m with
  | ofNat a =>
      cases n with
      | ofNat b => rw [repr_nat_injective h]
      | negSucc b => exact absurd h (repr_nat_ne_toString_negSucc a b)
  | negSucc a =>
      cases n with
      | ofNat b => exact absurd h.symm (repr_nat_ne_toString_negSucc b a)
      | negSucc b =>
          rw [toString_negSucc, toString_negSucc, String.append_right_inj] at h
          rw [Nat.succ.inj (repr_nat_injective h)]

end DialectBench.Text
