import DialectBench.Operator.Definition
import DialectBench.Proofs.OperatorTypes
import DialectBench.Proofs.PrintedLines

/-!
# Names and keys stay on their line

    The name of a definition is made of the parts of the operator's name, each
    cut at its underscores and capitalised.  Capitals come from tables, so that
    what the tables hold decides what such a name can hold: no capital is white
    space (`capital_not_blank`), hence neither is any character of the name.

    An operator is regular if its names are names and its types are known and of
    one line.  The name of the operation, the name of the definition and the key
    of a regular operator have no line break.
-/

namespace DialectBench.Text

/-! ## White space as ranges -/

/-- The code points of white space. -/
def blankRanges : List (Nat × Nat) := [
  (9, 13), (28, 32), (0x85, 0x85), (0xa0, 0xa0), (0x1680, 0x1680), (0x2000, 0x200a),
  (0x2028, 0x2029), (0x202f, 0x202f), (0x205f, 0x205f), (0x3000, 0x3000)]

theorem isBlank_iff {c : Char} :
    isBlank c = true ↔ ∃ r ∈ blankRanges, r.1 ≤ c.toNat ∧ c.toNat ≤ r.2 := by
  simp [isBlank, blankRanges]
  omega

theorem isBlank_of_isBreak {c : Char} (h : isBreak c = true) : isBlank c = true := by
  simp only [isBreak, Bool.or_eq_true, Bool.and_eq_true, decide_eq_true_eq, beq_iff_eq] at h
  simp only [isBlank, Bool.or_eq_true, Bool.and_eq_true, decide_eq_true_eq, beq_iff_eq]
  omega

theorem not_break_of_not_blank {c : Char} (h : isBlank c = false) : isBreak c = false := by
  cases hb : isBreak c with
  | false => rfl
  | true => exact absurd (isBlank_of_isBreak hb) (by rw [h]; exact Bool.false_ne_true)

/-! ## Capitals -/

/-- The capitals of a run are on one side of each range of white space. -/
theorem caseRuns_apart_from_blanks :
    ∀ r ∈ caseRuns, ∀ b ∈ blankRanges,
      (r.last : Int) + r.offset < b.1 ∨ (b.2 : Int) < r.first + r.offset := by
  decide +kernel

theorem longCapitals_not_blank :
    ∀ e ∈ longCapitals, ∀ n ∈ e.2, isBlank (Char.ofNat n) = false := by
  decide +kernel

theorem CaseRun.capital_not_blank {r : CaseRun} (hr : r ∈ caseRuns) {n : Nat}
    (hn : r.covers n = true) : isBlank (Char.ofNat (n + r.offset).toNat) = false := by
  rw [Bool.eq_false_iff, ne_eq, isBlank_iff]
  rintro ⟨b, hb, hlow, hhigh⟩
  have hside := caseRuns_apart_from_blanks r hr b hb
  have hpos : ∀ b ∈ blankRanges, 0 < b.1 := by decide
  have hb := hpos b hb
  simp only [CaseRun.covers, Bool.and_eq_true, decide_eq_true_eq] at hn
  -- a number that is no code point gives the null character, which is below every range
  have hcode : (Char.ofNat (n + r.offset).toNat).toNat = (n + r.offset).toNat
      ∨ (Char.ofNat (n + r.offset).toNat).toNat = 0 := by
    by_cases hvalid : (n + r.offset).toNat.isValidChar
    · exact .inl (congrArg Char.toNat (dif_pos hvalid))
    · exact .inr (congrArg Char.toNat (dif_neg hvalid))
  omega

/-- **A CAPITAL IS NO WHITE SPACE** unless the character itself is. -/
theorem capital_not_blank {c : Char} (hc : isBlank c = false) :
    ∀ d ∈ capital c, isBlank d = false := by
  intro d hd
  unfold capital at hd
  split at hd
  next e he =>
    obtain ⟨n, hn, rfl⟩ := List.mem_map.mp hd
    exact longCapitals_not_blank e (List.mem_of_find?_eq_some he) n hn
  next =>
    split at hd
    next r hr =>
      rw [List.mem_singleton.mp hd]
      have hcovers : r.covers c.toNat = true := by simpa using List.find?_some hr
      exact CaseRun.capital_not_blank (List.mem_of_find?_eq_some hr) hcovers
    next =>
      rw [List.mem_singleton.mp hd]
      exact hc

theorem capitalize_not_blank {cs : List Char} (h : ∀ c ∈ cs, isBlank c = false) :
    ∀ d ∈ capitalize cs, isBlank d = false := by
  intro d hd
  cases cs with
  | nil => exact nomatch hd
  | cons c cs =>
      obtain ⟨hc, hcs⟩ := List.forall_mem_cons.mp h
      rcases List.mem_append.mp hd with hd | hd
      · exact capital_not_blank hc d hd
      · exact hcs d hd

/-- What a piece holds, the text held. -/
theorem mem_of_mem_splitChars {sep : Char} {cs piece : List Char} (h : piece ∈ splitChars sep cs)
    {c : Char} (hc : c ∈ piece) : c ∈ cs := by
  induction cs generalizing piece with
  | nil =>
      rw [List.mem_singleton.mp h] at hc
      exact hc
  | cons d cs ih =>
      by_cases hd : d = sep
      · subst hd
        rw [splitChars, if_pos (beq_self_eq_true d)] at h
        rcases List.mem_cons.mp h with rfl | h
        · exact absurd hc List.not_mem_nil
        · exact List.mem_cons_of_mem d (ih h hc)
      · obtain ⟨first, rest, hr⟩ := List.exists_cons_of_ne_nil (splitChars_ne_nil sep cs)
        rw [splitChars_cons_of_ne hd hr] at h
        rw [hr] at ih
        rcases List.mem_cons.mp h with rfl | h
        · rcases List.mem_cons.mp hc with rfl | hc
          · exact List.mem_cons_self
          · exact List.mem_cons_of_mem d (ih List.mem_cons_self hc)
        · exact List.mem_cons_of_mem d (ih (List.mem_cons_of_mem first h) hc)

/-! ## Names -/

/-- The characters of names: letters and digits, the underscore, and whatever lies outside of ASCII
    and is no white space. -/
def isNameChar (c : Char) : Bool :=
  c.isAlphanum || c == '_' || (128 ≤ c.toNat && !isBlank c)

/-- A name: not empty, and of such characters only. -/
def IsName (s : String) : Prop := s ≠ "" ∧ ∀ c ∈ s.toList, isNameChar c = true

instance (s : String) : Decidable (IsName s) :=
  have : Decidable (∀ c ∈ s.toList, isNameChar c = true) := List.decidableBAll _ s.toList
  inferInstanceAs (Decidable (s ≠ "" ∧ ∀ c ∈ s.toList, isNameChar c = true))

theorem codes_of_isUpper {c : Char} (h : c.isUpper = true) : 65 ≤ c.toNat ∧ c.toNat ≤ 90 :=
  (of_decide_eq_true h : c.val ≥ 'A'.val ∧ c.val ≤ 'Z'.val)

theorem codes_of_isLower {c : Char} (h : c.isLower = true) : 97 ≤ c.toNat ∧ c.toNat ≤ 122 := by
  obtain ⟨hfrom, hto⟩ := Bool.and_eq_true_iff.mp h
  exact ⟨(of_decide_eq_true hfrom : c.val ≥ 'a'.val), (of_decide_eq_true hto : c.val ≤ 'z'.val)⟩

theorem isNameChar_not_blank {c : Char} (h : isNameChar c = true) : isBlank c = false := by
  rw [isNameChar, Bool.or_eq_true, Bool.or_eq_true] at h
  rcases h with (h | h) | h
  · rw [Bool.eq_false_iff, ne_eq, isBlank_iff]
    rintro ⟨r, hr, hlow, hhigh⟩
    -- white space ends below the digits or starts above the small letters
    have hsides : ∀ r ∈ blankRanges, r.2 < 48 ∨ 122 < r.1 := by decide
    have hside := hsides r hr
    have hrange : 48 ≤ c.toNat ∧ c.toNat ≤ 122 := by
      rcases Bool.or_eq_true_iff.mp h with hletter | hdigit
      · rcases Bool.or_eq_true_iff.mp hletter with hupper | hlower
        · have hcodes := codes_of_isUpper hupper
          omega
        · have hcodes := codes_of_isLower hlower
          omega
      · have hcodes : 48 ≤ c.toNat ∧ c.toNat ≤ 57 := Char.isDigit_iff_toNat.mp hdigit
        omega
    omega
  · rw [beq_iff_eq.mp h]
    decide
  · rw [Bool.and_eq_true, Bool.not_eq_true'] at h
    exact h.2

theorem IsName.not_blank {s : String} (h : IsName s) : ∀ c ∈ s.toList, isBlank c = false :=
  fun c hc => isNameChar_not_blank (h.2 c hc)

theorem IsName.unbroken {s : String} (h : IsName s) : Unbroken s :=
  fun c hc => not_break_of_not_blank (h.not_blank c hc)

end DialectBench.Text

namespace DialectBench.Operator

open Text

/-! ## Regular operators -/

/-- A parameter with a known type of one line. -/
def HasKnownType (p : Param) : Prop :=
  ∃ type predicate, p.type = .ok type ∧ Unbroken type ∧ typePredicate type = .ok predicate

/-- A parameter that has a name. -/
def IsNamed (p : Param) : Prop := ∃ name, p.get "name" = .ok (.str name) ∧ IsName name

/-- A result whose name is a name, if it does not fall back to a generic one. -/
def IsNamedOrNameless (p : Param) : Prop :=
  ∃ v, p.get "name" = .ok v ∧ (v.isTruthy = true → ∃ name, v = .str name ∧ IsName name)

/-- An operator whose names are names and whose types are known. -/
structure Regular (o : Operator) : Prop where
  scope : IsName o.scope
  base : IsName o.base
  overload : o.overload ≠ "" → IsName o.overload
  arguments : ∀ p ∈ o.arguments, HasKnownType p ∧ IsNamed p
  returns : ∀ p ∈ o.returns, HasKnownType p ∧ IsNamedOrNameless p

variable {o : Operator}

theorem Regular.nameParts (h : Regular o) : ∀ p ∈ o.nameParts, IsName p := by
  have hrest : ∀ p ∈ (if o.overload.isEmpty then [] else [o.overload]), IsName p := by
    intro p hp
    by_cases he : o.overload.isEmpty = true
    · rw [if_pos he] at hp
      exact nomatch hp
    · rw [if_neg he] at hp
      rw [List.mem_singleton.mp hp]
      exact h.overload fun hempty => he (by rw [hempty]; rfl)
  intro p hp
  rcases List.mem_append.mp hp with hp | hp
  · rcases List.mem_cons.mp hp with rfl | hp
    · exact h.scope
    · rw [List.mem_singleton.mp hp]
      exact h.base
  · exact hrest p hp

/-- The name of the operation is of one line. -/
theorem Regular.unbroken_opName (h : Regular o) : Unbroken o.opName :=
  unbroken_joinWith (by decide) fun p hp => (h.nameParts p hp).unbroken

/-- The name of the operation holds no double quote. -/
theorem Regular.quote_not_mem_opName (h : Regular o) : '"' ∉ o.opName.toList := by
  intro hmem
  rcases mem_joinWith hmem with hsep | ⟨p, hp, hc⟩
  · exact absurd hsep (by decide)
  · exact absurd ((h.nameParts p hp).2 '"' hc) (by decide)

theorem namePiece_not_blank {cs : List Char} (h : ∀ c ∈ cs, isBlank c = false) :
    ∀ d ∈ namePiece cs, isBlank d = false := by
  intro d hd
  unfold namePiece at hd
  split at hd
  · rw [List.mem_singleton.mp hd]
    decide
  · exact capitalize_not_blank h d hd

/-- **THE NAME OF A DEFINITION HOLDS NO WHITE SPACE.** -/
theorem Regular.definitionName_not_blank (h : Regular o) :
    ∀ c ∈ o.definitionName.toList, isBlank c = false := by
  intro c hc
  have hends : ∀ c ∈ "Torch_".toList ++ "Op".toList, isBlank c = false := by
    have hall : ("Torch_".toList ++ "Op".toList).all (fun c => !isBlank c) = true := by decide
    exact fun c hc => Bool.not_eq_true' _ ▸ List.all_eq_true.mp hall c hc
  rw [definitionName, String.toList_append, String.toList_append] at hc
  rcases List.mem_append.mp hc with hc | hc
  · rcases List.mem_append.mp hc with hc | hc
    · exact hends c (List.mem_append.mpr (.inl hc))
    · rw [String.toList_ofList] at hc
      obtain ⟨p, hp, hc⟩ := List.mem_flatMap.mp hc
      obtain ⟨piece, hpiece, hc⟩ := List.mem_flatMap.mp hc
      refine namePiece_not_blank ?_ c hc
      intro d hd
      exact (h.nameParts p hp).not_blank d (mem_of_mem_splitChars hpiece hd)
  · exact hends c (List.mem_append.mpr (.inr hc))

/-! ## Keys -/

theorem typesText_unbroken (variadic : Bool) {ps : List Param} (h : ∀ p ∈ ps, HasKnownType p) :
    ∃ s, typesText variadic ps = .ok s ∧ Unbroken s := by
  cases variadic with
  | true => exact ⟨"...", rfl, by decide⟩
  | false =>
      have htypes : ∀ p ∈ ps, ∃ type, p.type = .ok type ∧ Unbroken type := by
        intro p hp
        obtain ⟨type, _, htype, hline, _⟩ := h p hp
        exact ⟨type, htype, hline⟩
      obtain ⟨types, hread, hlines⟩ := mapM_of_forall htypes
      refine ⟨joinWith ", " types, ?_, unbroken_joinWith (by decide) hlines⟩
      rw [typesText, if_neg Bool.false_ne_true, hread]
      rfl

theorem Regular.unbroken_overloadSuffix (h : Regular o) :
    Unbroken (overloadSuffix o.overload) := by
  unfold overloadSuffix
  split
  next => decide
  next he =>
    have hname := h.overload fun hempty => he (by rw [hempty]; rfl)
    exact unbroken_append.mpr ⟨by decide, hname.unbroken⟩

/-- **A KEY IS OF ONE LINE.** -/
theorem Regular.unbroken_key (h : Regular o) : Unbroken o.key := by
  obtain ⟨ins, hins, hinsLine⟩ := typesText_unbroken o.isVararg fun p hp => (h.arguments p hp).1
  obtain ⟨outs, houts, houtsLine⟩ := typesText_unbroken o.isVarret fun p hp => (h.returns p hp).1
  have hkey := o.keyed
  rw [keyText, hins, houts] at hkey
  rw [← Except.ok.inj hkey]
  simp only [unbroken_append]
  exact ⟨⟨⟨⟨⟨⟨⟨⟨h.scope.unbroken, by decide⟩, h.base.unbroken⟩, h.unbroken_overloadSuffix⟩,
    by decide⟩, hinsLine⟩, by decide⟩, houtsLine⟩, by decide⟩

end DialectBench.Operator
