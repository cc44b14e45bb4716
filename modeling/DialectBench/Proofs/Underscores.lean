import Mathlib.Data.List.Chain
import DialectBench.Operator.Files
import DialectBench.Proofs.OperatorNames

/-!
# Underscores in the names of definitions

    The name of a definition is made of the parts of the operator's name.  Each
    part is cut at its underscores, the pieces are capitalised and joined without
    the underscores, and an empty piece is written as an underscore.

    For a name in SNAKE CASE nothing is lost on the way: every piece that is
    written starts with a capital or is an underscore, so that the name can be
    read back character by character (`readPart_definitionPart`).  A capital
    stands for an underscore and its small letter and everything else for itself,
    which gives one underscore too many in front.  The digits are why snake case
    is needed: a piece that starts with one has no capital to tell its start.
-/

namespace DialectBench.Text

/-! ## Cutting at underscores -/

/-- The pieces of a text, each with its separator in front, are the text with one
    separator in front. -/
theorem flatMap_cons_splitChars (sep : Char) (cs : List Char) :
    (splitChars sep cs).flatMap (sep :: ·) = sep :: cs := by
  induction cs with
  | nil => rfl
  | cons c rest ih =>
      obtain ⟨piece, pieces, hr⟩ := List.exists_cons_of_ne_nil (splitChars_ne_nil sep rest)
      by_cases h : c = sep
      · subst h
        rw [splitChars, if_pos (beq_self_eq_true c), List.flatMap_cons, ih]
        rfl
      · rw [hr, List.flatMap_cons, List.cons_append] at ih
        rw [splitChars_cons_of_ne h hr, List.flatMap_cons, List.cons_append, List.cons_append,
          (List.cons.inj ih).2]

/-- A separator at the end gives one more piece, which is empty. -/
theorem splitChars_concat_sep (sep : Char) (cs : List Char) :
    splitChars sep (cs ++ [sep]) = splitChars sep cs ++ [[]] := by
  induction cs with
  | nil =>
      show splitChars sep [sep] = [[], []]
      rw [splitChars, if_pos (beq_self_eq_true sep)]
      rfl
  | cons c rest ih =>
      obtain ⟨piece, pieces, hr⟩ := List.exists_cons_of_ne_nil (splitChars_ne_nil sep rest)
      by_cases h : c = sep
      · subst h
        rw [List.cons_append, splitChars, if_pos (beq_self_eq_true c), ih, splitChars,
          if_pos (beq_self_eq_true c), List.cons_append]
      · rw [hr, List.cons_append] at ih
        rw [List.cons_append, splitChars_cons_of_ne h ih, splitChars_cons_of_ne h hr,
          List.cons_append]

end DialectBench.Text

namespace DialectBench.Operator

open Text

/-! ## Snake case -/

/-- A name in snake case: small letters, digits and underscores, with no digit at
    the start and none directly behind an underscore. -/
structure IsSnakeCase (cs : List Char) : Prop where
  chars : ∀ c ∈ cs, c.isLower = true ∨ c.isDigit = true ∨ c = '_'
  start : ∀ c ∈ cs.head?, c.isDigit = false
  apart : cs.IsChain fun a b => a = '_' → b.isDigit = false

-- given by name: characters are finitely many, so a search may come up with trying them all
instance (cs : List Char) : Decidable (IsSnakeCase cs) :=
  have : Decidable (∀ c ∈ cs, c.isLower = true ∨ c.isDigit = true ∨ c = '_') :=
    List.decidableBAll _ cs
  have : Decidable (∀ c ∈ cs.head?, c.isDigit = false) :=
    Option.decidableForallMem cs.head?
  decidable_of_iff (_ ∧ _ ∧ _) ⟨fun h => ⟨h.1, h.2.1, h.2.2⟩, fun h => ⟨h.chars, h.start, h.apart⟩⟩

/-- A piece between underscores: letters and digits, the first of them a letter. -/
structure IsSnakePiece (cs : List Char) : Prop where
  chars : ∀ c ∈ cs, c.isLower = true ∨ c.isDigit = true
  start : ∀ c ∈ cs.head?, c.isDigit = false

/-- All pieces but the first start behind an underscore; the first one starts where
    the name does, so nothing is said of its start here. -/
theorem snakePieces_of_chain {cs : List Char}
    (hchars : ∀ c ∈ cs, c.isLower = true ∨ c.isDigit = true ∨ c = '_')
    (hapart : cs.IsChain fun a b => a = '_' → b.isDigit = false) :
    ∃ p ps, splitChars '_' cs = p :: ps ∧ (∀ c ∈ p, c.isLower = true ∨ c.isDigit = true) ∧
      (∀ c ∈ p.head?, c ∈ cs.head?) ∧ ∀ q ∈ ps, IsSnakePiece q := by
  induction cs with
  | nil => exact ⟨[], [], rfl, nofun, nofun, nofun⟩
  | cons c rest ih =>
      obtain ⟨hc, hrest⟩ := List.forall_mem_cons.mp hchars
      obtain ⟨hnext, hchain⟩ := List.isChain_cons.mp hapart
      obtain ⟨p, ps, hsplit, hp, hhead, hps⟩ := ih hrest hchain
      by_cases h : c = '_'
      · subst h
        have hpiece : IsSnakePiece p := ⟨hp, fun d hd => hnext d (hhead d hd) rfl⟩
        refine ⟨[], p :: ps, ?_, nofun, nofun, List.forall_mem_cons.mpr ⟨hpiece, hps⟩⟩
        rw [splitChars, if_pos (beq_self_eq_true '_'), hsplit]
      · have hletter : c.isLower = true ∨ c.isDigit = true :=
          hc.imp_right fun hor => hor.resolve_right h
        exact ⟨c :: p, ps, splitChars_cons_of_ne h hsplit,
          List.forall_mem_cons.mpr ⟨hletter, hp⟩, fun d hd => hd, hps⟩

theorem IsSnakeCase.pieces {cs : List Char} (h : IsSnakeCase cs) :
    ∀ p ∈ splitChars '_' cs, IsSnakePiece p := by
  obtain ⟨p, ps, hsplit, hp, hhead, hps⟩ := snakePieces_of_chain h.chars h.apart
  rw [hsplit]
  exact List.forall_mem_cons.mpr ⟨⟨hp, fun c hc => h.start c (hhead c hc)⟩, hps⟩

/-! ## Reading a part of a definition's name -/

/-- What a character of a definition's name stands for: a capital starts a piece. -/
def spell (c : Char) : List Char := if c.isUpper then ['_', c.toLower] else [c]

/-- The name in snake case that has a given part; the first piece has no underscore
    in front. -/
def readPart (cs : List Char) : List Char := (cs.flatMap spell).tail

/-- A small letter is read back from its capital. -/
theorem spell_capital {c : Char} (h : c.isLower = true) :
    (capital c).flatMap spell = ['_', c] := by
  have hletters : ∀ n < 123, 97 ≤ n →
      (capital (Char.ofNat n)).flatMap spell = ['_', Char.ofNat n] := by decide +kernel
  obtain ⟨hfrom, hto⟩ := codes_of_isLower h
  have hletter := hletters c.toNat (by omega) hfrom
  rwa [Char.ofNat_toNat] at hletter

theorem spell_of_snake {c : Char} (h : c.isLower = true ∨ c.isDigit = true) : spell c = [c] := by
  have hupper : ¬ c.isUpper = true := by
    intro hupper
    have hcapital := codes_of_isUpper hupper
    rcases h with hlower | hdigit
    · have hsmall := codes_of_isLower hlower
      omega
    · have hcodes : 48 ≤ c.toNat ∧ c.toNat ≤ 57 := Char.isDigit_iff_toNat.mp hdigit
      omega
  exact if_neg hupper

theorem flatMap_spell_of_snake {cs : List Char}
    (h : ∀ c ∈ cs, c.isLower = true ∨ c.isDigit = true) : cs.flatMap spell = cs := by
  induction cs with
  | nil => rfl
  | cons c cs ih =>
      obtain ⟨hc, hcs⟩ := List.forall_mem_cons.mp h
      rw [List.flatMap_cons, spell_of_snake hc, ih hcs]
      rfl

/-- A written piece is read as the piece with an underscore in front, be it empty
    or not. -/
theorem flatMap_spell_namePiece {p : List Char} (h : IsSnakePiece p) :
    (namePiece p).flatMap spell = '_' :: p := by
  cases p with
  | nil => rfl
  | cons c p =>
      obtain ⟨hc, hp⟩ := List.forall_mem_cons.mp h.chars
      have hlower : c.isLower = true := by
        rcases hc with hc | hc
        · exact hc
        · exact absurd hc (Bool.eq_false_iff.mp (h.start c rfl))
      show (capital c ++ p).flatMap spell = '_' :: c :: p
      rw [List.flatMap_append, spell_capital hlower, flatMap_spell_of_snake hp]
      rfl

/-- **A NAME IN SNAKE CASE CAN BE READ BACK** from its part of the definition's
    name, whatever runs of underscores it has. -/
theorem readPart_definitionPart {cs : List Char} (h : IsSnakeCase cs) :
    readPart (definitionPart cs) = cs := by
  have hpieces : (splitChars '_' cs).map (fun p => (namePiece p).flatMap spell)
      = (splitChars '_' cs).map ('_' :: ·) :=
    List.map_congr_left fun p hp => flatMap_spell_namePiece (h.pieces p hp)
  rw [readPart, definitionPart, List.flatMap_assoc, List.flatMap_def, hpieces, ← List.flatMap_def,
    flatMap_cons_splitChars, List.tail_cons]

/-- Without snake case two names may share a part: the digit has no capital. -/
example : definitionPart "pool_2d".toList = definitionPart "pool2d".toList := by decide

/-- An underscore at the end of a name is one at the end of its part. -/
theorem definitionPart_concat_underscore (cs : List Char) :
    definitionPart (cs ++ ['_']) = definitionPart cs ++ ['_'] := by
  rw [definitionPart, definitionPart, splitChars_concat_sep, List.flatMap_append]
  rfl

/-! ## Names of definitions -/

/-- The name of a definition up to the end of the base name. -/
def definitionStart (o : Operator) : String :=
  "Torch_" ++ String.ofList (definitionPart o.scope.toList ++ definitionPart o.base.toList)

/-- What follows the base name: the overload, if there is one, and the ending. -/
def definitionEnd (o : Operator) : String :=
  String.ofList (if o.overload.isEmpty then [] else definitionPart o.overload.toList) ++ "Op"

theorem definitionName_eq (o : Operator) :
    o.definitionName = o.definitionStart ++ o.definitionEnd := by
  have hparts : o.nameParts.flatMap (fun p => definitionPart p.toList)
      = definitionPart o.scope.toList ++ definitionPart o.base.toList ++
          (if o.overload.isEmpty then [] else definitionPart o.overload.toList) := by
    rw [nameParts]
    by_cases h : o.overload.isEmpty = true
    · rw [if_pos h, if_pos h]
      simp
    · rw [if_neg h, if_neg h]
      simp
  rw [definitionName, definitionStart, definitionEnd, hparts, String.ofList_append]
  simp only [String.append_assoc]

variable {o o' : Operator}

theorem definitionEnd_congr (h : o.overload = o'.overload) :
    o.definitionEnd = o'.definitionEnd := by
  rw [definitionEnd, definitionEnd, h]

/-- In one scope, names in snake case that start a definition's name alike are
    equal. -/
theorem base_eq_of_definitionStart (hscope : o.scope = o'.scope)
    (hsnake : IsSnakeCase o.base.toList) (hsnake' : IsSnakeCase o'.base.toList)
    (h : o.definitionStart = o'.definitionStart) : o.base = o'.base := by
  rw [definitionStart, definitionStart, hscope, String.append_right_inj, String.ofList_inj,
    List.append_cancel_left_eq] at h
  have hread := congrArg readPart h
  rw [readPart_definitionPart hsnake, readPart_definitionPart hsnake'] at hread
  exact String.toList_inj.mp hread

theorem definitionStart_of_underscore (hscope : o'.scope = o.scope)
    (hbase : o'.base = o.base ++ "_") : o'.definitionStart = o.definitionStart ++ "_" := by
  rw [definitionStart, definitionStart, hscope, hbase, String.toList_append]
  show "Torch_" ++ String.ofList (_ ++ definitionPart (o.base.toList ++ ['_'])) = _
  rw [definitionPart_concat_underscore, ← List.append_assoc, String.ofList_append,
    ← String.append_assoc]

/-- **UNDERSCORES KEEP DEFINITIONS APART.**  Operators that differ in their base
    names only have different definition names, as long as these names are in
    snake case; and whatever the names are, an underscore behind the base name is
    one underscore more in the definition's name, right behind the base name. -/
theorem definitionName_keeps_underscores :
    (∀ o o' : Operator, o.scope = o'.scope → o.overload = o'.overload →
      IsSnakeCase o.base.toList → IsSnakeCase o'.base.toList →
      o.definitionName = o'.definitionName → o.base = o'.base) ∧
    (∀ o o' : Operator, o'.triple = o.inPlaceTriple →
      o.definitionName = o.definitionStart ++ o.definitionEnd ∧
      o'.definitionName = o.definitionStart ++ "_" ++ o.definitionEnd) := by
  constructor
  · intro o o' hscope hoverload hsnake hsnake' heq
    rw [definitionName_eq, definitionName_eq, definitionEnd_congr hoverload,
      String.append_left_inj] at heq
    exact base_eq_of_definitionStart hscope hsnake hsnake' heq
  · intro o o' htriple
    have hscope : o'.scope = o.scope := congrArg Triple.scope htriple
    have hbase : o'.base = o.base ++ "_" := congrArg Triple.base htriple
    have hoverload : o'.overload = o.overload := congrArg Triple.overload htriple
    refine ⟨o.definitionName_eq, ?_⟩
    rw [definitionName_eq, definitionStart_of_underscore hscope hbase,
      definitionEnd_congr hoverload]

/-- An operator without parameters and results. -/
def activation (base overload : String) : Operator := ofTypes "aten" base overload [] []

/-- A name with and without underscores around it, and one underscore more behind another. -/
theorem definitionName_keeps_underscores_softmax :
    IsSnakeCase "softmax".toList ∧ IsSnakeCase "__softmax__".toList ∧
    (activation "softmax" "int").definitionName
      ≠ (activation "__softmax__" "int").definitionName ∧
    (activation "_softmax_" "int").triple = (activation "_softmax" "int").inPlaceTriple ∧
    (activation "_softmax" "int").definitionName = "Torch_Aten_Softmax" ++ "IntOp" ∧
    (activation "_softmax_" "int").definitionName = "Torch_Aten_Softmax" ++ "_" ++ "IntOp" := by
  have hsoftmax : IsSnakeCase "softmax".toList := by decide +kernel
  have hdunder : IsSnakeCase "__softmax__".toList := by decide +kernel
  have htriple : (activation "_softmax_" "int").triple
      = (activation "_softmax" "int").inPlaceTriple := by decide +kernel
  obtain ⟨hplain, hlonger⟩ := definitionName_keeps_underscores.2 _ _ htriple
  have hstart : (activation "_softmax" "int").definitionStart = "Torch_Aten_Softmax" := by
    decide +kernel
  have hend : (activation "_softmax" "int").definitionEnd = "IntOp" := by decide +kernel
  rw [hstart, hend] at hplain hlonger
  refine ⟨hsoftmax, hdunder, ?_, htriple, hplain, hlonger⟩
  intro heq
  have hbase : "softmax" = "__softmax__" :=
    definitionName_keeps_underscores.1 (activation "softmax" "int") (activation "__softmax__" "int")
      rfl rfl hsoftmax hdunder heq
  exact absurd hbase (by decide)

end DialectBench.Operator
