import Mathlib.Data.List.Chain
import Mathlib.Data.List.Infix
import DialectBench.Proofs.OperatorNames

/-!
# Where a block of documentation ends

    A block of documentation ends at the delimiter `}]`, so the text inside must
    not hold one.  Writing drops the delimiters of the text, cuts it into lines,
    trims these, joins them with line feeds and indents them.

    White space is no part of a delimiter, and all but the first of these steps
    change white space only, so none of them makes or breaks a delimiter: the
    block has one more than what is left of the text (`closers_docBlock`).  It is
    the first step that fails.  Delimiters are dropped in one pass, and where some
    of them stand between a closing brace and a closing bracket, these two come
    together and make a new one (`pos_closers_dropClosers_iff`).
-/

namespace DialectBench.Text

/-! ## The lines of a text, with their endings -/

/-- Lines as they come from a text: endings are white space, and no line but the
    last lacks one. -/
structure Tidy (ls : List Line) : Prop where
  endings : ∀ l ∈ ls, ∀ c ∈ l.ending, isBlank c = true
  ended : ls.IsChain fun l _ => l.ending ≠ []

theorem Tidy.cons {l : Line} {ls : List Line} (h : Tidy ls) (hne : l.ending ≠ [])
    (hending : ∀ c ∈ l.ending, isBlank c = true) : Tidy (l :: ls) :=
  ⟨List.forall_mem_cons.mpr ⟨hending, h.endings⟩, List.isChain_cons.mpr ⟨fun _ _ => hne, h.ended⟩⟩

theorem Tidy.push {ls : List Line} (h : Tidy ls) (c : Char) : Tidy (Line.push c ls) := by
  cases ls with
  | nil => exact ⟨by simp [Line.push], List.isChain_singleton _⟩
  | cons l ls =>
      obtain ⟨hending, hendings⟩ := List.forall_mem_cons.mp h.endings
      obtain ⟨hnext, hended⟩ := List.isChain_cons.mp h.ended
      exact ⟨List.forall_mem_cons.mpr ⟨hending, hendings⟩, List.isChain_cons.mpr ⟨hnext, hended⟩⟩

theorem tidy_linesOf (cs : List Char) : Tidy (linesOf cs) := by
  fun_induction linesOf cs with
  | case1 => exact ⟨nofun, List.isChain_nil⟩
  | case2 rest ih =>
      have hblank : ['\r', '\n'].all isBlank = true := by decide
      exact ih.cons (List.cons_ne_nil _ _) (List.all_eq_true.mp hblank)
  | case3 c rest _ hbreak ih =>
      refine ih.cons (List.cons_ne_nil _ _) ?_
      intro d hd
      rw [List.mem_singleton.mp hd]
      exact isBlank_of_isBreak hbreak
  | case4 c rest _ _ ih => exact ih.push c

/-- The lines of a text one after the other are the text. -/
theorem flatMap_linesOf (cs : List Char) :
    (linesOf cs).flatMap (fun l => l.body ++ l.ending) = cs := by
  fun_induction linesOf cs with
  | case1 => rfl
  | case2 rest ih => rw [List.flatMap_cons, ih]; rfl
  | case3 c rest _ _ ih => rw [List.flatMap_cons, ih]; rfl
  | case4 c rest _ _ ih =>
      have hpush : ∀ ls : List Line, (Line.push c ls).flatMap (fun l => l.body ++ l.ending)
          = c :: ls.flatMap (fun l => l.body ++ l.ending) := by
        intro ls
        cases ls with
        | nil => rfl
        | cons l ls => rfl
      rw [hpush, ih]

/-- What comes in front of a line when it is indented. -/
def Line.front (space : List Char) (l : Line) : List Char :=
  if l.body.all isBlank && l.ending.all isBlank then [] else space

theorem toList_indent (space s : String) :
    (indent space s).toList
      = (linesOf s.toList).flatMap fun l => l.front space.toList ++ (l.body ++ l.ending) := by
  rw [indent, String.toList_join, List.flatMap_map]
  congr 1
  funext l
  rw [Line.front]
  by_cases h : (l.body.all isBlank && l.ending.all isBlank) = true
  · simp only [if_pos h, String.toList_ofList, List.nil_append]
  · simp only [if_neg h, String.toList_append, String.toList_ofList]

theorem isBlank_of_mem_times {n : Nat} {s : String} (hs : ∀ c ∈ s.toList, isBlank c = true) :
    ∀ c ∈ (times n s).toList, isBlank c = true := by
  intro c hc
  rw [times, String.toList_join] at hc
  obtain ⟨piece, hpiece, hmem⟩ := List.mem_flatMap.mp hc
  rw [List.eq_of_mem_replicate hpiece] at hmem
  exact hs c hmem

end DialectBench.Text

namespace DialectBench.Operator

open Text

/-! ## Counting delimiters -/

/-- How often the closing delimiter occurs: a brace with a bracket right behind it. -/
def closers : List Char → Nat
  | [] => 0
  | c :: cs => (if c = '\x7d' ∧ cs.head? = some ']' then 1 else 0) + closers cs

theorem closers_cons_of_ne {c : Char} (h : c ≠ '\x7d') (cs : List Char) :
    closers (c :: cs) = closers cs := by
  rw [closers, if_neg fun hand => h hand.1, Nat.zero_add]

theorem ne_brace_of_blank {z : Char} (h : isBlank z = true) : z ≠ '\x7d' := by
  rintro rfl
  exact absurd h (by decide)

/-- White space is no part of a delimiter. -/
theorem closers_append_blank {z : Char} (hz : isBlank z = true) (xs ys : List Char) :
    closers (xs ++ z :: ys) = closers xs + closers ys := by
  induction xs with
  | nil =>
      rw [List.nil_append, closers_cons_of_ne (ne_brace_of_blank hz), closers, Nat.zero_add]
  | cons c xs ih =>
      have hhead : (xs ++ z :: ys).head? = some ']' ↔ xs.head? = some ']' := by
        cases xs with
        | nil =>
            have hne : z ≠ ']' := by
              rintro rfl
              exact absurd hz (by decide)
            simp [hne]
        | cons d xs => rfl
      simp only [List.cons_append, closers, hhead, ih, Nat.add_assoc]

theorem closers_blanks_append {bs : List Char} (h : ∀ b ∈ bs, isBlank b = true)
    (cs : List Char) : closers (bs ++ cs) = closers cs := by
  induction bs with
  | nil => rfl
  | cons b bs ih =>
      obtain ⟨hb, hbs⟩ := List.forall_mem_cons.mp h
      rw [List.cons_append, closers_cons_of_ne (ne_brace_of_blank hb), ih hbs]

theorem closers_append_blanks {bs : List Char} (h : ∀ b ∈ bs, isBlank b = true)
    (cs : List Char) : closers (cs ++ bs) = closers cs := by
  cases bs with
  | nil => rw [List.append_nil]
  | cons b bs =>
      obtain ⟨hb, hbs⟩ := List.forall_mem_cons.mp h
      have hnone := closers_blanks_append hbs []
      rw [List.append_nil] at hnone
      rw [closers_append_blank hb, hnone]
      rfl

/-! ## Steps that change white space only -/

theorem closers_trimEnd (cs : List Char) : closers (trimEnd cs) = closers cs := by
  have hcut : cs = trimEnd cs ++ (cs.reverse.takeWhile isBlank).reverse := by
    rw [trimEnd, ← List.reverse_append, List.takeWhile_append_dropWhile, List.reverse_reverse]
  have hblank : ∀ b ∈ (cs.reverse.takeWhile isBlank).reverse, isBlank b = true :=
    fun b hb => List.all_eq_true.mp List.all_takeWhile b (List.mem_reverse.mp hb)
  conv_rhs => rw [hcut]
  rw [closers_append_blanks hblank]

/-- The delimiters inside lines. -/
def bodyClosers : List Line → Nat
  | [] => 0
  | l :: ls => closers l.body + bodyClosers ls

/-- Lines with white space in front have the delimiters of their bodies. -/
theorem closers_flatMap_lines {ls : List Line} (h : Tidy ls) (space : Line → List Char)
    (hspace : ∀ l, ∀ c ∈ space l, isBlank c = true) :
    closers (ls.flatMap fun l => space l ++ (l.body ++ l.ending)) = bodyClosers ls := by
  induction ls with
  | nil => rfl
  | cons l ls ih =>
      obtain ⟨hending, hendings⟩ := List.forall_mem_cons.mp h.endings
      obtain ⟨hnext, hended⟩ := List.isChain_cons.mp h.ended
      rw [List.flatMap_cons, List.append_assoc, closers_blanks_append (hspace l),
        List.append_assoc, bodyClosers]
      cases hl : l.ending with
      | nil =>
          -- a line without an ending is the last one
          cases ls with
          | nil =>
              rw [List.flatMap_nil, List.append_nil, List.append_nil]
              rfl
          | cons m ls => exact absurd hl (hnext m rfl)
      | cons z zs =>
          rw [hl] at hending
          obtain ⟨hz, hzs⟩ := List.forall_mem_cons.mp hending
          rw [List.cons_append, closers_append_blank hz, closers_blanks_append hzs,
            ih ⟨hendings, hended⟩]

theorem bodyClosers_linesOf (cs : List Char) : bodyClosers (linesOf cs) = closers cs := by
  have hlines := closers_flatMap_lines (tidy_linesOf cs) (fun _ => []) nofun
  rw [← hlines]
  exact congrArg closers (flatMap_linesOf cs)

/-- Indenting with white space keeps the delimiters. -/
theorem closers_indent {space : String} (hspace : ∀ c ∈ space.toList, isBlank c = true)
    (s : String) : closers (indent space s).toList = closers s.toList := by
  have hfront : ∀ l : Line, ∀ c ∈ l.front space.toList, isBlank c = true := by
    intro l c hc
    rw [Line.front] at hc
    split at hc
    · exact absurd hc List.not_mem_nil
    · exact hspace c hc
  rw [toList_indent, closers_flatMap_lines (tidy_linesOf _) _ hfront, bodyClosers_linesOf]

/-- Trimmed lines that are joined with line feeds have the delimiters of their
    bodies. -/
theorem closers_joinWith_lines (ls : List Line) :
    closers (joinWith "\n" (ls.map fun l => String.ofList (trimEnd l.body))).toList
      = bodyClosers ls := by
  induction ls with
  | nil => rfl
  | cons l ls ih =>
      cases ls with
      | nil =>
          rw [List.map_singleton, joinWith, String.toList_ofList, closers_trimEnd]
          rfl
      | cons m ls =>
          have hcut : ∀ (p q : String) (rest : List String),
              (joinWith "\n" (p :: q :: rest)).toList
                = p.toList ++ '\n' :: (joinWith "\n" (q :: rest)).toList := by
            intro p q rest
            rw [joinWith, String.toList_append, String.toList_append, List.append_assoc]
            rfl
          rw [List.map_cons, List.map_cons, hcut, closers_append_blank (by decide), bodyClosers,
            ← ih, String.toList_ofList, closers_trimEnd, List.map_cons]

theorem isBlank_of_mem_margin (level : Int) : ∀ c ∈ (margin level).toList, isBlank c = true :=
  isBlank_of_mem_times (List.all_eq_true.mp (by decide : "  ".toList.all isBlank = true))

/-! ## Blocks -/

/-- What stands in a block, before it is indented. -/
def docLines (s : String) : String :=
  joinWith "\n" <| (linesOf (dropClosers s.toList)).map fun l => String.ofList (trimEnd l.body)

theorem toList_docBlock (s : String) (level : Int) :
    (docBlock s level).toList
      = ['[', '\x7b'] ++ '\n' :: ((indent (margin level ++ "  ") (docLines s)).toList ++
          '\n' :: ((margin level).toList ++ ['\x7d', ']'])) := by
  have hstart : "[\x7b\n".toList = ['[', '\x7b', '\n'] := rfl
  have hend : "\x7d]".toList = ['\x7d', ']'] := rfl
  have hbreak : "\n".toList = ['\n'] := rfl
  show ("[\x7b\n" ++ indent (margin level ++ "  ") (docLines s) ++ "\n" ++ margin level ++
    "\x7d]").toList = _
  simp only [String.toList_append, hstart, hend, hbreak, List.append_assoc, List.cons_append,
    List.nil_append]

/-- **A BLOCK HAS ONE DELIMITER MORE** than what is left of its text. -/
theorem closers_docBlock (s : String) (level : Int) :
    closers (docBlock s level).toList = closers (dropClosers s.toList) + 1 := by
  have hspace : ∀ c ∈ (margin level ++ "  ").toList, isBlank c = true := by
    rw [String.toList_append, List.forall_mem_append]
    exact ⟨isBlank_of_mem_margin level, isBlank_of_mem_margin 1⟩
  have hlines : closers (docLines s).toList = closers (dropClosers s.toList) := by
    rw [docLines, closers_joinWith_lines, bodyClosers_linesOf]
  rw [toList_docBlock, closers_append_blank (by decide), closers_append_blank (by decide),
    closers_indent hspace, hlines, closers_blanks_append (isBlank_of_mem_margin level)]
  exact Nat.zero_add _

theorem suffix_docBlock (s : String) (level : Int) :
    ['\x7d', ']'] <:+ (docBlock s level).toList := by
  rw [toList_docBlock]
  exact ⟨['[', '\x7b'] ++ '\n' :: ((indent (margin level ++ "  ") (docLines s)).toList ++
    '\n' :: (margin level).toList), by simp only [List.append_assoc, List.cons_append]⟩

/-! ## Dropping delimiters -/

/-- Delimiters in a row. -/
def closerRow (k : Nat) : List Char := (List.replicate k ['\x7d', ']']).flatten

theorem closerRow_succ (k : Nat) : closerRow (k + 1) = '\x7d' :: ']' :: closerRow k := rfl

/-- Delimiters in a row between a closing brace and a closing bracket. -/
def nestedClosers (k : Nat) : List Char := '\x7d' :: (closerRow k ++ [']'])

/-- What is left of a text starts with a bracket if the text does behind some
    delimiters. -/
theorem head_dropClosers_iff (cs : List Char) :
    (dropClosers cs).head? = some ']' ↔ ∃ k, closerRow k ++ [']'] <+: cs := by
  fun_induction dropClosers cs with
  | case1 =>
      refine ⟨nofun, ?_⟩
      rintro ⟨k, hk⟩
      exact absurd (List.prefix_nil.mp hk) (by simp)
  | case2 cs ih =>
      rw [ih]
      constructor
      · rintro ⟨k, hk⟩
        refine ⟨k + 1, ?_⟩
        rw [closerRow_succ, List.cons_append, List.cons_append, List.cons_prefix_cons,
          List.cons_prefix_cons]
        exact ⟨rfl, rfl, hk⟩
      · rintro ⟨k, hk⟩
        cases k with
        | zero => exact absurd (List.cons_prefix_cons.mp hk).1 (by decide)
        | succ k =>
            rw [closerRow_succ, List.cons_append, List.cons_append, List.cons_prefix_cons,
              List.cons_prefix_cons] at hk
            exact ⟨k, hk.2.2⟩
  | case3 c cs hne ih =>
      rw [List.head?_cons, Option.some.injEq]
      constructor
      · rintro rfl
        exact ⟨0, List.cons_prefix_cons.mpr ⟨rfl, List.nil_prefix⟩⟩
      · rintro ⟨k, hk⟩
        cases k with
        | zero => exact (List.cons_prefix_cons.mp hk).1.symm
        | succ k =>
            rw [closerRow_succ, List.cons_append, List.cons_prefix_cons] at hk
            obtain ⟨rest, hrest⟩ := hk.2
            exact absurd hrest.symm (fun heq => hne _ hk.1.symm heq)

/-- Nested delimiters at the start of a text are a brace and, behind it, the row and
    the bracket. -/
theorem nestedClosers_prefix_iff {k : Nat} {c : Char} {cs : List Char} :
    nestedClosers k <+: c :: cs ↔ '\x7d' = c ∧ closerRow k ++ [']'] <+: cs :=
  List.cons_prefix_cons

/-- A brace that is kept meets a bracket only if delimiters were dropped between
    the two. -/
theorem meets_bracket_iff {c : Char} {cs : List Char}
    (hkept : ∀ rest, c = '\x7d' → cs = ']' :: rest → False) :
    (c = '\x7d' ∧ (dropClosers cs).head? = some ']')
      ↔ ∃ k, nestedClosers (k + 1) <+: c :: cs := by
  rw [head_dropClosers_iff]
  constructor
  · rintro ⟨rfl, k, hk⟩
    cases k with
    | zero =>
        -- a bracket right behind the brace would have been dropped with it
        obtain ⟨rest, hrest⟩ := hk
        exact absurd hrest.symm (hkept rest rfl)
    | succ k => exact ⟨k, nestedClosers_prefix_iff.mpr ⟨rfl, hk⟩⟩
  · rintro ⟨k, hk⟩
    obtain ⟨hc, hk⟩ := nestedClosers_prefix_iff.mp hk
    exact ⟨hc.symm, k + 1, hk⟩

/-- **WHERE DELIMITERS ARE NESTED, ONE IS LEFT**, and nowhere else. -/
theorem pos_closers_dropClosers_iff (cs : List Char) :
    0 < closers (dropClosers cs) ↔ ∃ k, nestedClosers (k + 1) <:+: cs := by
  fun_induction dropClosers cs with
  | case1 =>
      refine ⟨nofun, ?_⟩
      rintro ⟨k, hk⟩
      exact absurd (List.infix_nil.mp hk) (List.cons_ne_nil _ _)
  | case2 cs ih =>
      rw [ih]
      refine exists_congr fun k => ?_
      have hbrace : ¬ nestedClosers (k + 1) <+: '\x7d' :: ']' :: cs := by
        rw [nestedClosers_prefix_iff, closerRow_succ, List.cons_append, List.cons_prefix_cons]
        exact fun h => absurd h.2.1 (by decide)
      have hbracket : ¬ nestedClosers (k + 1) <+: ']' :: cs := by
        rw [nestedClosers_prefix_iff]
        exact fun h => absurd h.1 (by decide)
      rw [List.infix_cons_iff, List.infix_cons_iff, or_iff_right hbrace, or_iff_right hbracket]
  | case3 c cs hkept ih =>
      simp only [List.infix_cons_iff, exists_or]
      rw [← meets_bracket_iff hkept, ← ih, closers]
      by_cases h : c = '\x7d' ∧ (dropClosers cs).head? = some ']'
      · rw [if_pos h]
        exact ⟨fun _ => .inl h, fun _ => Nat.add_pos_left Nat.one_pos _⟩
      · rw [if_neg h, Nat.zero_add, or_iff_right h]

/-- **A BLOCK IS CLOSED ONLY AT ITS END EXACTLY IF NO DELIMITERS ARE NESTED.**  At
    every level a block ends in its delimiter.  It has no other one if and only if
    the text has no delimiters in a row between a closing brace and a closing
    bracket. -/
theorem docBlock_closed_once_iff (s : String) (level : Int) :
    ['\x7d', ']'] <:+ (docBlock s level).toList ∧
      (closers (docBlock s level).toList = 1 ↔ ¬ ∃ k, nestedClosers (k + 1) <:+: s.toList) := by
  refine ⟨suffix_docBlock s level, ?_⟩
  rw [closers_docBlock, ← pos_closers_dropClosers_iff]
  omega

/-- Dropping the inner of two delimiters leaves the outer one, which closes the block early. -/
theorem nested_delimiter_survives :
    docBlock "\x7d\x7d]]" 0 = "[\x7b\n  \x7d]\n\x7d]" ∧
      closers (docBlock "\x7d\x7d]]" 0).toList = 2 := by
  decide +kernel

end DialectBench.Operator
