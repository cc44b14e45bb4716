import DialectBench.Operator.Emitter
import DialectBench.Proofs.DottedPath

/-!
# Printed lines come back

    What is printed at a level is cut into lines first, and every line gets a
    margin and a line feed.  So a text without line breaks stays one line, a list
    of such texts joined with commas is one line each, and a file can be cut at
    its line feeds into exactly the lines that were printed (`split_unlines`).

    A quoted string comes back as well: two backslashes stand in front of a double
    quote and nowhere else by the work of the escape alone, so that taking them
    away restores the text, whatever backslashes it held
    (`unescapeQuotes_escapeQuotes`).
-/

namespace DialectBench.Text

/-! ## Texts without line breaks -/

/-- A text of one line: no character in it ends a line. -/
def Unbroken (s : String) : Prop := ∀ c ∈ s.toList, isBreak c = false

-- given by name: characters are finitely many, so a search may come up with trying them all
instance (s : String) : Decidable (Unbroken s) := List.decidableBAll _ s.toList

theorem Unbroken.newline_not_mem {s : String} (h : Unbroken s) : '\n' ∉ s.toList :=
  fun hmem => absurd (h '\n' hmem) (by decide)

@[simp] theorem unbroken_append {s t : String} :
    Unbroken (s ++ t) ↔ Unbroken s ∧ Unbroken t := by
  unfold Unbroken
  rw [String.toList_append]
  exact List.forall_mem_append

theorem mem_joinWith {sep : String} {pieces : List String} {c : Char}
    (h : c ∈ (joinWith sep pieces).toList) : c ∈ sep.toList ∨ ∃ p ∈ pieces, c ∈ p.toList := by
  induction pieces with
  | nil => exact nomatch h
  | cons p rest ih =>
      cases rest with
      | nil => exact .inr ⟨p, List.mem_cons_self, h⟩
      | cons q rest =>
          rw [joinWith, String.toList_append, String.toList_append] at h
          rcases List.mem_append.mp h with h | h
          · rcases List.mem_append.mp h with h | h
            · exact .inr ⟨p, List.mem_cons_self, h⟩
            · exact .inl h
          · rcases ih h with hsep | ⟨r, hr, hc⟩
            · exact .inl hsep
            · exact .inr ⟨r, List.mem_cons_of_mem p hr, hc⟩

theorem unbroken_joinWith {sep : String} (hsep : Unbroken sep) {pieces : List String}
    (h : ∀ p ∈ pieces, Unbroken p) : Unbroken (joinWith sep pieces) := by
  intro c hc
  rcases mem_joinWith hc with hmem | ⟨p, hp, hmem⟩
  · exact hsep c hmem
  · exact h p hp c hmem

/-! ## The lines of a text -/

theorem linesOf_cons {c : Char} (h : isBreak c = false) (rest : List Char) :
    linesOf (c :: rest) = Line.push c (linesOf rest) := by
  rw [linesOf]
  · rw [if_neg (by rw [h]; exact Bool.false_ne_true)]
  · rintro _ rfl
    exact absurd h (by decide)

/-- What stands in front of the first line feed is a line if it holds no break. -/
theorem linesOf_append_newline {cs : List Char} (h : ∀ c ∈ cs, isBreak c = false)
    (rest : List Char) : linesOf (cs ++ '\n' :: rest) = ⟨cs, ['\n']⟩ :: linesOf rest := by
  induction cs with
  | nil => exact if_pos (by decide)
  | cons c cs ih =>
      obtain ⟨hc, hcs⟩ := List.forall_mem_cons.mp h
      rw [List.cons_append, linesOf_cons hc, ih hcs]
      rfl

theorem linesOf_unbroken {cs : List Char} (h : ∀ c ∈ cs, isBreak c = false) (hne : cs ≠ []) :
    linesOf cs = [⟨cs, []⟩] := by
  induction cs with
  | nil => exact absurd rfl hne
  | cons c cs ih =>
      obtain ⟨hc, hcs⟩ := List.forall_mem_cons.mp h
      rw [linesOf_cons hc]
      cases cs with
      | nil => rfl
      | cons d cs =>
          rw [ih hcs (List.cons_ne_nil _ _)]
          rfl

theorem lines_of_unbroken {s : String} (h : Unbroken s) (hne : s ≠ "") : lines s = [s] := by
  unfold lines
  rw [linesOf_unbroken h (mt String.toList_eq_nil_iff.mp hne), List.map_singleton,
    String.ofList_toList]

/-- Pieces with a comma behind each but the last. -/
def commaEnded : List String → List String
  | [] => []
  | [s] => [s]
  | s :: t :: rest => (s ++ ",") :: commaEnded (t :: rest)

/-- **A LIST IS ONE LINE A PIECE.**  The separator ends a line, so it leaves its
    comma there; an empty list has no line at all, and an empty last piece would
    have none either. -/
theorem lines_joinWith_comma {pieces : List String}
    (h : ∀ p ∈ pieces, Unbroken p ∧ p ≠ "") :
    lines (joinWith ",\n" pieces) = commaEnded pieces := by
  induction pieces with
  | nil => rfl
  | cons p rest ih =>
      obtain ⟨⟨hp, hne⟩, hrest⟩ := List.forall_mem_cons.mp h
      cases rest with
      | nil => exact lines_of_unbroken hp hne
      | cons q rest =>
          have hcut : (joinWith ",\n" (p :: q :: rest)).toList
              = (p ++ ",").toList ++ '\n' :: (joinWith ",\n" (q :: rest)).toList := by
            rw [joinWith, String.toList_append, String.toList_append, String.toList_append,
              List.append_assoc, List.append_assoc]
            rfl
          have hline : Unbroken (p ++ ",") := unbroken_append.mpr ⟨hp, by decide⟩
          rw [lines, hcut, linesOf_append_newline hline, List.map_cons, String.ofList_toList,
            commaEnded, ← ih hrest, lines]

/-! ## Lines as a text -/

/-- Lines as a text, each ended by a line feed. -/
def unlines (ls : List String) : String := String.join (ls.map (· ++ "\n"))

theorem unlines_cons (l : String) (ls : List String) :
    unlines (l :: ls) = l ++ "\n" ++ unlines ls := by
  rw [unlines, List.map_cons, String.join_cons, unlines]

theorem unlines_append (ls ms : List String) : unlines (ls ++ ms) = unlines ls ++ unlines ms := by
  rw [unlines, List.map_append, String.join_append, unlines, unlines]

/-- **CUTTING AT LINE FEEDS GIVES THE LINES BACK**, and the empty text that is left
    behind the last one. -/
theorem split_unlines {ls : List String} (h : ∀ l ∈ ls, '\n' ∉ l.toList) :
    split '\n' (unlines ls) = ls ++ [""] := by
  induction ls with
  | nil => rfl
  | cons l ls ih =>
      obtain ⟨hl, hls⟩ := List.forall_mem_cons.mp h
      have hcut : (unlines (l :: ls)).toList = l.toList ++ '\n' :: (unlines ls).toList := by
        rw [unlines_cons, String.toList_append, String.toList_append, List.append_assoc]
        rfl
      rw [split, hcut, splitChars_append_sep hl, List.map_cons, String.ofList_toList,
        ← split, ih hls, List.cons_append]

end DialectBench.Text

namespace DialectBench.Operator

open Text

/-! ## Printing at a level -/

theorem printed_eq (level : Int) (s : String) :
    printed level s = unlines ((lines s).map (margin level ++ ·)) := by
  unfold printed unlines
  rw [List.map_map]
  rfl

theorem printed_line (level : Int) {s : String} (h : Unbroken s) (hne : s ≠ "") :
    printed level s = margin level ++ s ++ "\n" := by
  rw [printed_eq, lines_of_unbroken h hne, List.map_singleton, unlines_cons]
  exact String.append_empty

theorem printed_list (level : Int) {pieces : List String}
    (h : ∀ p ∈ pieces, Unbroken p ∧ p ≠ "") :
    printed level (joinWith ",\n" pieces)
      = unlines ((commaEnded pieces).map (margin level ++ ·)) := by
  rw [printed_eq, lines_joinWith_comma h]

/-! ## Quoted strings -/

theorem escapeQuotes_cons {c : Char} (h : c ≠ '"') (cs : List Char) :
    escapeQuotes (c :: cs) = c :: escapeQuotes cs := by
  rw [escapeQuotes]
  exact h

theorem mem_escapeQuotes {c : Char} {cs : List Char} (h : c ∈ escapeQuotes cs) :
    c = '\\' ∨ c ∈ cs := by
  induction cs with
  | nil => exact nomatch h
  | cons d cs ih =>
      by_cases hd : d = '"'
      · subst hd
        have hcases : c = '\\' ∨ c = '\\' ∨ c = '"' ∨ c ∈ escapeQuotes cs := by
          simpa [escapeQuotes] using h
        rcases hcases with hc | hc | hc | hc
        · exact .inl hc
        · exact .inl hc
        · exact .inr (hc ▸ List.mem_cons_self)
        · exact (ih hc).imp id (List.mem_cons_of_mem _)
      · rw [escapeQuotes_cons hd] at h
        rcases List.mem_cons.mp h with hc | hc
        · exact .inr (hc ▸ List.mem_cons_self)
        · exact (ih hc).imp id (List.mem_cons_of_mem _)

theorem escapeQuotes_of_not_mem {cs : List Char} (h : '"' ∉ cs) : escapeQuotes cs = cs := by
  induction cs with
  | nil => rfl
  | cons c cs ih =>
      have hc : c ≠ '"' := fun heq => h (heq ▸ List.mem_cons_self)
      rw [escapeQuotes_cons hc, ih fun hmem => h (List.mem_cons_of_mem c hmem)]

theorem unbroken_quote {s : String} (h : Unbroken s) : Unbroken (quote s) := by
  rw [quote, unbroken_append, unbroken_append]
  refine ⟨⟨by decide, ?_⟩, by decide⟩
  intro c hc
  rw [String.toList_ofList] at hc
  rcases mem_escapeQuotes hc with rfl | hmem
  · decide
  · exact h c hmem

/-- Takes the two backslashes in front of every double quote away again. -/
def unescapeQuotes : List Char → List Char
  | [] => []
  | '\\' :: '\\' :: '"' :: cs => '"' :: unescapeQuotes cs
  | c :: cs => c :: unescapeQuotes cs

/-- An escaped text starts with no double quote. -/
theorem escapeQuotes_ne_quote (cs rest : List Char) : escapeQuotes cs ≠ '"' :: rest := by
  intro h
  cases cs with
  | nil => exact nomatch h
  | cons c cs =>
      by_cases hc : c = '"'
      · subst hc
        exact absurd (List.cons.inj h).1 (by decide)
      · rw [escapeQuotes_cons hc] at h
        exact hc (List.cons.inj h).1

/-- Nor does it start with a double quote that has a single backslash. -/
theorem escapeQuotes_ne_backslash_quote (cs rest : List Char) :
    escapeQuotes cs ≠ '\\' :: '"' :: rest := by
  intro h
  cases cs with
  | nil => exact nomatch h
  | cons c cs =>
      by_cases hc : c = '"'
      · subst hc
        exact absurd (List.cons.inj (List.cons.inj h).2).1 (by decide)
      · rw [escapeQuotes_cons hc] at h
        exact escapeQuotes_ne_quote cs rest (List.cons.inj h).2

/-- **ESCAPES CAN BE UNDONE.**  A backslash of the text itself is never taken for
    one of the two: what comes behind it does not start with a single backslash
    and a double quote. -/
theorem unescapeQuotes_escapeQuotes (cs : List Char) :
    unescapeQuotes (escapeQuotes cs) = cs := by
  induction cs with
  | nil => rfl
  | cons c cs ih =>
      by_cases hc : c = '"'
      · subst hc
        exact congrArg ('"' :: ·) ih
      · rw [escapeQuotes_cons hc, unescapeQuotes, ih]
        intro rest _ h
        exact escapeQuotes_ne_backslash_quote cs rest h

end DialectBench.Operator
