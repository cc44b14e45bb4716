import DialectBench.Proofs.PrintedLines

/-!
# What a quoted string means

    A quoted string is put into a file that another program reads.  There a string
    literal runs from a double quote to the next one that no backslash escapes,
    and a backslash with a character behind it stands for one character.

    Writing puts TWO backslashes in front of a double quote.  The reader takes them
    for one escaped backslash, so the double quote ends the literal
    (`quoted_quote_ends_early`), and backslashes of the text itself are not escaped
    at all.  A literal means the text that was quoted exactly if double quotes and
    backslashes occur in the text as pairs only, each backslash with a double quote
    behind it (`quote_read_back_iff`): the backslash of the text escapes the first
    of the two, and the second escapes the double quote.
-/

namespace DialectBench.Operator

open Text

/-! ## Reading a literal -/

/-- The character that an escape stands for. -/
def unescape? : Char → Option Char
  | '\\' => some '\\'
  | '"' => some '"'
  | 'n' => some '\n'
  | 't' => some '\t'
  | _ => none

/-- Puts a character in front of a text that was read. -/
def prepend (c : Char) (r : List Char × List Char) : List Char × List Char := (c :: r.1, r.2)

/-- Reads a literal behind its opening quote: the text that it means, and what is
    left behind its closing quote.  A literal ends on the line where it starts. -/
def readBody : List Char → Option (List Char × List Char)
  | [] => none
  | ['\\'] => none
  | '\\' :: c :: rest =>
    match unescape? c with
    | none => none
    | some d => (readBody rest).map (prepend d)
  | c :: rest =>
    if c = '"' then some ([], rest)
    else if c = '\n' ∨ c = '\r' then none
    else (readBody rest).map (prepend c)

/-- Reads a literal. -/
def readLiteral : List Char → Option (List Char × List Char)
  | [] => none
  | c :: rest => if c = '"' then readBody rest else none

/-! ## The first character of a literal -/

variable {c d : Char} {rest text left : List Char}

theorem map_prepend_eq_some {x : Option (List Char × List Char)} :
    x.map (prepend c) = some (d :: text, left) ↔ c = d ∧ x = some (text, left) := by
  cases x with
  | none => exact ⟨nofun, nofun⟩
  | some r => simp [prepend, Prod.ext_iff, and_assoc]

theorem readBody_escape_eq_some :
    readBody ('\\' :: c :: rest) = some (d :: text, left) ↔
      unescape? c = some d ∧ readBody rest = some (text, left) := by
  rw [readBody]
  cases unescape? c with
  | none => exact ⟨nofun, nofun⟩
  | some e => rw [map_prepend_eq_some, Option.some.injEq]

theorem readBody_plain_eq_some (hquote : c ≠ '"') (hback : c ≠ '\\') :
    readBody (c :: rest) = some (d :: text, left) ↔
      ¬ (c = '\n' ∨ c = '\r') ∧ c = d ∧ readBody rest = some (text, left) := by
  have hread : readBody (c :: rest)
      = if c = '\n' ∨ c = '\r' then none else (readBody rest).map (prepend c) := by
    rw [readBody, if_neg hquote]
    · exact fun h => absurd h hback
    · exact fun _ _ h => absurd h hback
  rw [hread]
  by_cases hends : c = '\n' ∨ c = '\r'
  · rw [if_pos hends]
    exact ⟨nofun, fun h => absurd hends h.1⟩
  · rw [if_neg hends, map_prepend_eq_some, and_iff_right hends]

/-- Only an escaped backslash is read as a backslash. -/
theorem eq_of_unescape_backslash (h : unescape? c = some '\\') : c = '\\' := by
  unfold unescape? at h
  split at h
  · rfl
  all_goals cases h

/-! ## Texts that are read back -/

/-- Texts in which double quotes and backslashes occur as pairs only. -/
inductive QuotesPaired : List Char → Prop where
  | nil : QuotesPaired []
  | plain {c : Char} {cs : List Char} :
      c ≠ '"' → c ≠ '\\' → QuotesPaired cs → QuotesPaired (c :: cs)
  | pair {cs : List Char} : QuotesPaired cs → QuotesPaired ('\\' :: '"' :: cs)

/-- What is quoted in pairs is read back. -/
theorem readBody_of_paired {cs : List Char} (h : QuotesPaired cs)
    (hline : ∀ c ∈ cs, isBreak c = false) (rest : List Char) :
    readBody (escapeQuotes cs ++ '"' :: rest) = some (cs, rest) := by
  induction h with
  | nil => rfl
  | plain hquote hback _ ih =>
      obtain ⟨hc, hcs⟩ := List.forall_mem_cons.mp hline
      rw [escapeQuotes_cons hquote, List.cons_append, readBody_plain_eq_some hquote hback]
      refine ⟨?_, rfl, ih hcs⟩
      rintro (rfl | rfl)
      · exact absurd hc (by decide)
      · exact absurd hc (by decide)
  | @pair cs _ ih =>
      have hcs : ∀ c ∈ cs, isBreak c = false := fun c hc =>
        hline c (List.mem_cons_of_mem _ (List.mem_cons_of_mem _ hc))
      show readBody ('\\' :: '\\' :: '\\' :: '"' :: (escapeQuotes cs ++ '"' :: rest)) = _
      exact readBody_escape_eq_some.mpr ⟨rfl, readBody_escape_eq_some.mpr ⟨rfl, ih hcs⟩⟩

theorem replicate_append_cons_self (k : Nat) (c : Char) (cs : List Char) :
    List.replicate k c ++ c :: cs = List.replicate (k + 1) c ++ cs := by
  rw [List.replicate_succ', List.append_assoc]
  rfl

/-- A text is never read with `k` more backslashes in front, and if it is read as
    itself, its double quotes and backslashes occur as pairs.  Two backslashes are
    read as one, so behind them the text has one more to make up for; the pair of a
    backslash and a double quote is read as itself. -/
theorem quotesPaired_of_readBody (cs : List Char) (k : Nat)
    (h : readBody (escapeQuotes cs ++ ['"']) = some (List.replicate k '\\' ++ cs, [])) :
    k = 0 ∧ QuotesPaired cs := by
  cases cs with
  | nil =>
      have hnil : ([] : List Char) = List.replicate k '\\' ++ [] :=
        congrArg Prod.fst (Option.some.inj h)
      have hlength := congrArg List.length hnil
      rw [List.append_nil, List.length_replicate] at hlength
      exact ⟨hlength.symm, .nil⟩
  | cons c cs =>
      by_cases hquote : c = '"'
      · -- its two backslashes are read as one, and then the literal is over
        subst hquote
        have hleft : escapeQuotes cs ++ ['"'] = [] := congrArg Prod.snd (Option.some.inj h)
        exact absurd hleft (List.append_ne_nil_of_right_ne_nil _ (List.cons_ne_nil _ _))
      rw [escapeQuotes_cons hquote, List.cons_append] at h
      by_cases hback : c = '\\'
      · subst hback
        rw [replicate_append_cons_self, List.replicate_succ, List.cons_append] at h
        cases cs with
        | nil => cases h
        | cons d cs =>
            by_cases hd : d = '"'
            · subst hd
              have hread := (readBody_escape_eq_some.mp h).2
              cases k with
              | zero =>
                  have hrest := (readBody_escape_eq_some.mp hread).2
                  exact ⟨rfl, .pair (quotesPaired_of_readBody cs 0 hrest).2⟩
              | succ k =>
                  have hfirst := (readBody_escape_eq_some.mp hread).1
                  exact absurd (Option.some.inj hfirst) (by decide)
            · -- only an escaped backslash is read as one, and it leaves the text one short
              rw [escapeQuotes_cons hd, List.cons_append, readBody_escape_eq_some] at h
              obtain ⟨hescape, hread⟩ := h
              rw [eq_of_unescape_backslash hescape, replicate_append_cons_self] at hread
              exact absurd (quotesPaired_of_readBody cs (k + 1) hread).1 (Nat.succ_ne_zero k)
      · cases k with
        | zero =>
            have hrest := ((readBody_plain_eq_some hquote hback).mp h).2.2
            exact ⟨rfl, .plain hquote hback (quotesPaired_of_readBody cs 0 hrest).2⟩
        | succ k => exact absurd ((readBody_plain_eq_some hquote hback).mp h).2.1 hback
termination_by cs.length

/-! ## Quoting -/

/-- **A QUOTED STRING MEANS ITS TEXT EXACTLY IF QUOTES ARE PAIRED.**  For a text of
    one line, the quoted form is one whole literal that means the text if and only
    if double quotes and backslashes occur in the text as pairs only. -/
theorem quote_read_back_iff {s : String} (h : Unbroken s) :
    readLiteral (quote s).toList = some (s.toList, []) ↔ QuotesPaired s.toList := by
  have hbody : readLiteral (quote s).toList = readBody (escapeQuotes s.toList ++ ['"']) := by
    simp only [quote, String.toList_append, String.toList_ofList]
    rfl
  rw [hbody]
  exact ⟨fun hread => (quotesPaired_of_readBody s.toList 0 hread).2,
    fun hpaired => readBody_of_paired hpaired h []⟩

/-- A text with a pair is read back although neither of its characters alone would be. -/
theorem quote_read_back_iff_pair :
    Unbroken "a\\\"b" ∧ QuotesPaired "a\\\"b".toList ∧
      readLiteral (quote "a\\\"b").toList = some (['a', '\\', '"', 'b'], []) := by
  have hline : Unbroken "a\\\"b" := by decide
  have hpaired : QuotesPaired "a\\\"b".toList :=
    .plain (by decide) (by decide) (.pair (.plain (by decide) (by decide) .nil))
  exact ⟨hline, hpaired, (quote_read_back_iff hline).mpr hpaired⟩

/-- The literal of a lone double quote ends in front of its last character, and what
    it means is a backslash. -/
theorem quoted_quote_ends_early :
    Unbroken "\"" ∧ readLiteral (quote "\"").toList = some (['\\'], ['"']) ∧
      readLiteral (quote "\"").toList ≠ some ("\"".toList, []) := by
  decide

end DialectBench.Operator
