import DialectBench.Proofs.OperatorNames

/-!
# Reading a definition

    A definition is a run of lines: a head, the traits, the summary, the operands,
    the results, the format of the assembly and two optional flags.  Its three
    lists may be empty, and nothing in the text says how long they are.

    `Outline.lines` are the lines that an outline of a definition stands for, and
    `readDefinition` finds the outline again (`readDefinition_lines`).  Only the
    lines of a list are four blanks deep, so each list ends where its margin does,
    and each part of a line ends at the first character that it cannot hold.
-/

namespace DialectBench.Operator

open Text

/-! ## The lines of an outline -/

/-- What the text of a definition tells about its operator. -/
structure Outline where
  opName : String
  definitionName : String
  key : String
  traits : List String
  operands : Slots
  results : Slots
  hasFolder : Bool
  hasCanonicalizer : Bool
  deriving DecidableEq, Repr

/-- The texts of declarations, one by one. -/
def Slots.texts : Slots → List String
  | .variadic name => [Declared.text ⟨"Variadic<AnyTorchType>", name⟩]
  | .listed ds => ds.map Declared.text

theorem Slots.text_eq (s : Slots) : s.text = joinWith ",\n" s.texts := by
  cases s with
  | variadic name => rfl
  | listed ds => rfl

/-- The lines of a list. -/
def entries (pieces : List String) : List String := (commaEnded pieces).map ("    " ++ ·)

/-- The lines of the two flags. -/
def flagLines (hasFolder hasCanonicalizer : Bool) : List String :=
  (if hasFolder then ["  let hasFolder = 1;"] else []) ++
    (if hasCanonicalizer then ["  let hasCanonicalizer = 1;"] else [])

/-- The lines of a definition with a given format of its assembly. -/
def Outline.lines (d : Outline) (format : String) : List String :=
  ("def " ++ d.definitionName ++ " : Torch_Op<" ++ quote d.opName ++ ", [") ::
  (entries d.traits ++
    "  ]> \x7b" ::
    ("  " ++ ("let summary = " ++ quote ("Generated op for `" ++ d.key ++ "`") ++ ";")) ::
    "  let arguments = (ins" ::
    (entries d.operands.texts ++
      "  );" ::
      "  let results = (outs" ::
      (entries d.results.texts ++
        "  );" ::
        ("  " ++ ("let assemblyFormat = " ++ quote format ++ ";")) ::
        (flagLines d.hasFolder d.hasCanonicalizer ++ ["\x7d", ""]))))

/-! ## Reading -/

/-- What is left of a text behind a beginning that is known. -/
def dropText (start : String) (cs : List Char) : List Char := cs.drop start.toList.length

/-- The longest beginning that satisfies a test, and the rest. -/
def cutWhile {α : Type} (p : α → Bool) (as : List α) : List α × List α :=
  (as.takeWhile p, as.dropWhile p)

/-- Reads the names of the definition and of the operation. -/
def readHead (line : String) : String × String :=
  let name := cutWhile (fun c => !isBlank c) (dropText "def " line.toList)
  let op := cutWhile (· != '"') (dropText " : Torch_Op<\"" name.2)
  (String.ofList name.1, String.ofList op.1)

/-- Reads the key out of the summary. -/
def readSummary (line : String) : String :=
  let quoted := (dropText "  let summary = \"" line.toList).dropLast.dropLast
  String.ofList (dropText "Generated op for `" (unescapeQuotes quoted)).dropLast

/-- Whether a line belongs to a list. -/
def isEntry (line : String) : Bool := "    ".toList.isPrefixOf line.toList

/-- Reads the lines of a list: margins go, and the comma of every line but the last. -/
def readEntries : List String → List String
  | [] => []
  | [l] => [String.ofList (dropText "    " l.toList)]
  | l :: m :: rest =>
    String.ofList (dropText "    " l.toList).dropLast :: readEntries (m :: rest)

/-- Reads a declaration. -/
def readDeclared (text : String) : Declared :=
  let predicate := cutWhile (· != ':') text.toList
  ⟨String.ofList predicate.1, String.ofList (dropText ":$" predicate.2)⟩

/-- Reads declarations; a lone one may stand for any number of values. -/
def readSlots (texts : List String) : Slots :=
  match texts.map readDeclared with
  | [d] => if d.predicate == "Variadic<AnyTorchType>" then .variadic d.name else .listed [d]
  | ds => .listed ds

/-- Reads a definition. -/
def readDefinition (text : String) : Option Outline :=
  match split '\n' text with
  | [] => none
  | head :: rest =>
    let traits := cutWhile isEntry rest
    match traits.2 with
    | _ :: summary :: _ :: rest =>
      let operands := cutWhile isEntry rest
      match operands.2 with
      | _ :: _ :: rest =>
        let results := cutWhile isEntry rest
        match results.2 with
        | _ :: _ :: flags =>
          some {
            opName := (readHead head).2
            definitionName := (readHead head).1
            key := readSummary summary
            traits := readEntries traits.1
            operands := readSlots (readEntries operands.1)
            results := readSlots (readEntries results.1)
            hasFolder := flags.contains "  let hasFolder = 1;"
            hasCanonicalizer := flags.contains "  let hasCanonicalizer = 1;" }
        | _ => none
      | _ => none
    | _ => none

/-! ## Reading the parts of a line -/

theorem dropText_append (start : String) (cs : List Char) :
    dropText start (start.toList ++ cs) = cs := List.drop_left

/-- A cut falls on the first element that fails the test. -/
theorem cutWhile_append_cons {α : Type} {p : α → Bool} {as : List α}
    (has : ∀ a ∈ as, p a = true) {b : α} (hb : p b = false) (rest : List α) :
    cutWhile p (as ++ b :: rest) = (as, b :: rest) := by
  have hb' : ¬ p b = true := by rw [hb]; exact Bool.false_ne_true
  rw [cutWhile, List.takeWhile_append_of_pos has, List.dropWhile_append_of_pos has,
    List.takeWhile_cons_of_neg hb', List.dropWhile_cons_of_neg hb', List.append_nil]

theorem ne_of_not_mem {c : Char} {cs : List Char} (h : c ∉ cs) :
    ∀ a ∈ cs, (a != c) = true := by
  intro a ha
  rw [bne_iff_ne]
  rintro rfl
  exact h ha

theorem readHead_eq {definitionName opName : String}
    (hdef : ∀ c ∈ definitionName.toList, isBlank c = false) (hop : '"' ∉ opName.toList) :
    readHead ("def " ++ definitionName ++ " : Torch_Op<" ++ quote opName ++ ", [")
      = (definitionName, opName) := by
  have hline : ("def " ++ definitionName ++ " : Torch_Op<" ++ quote opName ++ ", [").toList
      = "def ".toList ++ (definitionName.toList ++ ' ' :: (": Torch_Op<\"".toList ++
          (opName.toList ++ '"' :: ", [".toList))) := by
    simp only [quote, String.toList_append, escapeQuotes_of_not_mem hop, String.ofList_toList,
      List.append_assoc]
    rfl
  have hname : ∀ c ∈ definitionName.toList, (!isBlank c) = true := by
    intro c hc
    rw [hdef c hc]
    rfl
  have hrest : ∀ cs : List Char, dropText " : Torch_Op<\"" (' ' :: (": Torch_Op<\"".toList ++ cs))
      = cs := fun cs => dropText_append " : Torch_Op<\"" cs
  unfold readHead
  rw [hline, dropText_append, cutWhile_append_cons hname (by decide)]
  simp only [hrest]
  rw [cutWhile_append_cons (ne_of_not_mem hop) (by decide), String.ofList_toList,
    String.ofList_toList]

theorem readSummary_eq (key : String) :
    readSummary ("  " ++ ("let summary = " ++ quote ("Generated op for `" ++ key ++ "`") ++ ";"))
      = key := by
  have hline : ("  " ++ ("let summary = " ++ quote ("Generated op for `" ++ key ++ "`")
        ++ ";")).toList
      = "  let summary = \"".toList ++
          (escapeQuotes ("Generated op for `" ++ key ++ "`").toList ++ ['"'] ++ [';']) := by
    simp only [quote, String.toList_append, String.toList_ofList, List.append_assoc]
    rfl
  have hkey : ("Generated op for `" ++ key ++ "`").toList
      = "Generated op for `".toList ++ (key.toList ++ ['`']) := by
    rw [String.toList_append, String.toList_append, List.append_assoc]
    rfl
  unfold readSummary
  rw [hline, dropText_append]
  simp only [List.dropLast_concat, unescapeQuotes_escapeQuotes]
  rw [hkey, dropText_append, List.dropLast_concat, String.ofList_toList]

/-! ## Reading lists -/

theorem isEntry_of_mem {pieces : List String} {l : String} (h : l ∈ entries pieces) :
    isEntry l = true := by
  obtain ⟨p, -, rfl⟩ := List.mem_map.mp h
  rw [isEntry, String.toList_append, List.isPrefixOf_iff_prefix]
  exact List.prefix_append _ _

/-- A list ends where its margin does. -/
theorem cutWhile_entries (pieces : List String) {closer : String} (h : isEntry closer = false)
    (rest : List String) :
    cutWhile isEntry (entries pieces ++ closer :: rest) = (entries pieces, closer :: rest) :=
  cutWhile_append_cons (fun _ hl => isEntry_of_mem hl) h rest

/-- **A LIST IS READ BACK**, however long it is; a comma at the end of a piece is
    kept, since only one of a line is taken away. -/
theorem readEntries_entries (pieces : List String) : readEntries (entries pieces) = pieces := by
  induction pieces with
  | nil => rfl
  | cons p rest ih =>
      cases rest with
      | nil =>
          show [String.ofList (dropText "    " ("    " ++ p).toList)] = [p]
          rw [String.toList_append, dropText_append, String.ofList_toList]
      | cons q rest =>
          have hmore : ∃ l ls, entries (q :: rest) = l :: ls := by
            cases rest with
            | nil => exact ⟨_, _, rfl⟩
            | cons r rest => exact ⟨_, _, rfl⟩
          obtain ⟨l, ls, hls⟩ := hmore
          have hcons : entries (p :: q :: rest) = ("    " ++ (p ++ ",")) :: entries (q :: rest) :=
            rfl
          rw [hls] at ih
          rw [hcons, hls, readEntries, ih, String.toList_append, dropText_append,
            String.toList_append]
          have hcomma : (p.toList ++ ",".toList).dropLast = p.toList := List.dropLast_concat
          rw [hcomma, String.ofList_toList]

/-! ## Reading declarations -/

/-- A predicate of a type, which has one line, no colon, and is not the one that stands for any
    number of values. -/
theorem typePredicates_plain :
    ∀ p ∈ typePredicates.map Prod.snd,
      Unbroken p ∧ ':' ∉ p.toList ∧ p ≠ "Variadic<AnyTorchType>" := by
  decide +kernel

/-- A declaration of a known type. -/
def Declared.Readable (d : Declared) : Prop :=
  d.predicate ∈ typePredicates.map Prod.snd ∧ Unbroken d.name

/-- Declarations of known types, or any number of values. -/
def Slots.Readable : Slots → Prop
  | .variadic name => Unbroken name
  | .listed ds => ∀ d ∈ ds, d.Readable

theorem readDeclared_text {d : Declared} (h : ':' ∉ d.predicate.toList) :
    readDeclared d.text = d := by
  have hline : d.text.toList = d.predicate.toList ++ ':' :: '$' :: d.name.toList := by
    rw [Declared.text, String.toList_append, String.toList_append, List.append_assoc]
    rfl
  have hname : dropText ":$" (':' :: '$' :: d.name.toList) = d.name.toList :=
    dropText_append ":$" d.name.toList
  unfold readDeclared
  rw [hline, cutWhile_append_cons (ne_of_not_mem h) (by decide)]
  simp only [hname, String.ofList_toList]

theorem readSlots_texts {s : Slots} (h : s.Readable) : readSlots s.texts = s := by
  cases s with
  | variadic name =>
      have hcolon : ':' ∉ "Variadic<AnyTorchType>".toList := by decide
      have hread : readDeclared (Declared.text ⟨"Variadic<AnyTorchType>", name⟩)
          = ⟨"Variadic<AnyTorchType>", name⟩ := readDeclared_text hcolon
      rw [readSlots, Slots.texts, List.map_singleton, hread]
      exact if_pos (beq_self_eq_true _)
  | listed ds =>
      have hplain : ∀ d ∈ ds, ':' ∉ d.predicate.toList ∧ d.predicate ≠ "Variadic<AnyTorchType>" :=
        fun d hd => (typePredicates_plain d.predicate (h d hd).1).2
      have hread : (ds.map Declared.text).map readDeclared = ds := by
        rw [List.map_map]
        have hid := List.map_congr_left fun d hd => readDeclared_text (hplain d hd).1
        exact hid.trans (List.map_id' ds)
      rw [readSlots, Slots.texts, hread]
      rcases ds with _ | ⟨d, _ | ⟨e, ds⟩⟩
      · rfl
      · exact if_neg (mt beq_iff_eq.mp (hplain d List.mem_cons_self).2)
      · rfl

theorem Slots.texts_unbroken {s : Slots} (h : s.Readable) :
    ∀ t ∈ s.texts, Unbroken t ∧ t ≠ "" := by
  have hdeclared : ∀ d : Declared, Unbroken d.predicate → Unbroken d.name →
      Unbroken d.text ∧ d.text ≠ "" := by
    intro d hp hn
    exact ⟨unbroken_append.mpr ⟨unbroken_append.mpr ⟨hp, by decide⟩, hn⟩,
      by simp [Declared.text]⟩
  intro t ht
  cases s with
  | variadic name =>
      have hpredicate : Unbroken "Variadic<AnyTorchType>" := by decide
      rw [List.mem_singleton.mp ht]
      exact hdeclared _ hpredicate h
  | listed ds =>
      obtain ⟨d, hd, rfl⟩ := List.mem_map.mp ht
      obtain ⟨hmem, hname⟩ := h d hd
      exact hdeclared d (typePredicates_plain _ hmem).1 hname

/-! ## Reading a definition -/

/-- An outline whose lines can be told apart. -/
structure Outline.Readable (d : Outline) : Prop where
  opName : Unbroken d.opName ∧ '"' ∉ d.opName.toList
  definitionName : ∀ c ∈ d.definitionName.toList, isBlank c = false
  key : Unbroken d.key
  traits : ∀ t ∈ d.traits, Unbroken t ∧ t ≠ ""
  operands : d.operands.Readable
  results : d.results.Readable

theorem mem_commaEnded {pieces : List String} {l : String} (h : l ∈ commaEnded pieces) :
    ∃ p ∈ pieces, l = p ∨ l = p ++ "," := by
  induction pieces with
  | nil => exact nomatch h
  | cons p rest ih =>
      cases rest with
      | nil => exact ⟨p, List.mem_cons_self, .inl (List.mem_singleton.mp h)⟩
      | cons q rest =>
          rcases List.mem_cons.mp h with hl | hl
          · exact ⟨p, List.mem_cons_self, .inr hl⟩
          · obtain ⟨r, hr, hl⟩ := ih hl
            exact ⟨r, List.mem_cons_of_mem p hr, hl⟩

theorem entries_unbroken {pieces : List String} (h : ∀ p ∈ pieces, Unbroken p ∧ p ≠ "") :
    ∀ l ∈ entries pieces, Unbroken l := by
  intro l hl
  obtain ⟨e, he, rfl⟩ := List.mem_map.mp hl
  obtain ⟨p, hp, hcases⟩ := mem_commaEnded he
  refine unbroken_append.mpr ⟨by decide, ?_⟩
  rcases hcases with rfl | rfl
  · exact (h _ hp).1
  · exact unbroken_append.mpr ⟨(h p hp).1, by decide⟩

theorem flagLines_unbroken (hasFolder hasCanonicalizer : Bool) :
    ∀ l ∈ flagLines hasFolder hasCanonicalizer, Unbroken l := by
  cases hasFolder <;> cases hasCanonicalizer <;> decide

theorem flagLines_contains (hasFolder hasCanonicalizer : Bool) :
    (flagLines hasFolder hasCanonicalizer ++ ["\x7d", "", ""]).contains "  let hasFolder = 1;"
        = hasFolder ∧
      (flagLines hasFolder hasCanonicalizer ++ ["\x7d", "", ""]).contains
        "  let hasCanonicalizer = 1;" = hasCanonicalizer := by
  cases hasFolder <;> cases hasCanonicalizer <;> decide

theorem Outline.Readable.head_unbroken {d : Outline} (h : d.Readable) :
    Unbroken ("def " ++ d.definitionName ++ " : Torch_Op<" ++ quote d.opName ++ ", [") := by
  simp only [unbroken_append]
  exact ⟨⟨⟨⟨by decide, fun c hc => not_break_of_not_blank (h.definitionName c hc)⟩, by decide⟩,
    unbroken_quote h.opName.1⟩, by decide⟩

theorem unbroken_assignment {field text : String} (hfield : Unbroken field) (h : Unbroken text) :
    Unbroken (field ++ quote text ++ ";") :=
  unbroken_append.mpr ⟨unbroken_append.mpr ⟨hfield, unbroken_quote h⟩, by decide⟩

theorem Outline.Readable.summary_unbroken {d : Outline} (h : d.Readable) :
    Unbroken ("let summary = " ++ quote ("Generated op for `" ++ d.key ++ "`") ++ ";") := by
  refine unbroken_assignment (by decide) ?_
  exact unbroken_append.mpr ⟨unbroken_append.mpr ⟨by decide, h.key⟩, by decide⟩

theorem Outline.Readable.lines_unbroken {d : Outline} (h : d.Readable) {format : String}
    (hformat : Unbroken format) : ∀ l ∈ d.lines format, Unbroken l := by
  simp only [Outline.lines, List.forall_mem_cons, List.forall_mem_append]
  refine ⟨h.head_unbroken, entries_unbroken h.traits, by decide,
    unbroken_append.mpr ⟨by decide, h.summary_unbroken⟩, by decide,
    entries_unbroken (Slots.texts_unbroken h.operands), by decide, by decide,
    entries_unbroken (Slots.texts_unbroken h.results), by decide,
    unbroken_append.mpr ⟨by decide, unbroken_assignment (by decide) hformat⟩,
    flagLines_unbroken _ _, by decide⟩

/-- **THE LINES OF AN OUTLINE ARE READ BACK.** -/
theorem readDefinition_lines {d : Outline} (h : d.Readable) {format : String}
    (hformat : Unbroken format) : readDefinition (unlines (d.lines format)) = some d := by
  have hcut : split '\n' (unlines (d.lines format)) = d.lines format ++ [""] :=
    split_unlines fun l hl => (h.lines_unbroken hformat l hl).newline_not_mem
  have htraits : ∀ rest, cutWhile isEntry (entries d.traits ++ "  ]> \x7b" :: rest)
      = (entries d.traits, "  ]> \x7b" :: rest) := cutWhile_entries d.traits (by decide)
  have hslots : ∀ pieces rest, cutWhile isEntry (entries pieces ++ "  );" :: rest)
      = (entries pieces, "  );" :: rest) := fun pieces => cutWhile_entries pieces (by decide)
  have hflags := flagLines_contains d.hasFolder d.hasCanonicalizer
  unfold readDefinition
  rw [hcut, Outline.lines]
  simp only [List.cons_append, List.append_assoc, List.nil_append, htraits, hslots,
    readEntries_entries, readHead_eq h.definitionName h.opName.2, readSummary_eq,
    readSlots_texts h.operands, readSlots_texts h.results, hflags.1, hflags.2]

end DialectBench.Operator
