import DialectBench.Proofs.DefinitionReader
import DialectBench.Proofs.Numerals

/-!
# The text of a definition determines it

    A regular operator declares its operands and results without a fault, each
    with the predicate of its type and a name of one line, and the format of its
    assembly is of one line too.  So the operator writes exactly the lines of its
    outline (`ofPieces_definition`), which can be read back.  Two regular operators
    with the same text therefore have the same outline
    (`definition_text_injective`).
-/

namespace DialectBench.Operator

open Text

/-! ## What a regular operator declares -/

variable {o : Operator} {x : Extras}

theorem typePredicate_mem {type predicate : String} (h : typePredicate type = .ok predicate) :
    predicate ∈ typePredicates.map Prod.snd := by
  cases hp : typePredicates.lookup
      (if "Dict(".toList.isPrefixOf type.toList then "Dict" else type) with
  | none =>
      simp only [typePredicate, hp] at h
      exact nomatch h
  | some p =>
      simp only [typePredicate, hp] at h
      obtain ⟨before, after, htable, -⟩ := List.lookup_eq_some_iff.mp hp
      rw [← Except.ok.inj h, htable]
      simp

theorem declareArgument_readable {p : Param} (htype : HasKnownType p) (hname : IsNamed p) :
    ∃ d, declareArgument p = .ok d ∧ d.Readable := by
  obtain ⟨type, predicate, htype, -, hpredicate⟩ := htype
  obtain ⟨name, hname, hline⟩ := hname
  refine ⟨⟨predicate, name⟩, ?_, typePredicate_mem hpredicate, hline.unbroken⟩
  unfold declareArgument
  rw [htype]
  simp only [hpredicate, hname]
  rfl

theorem resultName_unbroken {fallback : String} (hfallback : Unbroken fallback) {p : Param}
    (h : IsNamedOrNameless p) : ∃ name, resultName fallback p = .ok name ∧ Unbroken name := by
  obtain ⟨v, hv, hname⟩ := h
  refine ⟨if v.isTruthy then v.plain else fallback, ?_, ?_⟩
  · rw [resultName, hv]
    rfl
  · split
    next ht =>
      obtain ⟨name, rfl, hline⟩ := hname ht
      exact hline.unbroken
    next => exact hfallback

theorem declareResult_readable {fallback : String} (hfallback : Unbroken fallback) {p : Param}
    (htype : HasKnownType p) (hname : IsNamedOrNameless p) :
    ∃ d, declareResult fallback p = .ok d ∧ d.Readable := by
  obtain ⟨type, predicate, htype, -, hpredicate⟩ := htype
  obtain ⟨name, hname, hline⟩ := resultName_unbroken hfallback hname
  refine ⟨⟨predicate, name⟩, ?_, typePredicate_mem hpredicate, hline⟩
  unfold declareResult
  rw [htype]
  simp only [hpredicate, hname]
  rfl

theorem genericName_unbroken (count i : Nat) : Unbroken (genericName count i) := by
  refine unbroken_append.mpr ⟨by decide, ?_⟩
  split
  next =>
    intro c hc
    have hdigit := isDigit_of_mem_repr hc
    refine not_break_of_not_blank (isNameChar_not_blank ?_)
    simp [isNameChar, Char.isAlphanum, hdigit]
  next => decide

/-- The generic names are of one line, whatever the results are. -/
theorem mem_namedReturns {r : String × Param} (h : r ∈ o.namedReturns) :
    Unbroken r.1 ∧ r.2 ∈ o.returns := by
  obtain ⟨q, hq, rfl⟩ := List.mem_map.mp h
  exact ⟨genericName_unbroken _ _, List.fst_mem_of_mem_zipIdx hq⟩

theorem Regular.operands_readable (h : Regular o) :
    ∃ ins, o.operands = .ok ins ∧ ins.Readable := by
  unfold operands
  split
  next => exact ⟨.variadic "operands", rfl, (by decide : Unbroken "operands")⟩
  next =>
    have hdeclared : ∀ p ∈ o.arguments, ∃ d, declareArgument p = .ok d ∧ d.Readable :=
      fun p hp => declareArgument_readable (h.arguments p hp).1 (h.arguments p hp).2
    obtain ⟨ds, hds, hreadable⟩ := mapM_of_forall hdeclared
    exact ⟨.listed ds, by rw [hds]; rfl, hreadable⟩

theorem Regular.results_readable (h : Regular o) :
    ∃ outs, o.results = .ok outs ∧ outs.Readable := by
  unfold results
  split
  next => exact ⟨.variadic "results", rfl, (by decide : Unbroken "results")⟩
  next =>
    have hdeclared : ∀ r ∈ o.namedReturns, ∃ d, declareResult r.1 r.2 = .ok d ∧ d.Readable := by
      intro r hr
      obtain ⟨hfallback, hmem⟩ := mem_namedReturns hr
      exact declareResult_readable hfallback (h.returns r.2 hmem).1 (h.returns r.2 hmem).2
    obtain ⟨ds, hds, hreadable⟩ := mapM_of_forall hdeclared
    exact ⟨.listed ds, by rw [hds]; rfl, hreadable⟩

/-! ## The format of the assembly is of one line -/

theorem commaSeparated_unbroken {names : List String} (h : ∀ n ∈ names, Unbroken n)
    {f : String → String} (hf : ∀ n, Unbroken n → Unbroken (f n)) :
    Unbroken (commaSeparated (names.map f)) := by
  refine unbroken_joinWith (by decide) ?_
  intro item hitem
  obtain ⟨n, hn, rfl⟩ := List.mem_map.mp hitem
  exact hf n (h n hn)

theorem typeItem_unbroken (n : String) (h : Unbroken n) : Unbroken ("type($" ++ n ++ ")") :=
  unbroken_append.mpr ⟨unbroken_append.mpr ⟨by decide, h⟩, by decide⟩

theorem Regular.assemblyOperands_unbroken (h : Regular o) :
    ∃ ins types, assemblyOperands o = .ok (ins, types) ∧ Unbroken ins ∧ Unbroken types := by
  unfold assemblyOperands
  split
  next => exact ⟨_, _, rfl, by decide, by decide⟩
  next =>
    have htexts : ∀ p ∈ o.arguments, ∃ name, p.getText "name" = .ok name ∧ Unbroken name := by
      intro p hp
      obtain ⟨name, hname, hline⟩ := (h.arguments p hp).2
      exact ⟨name, by rw [Param.getText, hname], hline.unbroken⟩
    obtain ⟨names, hnames, hlines⟩ := mapM_of_forall htexts
    refine ⟨_, _, by rw [hnames]; rfl, ?_, ?_⟩
    · exact commaSeparated_unbroken hlines fun n hn => unbroken_append.mpr ⟨by decide, hn⟩
    · exact commaSeparated_unbroken hlines typeItem_unbroken

theorem Regular.assemblyResults_unbroken (h : Regular o) :
    ∃ types, assemblyResults o = .ok types ∧ Unbroken types := by
  unfold assemblyResults
  split
  next => exact ⟨_, rfl, by decide⟩
  next =>
    have htexts : ∀ r ∈ o.namedReturns, ∃ name, resultName r.1 r.2 = .ok name ∧ Unbroken name := by
      intro r hr
      obtain ⟨hfallback, hmem⟩ := mem_namedReturns hr
      exact resultName_unbroken hfallback (h.returns r.2 hmem).2
    obtain ⟨names, hnames, hlines⟩ := mapM_of_forall htexts
    exact ⟨_, by rw [hnames]; rfl, commaSeparated_unbroken hlines typeItem_unbroken⟩

theorem Regular.assemblyFormat_unbroken (h : Regular o) :
    ∃ format, assemblyFormat o = .ok format ∧ Unbroken format := by
  obtain ⟨ins, inTypes, hins, hinsLine, hinTypes⟩ := h.assemblyOperands_unbroken
  obtain ⟨outTypes, houts, houtTypes⟩ := h.assemblyResults_unbroken
  have harrow : Unbroken (if inTypes.isEmpty || outTypes.isEmpty then "" else " `->` ") := by
    split <;> decide
  refine ⟨_, by rw [assemblyFormat, hins, houts]; rfl, ?_⟩
  simp only [unbroken_append]
  exact ⟨⟨⟨⟨hinsLine, by decide⟩, hinTypes⟩, harrow⟩, houtTypes⟩

/-! ## Writing a definition -/

/-- Traits that are not empty and of one line. -/
def Extras.Regular (x : Extras) : Prop := ∀ t ∈ x.traits, Unbroken t ∧ t ≠ ""

/-- The outline of an operator that declares given operands and results. -/
def outline (o : Operator) (x : Extras) (operands results : Slots) : Outline :=
  ⟨o.opName, o.definitionName, o.key, x.traits, operands, results, x.hasFolder, x.hasCanonicalizer⟩

theorem Regular.outline_readable (h : Regular o) (hx : x.Regular) {ins outs : Slots}
    (hins : ins.Readable) (houts : outs.Readable) : (o.outline x ins outs).Readable where
  opName := ⟨h.unbroken_opName, h.quote_not_mem_opName⟩
  definitionName := h.definitionName_not_blank
  key := h.unbroken_key
  traits := hx
  operands := hins
  results := houts

theorem printed_slots {s : Slots} (h : s.Readable) :
    printed 2 s.text = unlines (entries s.texts) := by
  rw [Slots.text_eq, printed_list 2 (Slots.texts_unbroken h)]
  rfl

theorem printed_flags (hasFolder hasCanonicalizer : Bool) :
    (if hasFolder then printed 1 "let hasFolder = 1;" else "") ++
        (if hasCanonicalizer then printed 1 "let hasCanonicalizer = 1;" else "")
      = unlines (flagLines hasFolder hasCanonicalizer) := by
  cases hasFolder <;> cases hasCanonicalizer <;> decide

/-- **A DEFINITION IS WRITTEN AS THE LINES OF ITS OUTLINE.** -/
theorem ofPieces_definition {ins outs : Slots} {format : String}
    (hins : o.operands = .ok ins) (houts : o.results = .ok outs)
    (hformat : assemblyFormat o = .ok format) (hline : Unbroken format)
    (h : (o.outline x ins outs).Readable) :
    Printed.ofPieces (o.definition x)
      = ⟨unlines ((o.outline x ins outs).lines format), .ok ()⟩ := by
  have hhead := printed_line 0 h.head_unbroken (by simp)
  have htraits : printed 2 (joinWith ",\n" x.traits) = unlines (entries x.traits) :=
    printed_list 2 h.traits
  have hsummary := printed_line 1 h.summary_unbroken (by simp)
  have hinsLines : printed 2 ins.text = unlines (entries ins.texts) := printed_slots h.operands
  have houtsLines : printed 2 outs.text = unlines (entries outs.texts) := printed_slots h.results
  have hassembly : printed 1 ("let assemblyFormat = " ++ quote format ++ ";")
      = margin 1 ++ ("let assemblyFormat = " ++ quote format ++ ";") ++ "\n" :=
    printed_line 1 (unbroken_assignment (by decide) hline) (by simp)
  have hzero : margin 0 = "" := rfl
  have hone : margin 1 = "  " := rfl
  have hfixed : printed 1 "]> \x7b" = "  ]> \x7b" ++ "\n" ∧
      printed 1 "let arguments = (ins" = "  let arguments = (ins" ++ "\n" ∧
      printed 1 ");" = "  );" ++ "\n" ∧
      printed 1 "let results = (outs" = "  let results = (outs" ++ "\n" ∧
      printed 0 "\x7d" ++ (printed 0 "\n" ++ "") = unlines ["\x7d", ""] := by decide
  obtain ⟨htraitsEnd, hinsStart, hlistEnd, houtsStart, hend⟩ := hfixed
  rw [hzero, String.empty_append] at hhead
  rw [hone] at hsummary hassembly
  unfold definition
  rw [hins, houts, hformat]
  simp only [outline] at hhead hsummary
  simp only [Except.map, Printed.ofPieces, hhead, htraits, hsummary, hinsLines, houtsLines,
    hassembly, htraitsEnd, hinsStart, hlistEnd, houtsStart, hend]
  -- both sides are the same pieces one after the other, bracketed differently
  simp only [Outline.lines, outline, unlines_cons, unlines_append, ← printed_flags,
    String.append_assoc]

/-! ## The text determines the definition -/

theorem Regular.readDefinition_written (h : Regular o) (hx : x.Regular) :
    ∃ text ins outs, Printed.ofPieces (o.definition x) = ⟨text, .ok ()⟩ ∧
      o.operands = .ok ins ∧ o.results = .ok outs ∧
      readDefinition text = some (o.outline x ins outs) := by
  obtain ⟨ins, hins, hinsReadable⟩ := h.operands_readable
  obtain ⟨outs, houts, houtsReadable⟩ := h.results_readable
  obtain ⟨format, hformat, hline⟩ := h.assemblyFormat_unbroken
  have hreadable := h.outline_readable hx hinsReadable houtsReadable
  exact ⟨_, ins, outs, ofPieces_definition hins houts hformat hline hreadable, hins, houts,
    readDefinition_lines hreadable hline⟩

/-- **THE TEXT OF A DEFINITION DETERMINES IT.**  A regular operator with regular
    traits is written without a fault, `readDefinition` recovers from the text
    what it tells, and so two of them with the same text agree in all of it. -/
theorem definition_text_injective {o : Operator} {x : Extras} (h : Regular o) (hx : x.Regular) :
    ∃ text ins outs, Printed.ofPieces (o.definition x) = ⟨text, .ok ()⟩ ∧
      o.operands = .ok ins ∧ o.results = .ok outs ∧
      readDefinition text = some ⟨o.opName, o.definitionName, o.key, x.traits, ins, outs,
        x.hasFolder, x.hasCanonicalizer⟩ ∧
      ∀ (o' : Operator) (x' : Extras), Regular o' → x'.Regular →
        (Printed.ofPieces (o'.definition x')).text = text →
        o'.opName = o.opName ∧ o'.definitionName = o.definitionName ∧ o'.key = o.key ∧
          x'.traits = x.traits ∧ o'.operands = o.operands ∧ o'.results = o.results ∧
          x'.hasFolder = x.hasFolder ∧ x'.hasCanonicalizer = x.hasCanonicalizer := by
  obtain ⟨text, ins, outs, hwritten, hins, houts, hread⟩ := h.readDefinition_written hx
  refine ⟨text, ins, outs, hwritten, hins, houts, hread, ?_⟩
  intro o' x' h' hx' hsame
  obtain ⟨text', ins', outs', hwritten', hins', houts', hread'⟩ := h'.readDefinition_written hx'
  rw [hwritten'] at hsame
  rw [show text' = text from hsame, hread] at hread'
  obtain ⟨hop, hdef, hkey, htraits, hinsEq, houtsEq, hfolder, hcanonicalizer⟩ :=
    Outline.mk.inj (Option.some.inj hread')
  exact ⟨hop.symm, hdef.symm, hkey.symm, htraits.symm, by rw [hins, hins', hinsEq],
    by rw [houts, houts', houtsEq], hfolder.symm, hcanonicalizer.symm⟩

/-- An operator with an overload, a dictionary among its operands, and a named and a nameless
    result. -/
def tally : Operator :=
  { ofTypes "aten" "tally_" "dict" [("self", "Dict(str, int)"), ("key", "str")]
      [("total", "int"), ("", "bool?")] with isMutable := true }

/-- What is read back for such an operator, with a trait that holds a comma. -/
theorem definition_text_injective_tally :
    Regular tally ∧ Extras.Regular ⟨["DeclareOpInterfaceMethods<A, [\"b\"]>"], true, false⟩ ∧
    ∃ text, Printed.ofPieces (tally.definition
        ⟨["DeclareOpInterfaceMethods<A, [\"b\"]>"], true, false⟩) = ⟨text, .ok ()⟩ ∧
      readDefinition text = some {
        opName := "aten.tally_.dict"
        definitionName := "Torch_AtenTally_DictOp"
        key := "aten::tally_.dict : (Dict(str, int), str) -> (int, bool?)"
        traits := ["DeclareOpInterfaceMethods<A, [\"b\"]>"]
        operands := .listed [⟨"Torch_DictType", "self"⟩, ⟨"Torch_StringType", "key"⟩]
        results := .listed [⟨"Torch_IntType", "total"⟩, ⟨"TorchOptionalBoolType", "result1"⟩]
        hasFolder := true
        hasCanonicalizer := false } := by
  have hregular : Regular tally := by
    refine ⟨by decide, by decide, fun _ => by decide, ?_, ?_⟩
    · simp only [tally, ofTypes, params, List.forall_mem_map, List.forall_mem_cons]
      exact ⟨⟨⟨"Dict(str, int)", "Torch_DictType", rfl, by decide, rfl⟩, "self", rfl, by decide⟩,
        ⟨⟨"str", "Torch_StringType", rfl, by decide, rfl⟩, "key", rfl, by decide⟩,
        List.forall_mem_nil _⟩
    · simp only [tally, ofTypes, params, List.forall_mem_map, List.forall_mem_cons]
      exact ⟨⟨⟨"int", "Torch_IntType", rfl, by decide, rfl⟩, .str "total", rfl,
          fun _ => ⟨"total", rfl, by decide⟩⟩,
        ⟨⟨"bool?", "TorchOptionalBoolType", rfl, by decide, rfl⟩, .str "", rfl,
          fun htrue => absurd htrue (by decide)⟩, List.forall_mem_nil _⟩
  have htraits : Extras.Regular ⟨["DeclareOpInterfaceMethods<A, [\"b\"]>"], true, false⟩ := by
    unfold Extras.Regular
    decide
  obtain ⟨text, ins, outs, hwritten, hins, houts, hread, -⟩ :=
    definition_text_injective hregular htraits
  have hins' : tally.operands
      = .ok (.listed [⟨"Torch_DictType", "self"⟩, ⟨"Torch_StringType", "key"⟩]) := rfl
  have houts' : tally.results
      = .ok (.listed [⟨"Torch_IntType", "total"⟩, ⟨"TorchOptionalBoolType", "result1"⟩]) := rfl
  cases hins.symm.trans hins'
  cases houts.symm.trans houts'
  exact ⟨hregular, htraits, text, hwritten, hread⟩

end DialectBench.Operator
