import Mathlib.Data.List.Nodup
import DialectBench.Proofs.GenerationOrder
import DialectBench.Proofs.Numerals

/-! # The names that a definition declares

    The operands and results of a definition have names from two sources.  Some
    are GIVEN: the names of the arguments and of the results that have one.  The
    others are MADE UP: one name for any number of operands, one for any number
    of results, and a generic name for each result without a name.

    Made-up names differ from each other (`nodup_madeNames`), but nothing keeps
    them apart from the given ones.  So the declared names are pairwise
    different exactly if no made-up name is a given one
    (`declared_names_distinct_iff`).  The assembly format refers to every
    declared value in order, whether its name is shared or not. -/

namespace DialectBench

/-- The name that a result brings along, if it has one. -/
def Param.ownName? (p : Param) : Option String :=
  match p.get? "name" with
  | some v => if v.isTruthy then some v.plain else none
  | none => none

namespace Operator

/-- The names of declared values, in order. -/
def Slots.names : Slots → List String
  | .variadic name => [name]
  | .listed ds => ds.map Declared.name

variable (o : Operator)

/-! ## Given and made-up names -/

/-- The names of the arguments. -/
def argumentNames : List String := o.arguments.filterMap fun p => (p.getText "name").toOption

/-- The names of the results that have one. -/
def ownResultNames : List String := o.returns.filterMap Param.ownName?

/-- The names of declared values that the operator gives. -/
def givenNames : List String :=
  (if o.isVararg then [] else o.argumentNames) ++ (if o.isVarret then [] else o.ownResultNames)

/-- The names of declared values that the operator does not give. -/
def madeNames : List String :=
  (if o.isVararg then ["operands"] else []) ++
    (if o.isVarret then ["results"]
      else (o.namedReturns.filter fun r => r.2.ownName?.isNone).map Prod.fst)

theorem map_snd_namedReturns : o.namedReturns.map Prod.snd = o.returns := by
  rw [namedReturns, List.map_map]
  exact List.zipIdx_map_fst _ _

theorem map_fst_namedReturns :
    o.namedReturns.map Prod.fst
      = (List.range o.returns.length).map (genericName o.returns.length) := by
  rw [namedReturns, List.map_map, List.range_eq_range', ← List.zipIdx_map_snd, List.map_map]
  rfl

/-- Generic names of results are different: a lone result has no number, and
    otherwise the numbers differ. -/
theorem genericName_injOn {count i j : Nat} (hi : i < count) (hj : j < count)
    (h : genericName count i = genericName count j) : i = j := by
  rw [genericName, genericName] at h
  by_cases hcount : count > 1
  · rw [if_pos hcount, if_pos hcount, String.append_right_inj] at h
    exact Text.repr_nat_injective h
  · omega

theorem genericName_ne_operands (count i : Nat) : genericName count i ≠ "operands" := by
  intro h
  have hhead := congrArg (fun s => s.toList.head?) h
  simp [genericName, String.toList_append] at hhead

/-- **MADE-UP NAMES DIFFER FROM EACH OTHER**, for every operator. -/
theorem nodup_madeNames : o.madeNames.Nodup := by
  have hgeneric : (o.namedReturns.map Prod.fst).Nodup := by
    rw [map_fst_namedReturns]
    refine List.Nodup.map_on ?_ List.nodup_range
    intro i hi j hj h
    exact genericName_injOn (List.mem_range.mp hi) (List.mem_range.mp hj) h
  have hnameless : ((o.namedReturns.filter fun r => r.2.ownName?.isNone).map Prod.fst).Nodup :=
    hgeneric.sublist (List.filter_sublist.map Prod.fst)
  rw [madeNames]
  cases o.isVararg with
  | false =>
      cases o.isVarret with
      | false => exact hnameless
      | true => exact List.nodup_singleton "results"
  | true =>
      cases o.isVarret with
      | true =>
          show ["operands", "results"].Nodup
          decide
      | false =>
          refine List.nodup_cons.mpr ⟨?_, hnameless⟩
          intro hmem
          obtain ⟨r, hr, hname⟩ := List.mem_map.mp hmem
          obtain ⟨q, -, rfl⟩ := List.mem_map.mp (List.mem_filter.mp hr).1
          exact genericName_ne_operands _ _ hname

/-! ## What is declared -/

variable {o} {ins outs : Slots}

theorem name_declareArgument {p : Param} {d : Declared} {name : String}
    (hd : declareArgument p = .ok d) (hname : p.getText "name" = .ok name) : d.name = name := by
  have hget : p.get "name" = .ok (.str name) := by
    rw [Param.getText] at hname
    split at hname
    · cases hname
    · next s hs =>
        cases hname
        exact hs
    · cases hname
  rw [declareArgument] at hd
  split at hd
  · cases hd
  · split at hd
    · cases hd
    · rw [hget] at hd
      cases hd
      rfl

/-- A result is declared, and named in the format, by its own name or else by
    the name that it falls back to. -/
theorem name_declareResult {fallback : String} {p : Param} {d : Declared}
    (hd : declareResult fallback p = .ok d) :
    d.name = p.ownName?.getD fallback ∧
      resultName fallback p = .ok (p.ownName?.getD fallback) := by
  have hname : ∃ v, p.get? "name" = some v ∧
      d.name = if v.isTruthy then v.plain else fallback := by
    rw [declareResult] at hd
    split at hd
    · cases hd
    · split at hd
      · cases hd
      · rw [resultName, Param.get] at hd
        split at hd
        · next v hv =>
            cases hd
            exact ⟨v, hv, rfl⟩
        · cases hd
  obtain ⟨v, hv, hd⟩ := hname
  have hown : (if v.isTruthy then v.plain else fallback) = p.ownName?.getD fallback := by
    rw [Param.ownName?, hv]
    by_cases ht : v.isTruthy = true
    · simp [ht]
    · simp [ht]
  refine ⟨hd.trans hown, ?_⟩
  rw [resultName, Param.get, hv, ← hown]
  rfl

/-- Arguments are declared, and named in the format, by their names. -/
theorem names_of_mapM {ps : List Param} {ds : List Declared} {names : List String}
    (hds : ps.mapM declareArgument = .ok ds)
    (hnames : ps.mapM (fun p => p.getText "name") = .ok names) :
    ds.map Declared.name = names ∧
      ps.filterMap (fun p => (p.getText "name").toOption) = names := by
  rw [mapM_eq_ok_iff] at hds hnames
  induction hds generalizing names with
  | nil =>
      cases hnames
      exact ⟨rfl, rfl⟩
  | cons hd _ ih =>
      cases hnames with
      | cons hname hrest =>
          obtain ⟨hdeclared, htexts⟩ := ih hrest
          constructor
          · rw [List.map_cons, hdeclared, name_declareArgument hd hname]
          · rw [List.filterMap_cons, hname, htexts]
            rfl

/-- The results are declared, and named in the format, under one list of names. -/
theorem resultNames_of_mapM {rs : List (String × Param)} {ds : List Declared}
    (hds : rs.mapM (fun r => declareResult r.1 r.2) = .ok ds) :
    ds.map Declared.name = rs.map (fun r => r.2.ownName?.getD r.1) ∧
      rs.mapM (fun r => resultName r.1 r.2)
        = .ok (rs.map fun r => r.2.ownName?.getD r.1) := by
  rw [mapM_eq_ok_iff] at hds
  induction hds with
  | nil => exact ⟨rfl, rfl⟩
  | cons hd _ ih =>
      obtain ⟨hdeclared, htexts⟩ := ih
      obtain ⟨hname, hresult⟩ := name_declareResult hd
      constructor
      · rw [List.map_cons, List.map_cons, hdeclared, hname]
      · rw [List.mapM_cons, hresult, htexts]
        rfl

/-! ## The assembly format as a list of parts -/

/-- A part of an assembly format: plain text, a declared value, or the type of
    a declared value. -/
inductive FormatPart where
  | literal (text : String)
  | value (name : String)
  | type (name : String)
  deriving DecidableEq, Repr

namespace FormatPart

def text : FormatPart → String
  | .literal t => t
  | .value n => "$" ++ n
  | .type n => "type($" ++ n ++ ")"

/-- The name of the value that a part stands for. -/
def value? : FormatPart → Option String
  | .value n => some n
  | _ => none

/-- The name of the value whose type a part stands for. -/
def type? : FormatPart → Option String
  | .type n => some n
  | _ => none

/-- Parts with commas between neighbours. -/
def separated (parts : List FormatPart) : List FormatPart :=
  parts.intersperse (.literal " `,` ")

theorem join_separated (parts : List FormatPart) :
    String.join ((separated parts).map text) = commaSeparated (parts.map text) := by
  induction parts with
  | nil => rfl
  | cons p parts ih =>
      cases parts with
      | nil => simp [separated, commaSeparated, Text.joinWith, String.join_cons]
      | cons q parts =>
          show String.join (p.text :: " `,` " :: (separated (q :: parts)).map text) = _
          rw [String.join_cons, String.join_cons, ih, ← String.append_assoc]
          rfl

/-- Commas refer to nothing. -/
theorem filterMap_separated {g : FormatPart → Option String} (hg : ∀ t, g (.literal t) = none)
    (parts : List FormatPart) : (separated parts).filterMap g = parts.filterMap g := by
  induction parts with
  | nil => rfl
  | cons p parts ih =>
      cases parts with
      | nil => rfl
      | cons q parts =>
          show (p :: .literal " `,` " :: separated (q :: parts)).filterMap g = _
          rw [List.filterMap_cons, List.filterMap_cons_none (hg _), ih]
          exact List.filterMap_cons.symm

theorem mem_separated {p : FormatPart} {parts : List FormatPart} (h : p ∈ separated parts) :
    p = .literal " `,` " ∨ p ∈ parts := by
  induction parts with
  | nil => exact .inr h
  | cons q parts ih =>
      cases parts with
      | nil => exact .inr h
      | cons r parts =>
          have hmem : p ∈ q :: .literal " `,` " :: separated (r :: parts) := h
          rcases List.mem_cons.mp hmem with rfl | hmem
          · exact .inr List.mem_cons_self
          · rcases List.mem_cons.mp hmem with rfl | hmem
            · exact .inl rfl
            · exact (ih hmem).imp_right (List.mem_cons_of_mem q)

end FormatPart

open FormatPart

/-- The operands in the format; any number of them stand in parentheses. -/
def operandParts (isVararg : Bool) (names : List String) : List FormatPart :=
  if isVararg then [.literal "`(` "] ++ separated (names.map .value) ++ [.literal " `)`"]
  else separated (names.map .value)

/-- The parts of a format that refers to all operands, then to the types of all
    operands and of all results. -/
def formatParts (isVararg : Bool) (ins outs : List String) (arrow : String) : List FormatPart :=
  operandParts isVararg ins ++ [.literal " attr-dict `:` "] ++ separated (ins.map .type) ++
    [.literal arrow] ++ separated (outs.map .type)

section

variable (isVararg : Bool) (ins outs : List String) (arrow : String)

/-- Plain text refers to nothing. -/
theorem filterMap_formatParts {g : FormatPart → Option String} (hg : ∀ t, g (.literal t) = none) :
    (formatParts isVararg ins outs arrow).filterMap g
      = (ins.map .value).filterMap g ++ (ins.map .type).filterMap g ++
          (outs.map .type).filterMap g := by
  have hliteral : ∀ t, [FormatPart.literal t].filterMap g = [] :=
    fun t => List.filterMap_cons_none (hg t)
  have hoperands : (operandParts isVararg ins).filterMap g = (ins.map .value).filterMap g := by
    cases isVararg with
    | false => exact filterMap_separated hg _
    | true =>
        show ([literal "`(` "] ++ separated (ins.map .value) ++ [literal " `)`"]).filterMap g = _
        rw [List.filterMap_append, List.filterMap_append, hliteral, hliteral, List.nil_append,
          List.append_nil, filterMap_separated hg]
  simp only [formatParts, List.filterMap_append, hoperands, hliteral, filterMap_separated hg,
    List.append_nil]

/-- Plain text hides no reference: a dollar sign stands only in front of names. -/
theorem literal_formatParts (harrow : '$' ∉ arrow.toList) {t : String}
    (ht : .literal t ∈ formatParts isVararg ins outs arrow) : '$' ∉ t.toList := by
  have hcommas : ∀ (f : String → FormatPart) (names : List String), (∀ n, f n ≠ .literal t) →
      .literal t ∈ separated (names.map f) → '$' ∉ t.toList := by
    intro f names hf hmem
    rcases mem_separated hmem with heq | hmem
    · cases heq
      decide
    · obtain ⟨n, -, hn⟩ := List.mem_map.mp hmem
      exact absurd hn (hf n)
  have hvalues := hcommas .value ins fun _ h => FormatPart.noConfusion h
  have htypes := fun names => hcommas .type names fun _ h => FormatPart.noConfusion h
  rw [formatParts] at ht
  simp only [List.mem_append, List.mem_singleton, FormatPart.literal.injEq] at ht
  rcases ht with (((hoperands | rfl) | htype) | rfl) | htype
  · cases isVararg with
    | false => exact hvalues hoperands
    | true =>
        simp only [operandParts, if_true, List.mem_append, List.mem_singleton,
          FormatPart.literal.injEq] at hoperands
        rcases hoperands with (rfl | hvalue) | rfl
        · decide
        · exact hvalues hvalue
        · decide
  · decide
  · exact htypes ins htype
  · exact harrow
  · exact htypes outs htype

/-- A format refers to the operands, in order. -/
theorem values_formatParts : (formatParts isVararg ins outs arrow).filterMap value? = ins := by
  have htypes : ∀ names : List String, (names.map FormatPart.type).filterMap value? = [] := by
    intro names
    rw [List.filterMap_map]
    exact List.filterMap_eq_nil_iff.mpr fun _ _ => rfl
  rw [filterMap_formatParts _ _ _ _ fun _ => rfl, htypes, htypes, List.append_nil, List.append_nil,
    List.filterMap_map]
  exact List.filterMap_some

/-- A format refers to the types of the operands and then of the results, in
    order. -/
theorem types_formatParts :
    (formatParts isVararg ins outs arrow).filterMap type? = ins ++ outs := by
  have hvalues : (ins.map FormatPart.value).filterMap type? = [] := by
    rw [List.filterMap_map]
    exact List.filterMap_eq_nil_iff.mpr fun _ _ => rfl
  have htypes : ∀ names : List String, (names.map FormatPart.type).filterMap type? = names := by
    intro names
    rw [List.filterMap_map]
    exact List.filterMap_some
  rw [filterMap_formatParts _ _ _ _ fun _ => rfl, hvalues, htypes, htypes, List.nil_append]

end

/-! ## A written definition -/

/-- Operands are declared under the names of the arguments, and the format
    refers to them by these names. -/
theorem operands_written {values types : String} (hins : o.operands = .ok ins)
    (hformat : assemblyOperands o = .ok (values, types)) :
    ins.names = (if o.isVararg then ["operands"] else o.argumentNames) ∧
      values = String.join ((operandParts o.isVararg ins.names).map text) ∧
      types = String.join ((separated (ins.names.map .type)).map text) := by
  rw [operands] at hins
  rw [assemblyOperands] at hformat
  by_cases hvararg : o.isVararg = true
  · rw [if_pos hvararg] at hins hformat ⊢
    cases hins
    cases hformat
    rw [hvararg]
    exact ⟨rfl, rfl, rfl⟩
  · rw [if_neg hvararg] at hins hformat ⊢
    cases hds : o.arguments.mapM declareArgument with
    | error e => rw [hds] at hins; cases hins
    | ok ds =>
        cases hnames : o.arguments.mapM (fun p => p.getText "name") with
        | error e => rw [hnames] at hformat; cases hformat
        | ok names =>
            rw [hds] at hins
            rw [hnames] at hformat
            cases hins
            cases hformat
            obtain ⟨hdeclared, htexts⟩ := names_of_mapM hds hnames
            have hlisted : (Slots.listed ds).names = names := hdeclared
            refine ⟨hlisted.trans htexts.symm, ?_, ?_⟩
            · rw [operandParts, if_neg hvararg, join_separated, hlisted, List.map_map]
              rfl
            · rw [join_separated, hlisted, List.map_map]
              rfl

/-- The same for the results, which may have to fall back to generic names. -/
theorem results_written (houts : o.results = .ok outs) :
    outs.names = (if o.isVarret then ["results"]
        else o.namedReturns.map fun r => r.2.ownName?.getD r.1) ∧
      assemblyResults o = .ok (String.join ((separated (outs.names.map .type)).map text)) := by
  rw [results] at houts
  rw [assemblyResults]
  by_cases hvarret : o.isVarret = true
  · rw [if_pos hvarret] at houts ⊢
    cases houts
    rw [if_pos hvarret]
    exact ⟨rfl, rfl⟩
  · rw [if_neg hvarret] at houts ⊢
    cases hds : o.namedReturns.mapM (fun r => declareResult r.1 r.2) with
    | error e => rw [hds] at houts; cases houts
    | ok ds =>
        rw [hds] at houts
        cases houts
        obtain ⟨hdeclared, htexts⟩ := resultNames_of_mapM hds
        have hlisted : (Slots.listed ds).names
            = o.namedReturns.map fun r => r.2.ownName?.getD r.1 := hdeclared
        refine ⟨hlisted, ?_⟩
        rw [if_neg hvarret, htexts, join_separated, hlisted, List.map_map]
        rfl

/-- The format of a definition refers to what it declares. -/
theorem assemblyFormat_written {format : String} (hins : o.operands = .ok ins)
    (houts : o.results = .ok outs) (hformat : assemblyFormat o = .ok format) :
    ins.names = (if o.isVararg then ["operands"] else o.argumentNames) ∧
      ∃ arrow : String, '$' ∉ arrow.toList ∧ format
        = String.join ((formatParts o.isVararg ins.names outs.names arrow).map text) := by
  obtain ⟨outTypes, houtTypes⟩ :
      ∃ t, t = String.join ((separated (outs.names.map .type)).map text) := ⟨_, rfl⟩
  have hresults : assemblyResults o = .ok outTypes := houtTypes ▸ (results_written houts).2
  rw [assemblyFormat] at hformat
  cases hoperands : assemblyOperands o with
  | error e => rw [hoperands] at hformat; cases hformat
  | ok pair =>
      obtain ⟨values, types⟩ := pair
      obtain ⟨hnames, hvalues, htypes⟩ := operands_written hins hoperands
      rw [hoperands, hresults] at hformat
      cases hformat
      refine ⟨hnames, if types.isEmpty || outTypes.isEmpty then "" else " `->` ", ?_, ?_⟩
      · cases types.isEmpty || outTypes.isEmpty with
        | true => exact List.not_mem_nil
        | false => decide
      · have hliteral : ∀ t, String.join ([FormatPart.literal t].map text) = t :=
          fun t => String.join_cons.trans String.append_empty
        simp only [formatParts, List.map_append, String.join_append, ← hvalues, ← htypes,
          ← houtTypes, hliteral]

/-- A definition that is written to its end has operands, results and a format. -/
theorem parts_of_written {x : Extras}
    (hwritten : (Printed.ofPieces (o.definition x)).outcome = .ok ()) :
    ∃ ins outs format, o.operands = .ok ins ∧ o.results = .ok outs ∧
      assemblyFormat o = .ok format := by
  have hpieces := Printed.outcome_ofPieces_eq_ok_iff.mp hwritten
  cases hins : o.operands with
  | error e => exact absurd (by simp [definition, hins, Except.map]) (hpieces e)
  | ok ins =>
      cases houts : o.results with
      | error e => exact absurd (by simp [definition, houts, Except.map]) (hpieces e)
      | ok outs =>
          cases hformat : assemblyFormat o with
          | error e => exact absurd (by simp [definition, hformat, Except.map]) (hpieces e)
          | ok format => exact ⟨ins, outs, format, rfl, rfl, rfl⟩

/-! ## Given and made-up names make up the declared ones -/

theorem perm_getD_ownName (rs : List (String × Param)) :
    (rs.map fun r => r.2.ownName?.getD r.1).Perm
      (rs.filterMap (fun r => r.2.ownName?) ++
        (rs.filter fun r => r.2.ownName?.isNone).map Prod.fst) := by
  induction rs with
  | nil => exact .nil
  | cons r rs ih =>
      cases hname : r.2.ownName? with
      | some n =>
          simp only [List.map_cons, hname, List.filterMap_cons, List.filter_cons,
            Option.isNone_some]
          exact ih.cons n
      | none =>
          simp only [List.map_cons, hname, List.filterMap_cons, List.filter_cons,
            Option.isNone_none, if_true]
          exact (ih.cons r.1).trans List.perm_middle.symm

theorem perm_resultNames (o : Operator) :
    (o.namedReturns.map fun r => r.2.ownName?.getD r.1).Perm
      (o.ownResultNames ++ (o.namedReturns.filter fun r => r.2.ownName?.isNone).map Prod.fst) := by
  have hown : o.ownResultNames = o.namedReturns.filterMap fun r => r.2.ownName? := by
    rw [ownResultNames, ← map_snd_namedReturns, List.filterMap_map]
    rfl
  rw [hown]
  exact perm_getD_ownName o.namedReturns

/-- The declared names are the given and the made-up ones. -/
theorem perm_declaredNames
    (hins : ins.names = if o.isVararg then ["operands"] else o.argumentNames)
    (houts : outs.names = if o.isVarret then ["results"]
      else o.namedReturns.map fun r => r.2.ownName?.getD r.1) :
    (ins.names ++ outs.names).Perm (o.givenNames ++ o.madeNames) := by
  have hresults : outs.names.Perm ((if o.isVarret then [] else o.ownResultNames) ++
      if o.isVarret then ["results"]
        else (o.namedReturns.filter fun r => r.2.ownName?.isNone).map Prod.fst) := by
    rw [houts]
    cases o.isVarret with
    | true => exact .refl _
    | false => exact perm_resultNames o
  have hoperands : ins.names = (if o.isVararg then [] else o.argumentNames) ++
      if o.isVararg then ["operands"] else [] := by
    rw [hins]
    cases o.isVararg with
    | true => rfl
    | false => exact (List.append_nil _).symm
  rw [givenNames, madeNames, hoperands, List.append_assoc, List.append_assoc]
  refine .append_left _ ((List.Perm.append_left _ hresults).trans ?_)
  exact List.perm_append_comm_assoc _ _ _

theorem nodup_givenNames (hargs : o.argumentNames.Nodup) (hown : o.ownResultNames.Nodup)
    (hapart : ∀ n ∈ o.ownResultNames, n ∉ o.argumentNames) : o.givenNames.Nodup := by
  rw [givenNames]
  cases o.isVararg with
  | true =>
      cases o.isVarret with
      | true => exact List.nodup_nil
      | false => exact hown
  | false =>
      cases o.isVarret with
      | true => exact (List.append_nil o.argumentNames).symm ▸ hargs
      | false =>
          refine List.nodup_append.mpr ⟨hargs, hown, ?_⟩
          rintro n hn m hm rfl
          exact hapart n hm hn

/-- **DECLARED NAMES CLASH ONLY WITH MADE-UP ONES**: if a definition is written,
    and the names that its operator gives are different, the declared names are
    pairwise different exactly if no made-up name is a given one.  The format
    refers to the operands, and to the types of the operands and results, all of
    them once and in order, and to nothing else; its references are to one
    declared value each under the same condition. -/
theorem declared_names_distinct_iff {o : Operator} {x : Extras}
    (hwritten : (Printed.ofPieces (o.definition x)).outcome = .ok ())
    (hargs : o.argumentNames.Nodup) (hown : o.ownResultNames.Nodup)
    (hapart : ∀ n ∈ o.ownResultNames, n ∉ o.argumentNames) :
    ∃ (ins outs : Slots) (parts : List FormatPart),
      o.operands = .ok ins ∧ o.results = .ok outs ∧
      assemblyFormat o = .ok (String.join (parts.map FormatPart.text)) ∧
      (∀ t, .literal t ∈ parts → '$' ∉ t.toList) ∧
      parts.filterMap FormatPart.value? = ins.names ∧
      parts.filterMap FormatPart.type? = ins.names ++ outs.names ∧
      (ins.names ++ outs.names).Perm (o.givenNames ++ o.madeNames) ∧
      ((ins.names ++ outs.names).Nodup ↔ ∀ n ∈ o.madeNames, n ∉ o.givenNames) ∧
      ((∀ n ∈ parts.filterMap FormatPart.value? ++ parts.filterMap FormatPart.type?,
          (ins.names ++ outs.names).count n = 1) ↔
        ∀ n ∈ o.madeNames, n ∉ o.givenNames) := by
  obtain ⟨ins, outs, format, hins, houts, hformat⟩ := parts_of_written hwritten
  obtain ⟨hnames, arrow, harrow, rfl⟩ := assemblyFormat_written hins houts hformat
  have hliterals := fun t =>
    literal_formatParts (t := t) o.isVararg ins.names outs.names arrow harrow
  have hvalues := values_formatParts o.isVararg ins.names outs.names arrow
  have htypes := types_formatParts o.isVararg ins.names outs.names arrow
  have hperm := perm_declaredNames hnames (results_written houts).1
  have hdistinct : (ins.names ++ outs.names).Nodup ↔ ∀ n ∈ o.madeNames, n ∉ o.givenNames := by
    rw [hperm.nodup_iff, List.nodup_append]
    constructor
    · rintro ⟨-, -, happart⟩ n hmade hgiven
      exact happart n hgiven n hmade rfl
    · intro h
      refine ⟨nodup_givenNames hargs hown hapart, nodup_madeNames o, ?_⟩
      rintro n hgiven m hmade rfl
      exact h n hmade hgiven
  refine ⟨ins, outs, _, hins, houts, hformat, hliterals, hvalues, htypes, hperm, hdistinct, ?_⟩
  rw [hvalues, htypes, ← hdistinct, List.nodup_iff_count_eq_one]
  constructor
  · intro h n hn
    exact h n (List.mem_append_right _ hn)
  · intro h n hn
    rcases List.mem_append.mp hn with hn | hn
    · exact h n (List.mem_append_left _ hn)
    · exact h n hn

/-- An operator with a named and a nameless result. -/
def split : Operator :=
  ofTypes "aten" "split" "" [("self", "Tensor"), ("result", "int")]
    [("head", "Tensor"), ("", "Tensor")]

theorem declared_names_distinct_iff_split :
    (Printed.ofPieces (split.definition ⟨[], false, false⟩)).outcome = .ok () ∧
      split.argumentNames = ["self", "result"] ∧ split.ownResultNames = ["head"] ∧
      split.madeNames = ["result1"] ∧
      ∃ (ins outs : Slots), split.operands = .ok ins ∧ split.results = .ok outs ∧
        ((ins.names ++ outs.names).Nodup ↔ ∀ n ∈ split.madeNames, n ∉ split.givenNames) := by
  have hwritten : (Printed.ofPieces (split.definition ⟨[], false, false⟩)).outcome = .ok () := rfl
  have hargs : split.argumentNames = ["self", "result"] := rfl
  have hown : split.ownResultNames = ["head"] := rfl
  obtain ⟨ins, outs, -, hins, houts, -, -, -, -, -, hdistinct, -⟩ :=
    declared_names_distinct_iff hwritten (by rw [hargs]; decide) (by rw [hown]; decide)
      (by rw [hargs, hown]; decide)
  exact ⟨hwritten, hargs, hown, rfl, ins, outs, hins, houts, hdistinct⟩

/-- An operator whose argument has the name that its nameless result gets. -/
def echo : Operator := ofTypes "aten" "echo" "" [("result", "Tensor")] [("", "Tensor")]

/-- The given names of this operator are different, its definition is written,
    and its operand and its result are declared under one name. -/
theorem nameless_result_clashes :
    echo.argumentNames.Nodup ∧ echo.ownResultNames.Nodup ∧
      (∀ n ∈ echo.ownResultNames, n ∉ echo.argumentNames) ∧
      (Printed.ofPieces (echo.definition ⟨[], false, false⟩)).outcome = .ok () ∧
      assemblyFormat echo = .ok "$result attr-dict `:` type($result) `->` type($result)" ∧
      ∃ (ins outs : Slots), echo.operands = .ok ins ∧ echo.results = .ok outs ∧
        ins.names = ["result"] ∧ outs.names = ["result"] ∧
        ¬ (ins.names ++ outs.names).Nodup := by
  have hargs : echo.argumentNames = ["result"] := rfl
  have hown : echo.ownResultNames = [] := rfl
  refine ⟨?_, ?_, ?_, rfl, rfl, .listed [⟨"AnyTorchTensorType", "result"⟩],
    .listed [⟨"AnyTorchTensorType", "result"⟩], rfl, rfl, rfl, rfl, ?_⟩
  · rw [hargs]; exact List.nodup_singleton _
  · rw [hown]; exact List.nodup_nil
  · rw [hown]; exact fun n hn => absurd hn List.not_mem_nil
  · show ¬ ["result", "result"].Nodup
    decide

end Operator

end DialectBench
