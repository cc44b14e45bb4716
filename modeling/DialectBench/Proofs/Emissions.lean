import DialectBench.Operator.Emission
import DialectBench.Proofs.DocBlocks

/-!
# Emissions that share a list of traits

    An emission puts the traits that follow from its operator at the end of the
    list that it is given.  So after a run every list holds what it held before,
    and behind that what was added by the emissions that were given it, in order
    (`emitAll_lists`).

    An emission is written as if it were alone if no earlier one was given its
    list.  If one was, the definition lists more traits, and that shows in the
    text whatever the traits are: printing keeps the commas (`count_printed`), and
    every further trait brings one (`commas_lt_of_more`).  So emissions do not
    influence each other exactly if no two of them share a list, and a list stays
    as it is exactly if no emission is given it (`emissions_apart_iff`).
-/

namespace DialectBench.Operator

open Text

/-! ## Commas in printed lists -/

/-- Margins and line breaks are white space, so lines that are printed keep every
    other character. -/
theorem count_printed_lines {c : Char} (hc : isBlank c = false) {front : List Char}
    (hfront : ∀ d ∈ front, isBlank d = true) {ls : List Line}
    (hls : ∀ l ∈ ls, ∀ d ∈ l.ending, isBlank d = true) :
    (ls.flatMap fun l => front ++ l.body ++ ['\n']).count c
      = (ls.flatMap fun l => l.body ++ l.ending).count c := by
  have hzero : ∀ {cs : List Char}, (∀ d ∈ cs, isBlank d = true) → cs.count c = 0 := by
    intro cs hcs
    refine List.count_eq_zero.mpr fun hmem => ?_
    exact Bool.false_ne_true (hc.symm.trans (hcs c hmem))
  have hbreak : ['\n'].count c = 0 := hzero (List.all_eq_true.mp (by decide))
  induction ls with
  | nil => rfl
  | cons l ls ih =>
      obtain ⟨hl, hrest⟩ := List.forall_mem_cons.mp hls
      simp only [List.flatMap_cons, List.count_append, ih hrest, hzero hfront, hzero hl, hbreak]
      omega

/-- **PRINTING KEEPS WHAT IS NO WHITE SPACE.** -/
theorem count_printed {c : Char} (hc : isBlank c = false) (level : Int) (s : String) :
    (printed level s).toList.count c = s.toList.count c := by
  have hlines : (printed level s).toList
      = (linesOf s.toList).flatMap fun l => (margin level).toList ++ l.body ++ ['\n'] := by
    have hnewline : "\n".toList = ['\n'] := rfl
    simp only [printed, lines, String.toList_join, List.flatMap_map, String.toList_append,
      String.toList_ofList, hnewline]
  rw [hlines, count_printed_lines hc (isBlank_of_mem_margin level) (tidy_linesOf _).endings,
    flatMap_linesOf]

/-- Joined pieces with a separator behind the last one as well. -/
theorem toList_joinWith_append_sep {sep : String} {pieces : List String} (hne : pieces ≠ []) :
    (joinWith sep pieces).toList ++ sep.toList
      = pieces.flatMap fun p => p.toList ++ sep.toList := by
  induction pieces with
  | nil => exact absurd rfl hne
  | cons p rest ih =>
      cases rest with
      | nil => rw [joinWith, List.flatMap_singleton]
      | cons q rest =>
          rw [joinWith, String.toList_append, String.toList_append, List.append_assoc,
            ih (List.cons_ne_nil _ _)]
          rfl

/-- The commas of a list of traits as it is printed. -/
def commas (traits : List String) : Nat :=
  (printed 2 (joinWith ",\n" traits)).toList.count ','

/-- **EVERY FURTHER TRAIT BRINGS A COMMA**, whatever the traits hold. -/
theorem commas_lt_of_more (front : List String) {more back : List String} (hmore : more ≠ [])
    (hback : back ≠ []) : commas (front ++ back) < commas (front ++ more ++ back) := by
  have hcount : ∀ {traits : List String}, traits ≠ [] →
      commas traits + 1 = (traits.flatMap fun t => t.toList ++ ",\n".toList).count ',' := by
    intro traits hne
    have hsep : ",\n".toList.count ',' = 1 := by decide
    rw [commas, count_printed (by decide), ← toList_joinWith_append_sep hne, List.count_append,
      hsep]
  have hpos : 0 < (more.flatMap fun t => t.toList ++ ",\n".toList).count ',' := by
    obtain ⟨t, rest, rfl⟩ := List.exists_cons_of_ne_nil hmore
    refine List.count_pos_iff.mpr ?_
    rw [List.flatMap_cons]
    exact List.mem_append_left _ (List.mem_append_right _ List.mem_cons_self)
  have hless := hcount (List.append_ne_nil_of_right_ne_nil front hback)
  have hmoreCount := hcount (List.append_ne_nil_of_right_ne_nil (front ++ more) hback)
  simp only [List.flatMap_append, List.count_append] at hless hmoreCount
  omega

/-! ## Definitions with further traits -/

/-- What a definition writes behind its traits. -/
def behindTraits (o : Operator) (hasFolder hasCanonicalizer : Bool) : Printed Unit :=
  .ofPieces ((o.definition ⟨[], hasFolder, hasCanonicalizer⟩).drop 2)

/-- The traits of a definition are one piece of it, and nothing else depends on
    them. -/
theorem ofPieces_definition_traits (o : Operator) (hasFolder hasCanonicalizer : Bool) :
    ∃ head : String, ∀ traits : List String,
      Printed.ofPieces (o.definition ⟨traits, hasFolder, hasCanonicalizer⟩)
        = ⟨head ++ (printed 2 (joinWith ",\n" traits) ++
              (o.behindTraits hasFolder hasCanonicalizer).text),
            (o.behindTraits hasFolder hasCanonicalizer).outcome⟩ := by
  refine ⟨printed 0 ("def " ++ o.definitionName ++ " : Torch_Op<" ++ quote o.opName ++ ", ["), ?_⟩
  intro traits
  have hpieces : o.definition ⟨traits, hasFolder, hasCanonicalizer⟩
      = .ok (printed 0 ("def " ++ o.definitionName ++ " : Torch_Op<" ++ quote o.opName ++ ", [")) ::
        .ok (printed 2 (joinWith ",\n" traits)) ::
        (o.definition ⟨[], hasFolder, hasCanonicalizer⟩).drop 2 := rfl
  rw [hpieces, Printed.ofPieces, Printed.ofPieces, behindTraits]

/-- Definitions that differ in their traits only have one text only if the traits
    are printed with as many commas. -/
theorem commas_eq_of_text_eq {o : Operator} {traits traits' : List String}
    {hasFolder hasCanonicalizer : Bool}
    (h : (Printed.ofPieces (o.definition ⟨traits, hasFolder, hasCanonicalizer⟩)).text
      = (Printed.ofPieces (o.definition ⟨traits', hasFolder, hasCanonicalizer⟩)).text) :
    commas traits = commas traits' := by
  obtain ⟨head, hwritten⟩ := ofPieces_definition_traits o hasFolder hasCanonicalizer
  rw [hwritten, hwritten] at h
  have htraits := (String.append_left_inj _).mp ((String.append_right_inj _).mp h)
  rw [commas, htraits, commas]

theorem deduceTraits_eq (o : Operator) (traits : List String) :
    o.deduceTraits traits = traits ++ o.deduceTraits [] := by
  simp [deduceTraits]

theorem deduceTraits_nil_ne_nil (o : Operator) : o.deduceTraits [] ≠ [] := by
  simp [deduceTraits]

/-! ## What a run does to the lists -/

namespace Emission

/-- What an emission adds to a list. -/
def adds (l : Nat) (e : Emission) : List String :=
  if e.list = some l then e.operator.deduceTraits [] else []

/-- Whether two emissions are given the same list. -/
def Shares (d e : Emission) : Prop := ∃ l, d.list = some l ∧ e.list = some l

theorem adds_eq_nil_iff {l : Nat} {e : Emission} : e.adds l = [] ↔ e.list ≠ some l := by
  rw [adds]
  split
  next h => exact iff_of_false (deduceTraits_nil_ne_nil _) (fun hne => hne h)
  next h => exact iff_of_true rfl h

/-- An emission adds to the list that it is given and leaves all others alone. -/
theorem emit_lists (e : Emission) (held : TraitLists) (l : Nat) :
    (e.emit held).2 l = held l ++ e.adds l := by
  show (if e.list = some l then e.operator.deduceTraits (e.given held) else held l)
    = held l ++ e.adds l
  rw [adds]
  by_cases h : e.list = some l
  · rw [if_pos h, if_pos h, given, h, deduceTraits_eq]
  · rw [if_neg h, if_neg h, List.append_nil]

end Emission

/-- **AFTER A RUN A LIST HOLDS WHAT IT HELD AND WHAT WAS ADDED TO IT**, in the
    order of the emissions. -/
theorem emitAll_lists (es : List Emission) (held : TraitLists) (l : Nat) :
    (emitAll es held).2 l = held l ++ es.flatMap (·.adds l) := by
  induction es generalizing held with
  | nil => exact (List.append_nil _).symm
  | cons e es ih =>
      show (emitAll es (e.emit held).2).2 l = _
      rw [ih, Emission.emit_lists, List.flatMap_cons, List.append_assoc]

theorem flatMap_adds (es : List Emission) (l : Nat) :
    es.flatMap (·.adds l)
      = (es.filter (·.list == some l)).flatMap (·.operator.deduceTraits []) := by
  induction es with
  | nil => rfl
  | cons e es ih =>
      rw [List.flatMap_cons, ih, Emission.adds]
      by_cases h : e.list = some l
      · rw [if_pos h, List.filter_cons, if_pos (beq_iff_eq.mpr h), List.flatMap_cons]
      · rw [if_neg h, List.filter_cons, if_neg (mt beq_iff_eq.mp h), List.nil_append]

theorem flatMap_adds_eq_nil_iff {es : List Emission} {l : Nat} :
    es.flatMap (·.adds l) = [] ↔ ∀ e ∈ es, e.list ≠ some l := by
  rw [List.flatMap_eq_nil_iff]
  exact forall₂_congr fun _ _ => Emission.adds_eq_nil_iff

/-! ## What the emissions of a run write -/

/-- The emissions of a run write one after the other, each with the lists that the
    earlier ones left. -/
theorem emitAll_append (es es' : List Emission) (held : TraitLists) :
    emitAll (es ++ es') held
      = ((emitAll es held).1 ++ (emitAll es' (emitAll es held).2).1,
          (emitAll es' (emitAll es held).2).2) := by
  induction es generalizing held with
  | nil => rfl
  | cons e es ih =>
      show ((e.emit held).1 :: (emitAll (es ++ es') (e.emit held).2).1,
        (emitAll (es ++ es') (e.emit held).2).2) = _
      rw [ih]
      rfl

theorem length_emitAll (es : List Emission) (held : TraitLists) :
    (emitAll es held).1.length = es.length := by
  induction es generalizing held with
  | nil => rfl
  | cons e es ih => exact congrArg (· + 1) (ih _)

namespace Emission

/-- A run in front of an emission adds to its traits exactly if it was given the
    same list. -/
theorem given_emitAll (e : Emission) (earlier : List Emission) (held : TraitLists) :
    ∃ more, e.given (emitAll earlier held).2 = e.given held ++ more ∧
      (more = [] ↔ ∀ d ∈ earlier, ¬ d.Shares e) := by
  cases hl : e.list with
  | none =>
      refine ⟨[], ?_, iff_of_true rfl fun d _ hshares => ?_⟩
      · rw [given, given, hl]
        rfl
      · obtain ⟨l, -, he⟩ := hshares
        exact absurd (hl.symm.trans he) (Option.some_ne_none l).symm
  | some l =>
      refine ⟨earlier.flatMap (·.adds l), ?_, flatMap_adds_eq_nil_iff.trans ?_⟩
      · rw [given, given, hl]
        exact emitAll_lists earlier held l
      · refine forall₂_congr fun d _ => not_congr ⟨fun hd => ⟨l, hd, hl⟩, ?_⟩
        rintro ⟨l', hd, he⟩
        cases hl.symm.trans he
        exact hd

/-- How an emission ends does not depend on the lists. -/
theorem emit_outcome (e : Emission) (held held' : TraitLists) :
    (e.emit held).1.outcome = (e.emit held').1.outcome := by
  obtain ⟨head, hwritten⟩ :=
    ofPieces_definition_traits e.operator e.hasFolder e.hasCanonicalizer
  rw [emit, emit, hwritten, hwritten]

/-- An emission that shares its list with no earlier one is written as if alone. -/
theorem emit_of_apart {e : Emission} {earlier : List Emission}
    (h : ∀ d ∈ earlier, ¬ d.Shares e) (held : TraitLists) :
    (e.emit (emitAll earlier held).2).1 = (e.emit held).1 := by
  obtain ⟨more, hgiven, hmore⟩ := e.given_emitAll earlier held
  rw [hmore.mpr h, List.append_nil] at hgiven
  rw [emit, emit, hgiven]

/-- The text tells whether an earlier emission was given the same list. -/
theorem apart_of_text_eq {e : Emission} {earlier : List Emission} {held : TraitLists}
    (h : (e.emit (emitAll earlier held).2).1.text = (e.emit held).1.text) :
    ∀ d ∈ earlier, ¬ d.Shares e := by
  obtain ⟨more, hgiven, hmore⟩ := e.given_emitAll earlier held
  have hcommas : commas (e.operator.deduceTraits (e.given (emitAll earlier held).2))
      = commas (e.operator.deduceTraits (e.given held)) := commas_eq_of_text_eq h
  rw [hgiven, deduceTraits_eq, deduceTraits_eq _ (e.given held)] at hcommas
  refine hmore.mp ?_
  by_contra hne
  have hlt := commas_lt_of_more (e.given held) hne (deduceTraits_nil_ne_nil e.operator)
  exact absurd hcommas (Nat.ne_of_gt hlt)

end Emission

/-- **A RUN IS WRITTEN AS ITS EMISSIONS ALONE EXACTLY IF THEY SHARE NO LIST.** -/
theorem emitAll_eq_map_iff (es : List Emission) (held : TraitLists) :
    (emitAll es held).1 = es.map (fun e => (e.emit held).1)
      ↔ es.Pairwise fun d e => ¬ d.Shares e := by
  -- from the end of the run, since what the last emission writes depends on all before it
  induction es using List.reverseRecOn with
  | nil => exact iff_of_true rfl List.Pairwise.nil
  | append_singleton es e ih =>
      have hlength : (emitAll es held).1.length
          = (es.map fun e => (e.emit held).1).length := by
        rw [length_emitAll, List.length_map]
      rw [emitAll_append, List.map_append, List.pairwise_append, ← ih]
      constructor
      · intro hwritten
        obtain ⟨hes, he⟩ := List.append_inj hwritten hlength
        have hlast : (e.emit (emitAll es held).2).1 = (e.emit held).1 := (List.cons.inj he).1
        refine ⟨hes, List.pairwise_singleton _ _, fun d hd e' he' => ?_⟩
        rw [List.mem_singleton.mp he']
        exact Emission.apart_of_text_eq (congrArg Printed.text hlast) d hd
      · rintro ⟨hes, -, hapart⟩
        have hlast := Emission.emit_of_apart (fun d hd => hapart d hd e List.mem_cons_self) held
        exact congrArg₂ (· ++ [·]) hes hlast

/-! ## Emissions do not influence each other exactly if they share no list -/

/-- **EMISSIONS THAT SHARE A LIST INFLUENCE EACH OTHER**, and no others do.  A run
    is written as its emissions alone exactly if no two of them are given the same
    list.  Each emission ends as it ends alone, and has the text that it has alone
    exactly if no earlier one was given its list.  A list holds, behind what it held
    before, the traits that follow from the operators that were emitted with it, so
    it is the same as before only if no emission was given it. -/
theorem emissions_apart_iff (es : List Emission) (held : TraitLists) :
    ((emitAll es held).1 = es.map (fun e => (e.emit held).1)
      ↔ es.Pairwise fun d e => ¬ d.Shares e) ∧
    (∀ earlier e later, es = earlier ++ e :: later →
      ∃ written, (emitAll es held).1[earlier.length]? = some written ∧
        written.outcome = (e.emit held).1.outcome ∧
        (written.text = (e.emit held).1.text ↔ ∀ d ∈ earlier, ¬ d.Shares e)) ∧
    ∀ l, (emitAll es held).2 l
        = held l ++ (es.filter (·.list == some l)).flatMap (·.operator.deduceTraits []) ∧
      ((emitAll es held).2 l = held l ↔ ∀ e ∈ es, e.list ≠ some l) := by
  refine ⟨emitAll_eq_map_iff es held, ?_, fun l => ⟨?_, ?_⟩⟩
  · rintro earlier e later rfl
    refine ⟨(e.emit (emitAll earlier held).2).1, ?_, e.emit_outcome _ _, ?_, ?_⟩
    · rw [emitAll_append, ← length_emitAll earlier held, List.getElem?_append_right (Nat.le_refl _),
        Nat.sub_self]
      rfl
    · exact Emission.apart_of_text_eq
    · intro hapart
      rw [Emission.emit_of_apart hapart]
  · rw [emitAll_lists, flatMap_adds]
  · rw [emitAll_lists, List.append_right_eq_self, flatMap_adds_eq_nil_iff]

/-- An operator that works on values alone, so that two traits follow from it. -/
def relu : Operator := ofTypes "aten" "relu" "" [("self", "Tensor")] [("", "Tensor")]

/-- An emission of that operator with a list, or without one. -/
def reluWith (list : Option Nat) : Emission := ⟨relu, list, false, false⟩

/-- Of four emissions the third is given the list of the first.  The last is written as if alone
    and the third is not, and a list that no emission is given stays as it was. -/
theorem emissions_apart_iff_reused :
    ∃ third last, (emitAll [reluWith (some 0), reluWith (some 1), reluWith (some 0),
        reluWith none] fun _ => ["Pure"]).1[2]? = some third ∧
      third.text ≠ ((reluWith (some 0)).emit fun _ => ["Pure"]).1.text ∧
      (emitAll [reluWith (some 0), reluWith (some 1), reluWith (some 0),
        reluWith none] fun _ => ["Pure"]).1[3]? = some last ∧
      last.text = ((reluWith none).emit fun _ => ["Pure"]).1.text ∧
      (emitAll [reluWith (some 0), reluWith (some 1), reluWith (some 0),
        reluWith none] fun _ => ["Pure"]).2 2 = ["Pure"] := by
  obtain ⟨-, hcalls, hlists⟩ := emissions_apart_iff
    [reluWith (some 0), reluWith (some 1), reluWith (some 0), reluWith none] fun _ => ["Pure"]
  obtain ⟨third, hthird, -, hthirdText⟩ :=
    hcalls [reluWith (some 0), reluWith (some 1)] (reluWith (some 0)) [reluWith none] rfl
  obtain ⟨last, hlast, -, hlastText⟩ :=
    hcalls [reluWith (some 0), reluWith (some 1), reluWith (some 0)] (reluWith none) [] rfl
  have hkept := (hlists 2).2.mpr (by simp [reluWith])
  refine ⟨third, last, hthird, fun htext => ?_, hlast, hlastText.mpr ?_, hkept⟩
  · exact hthirdText.mp htext _ List.mem_cons_self ⟨0, rfl, rfl⟩
  · rintro d - ⟨l, -, hl⟩
    exact absurd hl (Option.some_ne_none l).symm

/-- **A GIVEN LIST IS NOT LEFT AS IT WAS.**  Emitting an operator twice with one list
    adds its traits to the list twice, and the second definition is not what it is
    alone. -/
theorem shared_list_grows :
    (emitAll [reluWith (some 0), reluWith (some 0)] fun _ => ["Pure"]).2 0
      = ["Pure", "AllowsTypeRefinement", "HasValueSemantics", "AllowsTypeRefinement",
          "HasValueSemantics"] ∧
    ∃ second,
      (emitAll [reluWith (some 0), reluWith (some 0)] fun _ => ["Pure"]).1[1]? = some second ∧
      second.text ≠ ((reluWith (some 0)).emit fun _ => ["Pure"]).1.text := by
  refine ⟨by decide, ((reluWith (some 0)).emit (emitAll [reluWith (some 0)] fun _ => ["Pure"]).2).1,
    rfl, fun htext => ?_⟩
  exact Emission.apart_of_text_eq htext _ List.mem_cons_self ⟨0, rfl, rfl⟩

end DialectBench.Operator
