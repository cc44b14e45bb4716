import Mathlib.Data.List.Perm.Basic
import DialectBench.Proofs.OperatorTypes
import DialectBench.Proofs.RegistryIndex
import DialectBench.Operator.Command
import DialectBench.Operator.Signature

/-!
# Generation does not depend on the order of a registry

    What is generated depends on a registry only through the answers it gives:
    the INQUIRIES of a run are the keys and triples that are looked up, in
    order, up to the fault that stops the run.  Two registries that answer the
    inquiries of a run alike give the same files and the same outcome, be it a
    fault or not.

    Two registries of the same operators answer every inquiry alike, and so do
    a registry and a larger one on every inquiry about which the additional
    operators have nothing to say.
-/

namespace DialectBench

/-! ## One output after another -/

/-- One output after another, up to the first fault. -/
def Printed.andThen (p q : Printed Unit) : Printed Unit :=
  match p.outcome with
  | .error e => ⟨p.text, .error e⟩
  | .ok () => ⟨p.text ++ q.text, q.outcome⟩

theorem Printed.ofPieces_append (ps qs : List Piece) :
    Printed.ofPieces (ps ++ qs) = (Printed.ofPieces ps).andThen (Printed.ofPieces qs) := by
  induction ps with
  | nil => simp [Printed.ofPieces, Printed.andThen]
  | cons p ps ih =>
      cases p with
      | error e => rfl
      | ok s =>
          rw [List.cons_append, Printed.ofPieces, Printed.ofPieces, ih]
          unfold Printed.andThen
          cases (Printed.ofPieces ps).outcome with
          | error e => rfl
          | ok u => simp [String.append_assoc]

/-- Whether pieces are written to their end. -/
def finishes (ps : List Piece) : Bool := (Printed.ofPieces ps).outcome.isOk

theorem Printed.andThen_congr {p q q' : Printed Unit}
    (h : p.outcome.isOk = true → q = q') : p.andThen q = p.andThen q' := by
  unfold Printed.andThen
  cases hp : p.outcome with
  | error e => rfl
  | ok u =>
      rw [hp] at h
      rw [h rfl]

/-- What comes behind a file counts only if the file is written to its end. -/
theorem Files.ofPieces_cons_congr {name : String} {ps : List Piece}
    {rest rest' : List (String × List Piece)}
    (h : finishes ps = true → Files.ofPieces rest = Files.ofPieces rest') :
    Files.ofPieces ((name, ps) :: rest) = Files.ofPieces ((name, ps) :: rest') := by
  unfold finishes at h
  rw [Files.ofPieces, Files.ofPieces]
  cases hp : (Printed.ofPieces ps).outcome with
  | error e => rfl
  | ok u =>
      rw [hp] at h
      rw [h rfl]

/-- Writing one text into a file first changes nothing behind it. -/
theorem Files.ofPieces_cons_ok (name text : String) (fs : List (String × List Piece)) :
    Files.ofPieces ((name, [.ok text]) :: fs)
      = ⟨(name, text) :: (Files.ofPieces fs).files, (Files.ofPieces fs).outcome⟩ := by
  rw [Files.ofPieces]
  simp [Printed.ofPieces]

/-- What is left of a run besides the first files: the files behind them and the
    outcome. -/
def Files.behind (n : Nat) (f : Files String) : List (String × String) × Except Fault Unit :=
  (f.files.drop n, f.outcome)

namespace Operator

/-! ## Inquiries -/

/-- A question that is put to a registry. -/
inductive Inquiry where
  | key (k : String)
  | triple (t : Triple)
  deriving DecidableEq

/-- The answer of a registry to a question. -/
def Inquiry.answer (r : Registry) : Inquiry → Except Fault Operator
  | .key k => r.get k
  | .triple t => r.getTriple t

/-- The definition that a request asks for once its operator is found. -/
def Request.definitionOf (q : Request) (o : Operator) : List Piece :=
  o.fullDefinition ⟨q.traits, q.hasFolder, q.hasCanonicalizer⟩

/-- What is looked up for a request: its key, and the triple of the variant that
    works in place if this is asked for and the definition before it was
    written. -/
def Request.inquiries (r : Registry) (q : Request) : List Inquiry :=
  .key q.key ::
    match r.get q.key with
    | .error _ => []
    | .ok o => if q.inPlace && finishes (q.definitionOf o) then [.triple o.inPlaceTriple] else []

/-- What is looked up for requests, one after the other, up to the first fault. -/
def inquiries (r : Registry) : List Request → List Inquiry
  | [] => []
  | q :: rest => q.inquiries r ++ if finishes (q.pieces r) then inquiries r rest else []

/-- What is looked up when all definitions are generated. -/
def asked (r : Registry) : List Inquiry := inquiries r (catalogue.flatMap Prod.snd)

/-- A registry answers some inquiries as another one does. -/
def AnswersAs (r r' : Registry) (is : List Inquiry) : Prop := ∀ i ∈ is, i.answer r' = i.answer r

section

variable {r r' : Registry}

theorem AnswersAs.left {is js : List Inquiry} (h : AnswersAs r r' (is ++ js)) :
    AnswersAs r r' is := fun i hi => h i (List.mem_append_left js hi)

theorem AnswersAs.right {is js : List Inquiry} (h : AnswersAs r r' (is ++ js)) :
    AnswersAs r r' js := fun i hi => h i (List.mem_append_right is hi)

/-- What is written for one request is decided by the answers to its
    inquiries. -/
theorem Request.ofPieces_congr {q : Request} (h : AnswersAs r r' (q.inquiries r)) :
    Printed.ofPieces (q.pieces r') = Printed.ofPieces (q.pieces r) := by
  have hkey : r'.get q.key = r.get q.key := h (.key q.key) List.mem_cons_self
  unfold Request.pieces
  rw [hkey]
  cases hget : r.get q.key with
  | error e => rfl
  | ok o =>
      show Printed.ofPieces (q.definitionOf o ++ _) = Printed.ofPieces (q.definitionOf o ++ _)
      rw [Printed.ofPieces_append, Printed.ofPieces_append]
      refine Printed.andThen_congr fun hfinish => ?_
      cases hplace : q.inPlace with
      | false => rfl
      | true =>
          -- the definition was written, so the variant is looked up
          have hmem : Inquiry.triple o.inPlaceTriple ∈ q.inquiries r := by
            unfold Request.inquiries
            rw [hget]
            have hboth : (q.inPlace && finishes (q.definitionOf o)) = true := by
              rw [hplace]
              exact hfinish
            simp [hboth]
          have htriple : r'.getTriple o.inPlaceTriple = r.getTriple o.inPlaceTriple :=
            h (.triple o.inPlaceTriple) hmem
          simp only [if_true, inPlaceDefinition, htriple]

/-- What is written for requests is decided by the answers to their
    inquiries. -/
theorem ofPieces_requests_congr {qs : List Request} (h : AnswersAs r r' (inquiries r qs)) :
    Printed.ofPieces (qs.flatMap (Request.pieces r'))
      = Printed.ofPieces (qs.flatMap (Request.pieces r)) := by
  induction qs with
  | nil => rfl
  | cons q rest ih =>
      rw [inquiries] at h
      rw [List.flatMap_cons, List.flatMap_cons, Printed.ofPieces_append, Printed.ofPieces_append,
        Request.ofPieces_congr h.left]
      refine Printed.andThen_congr fun hfinish => ih ?_
      have hrest := h.right
      rw [if_pos (show finishes (q.pieces r) = true from hfinish)] at hrest
      exact hrest

theorem inquiries_append (r : Registry) (qs qs' : List Request) :
    inquiries r (qs ++ qs') = inquiries r qs
      ++ if finishes (qs.flatMap (Request.pieces r)) then inquiries r qs' else [] := by
  induction qs with
  | nil => rfl
  | cons q rest ih =>
      have hfinishes : finishes (q.pieces r ++ rest.flatMap (Request.pieces r))
          = (finishes (q.pieces r) && finishes (rest.flatMap (Request.pieces r))) := by
        unfold finishes
        rw [Printed.ofPieces_append]
        unfold Printed.andThen
        cases (Printed.ofPieces (q.pieces r)).outcome <;> rfl
      rw [List.cons_append, inquiries, inquiries, List.flatMap_cons, hfinishes, ih,
        List.append_assoc]
      cases finishes (q.pieces r) <;> simp

/-! ## Files -/

/-- A file of definitions: its name and what is written into it. -/
def page (r : Registry) (f : String × List Request) : String × List Piece :=
  (f.1, .ok banner :: f.2.flatMap (Request.pieces r))

theorem ofPieces_page (f : String × List Request) :
    Printed.ofPieces (page r f).2
      = (⟨banner, .ok ()⟩ : Printed Unit).andThen
          (Printed.ofPieces (f.2.flatMap (Request.pieces r))) := by
  show Printed.ofPieces ([.ok banner] ++ f.2.flatMap (Request.pieces r)) = _
  rw [Printed.ofPieces_append]
  simp [Printed.ofPieces]

/-- What is written into files is decided by the answers to the inquiries. -/
theorem ofPieces_pages_congr {fs : List (String × List Request)}
    (h : AnswersAs r r' (inquiries r (fs.flatMap Prod.snd))) :
    Files.ofPieces (fs.map (page r')) = Files.ofPieces (fs.map (page r)) := by
  induction fs with
  | nil => rfl
  | cons f fs ih =>
      rw [List.flatMap_cons, inquiries_append] at h
      have hfile : Printed.ofPieces (page r' f).2 = Printed.ofPieces (page r f).2 := by
        rw [ofPieces_page, ofPieces_page, ofPieces_requests_congr h.left]
      have hfirst : Files.ofPieces (page r' f :: fs.map (page r'))
          = Files.ofPieces (page r f :: fs.map (page r')) := by
        show Files.ofPieces ((f.1, (page r' f).2) :: _) = Files.ofPieces ((f.1, (page r f).2) :: _)
        rw [Files.ofPieces, Files.ofPieces, hfile]
      rw [List.map_cons, List.map_cons, hfirst]
      refine Files.ofPieces_cons_congr fun hfinish => ih ?_
      have hrequests : finishes (f.2.flatMap (Request.pieces r)) = true := hfinish
      have hrest := h.right
      rw [if_pos hrequests] at hrest
      exact hrest

/-! ## The description in front -/

/-- Writing one text into a file first changes nothing behind it, also where
    files can be opened in some directories only. -/
theorem writeWithin_cons_ok (isDirectory : String → Bool) (name text : String)
    (fs : List (String × List Piece)) :
    writeWithin isDirectory ((name, [.ok text]) :: fs)
      = if isDirectory (Text.parentOf name) then
          ⟨(name, text) :: (writeWithin isDirectory fs).files, (writeWithin isDirectory fs).outcome⟩
        else ⟨[], .error .noFile⟩ := by
  unfold writeWithin
  by_cases h : isDirectory (Text.parentOf name) = true
  · simp only [List.takeWhile_cons, h, if_true, Files.ofPieces_cons_ok, List.all_cons,
      Bool.true_and]
    generalize Files.ofPieces (fs.takeWhile fun f => isDirectory (Text.parentOf f.1)) = written
    obtain ⟨files, outcome⟩ := written
    cases outcome with
    | error e => rfl
    | ok u =>
        by_cases hall : fs.all (fun f => isDirectory (Text.parentOf f.1)) = true <;> simp [hall]
  · simp [h, Files.ofPieces]

theorem writeWithin_pages_congr (isDirectory : String → Bool) {fs : List (String × List Request)}
    (h : AnswersAs r r' (inquiries r (fs.flatMap Prod.snd))) :
    writeWithin isDirectory (fs.map (page r')) = writeWithin isDirectory (fs.map (page r)) := by
  have hopen : ∀ s : Registry,
      (fs.map (page s)).takeWhile (fun f => isDirectory (Text.parentOf f.1))
      = (fs.takeWhile fun f => isDirectory (Text.parentOf f.1)).map (page s) := by
    intro s
    rw [List.takeWhile_map]
    rfl
  have hall : ∀ s : Registry, (fs.map (page s)).all (fun f => isDirectory (Text.parentOf f.1))
      = fs.all fun f => isDirectory (Text.parentOf f.1) := by
    intro s
    rw [List.all_map]
    rfl
  -- the files that can be opened come first, so what they ask is asked first
  have hprefix : AnswersAs r r' (inquiries r
      ((fs.takeWhile fun f => isDirectory (Text.parentOf f.1)).flatMap Prod.snd)) := by
    rw [← List.takeWhile_append_dropWhile (p := fun f => isDirectory (Text.parentOf f.1)) (l := fs),
      List.flatMap_append, inquiries_append] at h
    exact h.left
  unfold writeWithin
  simp only [hopen, hall, ofPieces_pages_congr hprefix]

/-! ## Whole runs -/

/-- Registries that answer what is asked alike give files that differ in the
    description only, which is the same if they are described alike. -/
theorem ofPieces_outputFiles_congr (h : AnswersAs r r' (asked r)) (dump : Option String) :
    (Files.ofPieces (outputFiles r' dump)).behind dump.toList.length
        = (Files.ofPieces (outputFiles r dump)).behind dump.toList.length ∧
      (r'.dump = r.dump →
        Files.ofPieces (outputFiles r' dump) = Files.ofPieces (outputFiles r dump)) := by
  have hpages : Files.ofPieces (catalogue.map (page r'))
      = Files.ofPieces (catalogue.map (page r)) :=
    ofPieces_pages_congr h
  cases dump with
  | none =>
      have hnone : ∀ s, outputFiles s none = catalogue.map (page s) := fun _ => rfl
      rw [hnone, hnone, hpages]
      exact ⟨rfl, fun _ => rfl⟩
  | some name =>
      have hsome : ∀ s, outputFiles s (some name)
          = (name, [.ok s.dump]) :: catalogue.map (page s) := fun _ => rfl
      rw [hsome, hsome, Files.ofPieces_cons_ok, Files.ofPieces_cons_ok, hpages]
      refine ⟨rfl, fun hdump => ?_⟩
      rw [hdump]

/-- The same for a run that writes into directories that may not exist. -/
theorem writeDefinitions_congr (h : AnswersAs r r' (asked r)) (isDirectory : String → Bool)
    (directory : String) (dump : Option String) :
    (writeDefinitions isDirectory directory dump r').behind dump.toList.length
        = (writeDefinitions isDirectory directory dump r).behind dump.toList.length ∧
      (r'.dump = r.dump → writeDefinitions isDirectory directory dump r'
        = writeDefinitions isDirectory directory dump r) := by
  let placed := catalogue.map fun f => (Text.pathIn directory f.1, f.2)
  have hplaced : ∀ s : Registry,
      (outputFiles s none).map (fun f => (Text.pathIn directory f.1, f.2))
        = placed.map (page s) := by
    intro s
    show (catalogue.map (page s)).map _ = (catalogue.map _).map (page s)
    rw [List.map_map, List.map_map]
    rfl
  have hasked : placed.flatMap Prod.snd = catalogue.flatMap Prod.snd := List.flatMap_map _ _ _
  have hpages : writeWithin isDirectory (placed.map (page r'))
      = writeWithin isDirectory (placed.map (page r)) := by
    refine writeWithin_pages_congr isDirectory ?_
    rw [hasked]
    exact h
  unfold writeDefinitions
  rw [hplaced, hplaced]
  cases dump with
  | none =>
      show (writeWithin isDirectory (placed.map (page r'))).behind 0
          = (writeWithin isDirectory (placed.map (page r))).behind 0 ∧ _
      rw [hpages]
      exact ⟨rfl, fun _ => hpages⟩
  | some path =>
      show (writeWithin isDirectory ((path, [.ok r'.dump]) :: placed.map (page r'))).behind 1
          = (writeWithin isDirectory ((path, [.ok r.dump]) :: placed.map (page r))).behind 1 ∧
        (_ → writeWithin isDirectory ((path, [.ok r'.dump]) :: placed.map (page r'))
          = writeWithin isDirectory ((path, [.ok r.dump]) :: placed.map (page r)))
      rw [writeWithin_cons_ok, writeWithin_cons_ok, hpages]
      refine ⟨?_, fun hdump => by rw [hdump]⟩
      by_cases hopen : isDirectory (Text.parentOf path) = true
      · rw [if_pos hopen, if_pos hopen]
        rfl
      · rw [if_neg hopen, if_neg hopen]

/-- How many files the command writes in front of the definitions: the
    description of the registry if one is asked for. -/
def describedFirst (args : List String) : Nat :=
  match Options.read switches args with
  | .error _ => 0
  | .ok values => ((values.lookup "dump").filter fun d => !d.isEmpty).toList.length

theorem command_congr {records records' : List Record} (hr : Registry.ofRecords records = .ok r)
    (hr' : Registry.ofRecords records' = .ok r') (h : AnswersAs r r' (asked r))
    (isDirectory : String → Bool) (args : List String) :
    (command records' isDirectory args).map (Files.behind (describedFirst args))
        = (command records isDirectory args).map (Files.behind (describedFirst args)) ∧
      (r'.dump = r.dump →
        command records' isDirectory args = command records isDirectory args) := by
  unfold command describedFirst
  cases hread : Options.read switches args with
  | error stop => exact ⟨rfl, fun _ => rfl⟩
  | ok values =>
      simp only [hr, hr', bind, Except.bind, pure, Except.pure, Except.map]
      obtain ⟨hbehind, hall⟩ := writeDefinitions_congr h isDirectory
        ((values.lookup "directory").getD "") ((values.lookup "dump").filter fun d => !d.isEmpty)
      exact ⟨congrArg Except.ok hbehind, fun hdump => congrArg Except.ok (hall hdump)⟩

end

/-! ## Records and operators -/

/-- Records in another order describe the same operators in another order. -/
theorem mapM_perm {α β : Type} {f : α → Except Fault β} {as as' : List α} {bs : List β}
    (h : as'.Perm as) (hbs : as.mapM f = .ok bs) :
    ∃ bs', as'.mapM f = .ok bs' ∧ bs'.Perm bs := by
  obtain ⟨bs', hbs', hperm⟩ := List.perm_comp_forall₂ h (mapM_eq_ok_iff.mp hbs)
  exact ⟨bs', mapM_eq_ok_iff.mpr hbs', hperm⟩

theorem ofRecords_of_mapM {records : List Record} {os : List Operator}
    (h : records.mapM ofRecord = .ok os) :
    Registry.ofRecords records = .ok (Registry.ofList os) := by
  unfold Registry.ofRecords
  rw [h]
  rfl

/-- Whether an inquiry is about an operator. -/
def Inquiry.About (o : Operator) : Inquiry → Prop
  | .key k => o.key = k
  | .triple t => o.triple = t

/-- An inquiry about operators that are in both of two lists or in neither is
    answered alike. -/
theorem answersAs_of_mem_iff {os os' : List Operator} (hkeys : (os.map Operator.key).Nodup)
    (htriples : (os.map Operator.triple).Nodup) {is : List Inquiry}
    (h : ∀ i ∈ is, ∀ o, i.About o → (o ∈ os ↔ o ∈ os')) :
    AnswersAs (Registry.ofList os) (Registry.ofList os') is := by
  intro i hi
  cases i with
  | key k =>
      refine (Registry.get_ofList_congr (h _ hi) ?_).symm
      intro o ho o' ho' hk hk'
      exact List.inj_on_of_nodup_map hkeys ho ho' (hk.trans hk'.symm)
  | triple t =>
      refine (Registry.getTriple_ofList_congr (h _ hi) ?_).symm
      intro o ho o' ho' ht ht'
      exact List.inj_on_of_nodup_map htriples ho ho' (ht.trans ht'.symm)

/-- **GENERATION IS ORDER-FREE**: for records of operators with different keys
    and different triples, neither the order of the records matters nor further
    operators that are not looked up.  Records in another order give the same
    files, description included, and the same outcome.  Further records,
    wherever they stand, leave the files of definitions and the outcome as they
    are. -/
theorem generation_order_free {records : List Record} {os : List Operator}
    (hos : records.mapM ofRecord = .ok os) (hkeys : (os.map Operator.key).Nodup)
    (htriples : (os.map Operator.triple).Nodup) :
    (∀ records', records'.Perm records →
      (∀ dump, generate records' dump = generate records dump) ∧
      ∀ isDirectory args,
        command records' isDirectory args = command records isDirectory args) ∧
    ∀ more new records', more.mapM ofRecord = .ok new → records'.Perm (records ++ more) →
      (∀ o ∈ new, Inquiry.key o.key ∉ asked (Registry.ofList os) ∧
        Inquiry.triple o.triple ∉ asked (Registry.ofList os)) →
      (∀ dump, (generate records' dump).behind dump.toList.length
        = (generate records dump).behind dump.toList.length) ∧
      ∀ isDirectory args,
        (command records' isDirectory args).map (Files.behind (describedFirst args))
          = (command records isDirectory args).map (Files.behind (describedFirst args)) := by
  have hr := ofRecords_of_mapM hos
  constructor
  · intro records' hperm
    obtain ⟨os', hos', hperm'⟩ := mapM_perm hperm hos
    have hr' := ofRecords_of_mapM hos'
    have hanswers : AnswersAs (Registry.ofList os) (Registry.ofList os')
        (asked (Registry.ofList os)) :=
      answersAs_of_mem_iff hkeys htriples fun _ _ o _ => hperm'.symm.mem_iff
    have hdump := (Registry.dump_eq_of_perm hperm'.symm hkeys).symm
    constructor
    · intro dump
      unfold generate
      rw [hr, hr']
      exact (ofPieces_outputFiles_congr hanswers dump).2 hdump
    · intro isDirectory args
      exact (command_congr hr hr' hanswers isDirectory args).2 hdump
  · intro more new records' hnew hperm hunasked
    have hboth : (records ++ more).mapM ofRecord = .ok (os ++ new) :=
      mapM_eq_ok_iff.mpr
        (List.rel_append (mapM_eq_ok_iff.mp hos) (mapM_eq_ok_iff.mp hnew))
    obtain ⟨os', hos', hperm'⟩ := mapM_perm hperm hboth
    have hr' := ofRecords_of_mapM hos'
    have hanswers : AnswersAs (Registry.ofList os) (Registry.ofList os')
        (asked (Registry.ofList os)) := by
      refine answersAs_of_mem_iff hkeys htriples ?_
      intro i hi o habout
      have hold : o ∉ new := by
        intro ho
        obtain ⟨hkey, htriple⟩ := hunasked o ho
        cases i with
        | key k => exact hkey (habout ▸ hi)
        | triple t => exact htriple (habout ▸ hi)
      rw [hperm'.mem_iff, List.mem_append]
      simp [hold]
    constructor
    · intro dump
      unfold generate
      rw [hr, hr']
      exact (ofPieces_outputFiles_congr hanswers dump).1
    · intro isDirectory args
      exact (command_congr hr hr' hanswers isDirectory args).1

/-- An operator with one argument and one nameless result. -/
def unary (scope base argument result : String) : Operator :=
  ofTypes scope base "" [("a", argument)] [("", result)]

/-- The run on the two operators, which stops at the second request, in the other
    order and with an operator in front that no request asks for. -/
theorem generation_order_free_twoOperators :
    (∀ dump, generate [ofSignature "prim::device(Tensor a) -> (Device )",
        ofSignature "prim::layout(Tensor a) -> (int )"] dump
      = generate [ofSignature "prim::layout(Tensor a) -> (int )",
        ofSignature "prim::device(Tensor a) -> (Device )"] dump) ∧
    ∀ dump, (generate [ofSignature "aten::spare(Tensor a) -> (Tensor )",
        ofSignature "prim::device(Tensor a) -> (Device )",
        ofSignature "prim::layout(Tensor a) -> (int )"] dump).behind dump.toList.length
      = (generate [ofSignature "prim::layout(Tensor a) -> (int )",
        ofSignature "prim::device(Tensor a) -> (Device )"] dump).behind dump.toList.length := by
  have hos : [ofSignature "prim::layout(Tensor a) -> (int )",
      ofSignature "prim::device(Tensor a) -> (Device )"].mapM ofRecord
      = .ok [unary "prim" "layout" "Tensor" "int", unary "prim" "device" "Tensor" "Device"] := rfl
  have hnew : [ofSignature "aten::spare(Tensor a) -> (Tensor )"].mapM ofRecord
      = .ok [unary "aten" "spare" "Tensor" "Tensor"] := rfl
  obtain ⟨hperm, hmore⟩ := generation_order_free hos (by decide) (by decide)
  refine ⟨(hperm _ (List.Perm.swap _ _ _)).1, (hmore _ _ _ hnew ?_ ?_).1⟩
  · exact ((List.Perm.swap _ _ _).cons _).trans (List.perm_append_singleton _ _).symm
  · intro o ho
    cases List.mem_singleton.mp ho
    decide +kernel

end Operator

end DialectBench
