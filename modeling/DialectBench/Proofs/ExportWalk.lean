import DialectBench.Bench.Program
import DialectBench.Proofs.Marking

/-!
# What the compiler is told of a program

    A program is walked along with its scripted form.  The walk VISITS the
    modules of the program in preorder, each with the module that the scripted
    form has at the same path.  A visit PASSES if the scripted module was made
    from the class of the program's module, or if both are one scripted object.

    At every visit that passes, the scripted methods are told of in order: that
    the method is exported, if the program's method of that name is marked, and
    what is known of its arguments, if anything is.  The walk ends at the first
    visit that does not pass, and what was told up to there stays told.

    The proof goes by appending: `toldOf` is what a list of visits amounts to,
    and it takes a concatenation of lists to one telling after another.
-/

namespace DialectBench

mutual

/-- The modules of a tree in preorder, each with the path that leads to it. -/
def Module.places : Module → List (List String × Module)
  | ⟨className, members, classMethods, children, sourceName, isScripted⟩ =>
    ([], ⟨className, members, classMethods, children, sourceName, isScripted⟩) ::
      Module.placesBelow children

/-- The modules of the trees below children. -/
def Module.placesBelow : List (String × Module) → List (List String × Module)
  | [] => []
  | (name, child) :: rest =>
    (child.places.map fun p => (name :: p.1, p.2)) ++ Module.placesBelow rest

end

theorem Module.places_eq (m : Module) : m.places = ([], m) :: Module.placesBelow m.children := by
  cases m
  rw [Module.places]

/-- Whether a name leads to anything in a module. -/
def Module.Has (m : Module) (name : String) : Prop :=
  name ∈ m.members.map Prod.fst ∨ name ∈ m.classMethods.map Prod.fst ∨
    name ∈ m.children.map Prod.fst

/-- The method that a name of a module stands for. -/
def Module.methodNamed? (m : Module) (name : String) : Option Method :=
  match m.members.lookup name with
  | some (.method x) => some x
  | some (.value _) => none
  | none => m.classMethods.lookup name

namespace Notes

/-- The module at a path of a scripted module. -/
def follow? (m : Module) : List String → Option Module
  | [] => some m
  | name :: rest => (childOf m name).toOption.bind fun child => follow? child rest

/-- A module of the program with its scripted form. -/
structure Visit where
  program : Module
  scripted : Module
  /-- Whether the two are one object. -/
  isShared : Bool

/-- The visits of a walk: the modules of the program in preorder, with what the
    scripted form has at their paths. -/
def visits (shared : List String → Bool) (program scripted : Module) : List Visit :=
  program.places.filterMap fun p =>
    (follow? scripted p.1).map fun s => ⟨p.2, s, shared p.1⟩

/-- The names of the scripted methods among members, in order. -/
def scriptedIn (members : Table String Member) : List String :=
  (memberMethods members).filterMap fun m => if m.2.isScripted then some m.1 else none

namespace Visit

/-- The scripted module was made from the class of the program's module, or both
    are one scripted object. -/
def passes (v : Visit) : Bool :=
  v.program.className == v.scripted.sourceName || (v.program.isScripted && v.isShared)

/-- The names of the methods to tell of. -/
def scriptedNames (v : Visit) : List String := scriptedIn v.scripted.members

/-- Whether the program's method of a name is marked as exported. -/
def isMarked (v : Visit) (name : String) : Bool :=
  (v.program.methodNamed? name).any fun m => m.exportMark.isSome

/-- What is known of the arguments of the program's method of a name. -/
def types? (v : Visit) (name : String) : Option Value :=
  (v.program.methodNamed? name).bind Method.argTypes

/-- What is told of the scripted method of a name. -/
def toldAt (typeName : Module → String) (v : Visit) (name : String) : List Notice :=
  (if v.isMarked name then [.exportPath (typeName v.scripted) [name]] else []) ++
    (v.types? name).toList.map (.annotateArgs (typeName v.scripted) [name])

/-- What is told at a visit. -/
def told (typeName : Module → String) (v : Visit) : List Notice :=
  v.scriptedNames.flatMap (v.toldAt typeName)

/-- The scripted module has the children of the program's module, and the
    program's module has something under the name of every scripted method. -/
structure Regular (v : Visit) : Prop where
  children : ∀ c ∈ v.program.children, ∃ s, childOf v.scripted c.1 = .ok s
  methods : ∀ name ∈ v.scriptedNames, v.program.Has name

end Visit

/-! ## What a list of visits amounts to -/

section

variable {typeName : Module → String}

/-- What is told at visits in turn, up to the first that does not pass. -/
def toldOf (typeName : Module → String) (vs : List Visit) : Told where
  notices := (vs.takeWhile Visit.passes).flatMap (Visit.told typeName)
  outcome := if vs.all Visit.passes then .ok ()
    else .error (.assertion "script module does not come from specified module")

theorem toldOf_cons_of_not_passes {v : Visit} {vs : List Visit} (hv : v.passes = false) :
    toldOf typeName (v :: vs) =
      ⟨[], .error (.assertion "script module does not come from specified module")⟩ := by
  simp [toldOf, hv]

theorem toldOf_cons_of_passes {v : Visit} {vs : List Visit} (hv : v.passes = true) :
    toldOf typeName (v :: vs)
      = (⟨v.told typeName, .ok ()⟩ : Told).andThen (toldOf typeName vs) := by
  simp [toldOf, Told.andThen, hv]

theorem all_passes_of_outcome {vs : List Visit} (h : (toldOf typeName vs).outcome = .ok ()) :
    vs.all Visit.passes = true := by
  by_contra hnot
  simp [toldOf, hnot] at h

theorem Told.andThen_assoc (t u w : Told) :
    (t.andThen u).andThen w = t.andThen (u.andThen w) := by
  obtain ⟨ts, _ | _⟩ := t
  · rfl
  · obtain ⟨us, _ | _⟩ := u
    · rfl
    · simp [Told.andThen]

/-- What comes second matters only if the first ended well. -/
theorem Told.andThen_congr {t u w : Told} (h : t.outcome = .ok () → u = w) :
    t.andThen u = t.andThen w := by
  obtain ⟨ts, _ | _⟩ := t
  · rfl
  · rw [h rfl]

/-- Visits after visits are told of one after another. -/
theorem toldOf_append (vs ws : List Visit) :
    toldOf typeName (vs ++ ws) = (toldOf typeName vs).andThen (toldOf typeName ws) := by
  induction vs with
  | nil => rfl
  | cons v vs ih =>
      rw [List.cons_append]
      cases hv : v.passes with
      | false =>
          rw [toldOf_cons_of_not_passes hv, toldOf_cons_of_not_passes hv]
          rfl
      | true =>
          rw [toldOf_cons_of_passes hv, toldOf_cons_of_passes hv, ih, Told.andThen_assoc]

theorem mem_takeWhile_append {vs ws : List Visit} {v : Visit} :
    v ∈ (vs ++ ws).takeWhile Visit.passes ↔
      v ∈ vs.takeWhile Visit.passes ∨
        vs.all Visit.passes = true ∧ v ∈ ws.takeWhile Visit.passes := by
  induction vs with
  | nil => simp
  | cons u vs ih =>
      cases hu : u.passes with
      | false => simp [hu]
      | true =>
          simp only [List.cons_append, List.takeWhile_cons_of_pos hu, List.mem_cons, ih,
            List.all_cons, hu, Bool.true_and, or_assoc]

/-! ## A single visit -/

theorem tellMethod_of_has (typeName : Module → String) (v : Visit) {name : String}
    (h : v.program.Has name) :
    tellMethod v.program (typeName v.scripted) name = ⟨v.toldAt typeName name, .ok ()⟩ := by
  -- a method is told of alike whether it belongs to the instance or to the class
  have hmethod : ∀ m, v.program.methodNamed? name = some m →
      methodNotices (typeName v.scripted) name m = v.toldAt typeName name := by
    intro m hm
    rw [methodNotices, Visit.toldAt, Visit.isMarked, Visit.types?, hm]
    cases htypes : m.argTypes with
    | none => simp [htypes]
    | some types => simp [htypes]
  have hnone : v.program.methodNamed? name = none → v.toldAt typeName name = [] := by
    intro hm
    simp [Visit.toldAt, Visit.isMarked, Visit.types?, hm]
  rw [tellMethod]
  cases hmember : v.program.members.lookup name with
  | some member =>
      cases member with
      | method m => rw [← hmethod m (by rw [Module.methodNamed?, hmember])]
      | value x => rw [hnone (by rw [Module.methodNamed?, hmember])]
  | none =>
      have hclasses : v.program.methodNamed? name = v.program.classMethods.lookup name := by
        rw [Module.methodNamed?, hmember]
      cases hclass : v.program.classMethods.lookup name with
      | some m => rw [← hmethod m (hclasses.trans hclass)]
      | none =>
          cases hchild : v.program.children.lookup name with
          | some child => rw [hnone (hclasses.trans hclass)]
          | none =>
              rcases h with h | h | h
              · exact absurd (Table.isSome_lookup_iff.mpr h) (by simp [hmember])
              · exact absurd (Table.isSome_lookup_iff.mpr h) (by simp [hclass])
              · exact absurd (Table.isSome_lookup_iff.mpr h) (by simp [hchild])

theorem scriptedIn_cons_method (name : String) (m : Method) (rest : Table String Member) :
    scriptedIn ((name, .method m) :: rest) =
      if m.isScripted then name :: scriptedIn rest else scriptedIn rest := by
  cases hm : m.isScripted <;> simp [scriptedIn, memberMethods, Member.method?, hm]

theorem scriptedIn_cons_value (name : String) (x : Value) (rest : Table String Member) :
    scriptedIn ((name, .value x) :: rest) = scriptedIn rest := by
  simp [scriptedIn, memberMethods, Member.method?]

theorem tellMembers_of_has (v : Visit) (members : Table String Member)
    (h : ∀ name ∈ scriptedIn members, v.program.Has name) :
    tellMembers v.program (typeName v.scripted) members =
      ⟨(scriptedIn members).flatMap (v.toldAt typeName), .ok ()⟩ := by
  induction members with
  | nil => rfl
  | cons e rest ih =>
      obtain ⟨name, member⟩ := e
      cases member with
      | value x =>
          rw [scriptedIn_cons_value] at h ⊢
          rw [tellMembers, ih h]
      | method m =>
          rw [scriptedIn_cons_method] at h ⊢
          rw [tellMembers]
          cases hm : m.isScripted with
          | false =>
              rw [hm] at h
              exact ih h
          | true =>
              rw [hm] at h
              have hhere := tellMethod_of_has typeName v (h name List.mem_cons_self)
              have hrest := ih fun n hn => h n (List.mem_cons_of_mem name hn)
              simp only [if_true, hhere, hrest, List.flatMap_cons]
              rfl

end

/-! ## The walk -/

/-- The visits below a pair of modules. -/
def visitsBelow (shared : List String → Bool) (children : List (String × Module))
    (scripted : Module) : List Visit :=
  (Module.placesBelow children).filterMap fun p =>
    (follow? scripted p.1).map fun s => ⟨p.2, s, shared p.1⟩

section

variable {typeName : Module → String} {shared : List String → Bool} {scripted : Module}

theorem visits_eq (program : Module) :
    visits shared program scripted =
      ⟨program, scripted, shared []⟩ :: visitsBelow shared program.children scripted := by
  rw [visits, Module.places_eq, List.filterMap_cons]
  rfl

/-- Below a child both trees are walked from that child on. -/
theorem visitsBelow_cons {name : String} {child s : Module} {rest : List (String × Module)}
    (hs : childOf scripted name = .ok s) :
    visitsBelow shared ((name, child) :: rest) scripted =
      visits (fun path => shared (name :: path)) child s ++ visitsBelow shared rest scripted := by
  have hfollow : ∀ path, follow? scripted (name :: path) = follow? s path := by
    intro path
    rw [follow?, hs]
    rfl
  rw [visitsBelow, Module.placesBelow, List.filterMap_append, List.filterMap_map]
  simp only [Function.comp_def, hfollow]
  rfl

theorem tellModule_eq (program : Module) :
    tellModule typeName shared program scripted =
      if (Visit.mk program scripted (shared [])).passes then
        (tellMembers program (typeName scripted) scripted.members).andThen
          (tellChildren typeName shared program.children scripted)
      else ⟨[], .error (.assertion "script module does not come from specified module")⟩ := by
  cases program
  rw [tellModule]
  rfl

/-- The children of a module, if each of them is told of as its visits are. -/
theorem tellChildren_eq_toldOf {children : List (String × Module)}
    (ih : ∀ name child, (name, child) ∈ children → ∀ {shared : List String → Bool} {s : Module},
      (∀ v ∈ (visits shared child s).takeWhile Visit.passes, v.Regular) →
        tellModule typeName shared child s = toldOf typeName (visits shared child s))
    (hfound : ∀ c ∈ children, ∃ s, childOf scripted c.1 = .ok s)
    (hregular : ∀ v ∈ (visitsBelow shared children scripted).takeWhile Visit.passes, v.Regular) :
    tellChildren typeName shared children scripted
      = toldOf typeName (visitsBelow shared children scripted) := by
  induction children with
  | nil => rw [tellChildren]; rfl
  | cons c rest ihrest =>
      obtain ⟨name, child⟩ := c
      obtain ⟨s, hs⟩ := hfound _ List.mem_cons_self
      rw [visitsBelow_cons hs] at hregular ⊢
      simp only [tellChildren, hs]
      rw [toldOf_append, ih name child List.mem_cons_self
        fun v hv => hregular v (mem_takeWhile_append.mpr (.inl hv))]
      -- the other children are reached only if all visits below this one pass
      refine Told.andThen_congr fun hok => ihrest ?_ ?_ ?_
      · intro n m hmem
        exact ih n m (List.mem_cons_of_mem _ hmem)
      · intro m hmem
        exact hfound m (List.mem_cons_of_mem _ hmem)
      · intro v hv
        exact hregular v (mem_takeWhile_append.mpr (.inr ⟨all_passes_of_outcome hok, hv⟩))

theorem tellModule_eq_toldOf (program : Module) :
    ∀ {shared : List String → Bool} {scripted : Module},
      (∀ v ∈ (visits shared program scripted).takeWhile Visit.passes, v.Regular) →
        tellModule typeName shared program scripted
          = toldOf typeName (visits shared program scripted) := by
  induction program using Module.tree_induction with
  | step program ih =>
      intro shared scripted hregular
      rw [visits_eq] at hregular ⊢
      rw [tellModule_eq]
      cases hpass : (Visit.mk program scripted (shared [])).passes with
      | false => rw [toldOf_cons_of_not_passes hpass]; rfl
      | true =>
          rw [List.takeWhile_cons_of_pos hpass] at hregular
          have hhere := hregular _ List.mem_cons_self
          rw [toldOf_cons_of_passes hpass, if_pos rfl,
            tellMembers_of_has ⟨program, scripted, shared []⟩ _ hhere.methods,
            tellChildren_eq_toldOf ih hhere.children
              fun v hv => hregular v (List.mem_cons_of_mem _ hv)]
          rfl

end

/-- **THE COMPILER IS TOLD EXACTLY WHAT IS MARKED**: first, that nothing of the
    root is exported unless it is said so; then, visit by visit in preorder and
    method by method in order, the marks and the argument types of the program's
    methods.  If all visits pass, nothing else is told and the walk ends well; if
    one does not pass, the walk ends there. -/
theorem tellShared_exports_marked (typeName : Module → String) {shared : List String → Bool}
    {program scripted : Module}
    (hregular : ∀ v ∈ (visits shared program scripted).takeWhile Visit.passes, v.Regular) :
    (tellShared typeName shared program scripted).notices =
        .exportNone (typeName scripted) ::
          ((visits shared program scripted).takeWhile Visit.passes).flatMap (Visit.told typeName) ∧
      (tellShared typeName shared program scripted).outcome =
        if (visits shared program scripted).all Visit.passes then .ok ()
        else .error (.assertion "script module does not come from specified module") := by
  rw [tellShared, tellModule_eq_toldOf program hregular]
  exact ⟨rfl, rfl⟩

/-- A method that returns its arguments, with an export mark and argument types
    or without them. -/
def echoing (mark types : Option Value) : Method := ⟨.echo, mark, types, false, 0⟩

/-- The scripted form of a method. -/
def echoingScripted : Method := ⟨.echo, none, none, true, 0⟩

/-- A module that was scripted before its program was. -/
def scriptedPool : Module :=
  ⟨"RecursiveScriptModule", [("forward", .method echoingScripted)], [], [], "Pool", true⟩

/-- A module whose class has a marked method. -/
def scaling : Module :=
  ⟨"Scale", [], [("scale", echoing (some (.bool true)) none)], [], "", false⟩

def scriptedScaling : Module :=
  ⟨"RecursiveScriptModule", [("scale", .method echoingScripted)], [], [], "Scale", true⟩

/-- A program with a scripted child, a child of its own, and a child whose
    scripted form comes from another class. -/
def partlyScripted : Module :=
  ⟨"Net", [("helper", .method (echoing none none)),
      ("forward", .method (echoing (some (.bool true)) (some (.list []))))], [],
    [("pool", scriptedPool), ("scale", scaling), ("head", ⟨"Head", [], [], [], "", false⟩)],
    "", false⟩

def partlyScriptedForm : Module :=
  ⟨"RecursiveScriptModule", [("training", .value (.bool true)),
      ("forward", .method echoingScripted), ("helper", .method echoingScripted)], [],
    [("head", ⟨"RecursiveScriptModule", [], [], [], "Tail", true⟩), ("pool", scriptedPool),
      ("scale", scriptedScaling)],
    "Net", true⟩

theorem tellShared_exports_marked_partlyScripted :
    (∀ v ∈ (visits (· == ["pool"]) partlyScripted partlyScriptedForm).takeWhile Visit.passes,
      v.Regular) ∧
    (tellShared Module.typeName (· == ["pool"]) partlyScripted partlyScriptedForm).notices =
      [.exportNone "__torch__.Net", .exportPath "__torch__.Net" ["forward"],
        .annotateArgs "__torch__.Net" ["forward"] (.list []),
        .exportPath "__torch__.Scale" ["scale"]] ∧
    (tellShared Module.typeName (· == ["pool"]) partlyScripted partlyScriptedForm).outcome =
      .error (.assertion "script module does not come from specified module") := by
  have hvisits : (visits (· == ["pool"]) partlyScripted partlyScriptedForm).takeWhile Visit.passes =
      [⟨partlyScripted, partlyScriptedForm, false⟩, ⟨scriptedPool, scriptedPool, true⟩,
        ⟨scaling, scriptedScaling, false⟩] := rfl
  have hregular : ∀ v ∈ (visits (· == ["pool"]) partlyScripted partlyScriptedForm).takeWhile
      Visit.passes, v.Regular := by
    rw [hvisits]
    simp only [List.forall_mem_cons]
    refine ⟨⟨?_, ?_⟩, ⟨?_, ?_⟩, ⟨?_, ?_⟩, fun v hv => absurd hv List.not_mem_nil⟩
    · show ∀ c ∈ partlyScripted.children, ∃ s, childOf partlyScriptedForm c.1 = .ok s
      simp only [partlyScripted, List.forall_mem_cons]
      exact ⟨⟨_, rfl⟩, ⟨_, rfl⟩, ⟨_, rfl⟩, fun c hc => absurd hc List.not_mem_nil⟩
    · show ∀ name ∈ ["forward", "helper"], partlyScripted.Has name
      simp [Module.Has, partlyScripted]
    · exact fun c hc => absurd hc List.not_mem_nil
    · show ∀ name ∈ ["forward"], scriptedPool.Has name
      simp [Module.Has, scriptedPool]
    · exact fun c hc => absurd hc List.not_mem_nil
    · show ∀ name ∈ ["scale"], scaling.Has name
      simp [Module.Has, scaling]
  exact ⟨hregular, tellShared_exports_marked Module.typeName hregular⟩

end Notes

end DialectBench
