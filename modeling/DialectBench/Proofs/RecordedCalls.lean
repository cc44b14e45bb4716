import DialectBench.Proofs.NativeReplay

/-!
# What a recorded call says of the call

    A recorded call holds a NAME, which is the path of the call joined with dots,
    and the positional arguments.  In a program whose names are plain, neither
    empty nor dotted, the two determine the path and the positional arguments,
    the empty path of a call of the program itself included.  Two things are
    lost.  KEYWORD ARGUMENTS leave no trace in the record.  And the empty path is
    recorded as the empty name, which the replayers cut into one empty part and
    look up as a member: they find nothing.  All other names lead the replayers
    along the path of the call.
-/

namespace DialectBench

/-- A call into a program: at which path, and with which arguments. -/
structure CallMade where
  path : List String
  args : List Datum
  kwargs : List (String × Datum)

/-- A session on a program makes a call, which returns and is recorded. -/
def Program.Records (p : Program) (w : World) (c : CallMade) (i : TraceItem Datum) : Prop :=
  ∃ trace p' w', tracedCall Program.calling c.path c.args c.kwargs (p, trace) w
    = (.ok (i.output, p', trace ++ [i]), w')

/-- A name that can stand between dots. -/
def PlainName (name : String) : Prop := name ≠ "" ∧ '.' ∉ name.toList

/-- All names in a tree of modules are plain. -/
inductive Module.PlainTree : Module → Prop where
  | intro {m : Module} (own : ∀ name ∈ m.names, PlainName name)
      (below : ∀ name c, (name, c) ∈ m.children → c.PlainTree) : m.PlainTree

/-! ## Paths of calls that return -/

/-- Values have no member that can be called but the one that appends. -/
theorem Value.path_of_callMember {v : Value} {path : List String} {a : Arguments} {s s' : Store}
    {out : Datum} (h : v.callMember path a s = (.ok out, s')) : path = ["append"] := by
  unfold Value.callMember at h
  split at h
  · exact nomatch h
  · rfl
  · exact nomatch h

/-- What the first name of a call that returns leads to: a member, at which the
    path ends, or a child, into which it goes on. -/
theorem Module.call_cons_eq_ok {m : Module} {first : String} {rest : List String} {a : Arguments}
    {s s' : Store} {r : Datum × Module} (h : m.call (first :: rest) a s = (.ok r, s')) :
    first ∈ m.names ∧ (rest = [] ∨ rest = ["append"] ∨
      ∃ child r', (first, child) ∈ m.children ∧ child.call rest a s = (.ok r', s')) := by
  obtain ⟨className, members, classMethods, children, sourceName, isScripted⟩ := m
  simp only [Module.names, List.mem_append]
  -- a method has no members of its own
  have hend : ∀ {method : Method} {f : Datum × Method × List (String × Value) → Datum × Module},
      (if !rest.isEmpty then throw Fault.noAttribute else
        method.call (memberValues members) a >>= fun r => pure (f r) : Run Store _) s
        = (.ok r, s') → rest = [] := by
    intro method f hcall
    cases rest with
    | nil => rfl
    | cons second rest =>
        have hthrown : (.error .noAttribute : Except Fault (Datum × Module)) = .ok r :=
          congrArg Prod.fst hcall
        cases hthrown
  cases hmember : members.lookup first with
  | some member =>
      refine ⟨.inl (.inl (List.mem_map.mpr ⟨_, Table.mem_of_lookup hmember, rfl⟩)), ?_⟩
      cases member with
      | method method =>
          simp only [Module.call, splitPath, hmember] at h
          exact .inl (hend h)
      | value v =>
          simp only [Module.call, splitPath, hmember] at h
          obtain ⟨out, s₁, hcall, _⟩ := Run.bind_eq_ok h
          exact .inr (.inl (Value.path_of_callMember hcall))
  | none =>
      cases hclass : classMethods.lookup first with
      | some method =>
          refine ⟨.inl (.inr (List.mem_map.mpr ⟨_, Table.mem_of_lookup hclass, rfl⟩)), ?_⟩
          simp only [Module.call, splitPath, hmember, hclass] at h
          exact .inl (hend h)
      | none =>
          simp only [Module.call, splitPath, hmember, hclass] at h
          obtain ⟨out, s₁, hcall, hpure⟩ := Run.bind_eq_ok h
          cases hpure
          rcases Module.callChild_cases first rest children with
            ⟨before, child, after, rfl, heq⟩ | hnone
          · rw [heq] at hcall
            obtain ⟨r', s₂, hchild, hpure⟩ := Run.bind_eq_ok hcall
            cases hpure
            have hmem : (first, child) ∈ before ++ (first, child) :: after :=
              List.mem_append_right before List.mem_cons_self
            exact ⟨.inr (List.mem_map.mpr ⟨_, hmem, rfl⟩), .inr (.inr ⟨child, r', hmem, hchild⟩)⟩
          · rw [hnone] at hcall
            cases congrArg Prod.fst hcall

/-- **A CALL THAT RETURNS WENT ALONG NAMES OF THE PROGRAM.**  Induction on the
    tree: a path ends at a member or goes on in a child. -/
theorem Module.PlainTree.path_of_call {m : Module} (hm : m.PlainTree) :
    ∀ {path : List String} {a : Arguments} {s s' : Store} {r : Datum × Module},
      m.call path a s = (.ok r, s') → ∀ name ∈ path, PlainName name := by
  induction hm with
  | intro own below ih =>
      intro path a s s' r h
      cases path with
      | nil => exact fun name hname => (nomatch hname)
      | cons first rest =>
          obtain ⟨hfirst, hrest⟩ := Module.call_cons_eq_ok h
          refine List.forall_mem_cons.mpr ⟨own first hfirst, ?_⟩
          rcases hrest with rfl | rfl | ⟨child, r', hmem, hchild⟩
          · exact fun name hname => (nomatch hname)
          · intro name hname
            cases List.mem_singleton.mp hname
            exact ⟨by decide, by decide⟩
          · exact ih first child hmem hchild

theorem Program.Records.item_eq {p : Program} {w : World} {c : CallMade} {i : TraceItem Datum}
    (h : p.Records w c i) : i.symbol = Text.joinWith "." c.path ∧ i.inputs = c.args ∧
      ∃ m' s, p.module.call c.path ⟨c.args, c.kwargs⟩ w.store = (.ok (i.output, m'), s) := by
  obtain ⟨trace, p', w', hcall⟩ := h
  obtain ⟨hcall, htrace⟩ := tracedCall_eq_ok hcall
  obtain ⟨m', s, hcall, _, _⟩ := Program.calling_eq_ok hcall
  have hitem := List.cons.inj (List.append_cancel_left htrace)
  rw [hitem.1]
  exact ⟨rfl, rfl, m', s, by rw [← hitem.1]; exact hcall⟩

/-! ## The replayers -/

/-- Both replayers, given a recorded call, make a call at a certain path: the
    one that runs a scripted program, and the one that tests a saved one. -/
structure ReplayedAt (i : TraceItem Datum) (path : List String) : Prop where
  scripted : ∀ m w, scriptedConfig.run m [i] w
    = (Module.calling path i.inputs [] m >>= fun r => pure [⟨i.symbol, i.inputs, r.1⟩]) w
  saved : replayTraced Program.calling [i]
    = tracedCall Program.calling path i.inputs [] >>= fun _ => pure ()

/-- Both replayers, given a recorded call, stop at once in every program whose
    names are plain: it has nothing of the recorded name. -/
structure Unreplayable (i : TraceItem Datum) : Prop where
  scripted : ∀ (m : Module) w, m.PlainTree → scriptedConfig.run m [i] w = (.error .noAttribute, w)
  saved : ∀ (q : Program) trace w, q.module.PlainTree →
    replayTraced Program.calling [i] (q, trace) w = (.error .noAttribute, w)

theorem replayedAt_split (i : TraceItem Datum) : ReplayedAt i (Text.split '.' i.symbol) := by
  refine ⟨fun m w => ?_, rfl⟩
  rcases hcall : Module.calling (Text.split '.' i.symbol) i.inputs [] m w with ⟨r, w'⟩
  cases r with
  | error e =>
      rw [Run.bind_of_error hcall]
      exact Run.bind_of_error (Run.bind_of_error hcall)
  | ok r =>
      have hreplay : replay (fun symbol args => Module.calling (Text.split '.' symbol) args []) [i]
          m w = (.ok ([⟨i.symbol, i.inputs, r.1⟩], r.2), w') := session_bind_of_ok hcall
      rw [Run.bind_of_ok hcall]
      exact Run.bind_of_ok hreplay

/-- The empty name is no name of a program whose names are plain. -/
theorem Module.PlainTree.call_empty {m : Module} (hm : m.PlainTree) (a : Arguments) :
    m.call [""] a = throw .noAttribute := by
  obtain ⟨own, -⟩ := hm
  exact Module.call_of_not_mem_names (fun hmem => (own "" hmem).1 rfl) a

/-- What was called at the empty path is not found again. -/
theorem unreplayable_of_empty {i : TraceItem Datum} (h : i.symbol = "") : Unreplayable i := by
  have hreplayed := replayedAt_split i
  rw [h] at hreplayed
  have hcall : ∀ (m : Module) w, m.PlainTree →
      Module.calling (Text.split '.' "") i.inputs [] m w = (.error .noAttribute, w) := by
    intro m w hm
    refine onStore_of_error ?_
    show m.call [""] _ _ = _
    rw [hm.call_empty]
    rfl
  refine ⟨fun m w hm => ?_, fun q trace w hq => ?_⟩
  · rw [hreplayed.scripted, Run.bind_of_error (hcall m w hm)]
  · rw [hreplayed.saved]
    exact Run.bind_of_error (Run.bind_of_error (Run.bind_of_error (hcall q.module w hq)))

/-! ## What is determined -/

/-- **WHAT A RECORDED CALL DETERMINES.**  Take two calls, recorded on programs
    whose names are plain.  Their records have the same name and the same inputs
    exactly if the calls have the same path and the same positional arguments,
    whatever their keyword arguments.  A call at a path that is not empty is
    replayed at its path, by both replayers and into any program.  A call at the
    empty path is replayed by neither: no such program has the name that they
    look up. -/
theorem record_determines_path {p q : Program} (hp : p.module.PlainTree)
    (hq : q.module.PlainTree) {w v : World} {c d : CallMade} {i j : TraceItem Datum}
    (hc : p.Records w c i) (hd : q.Records v d j) :
    (i.symbol = j.symbol ∧ i.inputs = j.inputs ↔ c.path = d.path ∧ c.args = d.args) ∧
    (c.path ≠ [] → ReplayedAt i c.path) ∧ (c.path = [] → Unreplayable i) := by
  obtain ⟨hisymbol, hiinputs, m', s, hcall⟩ := hc.item_eq
  obtain ⟨hjsymbol, hjinputs, n', t, hcall'⟩ := hd.item_eq
  have hcpath := hp.path_of_call hcall
  have hdpath := hq.path_of_call hcall'
  refine ⟨?_, fun hne => ?_, fun hnil => ?_⟩
  · rw [hisymbol, hjsymbol, hiinputs, hjinputs, Text.joinWith_eq_iff rfl hcpath hdpath]
  · have hsplit : Text.split '.' (Text.joinWith "." c.path) = c.path :=
      Text.split_joinWith rfl hne fun name hname => (hcpath name hname).2
    have hreplayed := replayedAt_split i
    rwa [hisymbol, hsplit] at hreplayed
  · refine unreplayable_of_empty ?_
    rw [hisymbol, hnil]
    rfl

theorem plainTree_ticking : ticking.module.PlainTree := by
  have hblock : tickingBlock.PlainTree := by
    refine ⟨fun name hname => ?_, fun name c hc => (nomatch hc)⟩
    have hnames : ∀ name ∈ ["tick", "total", "mm", "add", "make"],
        name ≠ "" ∧ '.' ∉ name.toList := by decide
    exact hnames name hname
  refine ⟨fun name hname => ?_, fun name c hc => ?_⟩
  · have hnames : ∀ name ∈ ["forward", "block"], name ≠ "" ∧ '.' ∉ name.toList := by decide
    exact hnames name hname
  · cases List.mem_singleton.mp hc
    exact hblock

/-- A call of a child's method, with a keyword argument. -/
def keywordTick : CallMade := ⟨["block", "tick"], [.leaf (.int 3)], [("by", .leaf (.int 2))]⟩

/-- A call of the program itself. -/
def wholeCall : CallMade := ⟨[], [.leaf (.int 3)], []⟩

theorem record_determines_path_ticking :
    ticking.module.PlainTree ∧
      ticking.Records World.fresh keywordTick ⟨"block.tick", [.leaf (.int 3)], .leaf (.int 1)⟩ ∧
      ReplayedAt ⟨"block.tick", [.leaf (.int 3)], .leaf (.int 1)⟩ ["block", "tick"] ∧
      ticking.Records World.fresh wholeCall
        ⟨"", [.leaf (.int 3)], .tuple [.leaf (.int 3)]⟩ ∧
      scriptedConfig.run ticking.module [⟨"", [.leaf (.int 3)], .tuple [.leaf (.int 3)]⟩]
        World.fresh = (.error .noAttribute, World.fresh) := by
  have hplain := plainTree_ticking
  have htick : ticking.Records World.fresh keywordTick
      ⟨"block.tick", [.leaf (.int 3)], .leaf (.int 1)⟩ := ⟨[], _, _, rfl⟩
  have hwhole : ticking.Records World.fresh wholeCall
      ⟨"", [.leaf (.int 3)], .tuple [.leaf (.int 3)]⟩ := ⟨[], _, _, rfl⟩
  refine ⟨hplain, htick, ?_, hwhole, ?_⟩
  · exact (record_determines_path hplain hplain htick hwhole).2.1 (List.cons_ne_nil _ _)
  · exact ((record_determines_path hplain hplain hwhole htick).2.2 rfl).scripted _ _ hplain

/-- A program that tells how many arguments it is given, by position or keyword. -/
def tallying : Program where
  module :=
    { className := "Module"
      members := [("forward", .method (.define .arity none none false))]
      classMethods := []
      children := []
      sourceName := "Module"
      isScripted := false }
  scripted := none

/-- A test of that program that makes one call with the argument 1. -/
def tallyTest (path : List String) (kwargs : List (String × Argument)) :
    Test World Program Datum :=
  programTest "t" (.ok tallying) [.call path [.value (.int 1)] kwargs]

/-- The numbers that the calls of a trace returned. -/
def returned (trace : Option (Trace Value)) : Option (List (Option Int)) :=
  trace.map fun items => items.map fun i => i.output.int?

/-- **A RECORD CAN FORGET ITS CALL.**  Two calls that differ in a keyword argument
    leave records of the same name and inputs, though they return different
    values, so the replay of the second returns what the first did.  A call of the
    program itself is recorded, and its replay stops. -/
theorem record_forgets_keywords_and_root :
    tallying.Records World.fresh ⟨["forward"], [.leaf (.int 1)], []⟩
        ⟨"forward", [.leaf (.int 1)], .leaf (.int 1)⟩ ∧
      tallying.Records World.fresh ⟨["forward"], [.leaf (.int 1)], [("k", .leaf (.int 2))]⟩
        ⟨"forward", [.leaf (.int 1)], .leaf (.int 2)⟩ ∧
      tallying.Records World.fresh ⟨[], [.leaf (.int 1)], []⟩
        ⟨"", [.leaf (.int 1)], .leaf (.int 1)⟩ ∧
      (runProgramTests Fault.lastLine scriptedConfig
          [tallyTest ["forward"] [("k", .value (.int 2))], tallyTest [] []]).1.map
          (fun r => (returned r.goldenTrace, returned r.trace, r.runtimeError))
        = [(some [some 2], some [some 1], none), (none, none, some "AttributeError")] := by
  refine ⟨⟨[], _, _, rfl⟩, ⟨[], _, _, rfl⟩, ⟨[], _, _, rfl⟩, ?_⟩
  decide +kernel

end DialectBench
