import DialectBench.Proofs.CleanStop

/-!
# Which failures of a stage are reported

    A stage prints its module, reads its pipeline and runs it.  All three steps
    are GUARDED: whatever fails is to leave the stage as a report, with a file
    from which the failure can be reproduced.  The handler writes into the file
    what was printed.  So a pipeline that cannot be read or fails as it runs is
    reported, and the file holds the module.  But if it was the printing that
    failed, the handler opens the file, has nothing to write and fails itself:
    no report leaves the stage, and the file is empty, whatever an earlier
    failure had left in it.
-/

namespace DialectBench.Pipeline

/-- One run of a stage on a module. -/
structure Trial where
  tools : Toolchain
  stage : Stage
  ir : Ir

namespace Trial

/-- Runs the stage, which gives the module as it is in the end. -/
def run (j : Trial) : Run Shop Ir := fun s =>
  let (out, d) := runStage j.tools j.stage (.start s j.ir)
  (out.map fun () => d.ir, d.shop)

/-- What reading the pipeline is. -/
def reading (j : Trial) : Reading := j.tools.reads j.stage.pipeline

/-- What the passes do, given how many pipelines were run before. -/
def passes (j : Trial) (n : Nat) : Effect := j.tools.passes n j.stage.pipeline j.ir

/-- What reading and running the pipeline does. -/
def effect (j : Trial) (n : Nat) : Effect := j.tools.runs n j.stage.pipeline j.ir

/-- The report of a failure: what the stage is for, what was written to the
    error stream, the pipeline, and the file with the module. -/
def report (j : Trial) (diagnostics : String) : Fault :=
  .general ("\n" ++ j.stage.description ++ " failed with the following diagnostics:\n" ++
    diagnostics ++ "\n\nError can be reproduced with:\n$ torch-mlir-opt -pass-pipeline='" ++
    j.stage.pipeline ++ "' " ++ (j.tools.tempDir ++ "/" ++ (j.ir.name ++ ".mlir")) ++ "\n")

end Trial

/-- Work that put a text into one file, left the others alone and put the error
    stream back. -/
structure Shop.Leaves (s s' : Shop) (file text : String) : Prop where
  stderr : s'.stderr = s.stderr
  held : s'.files.lookup file = some text
  others : ∀ f, f ≠ file → s'.files.lookup f = s.files.lookup f

/-- How a run of a stage ends, by the first of the guarded steps that fails. -/
inductive Trial.Ends (j : Trial) (s : Shop) : Except Fault Ir → Shop → Prop where
  | passed {asm : String} {s' : Shop} (printed : j.ir.asm = .ok asm)
      (read : j.reading.outcome = .ok ())
      (ran : (j.passes s.attempted.length).outcome = .ok ())
      (files : s'.files = s.files) (stderr : s'.stderr = s.stderr) :
      j.Ends s (.ok (j.passes s.attempted.length).ir) s'
  | unread {asm : String} {e : Fault} {s' : Shop} (printed : j.ir.asm = .ok asm)
      (read : j.reading.outcome = .error e)
      (left : s.Leaves s' (j.ir.name ++ ".mlir") asm) :
      j.Ends s (.error (j.report j.reading.diagnostics)) s'
  | stopped {asm : String} {e : Fault} {s' : Shop} (printed : j.ir.asm = .ok asm)
      (read : j.reading.outcome = .ok ())
      (ran : (j.passes s.attempted.length).outcome = .error e)
      (left : s.Leaves s' (j.ir.name ++ ".mlir") asm) :
      j.Ends s (.error (j.report (j.reading.diagnostics ++
        (j.passes s.attempted.length).diagnostics))) s'
  /-- No report, and an empty file. -/
  | unprinted {e : Fault} {s' : Shop} (printed : j.ir.asm = .error e)
      (left : s.Leaves s' (j.ir.name ++ ".mlir") "") : j.Ends s (.error .unbound) s'

/-! ## One run -/

section

variable {j : Trial} {s : Shop} {e : Fault}

theorem Trial.effect_of_unread (h : j.reading.outcome = .error e) (n : Nat) :
    j.effect n = ⟨j.reading.diagnostics, j.ir, .error e⟩ := Toolchain.runs_of_unread h

theorem Trial.effect_of_read (h : j.reading.outcome = .ok ()) (n : Nat) :
    j.effect n = { j.passes n with
      diagnostics := j.reading.diagnostics ++ (j.passes n).diagnostics } :=
  Toolchain.runs_of_read h

theorem leaves_of_lookup {s' : Shop} {file text : String} (hstderr : s'.stderr = s.stderr)
    (h : ∀ f, s'.files.lookup f = if f == file then some text else s.files.lookup f) :
    s.Leaves s' file text := by
  refine ⟨hstderr, ?_, fun f hf => ?_⟩
  · rw [h, if_pos (beq_self_eq_true file)]
  · rw [h, if_neg (mt beq_iff_eq.mp hf)]

/-- A run is what the stage does with the module. -/
theorem Trial.run_of_eq {out : Except Fault Unit} {d : Desk}
    (h : runStage j.tools j.stage (.start s j.ir) = (out, d)) :
    j.run s = (out.map fun () => d.ir, d.shop) := by
  rw [Trial.run, h]

/-- What was printed is reported, whether the pipeline was read or not. -/
theorem Trial.run_of_printed (hplain : '/' ∉ j.ir.name.toList) {asm : String}
    (hasm : j.ir.asm = .ok asm) (hfails : (j.effect s.attempted.length).outcome = .error e) :
    ∃ s', j.run s = (.error (j.report (j.effect s.attempted.length).diagnostics), s') ∧
      s.Leaves s' (j.ir.name ++ ".mlir") asm := by
  have hruns : (j.tools.runs s.attempted.length j.stage.pipeline j.ir).outcome = .error e := hfails
  have hstage := runStage_of_error (d := .start s j.ir) hplain hasm hruns
  refine ⟨_, Trial.run_of_eq hstage, leaves_of_lookup rfl fun f => ?_⟩
  -- the file is opened, which empties it, and then written
  show (Table.set (j.ir.name ++ ".mlir") asm (Table.set (j.ir.name ++ ".mlir") "" s.files)).lookup f
    = _
  rw [Table.lookup_set, Table.lookup_set]
  split <;> rfl

/-- The handler finds no text where none was taken, and fails after it opened the
    file. -/
theorem reportFailure_of_none {i : Ir} (h : '/' ∉ i.name.toList) {d : Desk}
    (hkept : d.kept = none) (t : Toolchain) (st : Stage) :
    reportFailure t st i.name d
      = (.error .unbound, { d with shop := { d.shop with
          files := Table.set i.reportFile "" d.shop.files } }) := by
  obtain ⟨shop, now, kept⟩ := d
  obtain rfl : kept = none := hkept
  exact Run.bind_of_ok (openFile_of_plain (Ir.plain_reportFile h) _)

/-- Where nothing was printed no pipeline is run, and the handler fails. -/
theorem Trial.run_of_unprinted (hplain : '/' ∉ j.ir.name.toList) (hasm : j.ir.asm = .error e) :
    ∃ s', j.run s = (.error .unbound, s') ∧ s.Leaves s' (j.ir.name ++ ".mlir") "" := by
  have hbody : (keepText >>= fun _ => runPipeline j.tools j.stage.pipeline)
      ((Desk.start s j.ir).onStream (.buffer ""))
      = (.error e, (Desk.start s j.ir).onStream (.buffer "")) := by
    refine Run.bind_of_error ?_
    show ((j.ir.asm : Run Desk String) >>= fun text =>
      modify fun d => { d with kept := some text }) _ = _
    rw [hasm]
    rfl
  have hstage : runStage j.tools j.stage (.start s j.ir)
      = (.error .unbound,
          .start { s with files := Table.set j.ir.reportFile "" s.files } j.ir) := by
    have hhandle := reportFailure_of_none (i := (Desk.start s j.ir).ir) hplain
      (d := (Desk.start s j.ir).onStream (.buffer "")) rfl j.tools j.stage
    refine (runStage_eq ..).trans ((redirected_of_error hbody).trans ?_)
    rw [hhandle]
    rfl
  exact ⟨_, Trial.run_of_eq hstage, leaves_of_lookup rfl fun f => Table.lookup_set _ f "" s.files⟩

/-- **ONE RUN**: how it ends, in whatever surroundings it starts. -/
theorem Trial.run_ends (hplain : '/' ∉ j.ir.name.toList) (s : Shop) :
    j.Ends s (j.run s).1 (j.run s).2 := by
  cases hasm : j.ir.asm with
  | error e =>
      obtain ⟨s', hrun, hleft⟩ := Trial.run_of_unprinted (s := s) hplain hasm
      rw [hrun]
      exact .unprinted hasm hleft
  | ok asm =>
      cases hread : j.reading.outcome with
      | error e =>
          have heffect := j.effect_of_unread hread s.attempted.length
          obtain ⟨s', hrun, hleft⟩ :=
            Trial.run_of_printed (s := s) hplain hasm (congrArg Effect.outcome heffect)
          rw [hrun, heffect]
          exact .unread hasm hread hleft
      | ok u =>
          have heffect := j.effect_of_read hread s.attempted.length
          cases hran : (j.passes s.attempted.length).outcome with
          | error e =>
              obtain ⟨s', hrun, hleft⟩ := Trial.run_of_printed (s := s) hplain hasm
                ((congrArg Effect.outcome heffect).trans hran)
              rw [hrun, heffect]
              exact .stopped hasm hread hran hleft
          | ok u =>
              have hruns :
                  (j.tools.runs s.attempted.length j.stage.pipeline j.ir).outcome = .ok () :=
                (congrArg Effect.outcome heffect).trans hran
              have hstage := runStage_of_ok (d := .start s j.ir) hasm hruns
              rw [Trial.run_of_eq hstage]
              show j.Ends s (.ok (j.effect s.attempted.length).ir) _
              rw [heffect]
              exact .passed hasm hread hran rfl rfl

end

/-! ## When failures are reported -/

/-- A run of a stage is reported: if it fails, then with the report, and no file
    that held something is empty afterwards. -/
structure Trial.Reported (j : Trial) (s : Shop) : Prop where
  fault : ∀ e, (j.run s).1 = .error e → e = j.report (j.effect s.attempted.length).diagnostics
  kept : ∀ f text, s.files.lookup f = some text → text ≠ "" →
    (j.run s).2.files.lookup f ≠ some ""

/-- A file that held something is not emptied by a text that is put into one. -/
theorem Shop.Leaves.ne_empty {s s' : Shop} {file asm f text : String} (h : s.Leaves s' file asm)
    (hasm : asm ≠ "") (hf : s.files.lookup f = some text) (htext : text ≠ "") :
    s'.files.lookup f ≠ some "" := by
  by_cases hfile : f = file
  · rw [hfile, h.held]
    exact fun heq => hasm (Option.some.inj heq)
  · rw [h.others f hfile, hf]
    exact fun heq => htext (Option.some.inj heq)

/-- **A RUN IS REPORTED EXACTLY IF ITS MODULE CAN BE PRINTED.** -/
theorem Trial.reported_iff {j : Trial} (hplain : '/' ∉ j.ir.name.toList)
    (htext : j.ir.asm ≠ .ok "") (s : Shop) : j.Reported s ↔ ∃ asm, j.ir.asm = .ok asm := by
  have hends := Trial.run_ends hplain s
  constructor
  · intro h
    have hfault := h.fault
    generalize (j.run s).1 = r at hends hfault
    cases hends with
    | passed printed | unread printed | stopped printed => exact ⟨_, printed⟩
    | unprinted printed left => exact nomatch hfault _ rfl
  · rintro ⟨asm, hasm⟩
    have hne : asm ≠ "" := fun heq => htext (hasm.trans (congrArg Except.ok heq))
    suffices h : ∀ r s', j.Ends s r s' →
        (∀ e, r = .error e → e = j.report (j.effect s.attempted.length).diagnostics) ∧
          ∀ f text, s.files.lookup f = some text → text ≠ "" → s'.files.lookup f ≠ some "" from
      ⟨(h _ _ hends).1, (h _ _ hends).2⟩
    intro r s' hends
    cases hends with
    | passed printed read ran files stderr =>
        refine ⟨fun e he => (nomatch he), fun f text hf htext => ?_⟩
        rw [files, hf]
        exact fun heq => htext (Option.some.inj heq)
    | unread printed read left =>
        cases printed.symm.trans hasm
        refine ⟨fun e he => ?_, fun f text => left.ne_empty hne⟩
        cases he
        rw [j.effect_of_unread read]
    | stopped printed read ran left =>
        cases printed.symm.trans hasm
        refine ⟨fun e he => ?_, fun f text => left.ne_empty hne⟩
        cases he
        rw [j.effect_of_read read]
    | unprinted printed left => exact nomatch printed.symm.trans hasm

/-! ## Runs one after the other -/

/-- Runs one after the other; what one of them fails with is its outcome, and
    the next one goes on in the surroundings that it left. -/
def runTrials : List Trial → Shop → List (Except Fault Ir) × Shop
  | [], s => ([], s)
  | j :: rest, s =>
      let (r, s₁) := j.run s
      let (rs, s') := runTrials rest s₁
      (r :: rs, s')

/-- How runs end one after the other. -/
inductive TrialsEnd : List Trial → Shop → List (Except Fault Ir) → Shop → Prop where
  | nil (s : Shop) : TrialsEnd [] s [] s
  | cons {j : Trial} {rest : List Trial} {s s₁ s' : Shop} {r : Except Fault Ir}
      {rs : List (Except Fault Ir)} (first : j.Ends s r s₁) (more : TrialsEnd rest s₁ rs s') :
      TrialsEnd (j :: rest) s (r :: rs) s'

/-- All runs are reported, each in the surroundings that it finds. -/
def AllReported : List Trial → Shop → Prop
  | [], _ => True
  | j :: rest, s => j.Reported s ∧ AllReported rest (j.run s).2

theorem runTrials_end {trials : List Trial} (h : ∀ j ∈ trials, '/' ∉ j.ir.name.toList)
    (s : Shop) : TrialsEnd trials s (runTrials trials s).1 (runTrials trials s).2 := by
  induction trials generalizing s with
  | nil => exact .nil s
  | cons j rest ih =>
      obtain ⟨hj, hrest⟩ := List.forall_mem_cons.mp h
      exact .cons (Trial.run_ends hj s) (ih hrest (j.run s).2)

theorem allReported_iff {trials : List Trial} (hplain : ∀ j ∈ trials, '/' ∉ j.ir.name.toList)
    (htext : ∀ j ∈ trials, j.ir.asm ≠ .ok "") (s : Shop) :
    AllReported trials s ↔ ∀ j ∈ trials, ∃ asm, j.ir.asm = .ok asm := by
  induction trials generalizing s with
  | nil => exact iff_of_true trivial fun j hj => nomatch hj
  | cons j rest ih =>
      obtain ⟨hj, hrest⟩ := List.forall_mem_cons.mp hplain
      obtain ⟨htj, htrest⟩ := List.forall_mem_cons.mp htext
      rw [List.forall_mem_cons, ← Trial.reported_iff hj htj s, ← ih hrest htrest (j.run s).2]
      rfl

/-- **FAILURES ARE REPORTED EXACTLY IF MODULES CAN BE PRINTED.**  Run any stages
    on any modules whose names are plain names of files, one after the other.  A
    run that fails to read or to run its pipeline ends with the report, and the
    file holds the module as it was printed.  A run that fails to print its
    module ends with another fault and empties the file.  So all failures are
    reported, and no file that holds something is ever emptied, exactly if all
    modules can be printed. -/
theorem failures_reported_iff (trials : List Trial)
    (hplain : ∀ j ∈ trials, '/' ∉ j.ir.name.toList) (htext : ∀ j ∈ trials, j.ir.asm ≠ .ok "")
    (s : Shop) :
    TrialsEnd trials s (runTrials trials s).1 (runTrials trials s).2 ∧
      (AllReported trials s ↔ ∀ j ∈ trials, ∃ asm, j.ir.asm = .ok asm) :=
  ⟨runTrials_end hplain s, allReported_iff hplain htext s⟩

/-- A compiler that cannot read the pipeline `fuze` and marks the module with
    others, but fails at `fuse` after that; it writes a line each time. -/
def pickyTools : Toolchain where
  tempDir := "/tmp"
  importDiagnostics := ""
  imported := .error ""
  reads := fun pipeline =>
    if pipeline = "fuze" then ⟨"no such pass", .error (.runtime "")⟩ else ⟨"", .ok ()⟩
  passes := fun _ pipeline ir =>
    ⟨"ran " ++ pipeline, { ir with asm := ir.asm.map (· ++ " | " ++ pipeline) },
      if pipeline = "fuse" then .error (.runtime "") else .ok ()⟩

/-- A run of that compiler on a module with the name `Net`. -/
def pickyTrial (pipeline : String) (asm : Except Fault String) : Trial where
  tools := pickyTools
  stage := ⟨pipeline, "Lowering"⟩
  ir := ⟨some "Net", asm⟩

/-- A run that passes, and two that fail at different steps. -/
def pickyTrials : List Trial :=
  [pickyTrial "inline" (.ok "whole"), pickyTrial "fuze" (.ok "inlined"),
    pickyTrial "fuse" (.ok "inlined")]

theorem failures_reported_iff_picky :
    (∀ j ∈ pickyTrials, '/' ∉ j.ir.name.toList) ∧ (∀ j ∈ pickyTrials, j.ir.asm ≠ .ok "") ∧
      TrialsEnd pickyTrials .fresh (runTrials pickyTrials .fresh).1
        (runTrials pickyTrials .fresh).2 ∧
      AllReported pickyTrials .fresh ∧
      (runTrials pickyTrials .fresh).2.files = [("Net.mlir", "inlined")] := by
  have hplain : ∀ j ∈ pickyTrials, '/' ∉ j.ir.name.toList := by
    simp only [pickyTrials, List.forall_mem_cons]
    exact ⟨by decide, by decide, by decide, fun j hj => (nomatch hj)⟩
  have htext : ∀ j ∈ pickyTrials, j.ir.asm ≠ .ok "" := by
    simp [pickyTrials, pickyTrial]
  have hprinted : ∀ j ∈ pickyTrials, ∃ asm, j.ir.asm = .ok asm := by
    simp [pickyTrials, pickyTrial]
  obtain ⟨hends, hiff⟩ := failures_reported_iff pickyTrials hplain htext .fresh
  exact ⟨hplain, htext, hends, hiff.mpr hprinted, by decide +kernel⟩

/-- A module that cannot be printed: the fault that leaves the run is not the
    report, and the file that an earlier failure left is empty. -/
theorem unprinted_failure_unreported :
    let earlier := (runTrials pickyTrials .fresh).2
    let trial := pickyTrial "inline" (.error (.runtime "cannot print"))
    '/' ∉ trial.ir.name.toList ∧ earlier.files.lookup "Net.mlir" = some "inlined" ∧
      (trial.run earlier).1 = .error .unbound ∧ (∀ text, .unbound ≠ trial.report text) ∧
      (trial.run earlier).2.files.lookup "Net.mlir" = some "" := by
  refine ⟨by decide, by decide +kernel, rfl, ?_, by decide +kernel⟩
  intro text heq
  exact nomatch heq

end DialectBench.Pipeline
