import DialectBench.Proofs.Replay

/-!
# Compilation stops cleanly

    A compilation imports a program and runs stages on it.  What the stages do to
    the module alone, without streams and files, is a fold of their effects.  A
    compilation follows that fold up to the first stage that fails, and stops
    there with a report: what the stage wrote to the error stream, and a file
    with the module as it was when the stage began.  A stage that fails may have
    CHANGED the module before it did; but the text for the file was taken before
    that.  The error stream is then what it was, whether the compilation stopped
    or not, so that the next compilation finds nothing left of this one but the
    list of pipelines and the files.
-/

namespace DialectBench

namespace Pipeline

/-- A module that can be reported: its name is a plain name of a file, and it
    can be printed. -/
structure Ir.Reportable (ir : Ir) : Prop where
  plain : '/' ∉ ir.name.toList
  printed : ∃ asm, ir.asm = .ok asm

/-- A compiler whose modules can all be reported, as far as the compilation goes
    on with them. -/
structure Toolchain.Reports (t : Toolchain) : Prop where
  imported : ∀ ir, t.imported = .ok ir → ir.Reportable
  passes : ∀ n pipeline ir, ir.Reportable → (t.passes n pipeline ir).outcome = .ok () →
    (t.passes n pipeline ir).ir.Reportable

/-- What reading a pipeline and running it does to a module, given how many
    pipelines were run before.  One that cannot be read is not run. -/
def Toolchain.runs (t : Toolchain) (n : Nat) (pipeline : String) (ir : Ir) : Effect :=
  match (t.reads pipeline).outcome with
  | .error e => ⟨(t.reads pipeline).diagnostics, ir, .error e⟩
  | .ok () =>
      { t.passes n pipeline ir with
        diagnostics := (t.reads pipeline).diagnostics ++ (t.passes n pipeline ir).diagnostics }

/-- The module after some stages, given how many pipelines were run before. -/
def Toolchain.after (t : Toolchain) : Nat → List Stage → Ir → Except Fault Ir
  | _, [], ir => .ok ir
  | n, st :: rest, ir =>
      match (t.runs n st.pipeline ir).outcome with
      | .error e => .error e
      | .ok () => t.after (n + 1) rest (t.runs n st.pipeline ir).ir

/-- The file for the report of a module. -/
def Ir.reportFile (ir : Ir) : String := ir.name ++ ".mlir"

/-- The compiler with another error stream. -/
def Desk.onStream (d : Desk) (stderr : Stderr) : Desk :=
  { d with shop := { d.shop with stderr } }

/-- The compiler after a pipeline that had an effect. -/
def Desk.ran (d : Desk) (pipeline : String) (e : Effect) : Desk where
  shop := { d.shop with
    attempted := d.shop.attempted ++ [pipeline]
    stderr := d.shop.stderr.write e.diagnostics }
  ir := e.ir
  kept := d.kept

section

variable {t : Toolchain} {st : Stage} {ir : Ir} {d d₁ : Desk} {e : Fault} {n : Nat}
  {pipeline : String}

theorem Toolchain.runs_of_unread (h : (t.reads pipeline).outcome = .error e) :
    t.runs n pipeline ir = ⟨(t.reads pipeline).diagnostics, ir, .error e⟩ := by
  rw [Toolchain.runs, h]

theorem Toolchain.runs_of_read (h : (t.reads pipeline).outcome = .ok ()) :
    t.runs n pipeline ir = { t.passes n pipeline ir with
      diagnostics := (t.reads pipeline).diagnostics ++ (t.passes n pipeline ir).diagnostics } := by
  rw [Toolchain.runs, h]

theorem Toolchain.after_cons {rest : List Stage}
    (h : (t.runs n st.pipeline ir).outcome = .ok ()) :
    t.after n (st :: rest) ir = t.after (n + 1) rest (t.runs n st.pipeline ir).ir := by
  rw [Toolchain.after, h]

theorem Toolchain.Reports.runs (ht : t.Reports) (hir : ir.Reportable)
    (h : (t.runs n pipeline ir).outcome = .ok ()) : (t.runs n pipeline ir).ir.Reportable := by
  cases hread : (t.reads pipeline).outcome with
  | error e =>
      rw [Toolchain.runs_of_unread hread] at h
      cases h
  | ok u =>
      rw [Toolchain.runs_of_read hread] at h ⊢
      exact ht.passes n pipeline ir hir h

theorem Stderr.write_append (s : Stderr) (first rest : String) :
    (s.write first).write rest = s.write (first ++ rest) := by
  cases s with
  | console => rfl
  | buffer old => exact congrArg Stderr.buffer String.append_assoc

theorem Ir.plain_reportFile (h : '/' ∉ ir.name.toList) : '/' ∉ ir.reportFile.toList := by
  intro hmem
  rw [Ir.reportFile, String.toList_append] at hmem
  rcases List.mem_append.mp hmem with hname | hend
  · exact h hname
  · exact absurd hend (by decide)

theorem Ir.fullName_reportFile (h : '/' ∉ ir.name.toList) (dir : String) :
    fullName dir ir.reportFile = dir ++ "/" ++ ir.reportFile := by
  refine if_neg fun hhead => Ir.plain_reportFile h ?_
  exact List.mem_of_head? (beq_iff_eq.mp hhead)

/-! ## One stage -/

theorem redirected_of_ok {body : Run Desk Unit} {handle : Fault → Run Desk Unit}
    (h : body (d.onStream (.buffer "")) = (.ok (), d₁)) :
    redirected body handle d = (.ok (), d₁.onStream d.shop.stderr) := by
  have h' : body { d with shop := { d.shop with stderr := .buffer "" } } = (.ok (), d₁) := h
  rw [redirected, h']
  rfl

theorem redirected_of_error {body : Run Desk Unit} {handle : Fault → Run Desk Unit}
    (h : body (d.onStream (.buffer "")) = (.error e, d₁)) :
    redirected body handle d
      = ((handle e d₁).1, (handle e d₁).2.onStream d.shop.stderr) := by
  have h' : body { d with shop := { d.shop with stderr := .buffer "" } } = (.error e, d₁) := h
  rw [redirected, h']
  rfl

/-- A result that is brought into work on the compiler. -/
theorem lift_eq (x : Except Fault Unit) (d : Desk) : (x : Run Desk Unit) d = (x, d) := by
  cases x <;> rfl

theorem readPipeline_eq (t : Toolchain) (pipeline : String) (d : Desk) :
    readPipeline t pipeline d = ((t.reads pipeline).outcome,
      d.onStream (d.shop.stderr.write (t.reads pipeline).diagnostics)) :=
  lift_eq (t.reads pipeline).outcome _

theorem runPasses_eq (t : Toolchain) (n : Nat) (pipeline : String) (d : Desk) :
    runPasses t n pipeline d = ((t.passes n pipeline d.ir).outcome,
      { d.onStream (d.shop.stderr.write (t.passes n pipeline d.ir).diagnostics) with
        ir := (t.passes n pipeline d.ir).ir }) :=
  lift_eq (t.passes n pipeline d.ir).outcome _

/-- Reading and running a pipeline does to the compiler what it does to the
    module, and nothing else. -/
theorem runPipeline_eq (t : Toolchain) (pipeline : String) (d : Desk) :
    runPipeline t pipeline d
      = ((t.runs d.shop.attempted.length pipeline d.ir).outcome,
        d.ran pipeline (t.runs d.shop.attempted.length pipeline d.ir)) := by
  have hread := readPipeline_eq t pipeline { d with shop := { d.shop with
    attempted := d.shop.attempted ++ [pipeline] } }
  show (readPipeline t pipeline >>= fun _ => runPasses t d.shop.attempted.length pipeline) _ = _
  cases houtcome : (t.reads pipeline).outcome with
  | error e =>
      rw [houtcome] at hread
      rw [Toolchain.runs_of_unread houtcome]
      exact Run.bind_of_error hread
  | ok u =>
      rw [houtcome] at hread
      rw [Toolchain.runs_of_read houtcome]
      refine (Run.bind_of_ok hread).trans ((runPasses_eq ..).trans ?_)
      -- what is written while it runs stands behind what is written as it is read
      show (_, Desk.mk
        { d.shop with attempted := _, stderr := (d.shop.stderr.write _).write _ } _ _) = _
      rw [Stderr.write_append]
      rfl

/-- A stage works with an error stream of its own. -/
theorem runStage_eq (t : Toolchain) (st : Stage) (d : Desk) :
    runStage t st d = redirected (keepText >>= fun _ => runPipeline t st.pipeline)
      (fun _ => reportFailure t st d.ir.name) { d with kept := none } := rfl

/-- The guarded work of a stage on a module that can be printed: its text is
    taken as it is on entry, and then the pipeline changes it. -/
theorem guarded_of_printed {asm : String} (hasm : d.ir.asm = .ok asm) (t : Toolchain)
    (pipeline : String) :
    (keepText >>= fun _ => runPipeline t pipeline)
        (Desk.onStream { d with kept := none } (.buffer ""))
      = ((t.runs d.shop.attempted.length pipeline d.ir).outcome,
        ⟨{ d.shop with
            attempted := d.shop.attempted ++ [pipeline]
            stderr := .buffer (t.runs d.shop.attempted.length pipeline d.ir).diagnostics },
          (t.runs d.shop.attempted.length pipeline d.ir).ir, some asm⟩) := by
  have hkeep : keepText (Desk.onStream { d with kept := none } (.buffer ""))
      = (.ok (), Desk.onStream { d with kept := some asm } (.buffer "")) := by
    show ((d.ir.asm : Run Desk String) >>= fun text =>
      modify fun d => { d with kept := some text }) _ = _
    rw [hasm]
    rfl
  refine (Run.bind_of_ok hkeep).trans ((runPipeline_eq ..).trans ?_)
  -- the stream was empty when the stage began, so that it holds what the stage wrote
  show (_, Desk.mk { d.shop with attempted := _, stderr := .buffer ("" ++ _) } _ _) = _
  rw [String.empty_append]
  rfl

/-- A stage that passes leaves the changed module, and nothing else behind but
    its pipeline in the list. -/
theorem runStage_of_ok {asm : String} (hasm : d.ir.asm = .ok asm)
    (hruns : (t.runs d.shop.attempted.length st.pipeline d.ir).outcome = .ok ()) :
    runStage t st d
      = (.ok (), ⟨{ d.shop with attempted := d.shop.attempted ++ [st.pipeline] },
        (t.runs d.shop.attempted.length st.pipeline d.ir).ir, some asm⟩) := by
  have hbody := guarded_of_printed hasm t st.pipeline
  rw [hruns] at hbody
  exact (runStage_eq t st d).trans (redirected_of_ok hbody)

theorem openFile_of_plain {file : String} (h : '/' ∉ file.toList) (d : Desk) :
    openFile file d
      = (.ok (), { d with shop := { d.shop with files := Table.set file "" d.shop.files } }) := by
  rw [openFile, if_neg fun hmem => h (List.contains_iff_mem.mp hmem)]
  rfl

/-- The report of a failure holds the text that was taken before. -/
theorem reportFailure_of_kept (h : '/' ∉ ir.name.toList) {asm : String} (hkept : d.kept = some asm)
    (t : Toolchain) (st : Stage) :
    reportFailure t st ir.name d
      = (.error (.general (st.report d.shop.stderr.contents
          (t.tempDir ++ "/" ++ ir.reportFile))),
        { d with shop := { d.shop with
          files := Table.set ir.reportFile asm (Table.set ir.reportFile "" d.shop.files) } }) := by
  obtain ⟨shop, now, kept⟩ := d
  obtain rfl : kept = some asm := hkept
  refine (Run.bind_of_ok (openFile_of_plain (Ir.plain_reportFile h) _)).trans ?_
  rw [← Ir.fullName_reportFile h]
  rfl

/-- A stage that fails leaves its pipeline in the list, too, the module as it
    made it, and the file with the module as it was on entry. -/
theorem runStage_of_error (hplain : '/' ∉ d.ir.name.toList) {asm : String}
    (hasm : d.ir.asm = .ok asm)
    (hruns : (t.runs d.shop.attempted.length st.pipeline d.ir).outcome = .error e) :
    runStage t st d
      = (.error (.general (st.report
          (t.runs d.shop.attempted.length st.pipeline d.ir).diagnostics
          (t.tempDir ++ "/" ++ d.ir.reportFile))),
        ⟨{ d.shop with
            attempted := d.shop.attempted ++ [st.pipeline]
            files := Table.set d.ir.reportFile asm (Table.set d.ir.reportFile "" d.shop.files) },
          (t.runs d.shop.attempted.length st.pipeline d.ir).ir, some asm⟩) := by
  have hbody := guarded_of_printed hasm t st.pipeline
  rw [hruns] at hbody
  rw [runStage_eq, redirected_of_error hbody, reportFailure_of_kept hplain rfl]
  rfl

end

/-! ## Stages one after the other -/

/-- A run of stages stopped at one of them.  The stages before it passed, and it
    failed on the module that they left, which it may have changed; all
    pipelines up to its own were run; the error stream is what it was; and of
    the files only the one for the report was written, with the module as it was
    when the stage began. -/
structure StopsAt (t : Toolchain) (stages : List Stage) (d : Desk) (k : Nat) (st : Stage)
    (entry : Ir) (d' : Desk) : Prop where
  stage : stages[k]? = some st
  before : t.after d.shop.attempted.length (stages.take k) d.ir = .ok entry
  fails : ∃ e, (t.runs (d.shop.attempted.length + k) st.pipeline entry).outcome = .error e
  left : d'.ir = (t.runs (d.shop.attempted.length + k) st.pipeline entry).ir
  attempted : d'.shop.attempted
    = d.shop.attempted ++ (stages.take (k + 1)).map Stage.pipeline
  stderr : d'.shop.stderr = d.shop.stderr
  file : ∃ asm, entry.asm = .ok asm ∧ d'.shop.files.lookup entry.reportFile = some asm
  others : ∀ f, f ≠ entry.reportFile → d'.shop.files.lookup f = d.shop.files.lookup f

section

variable {t : Toolchain} {st : Stage} {d : Desk}

/-- Stopping at the first stage. -/
theorem stopsAt_zero (rest : List Stage) (hir : d.ir.Reportable) {e : Fault}
    (hruns : (t.runs d.shop.attempted.length st.pipeline d.ir).outcome = .error e) :
    ∃ d', StopsAt t (st :: rest) d 0 st d.ir d' ∧ runStage t st d
      = (.error (.general (st.report
          (t.runs d.shop.attempted.length st.pipeline d.ir).diagnostics
          (t.tempDir ++ "/" ++ d.ir.reportFile))), d') := by
  obtain ⟨asm, hasm⟩ := hir.printed
  refine ⟨_, ?_, runStage_of_error hir.plain hasm hruns⟩
  refine ⟨rfl, rfl, ⟨e, hruns⟩, rfl, rfl, rfl, ⟨asm, hasm, ?_⟩, fun f hf => ?_⟩
  · rw [Table.lookup_set, if_pos (beq_self_eq_true _)]
  · have hne : ¬ (f == d.ir.reportFile) = true := fun h => hf (beq_iff_eq.mp h)
    rw [Table.lookup_set, if_neg hne, Table.lookup_set, if_neg hne]

/-- Stopping at a later stage, after the first one passed. -/
theorem StopsAt.succ {rest : List Stage} {k : Nat} {st' : Stage} {entry : Ir} {d₁ d' : Desk}
    (hruns : (t.runs d.shop.attempted.length st.pipeline d.ir).outcome = .ok ())
    (hshop : d₁.shop = { d.shop with attempted := d.shop.attempted ++ [st.pipeline] })
    (hir : d₁.ir = (t.runs d.shop.attempted.length st.pipeline d.ir).ir)
    (h : StopsAt t rest d₁ k st' entry d') : StopsAt t (st :: rest) d (k + 1) st' entry d' := by
  have hlen : d₁.shop.attempted.length = d.shop.attempted.length + 1 := by
    rw [hshop]
    exact List.length_append
  obtain ⟨hstage, hbefore, hfails, hleft, hattempted, hstderr, hfile, hothers⟩ := h
  rw [hlen, hir] at hbefore
  rw [hlen, Nat.add_right_comm] at hfails hleft
  rw [hshop] at hattempted hstderr hothers
  refine ⟨hstage, ?_, hfails, hleft, ?_, hstderr, hfile, hothers⟩
  · rw [List.take_succ_cons, Toolchain.after_cons hruns]
    exact hbefore
  · rw [hattempted, List.take_succ_cons, List.map_cons, List.append_assoc]
    rfl

end

/-- **STAGES STOP AT THE FIRST THAT FAILS.**  Induction on the stages: each one
    that passes leaves a module that can be reported. -/
theorem runStages_cases {t : Toolchain} (ht : t.Reports) (stages : List Stage) {d : Desk}
    (hir : d.ir.Reportable) :
    (∃ ir' kept, t.after d.shop.attempted.length stages d.ir = .ok ir' ∧ runStages t stages d
      = (.ok (), ⟨{ d.shop with
          attempted := d.shop.attempted ++ stages.map Stage.pipeline }, ir', kept⟩)) ∨
    ∃ k st entry d', StopsAt t stages d k st entry d' ∧ runStages t stages d
      = (.error (.general (st.report
          (t.runs (d.shop.attempted.length + k) st.pipeline entry).diagnostics
          (t.tempDir ++ "/" ++ entry.reportFile))), d') := by
  induction stages generalizing d with
  | nil =>
      refine .inl ⟨d.ir, d.kept, rfl, ?_⟩
      rw [List.map_nil, List.append_nil]
      rfl
  | cons st rest ih =>
      cases hruns : (t.runs d.shop.attempted.length st.pipeline d.ir).outcome with
      | error e =>
          obtain ⟨d', hstop, hrun⟩ := stopsAt_zero rest hir hruns
          exact .inr ⟨0, st, d.ir, d', hstop, Run.bind_of_error hrun⟩
      | ok u =>
          obtain ⟨asm, hasm⟩ := hir.printed
          have hlen : (d.shop.attempted ++ [st.pipeline]).length = d.shop.attempted.length + 1 :=
            List.length_append
          have hstep := runStage_of_ok hasm hruns
          rcases ih (d := ⟨{ d.shop with attempted := d.shop.attempted ++ [st.pipeline] },
              (t.runs d.shop.attempted.length st.pipeline d.ir).ir, some asm⟩)
              (ht.runs hir hruns) with
            ⟨ir', kept, hafter, hrun⟩ | ⟨k, st', entry, d', hstop, hrun⟩
          · refine .inl ⟨ir', kept, ?_, (Run.bind_of_ok hstep).trans (hrun.trans ?_)⟩
            · rw [Toolchain.after_cons hruns, ← hlen]
              exact hafter
            · rw [List.map_cons, List.append_assoc]
              rfl
          · refine .inr ⟨k + 1, st', entry, d', hstop.succ hruns rfl rfl, ?_⟩
            rw [hlen, Nat.add_right_comm] at hrun
            exact (Run.bind_of_ok hstep).trans hrun

theorem runStages_append (t : Toolchain) (first rest : List Stage) :
    runStages t (first ++ rest) = runStages t first >>= fun _ => runStages t rest := by
  induction first with
  | nil => rfl
  | cons st first ih =>
      rw [List.cons_append, runStages, runStages, bind_assoc, ih]

/-! ## The import -/

theorem importProgram_of_ok {t : Toolchain} {ir : Ir} (h : t.imported = .ok ir) (d : Desk) :
    importProgram t d = (.ok (), { d with ir }) := by
  rw [importProgram, h]
  rfl

/-- An import that fails says why, with what it wrote to the error stream. -/
theorem importProgram_of_error {t : Toolchain} {reason : String}
    (h : t.imported = .error reason) (d : Desk) :
    importProgram t d = (.error (.general (importReport reason t.importDiagnostics)), d) := by
  rw [importProgram, h]
  show (Except.error (Fault.general (importReport reason ("" ++ t.importDiagnostics))), d) = _
  rw [String.empty_append]

end Pipeline

/-! ## Compilations -/

/-- A compilation: the compiler, the form that the backend takes, the backend
    and the program. -/
structure Job where
  tools : Pipeline.Toolchain
  dialect : Pipeline.Dialect
  backend : Backend
  program : Program

namespace Job

/-- The stages that a program goes through after the import: to the form that
    all backends start from, to the form that this one takes, and the stages of
    the backend itself. -/
def stages (j : Job) : List Pipeline.Stage :=
  Pipeline.frontStage :: j.dialect.stage :: j.backend.stages

/-- Compiles the program as the configuration does. -/
def compile (j : Job) : Run World Unit :=
  (backendConfig j.tools j.dialect j.backend).compile j.program

/-- The import and all stages, as work on the compiler. -/
def work (j : Job) : Run Pipeline.Desk Unit := do
  Pipeline.importProgram j.tools
  Pipeline.runStages j.tools j.stages

theorem compile_eq (j : Job) : j.compile = (do
    let _ ← j.program.notices
    let _ ← onShop (Pipeline.onNewModule j.work)
    return ()) := by
  have hstages : (do
      Pipeline.lower j.tools j.dialect
      Pipeline.runStages j.tools j.backend.stages : Run Pipeline.Desk Unit) = j.work := by
    rw [Pipeline.lower, bind_assoc, ← Pipeline.runStages_append]
    rfl
  rw [← hstages]
  show (j.program.lower j.tools j.dialect j.backend.stages >>= fun _ => pure ()) = _
  unfold Program.lower
  simp only [bind_assoc, pure_bind]

/-- How a compilation ends, and in which world: what it leaves behind is the
    list of pipelines and, if a stage failed, the file of the report. -/
inductive Ends (j : Job) (w : World) : Except Fault Unit → World → Prop where
  /-- The compiler cannot be told what it has to know of the program. -/
  | refused {e : Fault} (told : j.program.notices w = (.error e, w)) : j.Ends w (.error e) w
  | unimported {notices : List Notes.Notice} {reason : String}
      (told : j.program.notices w = (.ok notices, w))
      (imported : j.tools.imported = .error reason) :
      j.Ends w (.error (.general (Pipeline.importReport reason j.tools.importDiagnostics))) w
  | compiled {notices : List Notes.Notice} {ir ir' : Pipeline.Ir}
      (told : j.program.notices w = (.ok notices, w)) (imported : j.tools.imported = .ok ir)
      (passed : j.tools.after w.shop.attempted.length j.stages ir = .ok ir') :
      j.Ends w (.ok ()) { w with shop := { w.shop with
        attempted := w.shop.attempted ++ j.stages.map Pipeline.Stage.pipeline } }
  | stopped {notices : List Notes.Notice} {ir entry : Pipeline.Ir} {k : Nat}
      {st : Pipeline.Stage} {d : Pipeline.Desk} (told : j.program.notices w = (.ok notices, w))
      (imported : j.tools.imported = .ok ir)
      (stop : Pipeline.StopsAt j.tools j.stages (.start w.shop ir) k st entry d) :
      j.Ends w (.error (.general ("\n" ++ st.description ++
        " failed with the following diagnostics:\n" ++
        (j.tools.runs (w.shop.attempted.length + k) st.pipeline entry).diagnostics ++
        "\n\nError can be reproduced with:\n$ torch-mlir-opt -pass-pipeline='" ++ st.pipeline ++
        "' " ++ (j.tools.tempDir ++ "/" ++ (entry.name ++ ".mlir")) ++ "\n")))
        { w with shop := d.shop }

theorem Ends.stderr_eq {j : Job} {w w' : World} {r : Except Fault Unit} (h : j.Ends w r w') :
    w'.shop.stderr = w.shop.stderr := by
  cases h with
  | refused told => rfl
  | unimported told imported => rfl
  | compiled told imported passed => rfl
  | stopped told imported stop => exact stop.stderr

theorem notices_cases (p : Program) (w : World) :
    (∃ notices, p.notices w = (.ok notices, w)) ∨ ∃ e, p.notices w = (.error e, w) := by
  unfold Program.notices
  cases p.told.outcome with
  | error e => exact .inr ⟨e, rfl⟩
  | ok u => exact .inl ⟨_, rfl⟩

theorem compile_of_told {j : Job} {w : World} {notices : List Notes.Notice}
    {r : Except Fault Unit} {d : Pipeline.Desk} (told : j.program.notices w = (.ok notices, w))
    (h : j.work (.start w.shop .empty) = (r, d)) :
    j.compile w = (r, { w with shop := d.shop }) := by
  have hshop : onShop (Pipeline.onNewModule j.work) w
      = (r.map fun () => d.ir, { w with shop := d.shop }) := by
    rw [onShop, Pipeline.onNewModule, h]
  rw [compile_eq, Run.bind_of_ok told]
  cases r with
  | error e => exact Run.bind_of_error hshop
  | ok u => exact Run.bind_of_ok hshop

/-- **ONE COMPILATION**: where the import and the stages lead, in whatever world
    it starts. -/
theorem compile_ends {j : Job} (hj : j.tools.Reports) (w : World) :
    j.Ends w (j.compile w).1 (j.compile w).2 := by
  rcases notices_cases j.program w with ⟨notices, told⟩ | ⟨e, told⟩
  · cases himported : j.tools.imported with
    | error reason =>
        have hstop := Pipeline.importProgram_of_error himported (.start w.shop .empty)
        rw [compile_of_told told (Run.bind_of_error hstop)]
        exact .unimported told himported
    | ok ir =>
        have himport := Pipeline.importProgram_of_ok himported (.start w.shop .empty)
        rcases Pipeline.runStages_cases hj j.stages (d := .start w.shop ir)
            (hj.imported ir himported) with
          ⟨ir', kept, hpassed, hrun⟩ | ⟨k, st, entry, d, hstop, hrun⟩
        · rw [compile_of_told told ((Run.bind_of_ok himport).trans hrun)]
          exact .compiled told himported hpassed
        · rw [compile_of_told told ((Run.bind_of_ok himport).trans hrun)]
          exact .stopped told himported hstop
  · rw [compile_eq, Run.bind_of_error told]
    exact .refused told

end Job

/-- Compilations one after the other; what one of them fails with is its
    outcome, and the next one goes on in the world that it left. -/
def compileEach : List Job → World → List (Except Fault Unit) × World
  | [], w => ([], w)
  | j :: jobs, w =>
      let (r, w₁) := j.compile w
      let (rs, w') := compileEach jobs w₁
      (r :: rs, w')

/-- How compilations end one after the other.  Each finds the error stream that
    the first one found. -/
inductive EndInTurn : List Job → World → List (Except Fault Unit) → World → Prop where
  | nil (w : World) : EndInTurn [] w [] w
  | cons {j : Job} {jobs : List Job} {w w₁ w' : World} {r : Except Fault Unit}
      {rs : List (Except Fault Unit)} (first : j.Ends w r w₁)
      (stream : w₁.shop.stderr = w.shop.stderr) (rest : EndInTurn jobs w₁ rs w') :
      EndInTurn (j :: jobs) w (r :: rs) w'

theorem EndInTurn.stderr_eq {jobs : List Job} {w w' : World} {rs : List (Except Fault Unit)}
    (h : EndInTurn jobs w rs w') : w'.shop.stderr = w.shop.stderr := by
  induction h with
  | nil w => rfl
  | cons first stream rest ih => exact ih.trans stream

theorem compileEach_endInTurn {jobs : List Job} (h : ∀ j ∈ jobs, j.tools.Reports) (w : World) :
    EndInTurn jobs w (compileEach jobs w).1 (compileEach jobs w).2 := by
  induction jobs generalizing w with
  | nil => exact .nil w
  | cons j jobs ih =>
      obtain ⟨hj, hjobs⟩ := List.forall_mem_cons.mp h
      have hends := Job.compile_ends hj w
      exact .cons hends hends.stderr_eq (ih hjobs (j.compile w).2)

/-- **COMPILATION STOPS CLEANLY AT THE FIRST FAILING STAGE**: any compilations,
    with any compilers, forms, backends and programs, one after the other.  Each
    runs the pipelines up to the first one that fails and no more; then the
    fault names the stage, its pipeline, the file and what the stage wrote to
    the error stream, and the file holds the module as it was when the stage
    began, whatever the stage did to the module before it failed.  The error
    stream is in the end what it was in the beginning. -/
theorem compilation_stops_cleanly (jobs : List Job) (h : ∀ j ∈ jobs, j.tools.Reports)
    (w : World) : EndInTurn jobs w (compileEach jobs w).1 (compileEach jobs w).2 ∧
      (compileEach jobs w).2.shop.stderr = w.shop.stderr :=
  ⟨compileEach_endInTurn h w, (compileEach_endInTurn h w).stderr_eq⟩

/-- A compiler that writes a line with each pipeline and marks the module; at the
    fifth pipeline it fails after that. -/
def markingTools : Pipeline.Toolchain where
  tempDir := "/tmp"
  importDiagnostics := "imported"
  imported := .ok ⟨some "Net", .ok "net"⟩
  reads := fun pipeline => ⟨"read " ++ pipeline, .ok ()⟩
  passes := fun n pipeline ir =>
    ⟨", ran", { ir with asm := ir.asm.map (· ++ " | " ++ pipeline) },
      if n = 4 then .error (.runtime "") else .ok ()⟩

/-- A program, compiled for either of the two forms. -/
def markingJob (d : Pipeline.Dialect) : Job where
  tools := markingTools
  dialect := d
  backend := ⟨d.backendStages, .error .noAttribute⟩
  program := ticking

/-- A compilation that passes and one that stops at its second stage. -/
def markingJobs : List Job := [markingJob .linalg, markingJob .tosa]

theorem reports_markingTools : markingTools.Reports := by
  constructor
  · rintro ir ⟨⟩
    exact ⟨by decide, "net", rfl⟩
  · rintro n pipeline ir ⟨hplain, asm, hasm⟩ _
    refine ⟨hplain, asm ++ " | " ++ pipeline, ?_⟩
    show ir.asm.map _ = _
    rw [hasm]
    rfl

theorem compilation_stops_cleanly_marking :
    (∀ j ∈ markingJobs, j.tools.Reports) ∧
      (∀ pipeline ir, (markingTools.runs 4 pipeline ir).outcome = .error (.runtime "") ∧
        (markingTools.runs 4 pipeline ir).ir.asm = ir.asm.map (· ++ " | " ++ pipeline)) ∧
      EndInTurn markingJobs World.fresh (compileEach markingJobs World.fresh).1
        (compileEach markingJobs World.fresh).2 ∧
      (compileEach markingJobs World.fresh).2.shop.stderr = .console ∧
      (compileEach markingJobs World.fresh).2.shop.attempted.length = 5 ∧
      (compileEach markingJobs World.fresh).2.shop.files
        = [("Net.mlir", "net | torchscript-module-to-torch-backend-pipeline")] := by
  have hreports : ∀ j ∈ markingJobs, j.tools.Reports :=
    List.forall_mem_cons.mpr
      ⟨reports_markingTools, List.forall_mem_singleton.mpr reports_markingTools⟩
  obtain ⟨hends, hstderr⟩ := compilation_stops_cleanly markingJobs hreports World.fresh
  exact ⟨hreports, fun _ _ => ⟨rfl, rfl⟩, hends, hstderr, by decide +kernel, by decide +kernel⟩

end DialectBench
