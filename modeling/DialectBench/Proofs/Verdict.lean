import DialectBench.Report.Trace

/-! # What the verdict on a test says

    A test passes when its report holds no reason.  Each report walks two
    sequences in step and stops where the shorter one ends, so a passed test
    says something about the COMMON PART of the two traces only: there, call
    by call, the names agree, the arguments are as many, and neither an
    argument nor the result gives a reason.

    `failed_eq_false_iff` makes this exact.  Whether a passed test really
    matches its golden trace then hangs on the two lengths alone, and
    `missing_calls_pass` is a trace that makes no call at all and passes. -/

namespace DialectBench

variable {α β : Type}

/-! ## Sequences walked in step -/

/-- Elements of two sequences at equal positions are related; elements without
    a partner are free. -/
def InStep (R : α → β → Prop) (xs : List α) (ys : List β) : Prop :=
  ∀ (k : Nat) (x : α) (y : β), xs[k]? = some x → ys[k]? = some y → R x y

theorem inStep_nil_left (R : α → β → Prop) (ys : List β) :
    InStep R [] ys := by
  intro k x y hx
  exact nomatch hx

theorem inStep_nil_right (R : α → β → Prop) (xs : List α) :
    InStep R xs [] := by
  intro k x y _ hy
  exact nomatch hy

theorem inStep_cons (R : α → β → Prop) (x : α) (y : β)
    (xs : List α) (ys : List β) :
    InStep R (x :: xs) (y :: ys) ↔ R x y ∧ InStep R xs ys := by
  constructor
  · intro h
    refine ⟨h 0 x y rfl rfl, ?_⟩
    intro k a b ha hb
    exact h (k + 1) a b ha hb
  · rintro ⟨hxy, hrest⟩ k a b ha hb
    cases k with
    | zero =>
        obtain rfl : x = a := Option.some.inj ha
        obtain rfl : y = b := Option.some.inj hb
        exact hxy
    | succ k => exact hrest k a b ha hb

theorem bundle_eq_nil_iff (reasons : List String) :
    bundle reasons = [] ↔ reasons = [] := by
  cases reasons with
  | nil => exact Iff.rfl
  | cons r rs =>
      constructor
      · intro h
        exact nomatch h
      · intro h
        exact nomatch h

/-! ## Values and calls -/

section

variable [Gauge]

/-- No context finds a reason against a value. -/
def Passes (value golden : Value) : Prop :=
  ∀ c : Context, valueReasons c value golden = .ok []

/-- Contexts only word the findings, so one of them speaks for all. -/
theorem valueReasons_eq_nil_iff (c : Context) (value golden : Value) :
    valueReasons c value golden = .ok [] ↔ golden.test value = .ok [] := by
  show (golden.test value).map (fun fs => fs.map (Finding.report c))
    = .ok [] ↔ _
  cases h : golden.test value with
  | error e =>
      constructor
      · intro h'
        exact nomatch h'
      · intro h'
        exact nomatch h'
  | ok fs =>
      show (Except.ok (fs.map (Finding.report c)) : Except Fault _)
        = .ok [] ↔ _
      constructor
      · intro h'
        have hnil : fs.map (Finding.report c) = [] := Except.ok.inj h'
        rw [List.map_eq_nil_iff.mp hnil]
      · intro h'
        rw [Except.ok.inj h']
        rfl

theorem passes_iff (value golden : Value) :
    Passes value golden ↔ golden.test value = .ok [] := by
  constructor
  · intro h
    exact (valueReasons_eq_nil_iff .empty value golden).mp (h .empty)
  · intro h c
    exact (valueReasons_eq_nil_iff c value golden).mpr h

theorem valueReasons_eq_nil_iff_passes (c : Context) (value golden : Value) :
    valueReasons c value golden = .ok [] ↔ Passes value golden :=
  (valueReasons_eq_nil_iff c value golden).trans
    (passes_iff value golden).symm

/-- A call is the golden call: the same name, as many arguments, and nothing
    said against the arguments or the result. -/
structure CallMatches (item golden : TraceItem Value) : Prop where
  symbol : item.symbol = golden.symbol
  count : item.inputs.length = golden.inputs.length
  inputs : InStep Passes item.inputs golden.inputs
  output : Passes item.output golden.output

/-- A trace is the golden trace: as many calls, each of them the golden one. -/
structure TraceMatches (trace golden : Trace Value) : Prop where
  length : trace.length = golden.length
  calls : InStep CallMatches trace golden

/-- Inputs give no reason exactly when each of them passes against its partner. -/
theorem inputReasons_eq_nil_iff (c : Context) (symbol : String) :
    ∀ (vs gs : List Value) (i : Nat),
      inputReasons c symbol i vs gs = .ok [] ↔ InStep Passes vs gs := by
  intro vs
  induction vs with
  | nil =>
      intro gs i
      simp only [inputReasons, true_iff]
      exact inStep_nil_left Passes gs
  | cons v vs ih =>
      intro gs i
      cases gs with
      | nil =>
          simp only [inputReasons, true_iff]
          exact inStep_nil_right Passes (v :: vs)
      | cons g gs =>
          rw [inStep_cons, ← ih gs (i + 1), inputReasons,
            ← valueReasons_eq_nil_iff_passes
              (c.chain ("input #" ++ toString i ++ " of call to \"" ++ symbol ++ "\""))]
          cases hv : valueReasons
              (c.chain ("input #" ++ toString i ++ " of call to \"" ++ symbol ++ "\""))
              v g with
          | error e => simp
          | ok rs =>
              cases hrest : inputReasons c symbol (i + 1) vs gs with
              | error e => simp
              | ok rest => simp [bundle_eq_nil_iff]

/-- A call gives no reason exactly when it is the golden call. -/
theorem itemReasons_eq_nil_iff (c : Context) (item golden : TraceItem Value) :
    itemReasons c item golden = .ok [] ↔ CallMatches item golden := by
  have hin := inputReasons_eq_nil_iff c item.symbol item.inputs golden.inputs 0
  have hout := valueReasons_eq_nil_iff_passes
    (c.chain ("output of call to \"" ++ item.symbol ++ "\""))
    item.output golden.output
  rw [itemReasons]
  cases hi : inputReasons c item.symbol 0 item.inputs golden.inputs with
  | error e =>
      rw [hi] at hin
      exact iff_of_false (fun h => nomatch h)
        (fun h => nomatch hin.mpr h.inputs)
  | ok inputs =>
      cases ho : valueReasons
          (c.chain ("output of call to \"" ++ item.symbol ++ "\""))
          item.output golden.output with
      | error e =>
          rw [ho] at hout
          exact iff_of_false (fun h => nomatch h)
            (fun h => nomatch hout.mpr h.output)
      | ok output =>
          rw [hi, Except.ok.injEq] at hin
          rw [ho, Except.ok.injEq] at hout
          -- four lists in a row are empty exactly when each of them is
          simp only [Except.ok.injEq, List.append_eq_nil_iff, bundle_eq_nil_iff,
            hin, hout, ite_eq_right_iff, bne_iff_ne, reduceCtorEq, imp_false,
            Decidable.not_not]
          constructor
          · rintro ⟨⟨⟨hsym, hcount⟩, hinp⟩, hres⟩
            exact ⟨hsym, hcount, hinp, hres⟩
          · rintro ⟨hsym, hcount, hinp, hres⟩
            exact ⟨⟨⟨hsym, hcount⟩, hinp⟩, hres⟩

/-! ## Traces and tests -/

/-- The compared calls give no reason exactly when each of them is the golden
    call.  Induction on the first trace: one comparison takes one call off
    each side. -/
theorem traceReasons_all_nil_iff (c : Context) :
    ∀ (trace golden : Trace Value) (i : Nat) (items : List (List String)),
      traceReasons c i trace golden = .ok items →
      ((∀ rs ∈ items, rs = []) ↔ InStep CallMatches trace golden) := by
  intro trace
  induction trace with
  | nil =>
      intro golden i items h
      simp only [traceReasons, Except.ok.injEq] at h
      subst h
      exact iff_of_true (fun rs hrs => nomatch hrs) (inStep_nil_left _ golden)
  | cons item trace ih =>
      intro golden i items h
      cases golden with
      | nil =>
          simp only [traceReasons, Except.ok.injEq] at h
          subst h
          exact iff_of_true (fun rs hrs => nomatch hrs) (inStep_nil_right _ _)
      | cons g golden =>
          rw [traceReasons] at h
          split at h
          · exact nomatch h
          · next rs hrs =>
              split at h
              · exact nomatch h
              · next more hmore =>
                  obtain rfl := Except.ok.inj h
                  have hhead := itemReasons_eq_nil_iff
                    (c.chain ("trace item #" ++ toString i ++ " - call to \""
                      ++ item.symbol ++ "\"")) item g
                  rw [hrs, Except.ok.injEq] at hhead
                  rw [inStep_cons, List.forall_mem_cons, hhead,
                    ih golden (i + 1) more hmore]

/-- The report on a result without errors compares its two traces. -/
theorem singleReport_of_traces {c : Context} {r : TestResult Value}
    {trace golden : Trace Value} {report : SingleReport}
    (hc : r.compilationError = none) (hr : r.runtimeError = none)
    (ht : r.trace = some trace) (hg : r.goldenTrace = some golden)
    (h : SingleReport.of c r = .ok report) :
    ∃ items, traceReasons c 0 trace golden = .ok items ∧
      report = ⟨r, some items⟩ := by
  unfold SingleReport.of at h
  simp only [hc, hr, ht, hg, Option.isSome_none, Bool.or_self,
    Bool.false_eq_true, if_false] at h
  cases hi : traceReasons c 0 trace golden with
  | error e => rw [hi] at h; exact nomatch h
  | ok items =>
      rw [hi] at h
      exact ⟨items, rfl, (Except.ok.inj h).symm⟩

theorem failed_eq_false_iff_inStep {c : Context} {r : TestResult Value}
    {trace golden : Trace Value} {report : SingleReport}
    (hc : r.compilationError = none) (hr : r.runtimeError = none)
    (ht : r.trace = some trace) (hg : r.goldenTrace = some golden)
    (h : SingleReport.of c r = .ok report) :
    report.failed = false ↔ InStep CallMatches trace golden := by
  obtain ⟨items, hitems, rfl⟩ := singleReport_of_traces hc hr ht hg h
  rw [← traceReasons_all_nil_iff c trace golden 0 items hitems]
  simp [SingleReport.failed, hc, hr]

/-- **THE VERDICT IS BLIND PAST THE SHORTER TRACE**: a test without errors
    passes exactly when its traces match as far as both of them go.  So a
    passed test matches its golden trace exactly when the two are of one
    length: that is the only thing the verdict does not look at. -/
theorem failed_eq_false_iff {c : Context} {r : TestResult Value}
    {trace golden : Trace Value} {report : SingleReport}
    (hc : r.compilationError = none) (hr : r.runtimeError = none)
    (ht : r.trace = some trace) (hg : r.goldenTrace = some golden)
    (h : SingleReport.of c r = .ok report) :
    (report.failed = false ↔ InStep CallMatches trace golden) ∧
    ((report.failed = false → TraceMatches trace golden) ↔
      (trace.length = golden.length ∨ report.failed = true)) := by
  have hpass := failed_eq_false_iff_inStep hc hr ht hg h
  refine ⟨hpass, ?_⟩
  constructor
  · intro hmatch
    cases hf : report.failed with
    | true => exact Or.inr rfl
    | false => exact Or.inl (hmatch hf).length
  · intro hcase hf
    rcases hcase with hlen | htrue
    · exact ⟨hlen, hpass.mp hf⟩
    · rw [hf] at htrue
      exact nomatch htrue

end

/-- The result of a test that calls `forward` twice, under a configuration
    that called it once only. -/
def halfDone : TestResult Value :=
  ⟨"halfDone", none, none, some [⟨"forward", [.int 1], .int 2⟩],
    some [⟨"forward", [.int 1], .int 2⟩, ⟨"forward", [.int 2], .int 3⟩]⟩

theorem failed_eq_false_iff_halfDone :
    ∃ report, SingleReport.of .empty halfDone = .ok report ∧
      (report.failed = false ↔
        InStep CallMatches [⟨"forward", [.int 1], .int 2⟩]
          [⟨"forward", [.int 1], .int 2⟩, ⟨"forward", [.int 2], .int 3⟩]) ∧
      ((report.failed = false →
        TraceMatches [⟨"forward", [.int 1], .int 2⟩]
          [⟨"forward", [.int 1], .int 2⟩, ⟨"forward", [.int 2], .int 3⟩]) ↔
        (1 = 2 ∨ report.failed = true)) := by
  have h : SingleReport.of .empty halfDone = .ok ⟨halfDone, some [[]]⟩ := rfl
  exact ⟨_, h, failed_eq_false_iff rfl rfl rfl rfl h⟩

/-- A test whose program makes none of the golden calls passes, and its trace
    is not the golden trace. -/
theorem missing_calls_pass :
    ∃ report,
      SingleReport.of .empty
        ⟨"idle", none, none, some [], some [⟨"forward", [], .int 1⟩]⟩
        = .ok report ∧
      report.failed = false ∧
      ¬ TraceMatches [] [⟨"forward", [], .int 1⟩] := by
  refine ⟨_, rfl, rfl, ?_⟩
  intro h
  exact nomatch h.length

end DialectBench
