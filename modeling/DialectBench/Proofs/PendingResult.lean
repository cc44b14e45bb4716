import Mathlib.Algebra.Ring.Int.Defs
import Mathlib.Data.List.Induction
import DialectBench.Pipeline.Invoker

/-!
# The result that waits to be collected

    Consumers write into one place, and an invocation that completes collects
    what it finds there.  So what an invocation answers depends on what it
    delivers itself and on what EARLIER invocations have left behind.

    A STEP LEMMA says when a value waits after an invocation: the invocation
    delivered it last and then failed, or the value waited before and the
    invocation failed without delivering anything.  From it follows, by
    induction over the invocations, what waits after a sequence of them, and
    with it which answers are stale.
-/

namespace DialectBench.Pipeline

/-! ## What one invocation does -/

/-- The arguments pass the checks. -/
def Request.Accepted (r : Request) : Prop := checkArguments r.args = .ok ()

/-- What the consumer that is called last keeps, if any is called. -/
def Request.last? (r : Request) : Option Value := r.run.delivered.getLast?.map Delivery.kept

/-- The function runs, and runs to its end. -/
def Request.Completes (r : Request) : Prop := r.Accepted ∧ r.run.fault = none

/-- The function delivers a value and then fails. -/
def Request.Abandons (r : Request) (v : Value) : Prop :=
  r.Accepted ∧ r.run.fault.isSome = true ∧ r.last? = some v

/-- The request is refused, or its function fails without delivering anything. -/
def Request.FailsQuietly (r : Request) : Prop :=
  ¬ r.Accepted ∨ (r.run.fault.isSome = true ∧ r.run.delivered = [])

theorem Request.last?_eq_none_iff {r : Request} : r.last? = none ↔ r.run.delivered = [] := by
  unfold Request.last?
  rw [Option.map_eq_none_iff, List.getLast?_eq_none_iff]

/-- What was delivered last was delivered. -/
theorem Request.mem_of_last? {r : Request} {v : Value} (h : r.last? = some v) :
    ∃ d ∈ r.run.delivered, d.kept = v := by
  obtain ⟨d, hd, rfl⟩ := Option.map_eq_some_iff.mp h
  exact ⟨d, List.mem_of_getLast? hd, rfl⟩

/-- Of several deliveries the last one stays. -/
theorem result_foldl_receive (ds : List Delivery) (i : Invoker) :
    (ds.foldl Invoker.receive i).result = (ds.getLast?.map Delivery.kept).getD i.result := by
  rcases List.eq_nil_or_concat ds with rfl | ⟨before, d, rfl⟩
  · rfl
  · rw [List.concat_eq_append, List.foldl_append, List.getLast?_concat]
    rfl

/-- Collecting nothing is a fault, and nothing waits afterwards either. -/
theorem collect_nothing {i : Invoker} (h : i.result = .none) (c : Invoked) :
    (∃ e, (i.collect c).answer = .error e) ∧ (i.collect c).after.result = .none := by
  unfold Invoker.collect
  rw [h]
  exact ⟨⟨_, rfl⟩, h⟩

/-- A value that is collected is gone. -/
theorem collect_value {i : Invoker} (h : i.result ≠ .none) (c : Invoked) :
    (i.collect c).answer = .ok i.result ∧ (i.collect c).after.result = .none := by
  unfold Invoker.collect
  split
  · rename_i hnone
    exact absurd hnone h
  · exact ⟨rfl, rfl⟩

theorem invoke_refused {r : Request} {e : Fault} (h : checkArguments r.args = .error e)
    (i : Invoker) : i.invoke r = ⟨.error e, none, i⟩ := by
  unfold Invoker.invoke
  rw [h]

theorem invoke_failed {r : Request} (h : r.Accepted) {e : Fault} (hf : r.run.fault = some e)
    (i : Invoker) :
    i.invoke r = ⟨.error e, some ⟨r.function, r.args.map rank⟩,
      r.run.delivered.foldl Invoker.receive i⟩ := by
  have hargs : checkArguments r.args = .ok () := h
  unfold Invoker.invoke
  rw [hargs, hf]

theorem invoke_completed {r : Request} (h : r.Completes) (i : Invoker) :
    i.invoke r = (r.run.delivered.foldl Invoker.receive i).collect
      ⟨r.function, r.args.map rank⟩ := by
  have hargs : checkArguments r.args = .ok () := h.1
  unfold Invoker.invoke
  rw [hargs, h.2]

/-- **ALL THAT AN INVOCATION CAN DO**: it is refused, it fails, it completes
    and finds nothing, or it completes and collects a value. -/
theorem invoke_cases (i : Invoker) (r : Request) :
    (¬ r.Accepted ∧ (∃ e, (i.invoke r).answer = .error e) ∧
      (i.invoke r).after.result = i.result) ∨
    (r.Accepted ∧ r.run.fault.isSome = true ∧ (∃ e, (i.invoke r).answer = .error e) ∧
      (i.invoke r).after.result = r.last?.getD i.result) ∨
    (r.Completes ∧ r.last?.getD i.result = .none ∧ (∃ e, (i.invoke r).answer = .error e) ∧
      (i.invoke r).after.result = .none) ∨
    (r.Completes ∧ r.last?.getD i.result ≠ .none ∧
      (i.invoke r).answer = .ok (r.last?.getD i.result) ∧
      (i.invoke r).after.result = .none) := by
  have hlast := result_foldl_receive r.run.delivered i
  cases hargs : checkArguments r.args with
  | error e =>
      left
      rw [invoke_refused hargs]
      refine ⟨?_, ⟨e, rfl⟩, rfl⟩
      intro hacc
      rw [Request.Accepted, hargs] at hacc
      exact nomatch hacc
  | ok _ =>
      have hacc : r.Accepted := hargs
      cases hfault : r.run.fault with
      | some e =>
          right; left
          rw [invoke_failed hacc hfault]
          exact ⟨hacc, rfl, ⟨e, rfl⟩, hlast⟩
      | none =>
          right; right
          have hcomp : r.Completes := ⟨hacc, hfault⟩
          rw [invoke_completed hcomp]
          by_cases hnone : r.last?.getD i.result = .none
          · exact .inl ⟨hcomp, hnone, collect_nothing (hlast.trans hnone) _⟩
          · obtain ⟨hanswer, hafter⟩ := collect_value (hlast ▸ hnone) ⟨r.function, r.args.map rank⟩
            exact .inr ⟨hcomp, hnone, hanswer.trans (congrArg Except.ok hlast), hafter⟩

/-- What waits once a function has run is what it delivered last or, if it
    delivered nothing, what waited before. -/
theorem getD_last?_eq_iff {r : Request} {w v : Value} :
    r.last?.getD w = v ↔ r.last? = some v ∨ (r.run.delivered = [] ∧ w = v) := by
  cases hlast : r.last? with
  | none =>
      have hnil := Request.last?_eq_none_iff.mp hlast
      simp [hnil]
  | some u =>
      have hne : r.run.delivered ≠ [] := by
        intro hnil
        rw [Request.last?_eq_none_iff.mpr hnil] at hlast
        exact nomatch hlast
      simp [hne]

/-- A function that completes has not failed. -/
theorem Request.Completes.not_failed {r : Request} (h : r.Completes) :
    ¬ r.run.fault.isSome = true := by
  rw [h.2]
  exact Bool.false_ne_true

/-- A function that completes abandons nothing. -/
theorem Request.Completes.not_abandons {r : Request} (h : r.Completes) (v : Value) :
    ¬ r.Abandons v :=
  fun ha => h.not_failed ha.2.1

/-- A function that completes does not fail quietly. -/
theorem Request.Completes.not_failsQuietly {r : Request} (h : r.Completes) :
    ¬ r.FailsQuietly := by
  rintro (hacc | ⟨hfault, _⟩)
  · exact hacc h.1
  · exact h.not_failed hfault

/-- An invocation answers with a value exactly if it completes, and the value
    is what it delivered last or, if it delivered nothing, what waited before. -/
theorem answer_eq_ok_iff {i : Invoker} {r : Request} {v : Value} :
    (i.invoke r).answer = .ok v ↔
      r.Completes ∧ v ≠ .none ∧
        (r.last? = some v ∨ (r.run.delivered = [] ∧ i.result = v)) := by
  rw [← getD_last?_eq_iff]
  rcases invoke_cases i r with ⟨hacc, ⟨e, he⟩, _⟩ | ⟨_, hfault, ⟨e, he⟩, _⟩ |
    ⟨_, hnone, ⟨e, he⟩, _⟩ | ⟨hcomp, hvalue, hanswer, _⟩
  · rw [he]
    exact iff_of_false (fun h => nomatch h) (fun h => hacc h.1.1)
  · rw [he]
    exact iff_of_false (fun h => nomatch h) (fun h => h.1.not_failed hfault)
  · rw [he]
    exact iff_of_false (fun h => nomatch h) (fun h => h.2.1 (h.2.2.symm.trans hnone))
  · rw [hanswer]
    constructor
    · intro h
      cases h
      exact ⟨hcomp, hvalue, rfl⟩
    · rintro ⟨_, _, hv⟩
      rw [hv]

/-- **THE STEP**: a value waits after an invocation exactly if the invocation
    abandoned it, or if it waited before and the invocation failed quietly. -/
theorem result_after_iff {i : Invoker} {r : Request} {v : Value} (hv : v ≠ .none) :
    (i.invoke r).after.result = v ↔
      r.Abandons v ∨ (r.FailsQuietly ∧ i.result = v) := by
  rcases invoke_cases i r with ⟨hacc, _, hafter⟩ | ⟨hacc, hfault, _, hafter⟩ |
    ⟨hcomp, _, _, hafter⟩ | ⟨hcomp, _, _, hafter⟩
  · rw [hafter]
    constructor
    · intro h
      exact .inr ⟨.inl hacc, h⟩
    · rintro (ha | ⟨_, h⟩)
      · exact absurd ha.1 hacc
      · exact h
  · rw [hafter, getD_last?_eq_iff]
    constructor
    · rintro (hlast | ⟨hnil, h⟩)
      · exact .inl ⟨hacc, hfault, hlast⟩
      · exact .inr ⟨.inr ⟨hfault, hnil⟩, h⟩
    · rintro (ha | ⟨hrefused | ⟨_, hnil⟩, h⟩)
      · exact .inl ha.2.2
      · exact absurd hacc hrefused
      · exact .inr ⟨hnil, h⟩
  all_goals
    -- whatever completes leaves nothing behind
    rw [hafter]
    constructor
    · intro h
      exact absurd h.symm hv
    · rintro (ha | ⟨hquiet, _⟩)
      · exact absurd ha (hcomp.not_abandons v)
      · exact absurd hquiet hcomp.not_failsQuietly

/-! ## Sequences of invocations -/

/-- The invoker after a sequence of invocations. -/
def Invoker.afterAll (i : Invoker) (rs : List Request) : Invoker :=
  rs.foldl (fun i r => (i.invoke r).after) i

/-- Each answer is given by the invoker that the invocations before have left. -/
theorem getElem?_invokeAll (rs : List Request) (i : Invoker) (k : Nat) :
    (i.invokeAll rs).1[k]?
      = rs[k]?.map fun r => ((i.afterAll (rs.take k)).invoke r).answer := by
  induction rs generalizing i k with
  | nil => rfl
  | cons r rest ih =>
      cases k with
      | zero => rfl
      | succ k => exact ih (i.invoke r).after k

/-- A value that invocations leave behind: one of them abandoned it, and all
    those after it have failed quietly. -/
def LeftBehind (rs : List Request) (v : Value) : Prop :=
  ∃ before r between, rs = before ++ r :: between ∧ r.Abandons v ∧
    ∀ q ∈ between, q.FailsQuietly

theorem not_leftBehind_nil (v : Value) : ¬ LeftBehind [] v := by
  rintro ⟨before, r, between, h, _⟩
  exact List.append_ne_nil_of_right_ne_nil before (List.cons_ne_nil r between) h.symm

/-- What is left behind after one more invocation. -/
theorem leftBehind_concat {rs : List Request} {r : Request} {v : Value} :
    LeftBehind (rs ++ [r]) v ↔ r.Abandons v ∨ (r.FailsQuietly ∧ LeftBehind rs v) := by
  constructor
  · rintro ⟨before, q, between, h, hq, hquiet⟩
    -- the one that abandoned the value is the last, or it is among those before
    rcases List.eq_nil_or_concat between with rfl | ⟨between', r', rfl⟩
    · obtain ⟨_, hr⟩ := List.append_inj' h rfl
      cases hr
      exact .inl hq
    · rw [List.concat_eq_append] at h hquiet
      rw [← List.cons_append, ← List.append_assoc] at h
      obtain ⟨rfl, hr⟩ := List.append_inj' h rfl
      cases hr
      refine .inr ⟨hquiet r (List.mem_append_right _ List.mem_cons_self), before, q, between',
        rfl, hq, ?_⟩
      intro p hp
      exact hquiet p (List.mem_append_left _ hp)
  · rintro (ha | ⟨hquiet, before, q, between, rfl, hq, hall⟩)
    · exact ⟨rs, r, [], rfl, ha, fun p hp => absurd hp List.not_mem_nil⟩
    · refine ⟨before, q, between ++ [r], by rw [List.append_assoc, List.cons_append], hq, ?_⟩
      intro p hp
      rcases List.mem_append.mp hp with hp | hp
      · exact hall p hp
      · cases List.mem_singleton.mp hp
        exact hquiet

/-- **THE RUN**: what waits after a sequence of invocations is what they left
    behind. -/
theorem result_afterAll_iff {v : Value} (hv : v ≠ .none) (rs : List Request) :
    (Invoker.fresh.afterAll rs).result = v ↔ LeftBehind rs v := by
  induction rs using List.reverseRecOn with
  | nil => exact iff_of_false (fun h => hv h.symm) (not_leftBehind_nil v)
  | append_singleton rs r ih =>
      have hstep : Invoker.fresh.afterAll (rs ++ [r])
          = ((Invoker.fresh.afterAll rs).invoke r).after := List.foldl_append
      rw [hstep, result_after_iff hv, ih, leftBehind_concat]

/-- Nothing waits exactly if nothing was left behind. -/
theorem result_afterAll_eq_none_iff (rs : List Request) :
    (Invoker.fresh.afterAll rs).result = .none ↔ ∀ v, v ≠ .none → ¬ LeftBehind rs v := by
  constructor
  · intro h v hv hleft
    exact hv (((result_afterAll_iff hv rs).mpr hleft).symm.trans h)
  · intro h
    by_contra hne
    exact h _ hne ((result_afterAll_iff hne rs).mp rfl)

/-- An answer is what its own invocation delivered last or, if that delivered
    nothing, what was left behind. -/
theorem answer_iff {rs : List Request} {k : Nat} {r : Request} (hr : rs[k]? = some r)
    (v : Value) :
    (Invoker.fresh.invokeAll rs).1[k]? = some (.ok v) ↔
      r.Completes ∧ v ≠ .none ∧
        (r.last? = some v ∨ (r.run.delivered = [] ∧ LeftBehind (rs.take k) v)) := by
  rw [getElem?_invokeAll, hr, Option.map_some, Option.some_inj, answer_eq_ok_iff]
  refine and_congr_right fun _ => and_congr_right fun hv => ?_
  rw [result_afterAll_iff hv]

/-- Nothing waits between invocations exactly if none of them abandons a
    value. -/
theorem idle_iff (rs : List Request) :
    (∀ k, (Invoker.fresh.afterAll (rs.take k)).result = .none) ↔
      ∀ r ∈ rs, ∀ v, v ≠ .none → ¬ r.Abandons v := by
  constructor
  · intro hidle r hr v hv ha
    obtain ⟨k, hk⟩ := List.mem_iff_getElem?.mp hr
    have htake : rs.take (k + 1) = rs.take k ++ [r] := by
      rw [List.take_add_one, hk]
      rfl
    have hleft : LeftBehind (rs.take (k + 1)) v := by
      rw [htake, leftBehind_concat]
      exact .inl ha
    exact (result_afterAll_eq_none_iff _).mp (hidle (k + 1)) v hv hleft
  · intro hnone k
    refine (result_afterAll_eq_none_iff _).mpr ?_
    rintro v hv ⟨before, r, between, htake, ha, _⟩
    have hmem : r ∈ rs.take k := by
      rw [htake]
      exact List.mem_append_right before List.mem_cons_self
    exact hnone r (List.mem_of_mem_take hmem) v hv ha

/-- **WHICH ANSWERS ARE STALE**: for every sequence of invocations, an answer is
    a value that its own invocation delivered last, or one that was left behind
    and the invocation delivered nothing.  All answers come from their own
    invocations exactly if no invocation that completes without delivering
    anything finds a value left behind, and nothing waits between invocations
    exactly if none of them abandons a value. -/
theorem answers_own_iff (rs : List Request) :
    (∀ (k : Nat) (r : Request) (v : Value), rs[k]? = some r →
      ((Invoker.fresh.invokeAll rs).1[k]? = some (.ok v) ↔
        r.Completes ∧ v ≠ .none ∧
          (r.last? = some v ∨ (r.run.delivered = [] ∧ LeftBehind (rs.take k) v)))) ∧
    ((∀ (k : Nat) (r : Request) (v : Value), rs[k]? = some r →
        (Invoker.fresh.invokeAll rs).1[k]? = some (.ok v) →
          ∃ d ∈ r.run.delivered, d.kept = v) ↔
      ∀ (k : Nat) (r : Request) (v : Value), rs[k]? = some r → r.Completes →
        r.run.delivered = [] → v ≠ .none → ¬ LeftBehind (rs.take k) v) ∧
    ((∀ k, (Invoker.fresh.afterAll (rs.take k)).result = .none) ↔
      ∀ r ∈ rs, ∀ v, v ≠ .none → ¬ r.Abandons v) := by
  refine ⟨fun k r v hr => answer_iff hr v, ⟨?_, ?_⟩, idle_iff rs⟩
  · intro hown k r v hr hcomp hnil hv hleft
    have hok := (answer_iff hr v).mpr ⟨hcomp, hv, .inr ⟨hnil, hleft⟩⟩
    obtain ⟨d, hd, _⟩ := hown k r v hr hok
    rw [hnil] at hd
    exact List.not_mem_nil hd
  · intro hnone k r v hr hok
    obtain ⟨hcomp, hv, hlast | ⟨hnil, hleft⟩⟩ := (answer_iff hr v).mp hok
    · exact Request.mem_of_last? hlast
    · exact absurd hleft (hnone k r v hr hcomp hnil hv)

/-- **AN ABANDONED RESULT IS HANDED OUT**: the first function delivers 3 and
    fails, the second delivers nothing, and the answer of the second is 3. -/
theorem abandoned_result_handed_out :
    ∃ r₁ r₂ : Request, r₁.run.fault = some (.runtime "interrupted") ∧
      r₂.run.delivered = [] ∧
      (Invoker.fresh.afterAll [r₁]).result = .int 3 ∧
      (Invoker.fresh.invokeAll [r₁, r₂]).1
        = [.error (.runtime "interrupted"), .ok (.int 3)] :=
  ⟨⟨"f", [], ⟨[.int64 3], some (.runtime "interrupted")⟩⟩, ⟨"g", [], ⟨[], none⟩⟩,
    rfl, rfl, rfl, rfl⟩

/-! ## The width of integers -/

/-- An integer that is reduced to some bits lies in their range. -/
theorem wrap_bounds (w : Nat) (n : Int) :
    -2 ^ w ≤ wrap (w + 1) n ∧ wrap (w + 1) n < 2 ^ w := by
  have hpos : 0 < 2 ^ (w + 1) := Nat.two_pow_pos (w + 1)
  have hlo := Int.le_bmod (x := n) hpos
  have hhi := Int.bmod_lt (x := n) hpos
  rw [Nat.pow_succ] at hlo hhi
  push_cast at hlo hhi
  rw [wrap, Nat.pow_eq, Nat.pow_succ]
  omega

/-- Exactly the integers of their range keep their value. -/
theorem wrap_eq_self_iff (w : Nat) (n : Int) :
    wrap (w + 1) n = n ↔ -2 ^ w ≤ n ∧ n < 2 ^ w := by
  constructor
  · intro h
    have hbounds := wrap_bounds w n
    rw [h] at hbounds
    exact hbounds
  · rintro ⟨hlo, hhi⟩
    rw [wrap, Nat.pow_eq, Nat.pow_succ]
    refine Int.bmod_eq_of_le_mul_two ?_ ?_ <;> push_cast <;> omega

/-- **INTEGERS SURVIVE IN 32 BITS ONLY**: whatever waits and whatever else the
    function delivers before, the answer to an integer that is delivered last is
    the integer of the same remainder that 32 bits can hold.  It is the integer
    itself exactly if 32 bits can hold that. -/
theorem int64_survives_iff (i : Invoker) (r : Request) (ds : List Delivery) (n : Int)
    (hargs : r.Accepted) (hrun : r.run = ⟨ds ++ [.int64 n], none⟩) :
    ∃ m : Int, (i.invoke r).answer = .ok (.int m) ∧ (2 ^ 32 : Int) ∣ n - m ∧
      -2 ^ 31 ≤ m ∧ m < 2 ^ 31 ∧ (m = n ↔ -2 ^ 31 ≤ n ∧ n < 2 ^ 31) := by
  have hlast : r.last? = some (.int (wrap 32 n)) := by
    unfold Request.last?
    rw [hrun, List.getLast?_concat]
    rfl
  have hcomp : r.Completes := ⟨hargs, by rw [hrun]⟩
  refine ⟨wrap 32 n, answer_eq_ok_iff.mpr ⟨hcomp, (fun h => nomatch h), .inl hlast⟩, ?_,
    (wrap_bounds 31 n).1, (wrap_bounds 31 n).2, wrap_eq_self_iff 31 n⟩
  exact Int.dvd_self_sub_bmod

/-- A function of one array that delivers a float and then the least integer of
    32 bits. -/
def leastInteger : Request where
  function := "least"
  args := [.array (.dense "bool" [1] [.bool true])]
  run := ⟨[.float64 0.5, .int64 (-2147483648)], none⟩

theorem int64_survives_iff_leastInteger :
    leastInteger.Accepted ∧
      (Invoker.fresh.invoke leastInteger).answer = .ok (.int (-2147483648)) := by
  have hargs : leastInteger.Accepted := rfl
  obtain ⟨m, hanswer, _, _, _, hm⟩ :=
    int64_survives_iff .fresh leastInteger [.float64 0.5] (-2147483648) hargs rfl
  rw [hm.mpr (by decide)] at hanswer
  exact ⟨hargs, hanswer⟩

/-- **THE NEXT INTEGER DOES NOT SURVIVE**: the least positive integer beyond 32
    bits comes back negative. -/
theorem int64_beyond_32_bits_lost :
    (Invoker.fresh.invoke ⟨"f", [], ⟨[.int64 (2 ^ 31)], none⟩⟩).answer
        = .ok (.int (-2 ^ 31)) ∧
      (Invoker.fresh.invoke ⟨"f", [], ⟨[.int64 (2 ^ 31)], none⟩⟩).answer
        ≠ .ok (.int (2 ^ 31)) := by
  have hanswer : (Invoker.fresh.invoke ⟨"f", [], ⟨[.int64 (2 ^ 31)], none⟩⟩).answer
      = .ok (.int (-2 ^ 31)) := rfl
  refine ⟨hanswer, ?_⟩
  rw [hanswer]
  intro h
  cases h

end DialectBench.Pipeline
