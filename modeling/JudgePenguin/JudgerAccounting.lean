/-
  JudgePenguin/JudgerAccounting.lean
  ==================================
  **What the judger counts, and the memory it grants.**

  The two counters are set at different points of `judge`, and the flags of a
  result are set and then revised.  `Ledger` is a run that keeps every executed call
  with what it returned; `Balanced` compares the counters with that list, and
  `Verdict` says what a result with a null error looks like.  A history that stays in
  the buffer has a ledger; a ledger also goes on after a cache operation outside, whose
  stores the model keeps apart from the counters.

  The guard of `judge` against an overflowing memory limit lets most overflowing
  values through.  They do not get past the loader: `memory_limit` puts the two
  checks together.
-/
import JudgePenguin.JudgerConfinement
import JudgePenguin.AuxVector

namespace JudgePenguin

open Words

namespace Judger

/-! ## The memory limit -/

/-- What the guard lets through is small or has not overflowed: the wrapped product
    is at least the original. -/
theorem product_exact {req : JudgeRequest} (h : memoryOverflows req = false)
    (hsmall : (req.memoryHardLimitKb * 1024).toNat < 2 ^ 54) :
    (req.memoryHardLimitKb * 1024).toNat = req.memoryHardLimitKb.toNat * 1024 := by
  simp only [memoryOverflows, decide_eq_false_iff_not, UInt64.lt_iff_toNat_lt, Nat.not_lt] at h
  have hmul : (req.memoryHardLimitKb * 1024).toNat = req.memoryHardLimitKb.toNat * 1024 % 2 ^ 64 :=
    UInt64.toNat_mul _ _
  omega

/-- **The memory limit.**  A request that gets to `ELF::run`, as every request does that
    is not rejected (`rejected_or_reaches`), has an exact limit that fits into user space,
    and the program that `judge` runs has exactly that much, in whole pages. -/
theorem memory_limit (t : Timer) (j : Judger) (req : JudgeRequest) (loaded : ELF.Loaded)
    (h : Reaches t j req loaded) :
    (∀ g u, j.judge t req g u = (j.record req).runLoaded t req loaded.app g u) ∧
      req.memoryHardLimitKb.toNat * 1024 < 2 ^ 64 ∧
      req.memoryHardLimitKb.toNat * 1024 ≤ j.breaks.vaddrBreak - 0x400000 ∧
      loaded.app.startAddr = 0x400000 ∧
      loaded.app.breakAddr =
        loaded.app.startAddr + ceilTo (req.memoryHardLimitKb.toNat * 1024) 4096 := by
  have hlower := j.breaks.lower
  obtain ⟨r, hload, hr⟩ : ∃ r, ELF.load ((j.record req).elfFile req) ((j.record req).elfConf req)
      t.tscFreq (j.record req).breaks (j.record req).umem = .ok r ∧ r = loaded := by
    have hopt := h.load
    unfold loadElf at hopt
    cases hcall : ELF.load ((j.record req).elfFile req) ((j.record req).elfConf req)
        t.tscFreq (j.record req).breaks (j.record req).umem with
    | error e =>
      rw [hcall] at hopt
      cases hopt
    | ok r =>
      rw [hcall] at hopt
      exact ⟨r, rfl, Option.some.inj hopt⟩
  obtain ⟨hacc, hloaded⟩ := ELF.load_eq_ok.mp hload
  subst hr hloaded
  obtain ⟨lo, hi, -, -, hfit⟩ := hacc.fits
  have hroom := hfit.room
  have hbreaks : (j.record req).breaks = j.breaks := rfl
  have hlimit : ((j.record req).elfConf req).limit =
      ceilTo (req.memoryHardLimitKb * 1024).toNat 4096 := rfl
  have hle := le_ceilTo (r := 4096) (req.memoryHardLimitKb * 1024).toNat (by decide)
  rw [hbreaks, hlimit] at hroom
  have hexact := product_exact h.memory (by omega)
  rw [hexact] at hle hroom
  refine ⟨judge_of_reaches h, by omega, by omega, rfl, ?_⟩
  show 0x400000 + ((j.record req).elfConf req).limit = _
  rw [hlimit, hexact]
  rfl

theorem memory_limit_sample : ∃ j loaded, j.breaks.vaddrBreak = 0x20000000 ∧
    Reaches sampleTimer j (sampleRequest 1) loaded ∧
    loaded.app.breakAddr = loaded.app.startAddr + 8192 := by
  obtain ⟨-, s, -, -, hholds, hseq, -⟩ := run_loadSample .insertion sampleTimer
  have hsmall : HoldsFile ELF.sampleBytes { s.judger with breaks := MemoryBreaks.init } :=
    ⟨hholds.size, Nat.le_refl _, hholds.file⟩
  obtain ⟨loaded, hreach⟩ := hsmall.sampleRequest_reaches
    (show 1 ≠ s.judger.judgeSeqNum by rw [hseq]; decide) sampleTimer
  exact ⟨_, loaded, rfl, hreach,
    (memory_limit sampleTimer _ (sampleRequest 1) loaded hreach).2.2.2.2⟩

/-- A limit that wraps to more than itself passes the guard, and only the loader
    stops it. -/
example : memoryOverflows { idleRequest 1 with memoryHardLimitKb := 2 ^ 54 + 2 ^ 45 } = false := by
  decide

/-! ## The ledger -/

/-- An executed call and its answer. -/
structure Entry where
  req : JudgeRequest
  garbage : ELF.Garbage
  userRun : ELF.UserRun
  result : JudgeResult

structure Ledger where
  judger : Judger
  executed : List Entry

def Ledger.start (j : Judger) : Ledger := ⟨j, []⟩

/-- One call.  A replay is not entered. -/
def Ledger.step (std : StdSort) (t : Timer) (s : Ledger) : Call → Option Ledger
  | .buffer op => (s.judger.exec std op).map fun r => ⟨r.judger, s.executed⟩
  | .judge req g u =>
    let r := s.judger.judge t req g u
    if req.seqNum = s.judger.judgeSeqNum then some ⟨r.judger, s.executed⟩
    else some ⟨r.judger, ⟨req, g, u, r.result⟩ :: s.executed⟩

def Ledger.run (std : StdSort) (t : Timer) (s : Ledger) (calls : List Call) : Option Ledger :=
  calls.foldlM (Ledger.step std t) s

/-- The time of the executed calls that ran a program. -/
def Ledger.runTime (s : Ledger) : Nat :=
  ((s.executed.filter fun e => decide (e.result.error = none)).map
    fun e => e.result.timeNs.toNat).sum

/-- What is known of the answer of a call that ran the program `app`. -/
structure Verdict (t : Timer) (e : Entry) (app : ELF.App) : Prop where
  trapNum : e.result.trapNum = (ELF.run t app e.garbage e.userRun).trapNum
  limit : 1 ≤ e.req.timeLimitNs.toNat ∧ e.req.timeLimitNs.toNat ≤ 500 * 10 ^ 9
  time : e.result.timeNs ≤ e.req.timeLimitNs
  exclusive : ¬ (e.result.isRE = true ∧ e.result.isTLE = true)
  isTLE : e.result.isTLE = true ↔ e.result.trapNum = 32 ∨
    e.req.timeLimitNs < (ELF.run t app e.garbage e.userRun).timeNs
  isRE : e.result.isTLE = false → (e.result.isRE = true ↔ e.result.trapNum ≠ 255)

/-- **The counters agree with the ledger**, and its results are verdicts. -/
structure Balanced (t : Timer) (s : Ledger) : Prop where
  nJudges : s.judger.nJudges.toNat = s.executed.length % 2 ^ 64
  totalTimeNs : s.judger.totalTimeNs.toNat = s.runTime % 2 ^ 64
  verdicts : ∀ e ∈ s.executed, e.result.error = none → ∃ app, Verdict t e app

/-! ## One call -/

theorem timeLimit_of_good {req : JudgeRequest} (h : badTimeLimit req = false) :
    1 ≤ req.timeLimitNs.toNat ∧ req.timeLimitNs.toNat ≤ 500 * 10 ^ 9 := by
  simp only [badTimeLimit, Bool.or_eq_false_iff, decide_eq_false_iff_not, gt_iff_lt,
    UInt64.lt_iff_toNat_lt, Nat.not_lt] at h
  obtain ⟨hzero, hmax⟩ := h
  have hpos : req.timeLimitNs.toNat ≠ 0 := fun h0 => hzero (UInt64.toNat_inj.mp h0)
  have hbound : MAX_TIME_LIMIT_NS.toNat = 500 * 10 ^ 9 := by decide
  omega

/-- Both branches of the last revision. -/
theorem runLoaded_verdict (t : Timer) (j : Judger) {req : JudgeRequest}
    (hlimit : badTimeLimit req = false) (app : ELF.App) (g : ELF.Garbage) (u : ELF.UserRun) :
    Verdict t ⟨req, g, u, (j.runLoaded t req app g u).result⟩ app := by
  have hgood := timeLimit_of_good hlimit
  simp only [runLoaded, limited]
  by_cases hover : (ELF.run t app g u).timeNs > req.timeLimitNs ∨
      (resultOf (ELF.run t app g u)).isTLE = true
  · rw [if_pos hover]
    refine ⟨rfl, hgood, UInt64.le_refl _, fun hboth => Bool.false_ne_true hboth.1, ?_,
      fun hno => absurd hno.symm Bool.false_ne_true⟩
    refine iff_of_true rfl ?_
    rcases hover with htime | htrap
    · exact .inr htime
    · exact .inl (of_decide_eq_true htrap)
  · rw [if_neg hover]
    obtain ⟨htime, htrap⟩ := not_or.mp hover
    have hno : (resultOf (ELF.run t app g u)).isTLE = false := Bool.eq_false_iff.mpr htrap
    refine ⟨rfl, hgood, UInt64.not_lt.mp htime, fun hboth => htrap hboth.2, ?_, fun _ => ?_⟩
    · refine iff_of_false htrap ?_
      rintro (h32 | hlong)
      · exact (of_decide_eq_false hno) h32
      · exact htime hlong
    · exact decide_eq_true_iff

/-- What an executed call adds to the counters: one, and its time if it ran a program. -/
theorem execute_accounts (t : Timer) (j : Judger) (req : JudgeRequest) (g : ELF.Garbage)
    (u : ELF.UserRun) :
    ((j.execute t req g u).result.error ≠ none ∧
      (j.execute t req g u).judger.totalTimeNs = j.totalTimeNs) ∨
    ((j.execute t req g u).result.error = none ∧
      (j.execute t req g u).judger.totalTimeNs =
        j.totalTimeNs + (j.execute t req g u).result.timeNs ∧
      ∃ app, Verdict t ⟨req, g, u, (j.execute t req g u).result⟩ app) := by
  have hexit : ∀ e, ((j.record req).exitWith e).result.error ≠ none ∧
      ((j.record req).exitWith e).judger.totalTimeNs = j.totalTimeNs :=
    fun e => ⟨nofun, rfl⟩
  simp only [execute]
  split
  · exact .inl (hexit _)
  · split
    · exact .inl (hexit _)
    · split
      · exact .inl (hexit _)
      · rename_i hlimit
        cases loadElf t (j.record req) req with
        | none => exact .inl (hexit _)
        | some loaded =>
          refine .inr ⟨limited_error _ _ _, rfl, loaded.app, ?_⟩
          exact runLoaded_verdict t _ (Bool.eq_false_iff.mpr hlimit) loaded.app g u

theorem SameStatics.clear {j j' : Judger} (h : SameStatics j j') :
    j'.clearJudgeResult.nJudges = j.nJudges ∧ j'.clearJudgeResult.totalTimeNs = j.totalTimeNs := by
  unfold clearJudgeResult
  split
  · exact ⟨h.nJudges, h.totalTimeNs⟩
  · exact ⟨h.nJudges, h.totalTimeNs⟩

/-- A buffer operation counts nothing. -/
theorem exec_counters {std : StdSort} {j : Judger} {op : BufferOp} {r : OpResult}
    (h : j.exec std op = some r) :
    r.judger.nJudges = j.nJudges ∧ r.judger.totalTimeNs = j.totalTimeNs := by
  cases effect_of_exec h with
  | cleared j1 hclears hret hsame heq =>
    rw [heq]
    exact hsame.clear
  | kept hquiet hsame hmem => exact ⟨hsame.nJudges, hsame.totalTimeNs⟩

theorem step_balanced {std : StdSort} {t : Timer} {s s' : Ledger} (h : Balanced t s) {call : Call}
    (hstep : s.step std t call = some s') : Balanced t s' := by
  cases call with
  | buffer op =>
    obtain ⟨r, hexec, rfl⟩ := Option.map_eq_some_iff.mp hstep
    obtain ⟨hn, htime⟩ := exec_counters hexec
    exact ⟨by rw [hn]; exact h.nJudges, by rw [htime]; exact h.totalTimeNs, h.verdicts⟩
  | judge req g u =>
    simp only [Ledger.step] at hstep
    split at hstep
    · rename_i heq
      rw [judge_of_eq heq, Option.some.injEq] at hstep
      subst hstep
      exact ⟨h.nJudges, h.totalTimeNs, h.verdicts⟩
    · rename_i hne
      rw [judge_of_ne hne, Option.some.injEq] at hstep
      subst hstep
      have hans := execute_answered t s.judger req g u
      have hn := h.nJudges
      have htotal := h.totalTimeNs
      have hone : (1 : UInt64).toNat = 1 := rfl
      have hcount : (s.judger.execute t req g u).judger.nJudges.toNat =
          (s.executed.length + 1) % 2 ^ 64 := by
        rw [hans.counted, UInt64.toNat_add, hn, hone]
        omega
      rcases execute_accounts t s.judger req g u with ⟨herr, htime⟩ | ⟨hrun, htime, hverdict⟩
      · refine ⟨hcount, ?_, List.forall_mem_cons.mpr ⟨fun hnone => absurd hnone herr, h.verdicts⟩⟩
        simp only [Ledger.runTime, List.filter_cons, decide_eq_true_iff, if_neg herr]
        rw [htime]
        exact htotal
      · refine ⟨hcount, ?_, List.forall_mem_cons.mpr ⟨fun _ => hverdict, h.verdicts⟩⟩
        simp only [Ledger.runTime, List.filter_cons, decide_eq_true_iff, if_pos hrun, List.map_cons,
          List.sum_cons]
        rw [htime, UInt64.toNat_add, htotal, Ledger.runTime]
        omega

/-! ## Runs -/

theorem run_balanced {std : StdSort} {t : Timer} {calls : List Call} {s s' : Ledger}
    (h : Balanced t s) (hrun : s.run std t calls = some s') : Balanced t s' := by
  induction calls generalizing s with
  | nil =>
    obtain rfl := Option.some.inj hrun
    exact h
  | cons call calls ih =>
    simp only [Ledger.run, List.foldlM_cons, Option.bind_eq_bind, Option.bind_eq_some_iff] at hrun
    obtain ⟨s1, hstep, hrest⟩ := hrun
    exact ih (step_balanced h hstep) hrest

theorem start_balanced {b : MemoryBreaks} {raw : Raw} {j : Judger} (hinit : init b raw = some j)
    (t : Timer) : Balanced t (.start j) := by
  obtain ⟨region, elf, data, rfl⟩ := init_eq_start hinit
  exact ⟨rfl, rfl, List.forall_mem_nil _⟩

/-- A history that stays inside the buffer is a ledger. -/
theorem History.ledger_step {std : StdSort} {t : Timer} {s s' : History} {call : Call}
    (hstep : s.step std t call = some s') (executed : List Entry) :
    ∃ executed', Ledger.step std t ⟨s.judger, executed⟩ call = some ⟨s'.judger, executed'⟩ := by
  cases call with
  | buffer op =>
    simp only [History.step, Option.bind_eq_some_iff] at hstep
    obtain ⟨r, hexec, hstep⟩ := hstep
    split at hstep
    · rw [Option.some.injEq] at hstep
      subst hstep
      exact ⟨executed, by simp only [Ledger.step, hexec, Option.map_some]⟩
    · cases hstep
  | judge req g u =>
    simp only [History.step] at hstep
    simp only [Ledger.step]
    split at hstep
    · rename_i heq
      rw [Option.some.injEq] at hstep
      subst hstep
      exact ⟨executed, if_pos heq⟩
    · rename_i hne
      rw [Option.some.injEq] at hstep
      subst hstep
      exact ⟨_, if_neg hne⟩

theorem History.ledger {std : StdSort} {t : Timer} {calls : List Call} {s s' : History}
    (hrun : s.run std t calls = some s') (executed : List Entry) :
    ∃ executed', Ledger.run std t ⟨s.judger, executed⟩ calls = some ⟨s'.judger, executed'⟩ := by
  induction calls generalizing s executed with
  | nil =>
    obtain rfl := Option.some.inj hrun
    exact ⟨executed, rfl⟩
  | cons call calls ih =>
    simp only [History.run, List.foldlM_cons, Option.bind_eq_bind, Option.bind_eq_some_iff] at hrun
    obtain ⟨s1, hstep, hrest⟩ := hrun
    obtain ⟨executed1, hone⟩ := History.ledger_step hstep executed
    obtain ⟨executed', hmany⟩ := ih hrest executed1
    refine ⟨executed', ?_⟩
    simp only [Ledger.run, List.foldlM_cons, hone, Option.bind_eq_bind, Option.bind_some]
    exact hmany

/-- **Judge accounting.**  Every sequence of calls whose cache ranges are in the
    buffer runs, and every history that stays in the buffer has a ledger with which its
    counters agree, in number and time modulo `2 ^ 64`.  So do the counters after a ledger
    that goes on behind a cache operation outside the buffer. -/
theorem run_accounting (std : StdSort) (t : Timer) {b : MemoryBreaks} {raw : Raw} {j : Judger}
    (hinit : init b raw = some j) (calls : List Call) :
    ((∀ call ∈ calls, call.ClockOk ∧ call.RangeOk j.bufferSize) →
      ∃ s, (History.start j).run std t calls = some s) ∧
    (∀ s, (History.start j).run std t calls = some s → ∃ executed,
      (Ledger.start j).run std t calls = some ⟨s.judger, executed⟩ ∧
        Balanced t ⟨s.judger, executed⟩) ∧
    ∀ s, (Ledger.start j).run std t calls = some s → Balanced t s := by
  have hbalanced : ∀ s, (Ledger.start j).run std t calls = some s → Balanced t s :=
    fun s hrun => run_balanced (start_balanced hinit t) hrun
  refine ⟨fun hok => ?_, fun s hrun => ?_, hbalanced⟩
  · exact run_defined std t (init_cachesOk hinit) (fun call hc => (hok call hc).1)
      fun call hc => (hok call hc).2
  · obtain ⟨executed, hledger⟩ := History.ledger hrun []
    exact ⟨executed, hledger, hbalanced _ hledger⟩

theorem run_accounting_sample : ∃ j, init wideBreaks blankRaw = some j ∧
    ∃ s executed, (History.start j).run .insertion sampleTimer sampleCalls = some s ∧
      (Ledger.start j).run .insertion sampleTimer sampleCalls = some ⟨s.judger, executed⟩ ∧
      Balanced sampleTimer ⟨s.judger, executed⟩ := by
  obtain ⟨j, hinit, -⟩ := init_wideBreaks
  obtain ⟨s, hrun, -⟩ := sampleCalls_run hinit
  obtain ⟨executed, hledger, hbalanced⟩ :=
    (run_accounting .insertion sampleTimer hinit sampleCalls).2.1 s hrun
  exact ⟨j, hinit, s, executed, hrun, hledger, hbalanced⟩

end Judger

end JudgePenguin
