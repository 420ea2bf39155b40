/-
  JudgePenguin/JudgerFresh.lean
  =============================
  **Which requests are executed.**

  The cleared verdict is encoded by a sequence number that a client may use, and the
  exits of `judge` with an error answer with the stored result, of which they change the
  text alone.  A fresh request is executed, with an answer of its own, exactly when it
  meets neither of the two (`run_executes_iff`).
-/
import JudgePenguin.JudgerConfinement

namespace JudgePenguin

namespace Judger

/-! ## Fresh requests -/

/-- No `judge` call was executed since `init` and since the last clearing operation,
    or the last one had another sequence number. -/
def Fresh (s : History) (req : JudgeRequest) : Prop :=
  s.sinceClear = false ∨ ∀ e, s.last = some e → e.seqNum ≠ req.seqNum

/-- The request is counted and answered by the part of `judge` behind the test for a
    replay, never with the placeholder.  The answer is its own: another stored result, as
    another earlier call would have left it, has no part in it. -/
structure Executes (t : Timer) (j : Judger) (req : JudgeRequest) : Prop where
  execute : ∀ g u, j.judge t req g u = j.execute t req g u
  counted : ∀ g u, (j.judge t req g u).judger.nJudges = j.nJudges + 1
  judged : ∀ g u, (j.judge t req g u).result.error ≠ some .notJudged
  own : ∀ old, ClearedOk { j with judgeResult := old } → ∀ g u,
    (Judger.judge t { j with judgeResult := old } req g u).result = (j.judge t req g u).result

/-- The checks that a request passes before its program is run. -/
structure Passes (j : Judger) (req : JudgeRequest) : Prop where
  memory : memoryOverflows req = false
  buffers : j.checkBuffers req.buffers = true
  timeLimit : badTimeLimit req = false
  program : ELF.Accepts (j.elfFile req) (j.elfConf req) j.breaks.vaddrBreak

section Call

variable {t : Timer} {j : Judger} {req : JudgeRequest}

theorem reaches_iff : (∃ loaded, Reaches t j req loaded) ↔
    req.seqNum ≠ j.judgeSeqNum ∧ Passes j req := by
  constructor
  · rintro ⟨loaded, h⟩
    exact ⟨h.fresh, h.memory, h.buffers, h.timeLimit, h.accepts.1⟩
  · rintro ⟨hne, h⟩
    have hload : loadElf t (j.record req) req = some _ :=
      congrArg Except.toOption (ELF.load_eq_ok.mpr ⟨h.program, rfl⟩)
    exact ⟨_, hne, h.memory, h.buffers, h.timeLimit, hload⟩

/-- A program is run whatever result is stored. -/
theorem Reaches.withResult {loaded : ELF.Loaded} (h : Reaches t j req loaded) (old : JudgeResult) :
    Reaches t { j with judgeResult := old } req loaded := by
  have hbuffers : Judger.checkBuffers { j with judgeResult := old } req.buffers = true :=
    (checkBuffersFrom_congr rfl [] req.buffers).trans h.buffers
  exact ⟨h.fresh, h.memory, hbuffers, h.timeLimit, h.load⟩

/-- An exit with an error hands on the stored result. -/
theorem exit_result (hne : req.seqNum ≠ j.judgeSeqNum) (hpasses : ¬ Passes j req) :
    ∃ e, ∀ g u, (j.judge t req g u).result = { j.judgeResult with error := some e } := by
  have hrej : Rejected t j req := by
    rcases rejected_or_reaches t j req with h | h
    · exact h
    · exact absurd (reaches_iff.mp h).2 hpasses
  rcases judge_of_rejected hrej with hreplay | ⟨e, hexit⟩
  · have hcount := (execute_answered t j req idleGarbage idleRun).counted
    rw [← judge_of_ne hne, hreplay] at hcount
    simp at hcount
  · exact ⟨e, fun g u => by rw [hexit]; rfl⟩

theorem executes_iff (hj : ClearedOk j) : Executes t j req ↔
    req.seqNum ≠ j.judgeSeqNum ∧ (j.judgeResultCleared = true ∨ Passes j req) := by
  constructor
  · intro h
    have hne : req.seqNum ≠ j.judgeSeqNum := by
      intro heq
      have hcount := h.counted idleGarbage idleRun
      rw [judge_of_eq heq] at hcount
      simp at hcount
    refine ⟨hne, ?_⟩
    by_contra hcon
    obtain ⟨hflag, hpasses⟩ := not_or.mp hcon
    -- a stored result with another instruction count gives another answer
    let old : JudgeResult := { j.judgeResult with countInst := j.judgeResult.countInst + 1 }
    obtain ⟨e, hj'⟩ := exit_result (t := t) hne hpasses
    have hpasses' : ¬ Passes { j with judgeResult := old } req := fun hp =>
      hpasses ⟨hp.memory, (checkBuffersFrom_congr rfl [] req.buffers).trans hp.buffers, hp.timeLimit,
        hp.program⟩
    obtain ⟨e', hold⟩ := exit_result (t := t) (j := { j with judgeResult := old }) hne hpasses'
    have hown := h.own old (fun hyes => absurd hyes hflag) idleGarbage idleRun
    rw [hold, hj'] at hown
    have hcount : j.judgeResult.countInst + 1 = j.judgeResult.countInst :=
      congrArg JudgeResult.countInst hown
    simp at hcount
  · rintro ⟨hne, hcond⟩
    have hans := execute_answered t j req
    refine ⟨fun g u => judge_of_ne hne g u, fun g u => ?_, fun g u => ?_, fun old hold g u => ?_⟩
    · rw [judge_of_ne hne]
      exact (hans g u).counted
    · rw [judge_of_ne hne]
      exact (hans g u).judged
    · rcases hcond with hflag | hpasses
      · -- in the cleared state only the placeholder can be stored
        have hsame : old = j.judgeResult := (hold hflag).2.trans (hj hflag).2.symm
        rw [hsame]
      · obtain ⟨loaded, hreach⟩ := reaches_iff.mpr ⟨hne, hpasses⟩
        rw [judge_of_reaches hreach, judge_of_reaches (hreach.withResult old)]
        rfl

end Call

/-- In a run the sequence number of a fresh request is that of the last executed one only
    if it is the one of the cleared state. -/
theorem Tracked.fresh_iff {s : History} (h : Tracked s) {req : JudgeRequest} (hfresh : Fresh s req) :
    req.seqNum ≠ s.judger.judgeSeqNum ↔
      (req.seqNum ≠ CLEARED_SEQ_NUM ∨ s.sinceClear = true) := by
  cases hsince : s.sinceClear with
  | false => simp [(h.fresh hsince).1]
  | true =>
    obtain ⟨e, hlast, -, hseq, -⟩ := h.last hsince
    refine iff_of_true ?_ (.inr rfl)
    rw [hseq]
    rcases hfresh with hno | hother
    · rw [hsince] at hno
      cases hno
    · exact (hother e hlast).symm

/-- The sample program is written and run. -/
def runSample : List Call := loadSample ++ [.judge (sampleRequest 1) idleGarbage idleRun]

theorem run_runSample (t : Timer) : ∃ j s e, init wideBreaks blankRaw = some j ∧
    (History.start j).run .insertion t runSample = some s ∧ HoldsFile ELF.sampleBytes s.judger ∧
    s.last = some e ∧ e.seqNum = 1 ∧ e.result.error = none ∧
    s.judger.judgeSeqNum = 1 ∧ s.judger.judgeResult = e.result := by
  obtain ⟨j, s, hinit, hrun, hholds, hseq, -⟩ := run_loadSample .insertion t
  have hne : 1 ≠ s.judger.judgeSeqNum := by
    rw [hseq]
    decide
  obtain ⟨loaded, hreach⟩ := hholds.sampleRequest_reaches hne t
  have hstep : s.step .insertion t (.judge (sampleRequest 1) idleGarbage idleRun) = some _ :=
    if_neg hne
  refine ⟨j, _, _, hinit, History.run_concat hrun hstep, hholds.sample_judge hne t _ _, rfl, rfl,
    ?_, ?_, ?_⟩
  all_goals rw [judge_of_reaches hreach]
  · exact limited_error _ _ _
  · rfl
  · rfl

/-- **When a fresh request is executed.**  In every state that a run reaches, a fresh
    request is executed, with an answer of its own, if and only if its sequence number is
    not that of the cleared state or the judger is not in that state, and the judger is in
    it or the request passes the checks. -/
theorem run_executes_iff (std : StdSort) (t : Timer) {b : MemoryBreaks} {raw : Raw} {j : Judger}
    (hinit : init b raw = some j) {calls : List Call} {s : History}
    (hrun : (History.start j).run std t calls = some s) (req : JudgeRequest)
    (hfresh : Fresh s req) :
    Executes t s.judger req ↔
      (req.seqNum ≠ CLEARED_SEQ_NUM ∨ s.sinceClear = true) ∧
        (s.sinceClear = false ∨ Passes s.judger req) := by
  have h := run_tracked (init_tracked hinit) hrun
  rw [executes_iff h.cleared, h.fresh_iff hfresh, h.flag, Bool.not_eq_true']

/-- A second request for the program is executed. -/
theorem run_executes_sample : ∃ j s, init wideBreaks blankRaw = some j ∧
    (History.start j).run .insertion sampleTimer runSample = some s ∧
    Fresh s (sampleRequest 2) ∧ Executes sampleTimer s.judger (sampleRequest 2) := by
  obtain ⟨j, s, e, hinit, hrun, hholds, hlast, hseq, -, hnow, -⟩ := run_runSample sampleTimer
  have hfresh : Fresh s (sampleRequest 2) := by
    refine .inr fun e' he' => ?_
    obtain rfl := Option.some.inj (hlast.symm.trans he')
    rw [hseq]
    exact show (1 : UInt64) ≠ 2 by decide
  obtain ⟨-, hpasses⟩ := reaches_iff.mp (hholds.sampleRequest_reaches
    (show 2 ≠ s.judger.judgeSeqNum by rw [hnow]; decide) sampleTimer)
  refine ⟨j, s, hinit, hrun, hfresh, ?_⟩
  exact (run_executes_iff .insertion sampleTimer hinit hrun (sampleRequest 2) hfresh).mpr
    ⟨.inl (show (2 : UInt64) ≠ CLEARED_SEQ_NUM by decide), .inr hpasses⟩

/-- Right after `init` a request with the number `2 ^ 64 - 1` gets the placeholder.  After
    the sample program one without time gets the result of the program, with a text. -/
theorem last_seqNum_not_executed :
    (∃ j, init wideBreaks blankRaw = some j ∧
      Fresh (.start j) (idleRequest CLEARED_SEQ_NUM) ∧
      ¬ Executes sampleTimer j (idleRequest CLEARED_SEQ_NUM) ∧
      (j.judge sampleTimer (idleRequest CLEARED_SEQ_NUM) idleGarbage idleRun).result.error =
        some .notJudged) ∧
    ∃ j s e, init wideBreaks blankRaw = some j ∧
      (History.start j).run .insertion sampleTimer runSample = some s ∧
      s.last = some e ∧ e.result.error = none ∧
      Fresh s { sampleRequest 2 with timeLimitNs := 0 } ∧
      ¬ Executes sampleTimer s.judger { sampleRequest 2 with timeLimitNs := 0 } ∧
      (s.judger.judge sampleTimer { sampleRequest 2 with timeLimitNs := 0 } idleGarbage
        idleRun).result = { e.result with error := some .invalidTimeLimit } := by
  constructor
  · obtain ⟨j, hinit, -⟩ := init_wideBreaks
    have h := init_tracked hinit
    obtain ⟨hseq, hresult⟩ := h.fresh rfl
    refine ⟨j, hinit, .inl rfl, fun hexec => ?_, ?_⟩
    · exact ((executes_iff h.cleared).mp hexec).1 hseq.symm
    · rw [judge_of_eq hseq.symm]
      exact congrArg JudgeResult.error hresult
  · obtain ⟨j, s, e, hinit, hrun, hholds, hlast, hseq, herror, hnow, hresult⟩ :=
      run_runSample sampleTimer
    let req : JudgeRequest := { sampleRequest 2 with timeLimitNs := 0 }
    have hne : req.seqNum ≠ s.judger.judgeSeqNum := by
      rw [hnow]
      exact show (2 : UInt64) ≠ 1 by decide
    have hanswer : (s.judger.judge sampleTimer req idleGarbage idleRun).result =
        { e.result with error := some .invalidTimeLimit } := by
      have hmemory : memoryOverflows req = false := (sampleRequest_memory rfl).2
      have hbuffers : s.judger.checkBuffers req.buffers = true := (hholds.sample_buffers 2).1
      have htime : badTimeLimit req = true := by decide
      rw [judge_of_ne hne]
      simp only [execute, checkBuffers_record, hmemory, hbuffers, htime, Bool.not_true,
        Bool.false_eq_true, if_false, if_true]
      rw [← hresult]
      rfl
    refine ⟨j, s, e, hinit, hrun, hlast, herror, .inr fun e' he' => ?_, fun hexec => ?_, hanswer⟩
    · obtain rfl := Option.some.inj (hlast.symm.trans he')
      rw [hseq]
      exact show (1 : UInt64) ≠ 2 by decide
    · have hflag : s.judger.judgeResultCleared = false := by
        have h := run_tracked (init_tracked hinit) hrun
        cases hcleared : s.judger.judgeResultCleared with
        | false => rfl
        | true =>
          have hlow := (h.cleared hcleared).1
          rw [hnow] at hlow
          exact absurd hlow (by decide)
      rcases ((executes_iff (run_tracked (init_tracked hinit) hrun).cleared).mp hexec).2 with
        hyes | hpasses
      · rw [hflag] at hyes
        cases hyes
      · have hgood := hpasses.timeLimit
        rw [show badTimeLimit req = true by decide] at hgood
        cases hgood

end Judger

end JudgePenguin
