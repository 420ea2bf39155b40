/-
  JudgePenguin/JudgerRuns.lean
  ============================
  **Runs of the judger.**

  A run is any sequence of buffer operations and `judge` calls after `Judger::init`.
  Besides the judger it carries what an observer knows: the last `judge` call that
  was executed, with what it returned and the buffer it left, and whether one was
  executed since the buffer was last changed by a client (`History`).

    * `effect_of_exec` says once what a buffer operation does to the judger's
      verdict;
    * `Tracked` ties the verdict to the history, and every step keeps it
      (`step_tracked`, `run_tracked`);
    * a replay is therefore an answer for the buffer as it is (`run_replay`).
-/
import JudgePenguin.JudgerBuffer

namespace JudgePenguin

open Words

namespace Judger

/-! ## The shapes of an operation -/

/-- What a buffer operation can come to. -/
inductive Shape (std : StdSort) (j : Judger) (op : BufferOp) (r : OpResult) : Prop where
  | refused (heq : r = j.refused)
  | read (hclears : op.clears = false) (reads : List Nat) (output : Output)
      (heq : r = ⟨true, j, reads, [], output⟩)
  | write (hclears : op.clears = true) (reads : List Nat) (ws : List Mem.Write)
      (heq : r = ⟨true, (j.poke ws).clearJudgeResult, reads, ws, .nothing⟩)
  | load {which : CacheName} {digest : Digest256} {dstOff dstLen now : UInt64}
      (hclears : op.clears = true) (hnow : op.ClockOk → now ≠ 0)
      (hload : j.loadFrom which digest dstOff dstLen now = some r)
  | store {which : CacheName} {digest : Digest256} {srcOff srcLen now : UInt64}
      (hclears : op.clears = false) (hnow : op.ClockOk → now ≠ 0)
      (hstore : j.storeTo std which digest srcOff srcLen now = some r)

theorem exec_cases {std : StdSort} {j : Judger} {op : BufferOp} {r : OpResult}
    (h : j.exec std op = some r) : Shape std j op r := by
  cases op with
  | clearBuffer off len =>
    simp only [exec, clearBuffer, Option.some.injEq] at h
    subst h
    split
    · exact .write rfl _ _ rfl
    · exact .refused rfl
  | readBuffer off len =>
    simp only [exec, readBuffer, Option.some.injEq] at h
    subst h
    split
    · exact .read rfl _ _ rfl
    · exact .refused rfl
  | writeBuffer off data len =>
    simp only [exec, writeBuffer, Option.some.injEq] at h
    subst h
    split
    · exact .write rfl _ _ rfl
    · exact .refused rfl
  | copyBuffer dstOff srcOff len =>
    simp only [exec, copyBuffer, Option.some.injEq] at h
    subst h
    split
    · exact .write rfl _ _ rfl
    · exact .refused rfl
  | compareBuffer off1 off2 len =>
    simp only [exec, compareBuffer, Option.some.injEq] at h
    subst h
    split
    · exact .read rfl _ _ rfl
    · exact .refused rfl
  | loadCache name dstOff dstLen hex now =>
    simp only [exec, loadCache] at h
    split at h
    · exact .load rfl id h
    · exact .refused (Option.some.inj h).symm
  | storeCache name srcOff srcLen hex now =>
    simp only [exec, storeCache] at h
    split at h
    · exact .store rfl id h
    · exact .refused (Option.some.inj h).symm

/-! ## What one operation does to the verdict -/

/-- The judger apart from the buffer's bytes and the caches. -/
structure SameStatics (j j' : Judger) : Prop where
  breaks : j'.breaks = j.breaks
  buffer : j'.buffer = j.buffer
  bufferSize : j'.bufferSize = j.bufferSize
  umem : j'.umem = j.umem
  nJudges : j'.nJudges = j.nJudges
  totalTimeNs : j'.totalTimeNs = j.totalTimeNs
  judgeSeqNum : j'.judgeSeqNum = j.judgeSeqNum
  judgeResult : j'.judgeResult = j.judgeResult
  judgeResultCleared : j'.judgeResultCleared = j.judgeResultCleared

theorem SameStatics.refl (j : Judger) : SameStatics j j :=
  ⟨rfl, rfl, rfl, rfl, rfl, rfl, rfl, rfl, rfl⟩

theorem SameStatics.poke (j : Judger) (ws : List Mem.Write) : SameStatics j (j.poke ws) :=
  ⟨rfl, rfl, rfl, rfl, rfl, rfl, rfl, rfl, rfl⟩

theorem SameStatics.setCache {j j' : Judger} (h : SameStatics j j') (c : DuckCache)
    (which : CacheName) : SameStatics j (j'.setCache c which) := by
  cases which
  · exact ⟨h.breaks, h.buffer, h.bufferSize, h.umem, h.nJudges, h.totalTimeNs, h.judgeSeqNum,
      h.judgeResult, h.judgeResultCleared⟩
  · exact ⟨h.breaks, h.buffer, h.bufferSize, h.umem, h.nJudges, h.totalTimeNs, h.judgeSeqNum,
      h.judgeResult, h.judgeResultCleared⟩

theorem SameStatics.trans {j j' j'' : Judger} (h1 : SameStatics j j') (h2 : SameStatics j' j'') :
    SameStatics j j'' :=
  ⟨h2.breaks.trans h1.breaks, h2.buffer.trans h1.buffer, h2.bufferSize.trans h1.bufferSize,
    h2.umem.trans h1.umem, h2.nJudges.trans h1.nJudges, h2.totalTimeNs.trans h1.totalTimeNs,
    h2.judgeSeqNum.trans h1.judgeSeqNum, h2.judgeResult.trans h1.judgeResult,
    h2.judgeResultCleared.trans h1.judgeResultCleared⟩

/-- An operation either clears the verdict, or leaves it and the buffer alone. -/
inductive Effect (j : Judger) (op : BufferOp) (r : OpResult) : Prop where
  | cleared (j1 : Judger) (hclears : op.clears = true) (hret : r.ret = true)
      (hsame : SameStatics j j1) (heq : r.judger = j1.clearJudgeResult)
  | kept (hquiet : (op.clears && r.ret) = false) (hsame : SameStatics j r.judger)
      (hmem : r.judger.mem = j.mem)

theorem refused_effect (j : Judger) (op : BufferOp) : Effect j op j.refused :=
  .kept (Bool.and_false _) (.refl j) rfl

theorem write_effect {j : Judger} {op : BufferOp} (hclears : op.clears = true)
    (reads : List Nat) (ws : List Mem.Write) :
    Effect j op ⟨true, (j.poke ws).clearJudgeResult, reads, ws, .nothing⟩ :=
  .cleared (j.poke ws) hclears rfl (.poke j ws) rfl

/-- A load that fails has stored nothing. -/
theorem load_writes_of_false {c : DuckCache} {d : Digest256} {dst len now : Nat}
    {r : DuckCache.LoadResult} (h : c.load d dst len now = some r) (hret : r.ret = false) :
    r.writes = [] := by
  simp only [DuckCache.load] at h
  split at h
  · split at h
    · rw [Option.some.injEq] at h
      rw [← h]
    · obtain ⟨ws, -, rfl⟩ := Option.map_eq_some_iff.mp h
      cases hret
  · rw [Option.some.injEq] at h
    rw [← h]

theorem loadFrom_effect {j : Judger} {which : CacheName} {digest : Digest256}
    {dstOff dstLen now : UInt64} {op : BufferOp} (hclears : op.clears = true) {r : OpResult}
    (h : j.loadFrom which digest dstOff dstLen now = some r) : Effect j op r := by
  obtain ⟨l, hload, rfl⟩ := Option.map_eq_some_iff.mp h
  have hsame : SameStatics j ((j.setCache l.cache which).poke (byteWrites l.writes)) :=
    ((SameStatics.refl j).setCache l.cache which).trans (.poke _ _)
  cases hret : l.ret with
  | true => exact .cleared _ hclears rfl hsame rfl
  | false =>
    refine .kept (Bool.and_false _) hsame ?_
    rw [load_writes_of_false hload hret]
    exact setCache_mem j l.cache which

theorem storeTo_effect {std : StdSort} {j : Judger} {which : CacheName} {digest : Digest256}
    {srcOff srcLen now : UInt64} {op : BufferOp} (hclears : op.clears = false) {r : OpResult}
    (h : j.storeTo std which digest srcOff srcLen now = some r) : Effect j op r := by
  obtain ⟨s, -, rfl⟩ := Option.map_eq_some_iff.mp h
  refine .kept ?_ ((SameStatics.refl j).setCache s.cache which) (setCache_mem j _ _)
  rw [hclears, Bool.false_and]

/-- **What a buffer operation does** to the verdict. -/
theorem effect_of_exec {std : StdSort} {j : Judger} {op : BufferOp} {r : OpResult}
    (h : j.exec std op = some r) : Effect j op r := by
  cases exec_cases h with
  | refused heq =>
    subst heq
    exact refused_effect j op
  | read hclears reads output heq =>
    subst heq
    exact .kept (by rw [hclears, Bool.false_and]) (.refl j) rfl
  | write hclears reads ws heq =>
    subst heq
    exact write_effect hclears reads ws
  | load hclears hnow hload => exact loadFrom_effect hclears hload
  | store hclears hnow hstore => exact storeTo_effect hclears hstore

/-! ## What `judge` does to it -/

theorem judge_of_eq {t : Timer} {j : Judger} {req : JudgeRequest} (h : req.seqNum = j.judgeSeqNum)
    (g : ELF.Garbage) (u : ELF.UserRun) : j.judge t req g u = ⟨j.judgeResult, j⟩ := if_pos h

theorem judge_of_ne {t : Timer} {j : Judger} {req : JudgeRequest} (h : req.seqNum ≠ j.judgeSeqNum)
    (g : ELF.Garbage) (u : ELF.UserRun) : j.judge t req g u = j.execute t req g u := if_neg h

/-- What every exit of an executed call has in common. -/
structure Answered (j : Judger) (req : JudgeRequest) (r : Judged) : Prop where
  seqNum : r.judger.judgeSeqNum = req.seqNum
  result : r.judger.judgeResult = r.result
  cleared : r.judger.judgeResultCleared = false
  counted : r.judger.nJudges = j.nJudges + 1
  judged : r.result.error ≠ some .notJudged
  breaks : r.judger.breaks = j.breaks
  buffer : r.judger.buffer = j.buffer
  bufferSize : r.judger.bufferSize = j.bufferSize
  elfCache : r.judger.elfCache = j.elfCache
  dataCache : r.judger.dataCache = j.dataCache

theorem exitWith_answered (j : Judger) (req : JudgeRequest) {e : JudgeError}
    (he : e ≠ .notJudged) : Answered j req ((j.record req).exitWith e) :=
  ⟨rfl, rfl, rfl, rfl, fun h => he (Option.some.inj h), rfl, rfl, rfl, rfl, rfl⟩

theorem limited_error (req : JudgeRequest) (res : ELF.RunResult) (result : JudgeResult) :
    (limited req res result).error = result.error := by
  unfold limited
  split <;> rfl

theorem runLoaded_answered (t : Timer) (j : Judger) (req : JudgeRequest) (app : ELF.App)
    (g : ELF.Garbage) (u : ELF.UserRun) :
    Answered j req ((j.record req).runLoaded t req app g u) := by
  refine ⟨rfl, rfl, rfl, rfl, ?_, rfl, rfl, rfl, rfl, rfl⟩
  simp [runLoaded, limited_error, resultOf]

theorem execute_answered (t : Timer) (j : Judger) (req : JudgeRequest) (g : ELF.Garbage)
    (u : ELF.UserRun) : Answered j req (j.execute t req g u) := by
  simp only [execute]
  split
  · exact exitWith_answered j req (by decide)
  · split
    · exact exitWith_answered j req (by decide)
    · split
      · exact exitWith_answered j req (by decide)
      · cases loadElf t (j.record req) req with
        | none => exact exitWith_answered j req (by decide)
        | some loaded => exact runLoaded_answered t j req loaded.app g u

/-! ## Runs -/

/-- An executed `judge` call: what it returned and the buffer it left. -/
structure Executed where
  seqNum : UInt64
  result : JudgeResult
  contents : List UInt8

/-- The judger, the last executed `judge` call, and whether one was executed since
    `init` and since the last clearing operation that succeeded. -/
structure History where
  judger : Judger
  last : Option Executed
  sinceClear : Bool

inductive Call where
  | buffer (op : BufferOp)
  | judge (req : JudgeRequest) (g : ELF.Garbage) (u : ELF.UserRun)

def History.start (j : Judger) : History := ⟨j, none, false⟩

/-- One call.  After an access outside the buffer nothing is known. -/
def History.step (std : StdSort) (t : Timer) (s : History) : Call → Option History
  | .buffer op =>
    (s.judger.exec std op).bind fun r =>
      if r.Inside s.judger then
        some ⟨r.judger, s.last, s.sinceClear && !(op.clears && r.ret)⟩
      else none
  | .judge req g u =>
    let r := s.judger.judge t req g u
    if req.seqNum = s.judger.judgeSeqNum then some ⟨r.judger, s.last, s.sinceClear⟩
    else some ⟨r.judger, some ⟨req.seqNum, r.result, r.judger.contents⟩, true⟩

def History.run (std : StdSort) (t : Timer) (s : History) (calls : List Call) : Option History :=
  calls.foldlM (History.step std t) s

theorem History.run_concat {std : StdSort} {t : Timer} {s s1 s2 : History} {calls : List Call}
    {call : Call} (hrun : s.run std t calls = some s1) (hstep : s1.step std t call = some s2) :
    s.run std t (calls ++ [call]) = some s2 := by
  rw [History.run] at hrun ⊢
  rw [List.foldlM_append, hrun, Option.bind_eq_bind, Option.bind_some, List.foldlM_cons, hstep]
  rfl

/-! ## The verdict and the history -/

/-- The flag `judge_result_cleared` stands for the cleared verdict. -/
def ClearedOk (j : Judger) : Prop :=
  j.judgeResultCleared = true → j.judgeSeqNum = CLEARED_SEQ_NUM ∧ j.judgeResult = .notJudged

theorem SameStatics.clearedOk {j j' : Judger} (h : SameStatics j j') (hj : ClearedOk j) :
    ClearedOk j' := by
  unfold ClearedOk
  rw [h.judgeResultCleared, h.judgeSeqNum, h.judgeResult]
  exact hj

theorem SameStatics.contents {j j' : Judger} (h : SameStatics j j') (hmem : j'.mem = j.mem) :
    j'.contents = j.contents := by
  simp only [Judger.contents, hmem, h.buffer, h.bufferSize]

theorem clearJudgeResult_cleared {j : Judger} (h : ClearedOk j) :
    ClearedOk j.clearJudgeResult ∧ j.clearJudgeResult.judgeResultCleared = true := by
  unfold clearJudgeResult
  split
  · rename_i hflag
    exact ⟨h, hflag⟩
  · exact ⟨fun _ => ⟨rfl, rfl⟩, rfl⟩

/-- **The verdict belongs to the history.** -/
structure Tracked (s : History) : Prop where
  cleared : ClearedOk s.judger
  flag : s.judger.judgeResultCleared = !s.sinceClear
  last : s.sinceClear = true → ∃ e, s.last = some e ∧ s.judger.contents = e.contents ∧
    s.judger.judgeSeqNum = e.seqNum ∧ s.judger.judgeResult = e.result

theorem init_eq_start {b : MemoryBreaks} {raw : Raw} {j : Judger} (h : init b raw = some j) :
    ∃ region elf data, j = start raw region elf data := by
  simp only [init, Option.bind_eq_some_iff, Option.map_eq_some_iff] at h
  obtain ⟨region, -, elf, -, data, -, rfl⟩ := h
  exact ⟨region, elf, data, rfl⟩

theorem init_tracked {b : MemoryBreaks} {raw : Raw} {j : Judger} (h : init b raw = some j) :
    Tracked (.start j) := by
  obtain ⟨region, elf, data, rfl⟩ := init_eq_start h
  exact ⟨fun _ => ⟨rfl, rfl⟩, rfl, fun h => nomatch h⟩

/-- Without an executed call the verdict is the cleared one. -/
theorem Tracked.fresh {s : History} (h : Tracked s) (hsince : s.sinceClear = false) :
    s.judger.judgeSeqNum = CLEARED_SEQ_NUM ∧ s.judger.judgeResult = .notJudged := by
  refine h.cleared ?_
  rw [h.flag, hsince]
  rfl

/-- **One call** keeps the verdict and the history together. -/
theorem step_tracked {std : StdSort} {t : Timer} {s s' : History} (h : Tracked s) {call : Call}
    (hstep : s.step std t call = some s') : Tracked s' := by
  cases call with
  | buffer op =>
    simp only [History.step, Option.bind_eq_some_iff] at hstep
    obtain ⟨r, hexec, hstep⟩ := hstep
    split at hstep
    · rw [Option.some.injEq] at hstep
      subst hstep
      cases effect_of_exec hexec with
      | cleared j1 hclears hret hsame heq =>
        obtain ⟨hok, hflag⟩ := clearJudgeResult_cleared (hsame.clearedOk h.cleared)
        refine ⟨by rw [heq]; exact hok, ?_, fun hsince => ?_⟩
        · rw [heq, hflag, hclears, hret, Bool.and_self, Bool.not_true, Bool.and_false, Bool.not_false]
        · simp [hclears, hret] at hsince
      | kept hquiet hsame hmem =>
        refine ⟨hsame.clearedOk h.cleared, ?_, fun hsince => ?_⟩
        · rw [hsame.judgeResultCleared, h.flag, hquiet, Bool.not_false, Bool.and_true]
        · simp only [hquiet, Bool.not_false, Bool.and_true] at hsince
          obtain ⟨e, hlast, hcontents, hseq, hresult⟩ := h.last hsince
          exact ⟨e, hlast, (hsame.contents hmem).trans hcontents, hsame.judgeSeqNum.trans hseq,
            hsame.judgeResult.trans hresult⟩
    · cases hstep
  | judge req g u =>
    simp only [History.step] at hstep
    split at hstep
    · rename_i heq
      rw [judge_of_eq heq, Option.some.injEq] at hstep
      subst hstep
      exact ⟨h.cleared, h.flag, h.last⟩
    · rename_i hne
      rw [judge_of_ne hne, Option.some.injEq] at hstep
      subst hstep
      have hans := execute_answered t s.judger req g u
      refine ⟨fun hflag => ?_, hans.cleared, fun _ => ⟨_, rfl, rfl, hans.seqNum, hans.result⟩⟩
      rw [hans.cleared] at hflag
      cases hflag

/-- **Every run** keeps them together. -/
theorem run_tracked {std : StdSort} {t : Timer} {calls : List Call} {s s' : History}
    (h : Tracked s) (hrun : s.run std t calls = some s') : Tracked s' := by
  induction calls generalizing s with
  | nil =>
    obtain rfl := Option.some.inj hrun
    exact h
  | cons call calls ih =>
    simp only [History.run, List.foldlM_cons, Option.bind_eq_bind, Option.bind_eq_some_iff] at hrun
    obtain ⟨s1, hstep, hrest⟩ := hrun
    exact ih (step_tracked h hstep) hrest

/-! ## The caches stay well formed -/

theorem CachesOk.poke {j : Judger} (h : CachesOk j) (ws : List Mem.Write) : CachesOk (j.poke ws) :=
  ⟨h.elf, h.data⟩

theorem CachesOk.clear {j : Judger} (h : CachesOk j) : CachesOk j.clearJudgeResult := by
  unfold clearJudgeResult
  split
  · exact h
  · exact ⟨h.elf, h.data⟩

theorem toNat_ne_zero {now : UInt64} (h : now ≠ 0) : now.toNat ≠ 0 :=
  fun hzero => h (UInt64.toNat_inj.mp hzero)

theorem loadFrom_cachesOk {j : Judger} (h : CachesOk j) {which : CacheName} {digest : Digest256}
    {dstOff dstLen now : UInt64} (hnow : now ≠ 0) {r : OpResult}
    (hload : j.loadFrom which digest dstOff dstLen now = some r) : CachesOk r.judger := by
  obtain ⟨l, hl, rfl⟩ := Option.map_eq_some_iff.mp hload
  have hinv : l.cache.Inv := by
    rcases DuckCache.load_spec (h.cache which) digest (j.addr dstOff) dstLen.toNat now.toNat with
      ⟨i, -, -, -, heq⟩ | ⟨-, heq⟩
    · rw [heq, Option.some.injEq] at hl
      rw [← hl]
      exact DuckCache.touch_inv (h.cache which) (toNat_ne_zero hnow)
    · rw [heq, Option.some.injEq] at hl
      rw [← hl]
      exact h.cache which
  have hpoked := (h.setCache hinv which).poke (byteWrites l.writes)
  simp only
  split
  · exact hpoked.clear
  · exact hpoked

/-- A store that copies from the buffer has a length that does not wrap. -/
theorem storeTo_cachesOk {std : StdSort} {j : Judger} (h : CachesOk j) {which : CacheName}
    {digest : Digest256} {srcOff srcLen now : UInt64} (hnow : now ≠ 0) {r : OpResult}
    (hstore : j.storeTo std which digest srcOff srcLen now = some r)
    (hreads : ∀ a ∈ r.reads, j.InBuffer a) : CachesOk r.judger := by
  obtain ⟨s, hs, rfl⟩ := Option.map_eq_some_iff.mp hstore
  refine h.setCache ?_ which
  cases hfind : ((j.cache which).find digest).1 with
  | true =>
    rw [DuckCache.store_of_found hfind, Option.some.injEq] at hs
    rw [← hs]
    exact h.cache which
  | false =>
    by_cases hfits : nPagesFor srcLen.toNat ≤ (j.cache which).nTotalPages
    · obtain ⟨-, hall⟩ := DuckCache.store_reads srcLen.toNat_lt hfind hfits hs
      have hrange := range_le_of_inBuffer fun i hi => hreads _ (hall i hi)
      have hmax : srcLen.toNat ≤ MAX_LEN := le_maxLen (j := j) (by omega)
      rcases DuckCache.store_spec std (h.cache which) digest j.mem (j.addr srcOff) hmax
        (toNat_ne_zero hnow) with
        ⟨-, heq⟩ | ⟨-, -, heq⟩ | ⟨-, -, c', evicted, heq, hins⟩
      · rw [heq, Option.some.injEq] at hs
        rw [← hs]
        exact h.cache which
      · rw [heq, Option.some.injEq] at hs
        rw [← hs]
        exact h.cache which
      · rw [heq, Option.some.injEq] at hs
        rw [← hs]
        exact hins.inv
    · rw [DuckCache.store_of_big hfind j.mem _ _ (Nat.lt_of_not_le hfits),
        Option.some.injEq] at hs
      rw [← hs]
      exact h.cache which

theorem exec_cachesOk {std : StdSort} {j : Judger} (h : CachesOk j) {op : BufferOp}
    (hclock : op.ClockOk) {r : OpResult} (hexec : j.exec std op = some r)
    (hin : r.Inside j) : CachesOk r.judger := by
  cases exec_cases hexec with
  | refused heq =>
    subst heq
    exact h
  | read hclears reads output heq =>
    subst heq
    exact h
  | write hclears reads ws heq =>
    subst heq
    exact (h.poke ws).clear
  | load hclears hnow hload => exact loadFrom_cachesOk h (hnow hclock) hload
  | store hclears hnow hstore => exact storeTo_cachesOk h (hnow hclock) hstore hin.1

/-- The time stamps of a call are not zero. -/
def Call.ClockOk : Call → Prop
  | .buffer op => op.ClockOk
  | .judge .. => True

theorem step_cachesOk {std : StdSort} {t : Timer} {s s' : History} (h : CachesOk s.judger)
    {call : Call} (hclock : call.ClockOk) (hstep : s.step std t call = some s') :
    CachesOk s'.judger := by
  cases call with
  | buffer op =>
    simp only [History.step, Option.bind_eq_some_iff] at hstep
    obtain ⟨r, hexec, hstep⟩ := hstep
    split at hstep
    · rename_i hin
      rw [Option.some.injEq] at hstep
      subst hstep
      exact exec_cachesOk h hclock hexec hin
    · cases hstep
  | judge req g u =>
    simp only [History.step] at hstep
    split at hstep
    · rename_i heq
      rw [judge_of_eq heq, Option.some.injEq] at hstep
      subst hstep
      exact h
    · rename_i hne
      rw [judge_of_ne hne, Option.some.injEq] at hstep
      subst hstep
      have hans := execute_answered t s.judger req g u
      exact ⟨by rw [hans.elfCache]; exact h.elf, by rw [hans.dataCache]; exact h.data⟩

theorem run_cachesOk {std : StdSort} {t : Timer} {calls : List Call} {s s' : History}
    (h : CachesOk s.judger) (hclock : ∀ call ∈ calls, call.ClockOk)
    (hrun : s.run std t calls = some s') : CachesOk s'.judger := by
  induction calls generalizing s with
  | nil =>
    obtain rfl := Option.some.inj hrun
    exact h
  | cons call calls ih =>
    simp only [History.run, List.foldlM_cons, Option.bind_eq_bind, Option.bind_eq_some_iff] at hrun
    obtain ⟨s1, hstep, hrest⟩ := hrun
    exact ih (step_cachesOk h (hclock call (by simp)) hstep)
      (fun c hc => hclock c (by simp [hc])) hrest

/-- The arrays of a cache fit wherever it is put. -/
theorem arraysFit_of_lower (b : MemoryBreaks) {n : Nat}
    (hn : DuckCache.exactArraysSize n < 2 ^ 32) : DuckCache.ArraysFit b.vaddrBreak n := by
  have hlower := b.lower
  simp only [DuckCache.ArraysFit, PAGE_SIZE]
  omega

theorem cacheReady_eq_some {o : DuckCache.InitOutcome} {r : CacheRegion}
    (h : cacheReady o = some r) : o = .ok r.breaks r.cache := by
  cases o with
  | ok breaks cache =>
    obtain rfl := Option.some.inj h
    rfl
  | failed => cases h
  | reboot => cases h
  | diverged => cases h

/-- The two caches of a fresh judger, as `DuckCache::init` left them. -/
theorem init_caches {b : MemoryBreaks} {raw : Raw} {j : Judger} (h : init b raw = some j) :
    ∃ b1 b2 b3 size1 size2, size1 < 2 ^ 64 ∧ size2 < 2 ^ 64 ∧
      DuckCache.init b1 raw.elfCache ELF_CACHE_N size1 = .ok b2 j.elfCache ∧
      DuckCache.init b2 raw.dataCache DATA_CACHE_N size2 = .ok b3 j.dataCache := by
  simp only [init, Option.bind_eq_some_iff, Option.map_eq_some_iff] at h
  obtain ⟨region, -, elf, helf, data, hdata, rfl⟩ := h
  exact ⟨_, _, _, _, _, UInt64.toNat_lt _, UInt64.toNat_lt _, cacheReady_eq_some helf,
    cacheReady_eq_some hdata⟩

theorem arraysFit_elf (b : MemoryBreaks) : DuckCache.ArraysFit b.vaddrBreak ELF_CACHE_N :=
  arraysFit_of_lower b (by decide)

theorem arraysFit_data (b : MemoryBreaks) : DuckCache.ArraysFit b.vaddrBreak DATA_CACHE_N :=
  arraysFit_of_lower b (by decide)

theorem init_cachesOk {b : MemoryBreaks} {raw : Raw} {j : Judger} (h : init b raw = some j) :
    CachesOk j := by
  obtain ⟨b1, b2, b3, size1, size2, h1, h2, helf, hdata⟩ := init_caches h
  exact ⟨DuckCache.init_inv helf (by decide) (arraysFit_elf b2) h1,
    DuckCache.init_inv hdata (by decide) (arraysFit_data b3) h2⟩

/-- A fresh cache holds nothing. -/
theorem init_elfCache {b : MemoryBreaks} {raw : Raw} {j : Judger} (h : init b raw = some j) :
    j.elfCache.entries = [] ∧ 0 < j.elfCache.nTotalPages := by
  obtain ⟨b1, b2, b3, size1, size2, h1, -, helf, -⟩ := init_caches h
  have hfresh := DuckCache.init_fresh helf (arraysFit_elf b2) h1
  refine ⟨?_, hfresh.totalPos⟩
  rw [DuckCache.entries, hfresh.curObjects]
  rfl

/-! ## Runs are defined -/

/-- The range that a call hands to a cache is a range of the buffer. -/
def Call.RangeOk (bufferSize : UInt64) : Call → Prop
  | .buffer (.loadCache _ off len _ _) => off.toNat + len.toNat ≤ bufferSize.toNat
  | .buffer (.storeCache _ off len _ _) => off.toNat + len.toNat ≤ bufferSize.toNat
  | _ => True

theorem harmless_of_rangeOk {j : Judger} {op : BufferOp}
    (h : Call.RangeOk j.bufferSize (.buffer op)) : j.Harmless op := by
  cases op with
  | loadCache name dstOff dstLen hex now => exact fun _ _ _ _ => .inr h
  | storeCache name srcOff srcLen hex now => exact fun _ _ _ _ _ => .inr h
  | _ => trivial

/-- Where the buffer is. -/
structure SamePlace (j j' : Judger) : Prop where
  breaks : j'.breaks = j.breaks
  buffer : j'.buffer = j.buffer
  bufferSize : j'.bufferSize = j.bufferSize

theorem SamePlace.symm {j j' : Judger} (h : SamePlace j j') : SamePlace j' j :=
  ⟨h.breaks.symm, h.buffer.symm, h.bufferSize.symm⟩

theorem SamePlace.trans {j j' j'' : Judger} (h : SamePlace j j') (h' : SamePlace j' j'') :
    SamePlace j j'' :=
  ⟨h'.breaks.trans h.breaks, h'.buffer.trans h.buffer, h'.bufferSize.trans h.bufferSize⟩

/-- No call moves the buffer. -/
theorem step_place {std : StdSort} {t : Timer} {s s' : History} {call : Call}
    (hstep : s.step std t call = some s') : SamePlace s.judger s'.judger := by
  cases call with
  | buffer op =>
    simp only [History.step, Option.bind_eq_some_iff] at hstep
    obtain ⟨r, hexec, hstep⟩ := hstep
    split at hstep
    · rw [Option.some.injEq] at hstep
      subst hstep
      cases effect_of_exec hexec with
      | cleared j1 hclears hret hsame heq =>
        refine ⟨?_, ?_, ?_⟩
        · simp only [heq, clearJudgeResult_breaks]
          exact hsame.breaks
        · simp only [heq, clearJudgeResult_buffer]
          exact hsame.buffer
        · simp only [heq, clearJudgeResult_bufferSize]
          exact hsame.bufferSize
      | kept hquiet hsame hmem => exact ⟨hsame.breaks, hsame.buffer, hsame.bufferSize⟩
    · cases hstep
  | judge req g u =>
    simp only [History.step] at hstep
    split at hstep
    · rename_i heq
      rw [judge_of_eq heq, Option.some.injEq] at hstep
      rw [← hstep]
      exact ⟨rfl, rfl, rfl⟩
    · rename_i hne
      rw [judge_of_ne hne, Option.some.injEq] at hstep
      rw [← hstep]
      have hans := execute_answered t s.judger req g u
      exact ⟨hans.breaks, hans.buffer, hans.bufferSize⟩

theorem run_place {std : StdSort} {t : Timer} {calls : List Call} {s s' : History}
    (hrun : s.run std t calls = some s') : SamePlace s.judger s'.judger := by
  induction calls generalizing s with
  | nil =>
    obtain rfl := Option.some.inj hrun
    exact ⟨rfl, rfl, rfl⟩
  | cons call calls ih =>
    simp only [History.run, List.foldlM_cons, Option.bind_eq_bind, Option.bind_eq_some_iff] at hrun
    obtain ⟨s1, hstep, hrest⟩ := hrun
    exact (step_place hstep).trans (ih hrest)

theorem step_defined (std : StdSort) (t : Timer) {s : History} (h : CachesOk s.judger)
    {call : Call} (hclock : call.ClockOk) (hrange : call.RangeOk s.judger.bufferSize) :
    ∃ s', s.step std t call = some s' := by
  cases call with
  | buffer op =>
    obtain ⟨r, hexec, hsafe⟩ :=
      (exec_staysInside_iff std h op hclock).mpr (harmless_of_rangeOk hrange)
    exact ⟨⟨r.judger, s.last, s.sinceClear && !(op.clears && r.ret)⟩,
      by simp only [History.step, hexec, Option.bind_some, if_pos hsafe.inside]⟩
  | judge req g u =>
    simp only [History.step]
    split
    · exact ⟨_, rfl⟩
    · exact ⟨_, rfl⟩

theorem run_defined (std : StdSort) (t : Timer) {s : History} (h : CachesOk s.judger)
    {calls : List Call} (hclock : ∀ call ∈ calls, call.ClockOk)
    (hrange : ∀ call ∈ calls, call.RangeOk s.judger.bufferSize) :
    ∃ s', s.run std t calls = some s' := by
  induction calls generalizing s with
  | nil => exact ⟨s, rfl⟩
  | cons call calls ih =>
    obtain ⟨s1, hstep⟩ := step_defined std t h (hclock call (by simp)) (hrange call (by simp))
    have hsize := (step_place hstep).bufferSize
    obtain ⟨s', hrun⟩ := ih (step_cachesOk h (hclock call (by simp)) hstep)
      (fun c hc => hclock c (by simp [hc]))
      (fun c hc => by rw [hsize]; exact hrange c (by simp [hc]))
    refine ⟨s', ?_⟩
    simp only [History.run, List.foldlM_cons, Option.bind_eq_bind, hstep, Option.bind_some]
    exact hrun

/-! ## Setting up -/

/-- Breaks with room for a small judger. -/
def wideBreaks : MemoryBreaks := ⟨KERNEL_BREAK, 0x80000000, rfl, by decide, by decide⟩

def blankRaw : Raw := ⟨DuckCache.blank, DuckCache.blank, fun _ => 0, fun _ => 0⟩

theorem takeBuffer_eq {b b' : MemoryBreaks} {size : UInt64}
    (hround : size.toNat ≤ roundUp size.toNat HUGE_PAGE_SIZE) {addr : Nat}
    (h : allocateVirtualMemory b size.toNat = some (addr, b')) :
    ∃ region, takeBuffer b size hround = some region ∧ region.size = size ∧
      region.breaks = b' := by
  rcases hx : takeBuffer b size hround with _ | region
  · rw [takeBuffer, Option.map_eq_none_iff, Option.attach_eq_none_iff, h] at hx
    cases hx
  · obtain ⟨r, -, rfl⟩ := Option.map_eq_some_iff.mp hx
    have hr := Option.some.inj (h.symm.trans r.2)
    exact ⟨_, rfl, rfl, (congrArg Prod.snd hr).symm⟩

/-- A cache fits below the break, and the break goes down by its size. -/
theorem cacheReady_of_room (b : MemoryBreaks) (old : DuckCache) {n size : Nat}
    (halloc : b.kernelBreak + roundUp size HUGE_PAGE_SIZE ≤ b.vaddrBreak)
    (hround : roundUp size HUGE_PAGE_SIZE = ceilTo size HUGE_PAGE_SIZE)
    (hroom : DuckCache.exactArraysSize n + PAGE_SIZE < size) :
    ∃ r, cacheReady (DuckCache.init b old n size) = some r ∧
      r.breaks.vaddrBreak + roundUp size HUGE_PAGE_SIZE = b.vaddrBreak := by
  rw [hround] at halloc
  obtain ⟨b', c, hinit, -⟩ := DuckCache.init_of_room b old n size halloc hroom
  obtain ⟨cache, hcache, -⟩ := DuckCache.init_ok hinit
  obtain ⟨hbreak, -, htop⟩ := allocateVirtualMemory_spec hcache
  refine ⟨⟨c, b'⟩, by rw [hinit]; rfl, ?_⟩
  rw [← htop, hbreak]

theorem init_of_regions {b : MemoryBreaks} {raw : Raw} {small : Bool} {region : BufferRegion}
    {elf data : CacheRegion} (hsmall : (!canAllocateVirtualMemory b TOTAL_SIZE.toNat) = small)
    (hregion : allocateBuffer b small = some region)
    (helf : cacheReady (DuckCache.init region.breaks raw.elfCache ELF_CACHE_N
      ELF_CACHE_SIZE.toNat) = some elf)
    (hdata : cacheReady (DuckCache.init elf.breaks raw.dataCache DATA_CACHE_N
      (dataCacheSizeFor small).toNat) = some data) :
    init b raw = some (start raw region elf data) := by
  unfold init
  rw [hsmall]
  dsimp only
  rw [hregion, Option.bind_some, helf, Option.bind_some, hdata, Option.map_some]

/-- With a gigabyte of user space to spare `init` succeeds. -/
theorem init_wideBreaks : ∃ j, init wideBreaks blankRaw = some j ∧
    j.bufferSize = INITIAL_BUFFER_SIZE_SMALL ∧ j.breaks.vaddrBreak = 0x40000000 ∧
    ∀ x, j.mem x = 0 := by
  have hsmall : (!canAllocateVirtualMemory wideBreaks TOTAL_SIZE.toNat) = true := by decide
  have hbuffer : roundUp (bufferSizeFor true).toNat HUGE_PAGE_SIZE = 0x20000000 := rfl
  have helf : roundUp ELF_CACHE_SIZE.toNat HUGE_PAGE_SIZE = 0x10000000 := rfl
  have hdata : roundUp (dataCacheSizeFor true).toNat HUGE_PAGE_SIZE = 0x10000000 := rfl
  have hwide : wideBreaks.vaddrBreak = 0x80000000 := rfl
  have hkernel : wideBreaks.kernelBreak = 0x400000 := rfl
  obtain ⟨addr, b1, halloc⟩ := allocateVirtualMemory_of_room (b := wideBreaks)
    (show _ + roundUp (bufferSizeFor true).toNat HUGE_PAGE_SIZE ≤ _ by
      rw [hbuffer, hkernel, hwide]; decide)
  obtain ⟨hb1, -, htop⟩ := allocateVirtualMemory_spec halloc
  rw [hbuffer, hwide] at htop
  obtain ⟨region, hregion, hsize, hbreaks⟩ := takeBuffer_eq (bufferSizeFor_le true) halloc
  have hbreak : KERNEL_BREAK = 0x400000 := rfl
  have hk1 := region.breaks.kernel
  have hv1 : region.breaks.vaddrBreak = addr := by rw [hbreaks, hb1]
  have hroom1 : region.breaks.kernelBreak + roundUp ELF_CACHE_SIZE.toNat HUGE_PAGE_SIZE ≤
      region.breaks.vaddrBreak := by
    rw [helf]
    omega
  obtain ⟨elf, helfReady, hv2⟩ := cacheReady_of_room region.breaks blankRaw.elfCache hroom1 rfl
    (show DuckCache.exactArraysSize ELF_CACHE_N + PAGE_SIZE < ELF_CACHE_SIZE.toNat by decide)
  have hk2 := elf.breaks.kernel
  rw [helf] at hv2
  have hroom2 : elf.breaks.kernelBreak +
      roundUp (dataCacheSizeFor true).toNat HUGE_PAGE_SIZE ≤ elf.breaks.vaddrBreak := by
    rw [hdata]
    omega
  obtain ⟨data, hdataReady, hv3⟩ := cacheReady_of_room elf.breaks blankRaw.dataCache hroom2 rfl
    (show DuckCache.exactArraysSize DATA_CACHE_N + PAGE_SIZE < (dataCacheSizeFor true).toNat by
      decide)
  rw [hdata] at hv3
  have hend : data.breaks.vaddrBreak = 0x40000000 := by omega
  refine ⟨_, init_of_regions hsmall hregion helfReady hdataReady, hsize, hend, fun x => ?_⟩
  simp only [start, Mem.fill, blankRaw, ite_self]

/-! ## Replays -/

/-- The answer of a replay is that of the executed call, for the buffer as it is. -/
structure ReplaySafe (t : Timer) (s : History) (e : Executed) : Prop where
  last : s.last = some e
  contents : s.judger.contents = e.contents
  seqNum : s.judger.judgeSeqNum = e.seqNum
  result : s.judger.judgeResult = e.result
  replay : ∀ req g u, req.seqNum = s.judger.judgeSeqNum →
    s.judger.judge t req g u = ⟨e.result, s.judger⟩

theorem Tracked.replaySafe {s : History} (h : Tracked s)
    (hseq : s.judger.judgeSeqNum ≠ CLEARED_SEQ_NUM) (t : Timer) : ∃ e, ReplaySafe t s e := by
  have hsince : s.sinceClear = true := by
    by_contra hno
    exact hseq (h.fresh (Bool.eq_false_iff.mpr hno)).1
  obtain ⟨e, hlast, hcontents, hseqNum, hresult⟩ := h.last hsince
  refine ⟨e, hlast, hcontents, hseqNum, hresult, fun req g u heq => ?_⟩
  rw [judge_of_eq heq, hresult]

/-- **Replays are safe.**  Every sequence of calls whose cache ranges are in the
    buffer runs, and in every state that a sequence of calls reaches, unless the
    sequence number is that of the cleared state, the buffer, the sequence number
    and the stored result are those of the last executed `judge` call. -/
theorem run_replay (std : StdSort) (t : Timer) {b : MemoryBreaks} {raw : Raw} {j : Judger}
    (hinit : init b raw = some j) (calls : List Call) :
    ((∀ call ∈ calls, call.ClockOk ∧ call.RangeOk j.bufferSize) →
      ∃ s, (History.start j).run std t calls = some s) ∧
    ∀ s, (History.start j).run std t calls = some s →
      s.judger.judgeSeqNum ≠ CLEARED_SEQ_NUM → ∃ e, ReplaySafe t s e := by
  refine ⟨fun hok => ?_, fun s hrun hseq => ?_⟩
  · exact run_defined std t (init_cachesOk hinit) (fun call hc => (hok call hc).1)
      fun call hc => (hok call hc).2
  · exact (run_tracked (init_tracked hinit) hrun).replaySafe hseq t

/-- A request that no judger can run: its buffers have no length and overlap nothing,
    but the limit on the time is zero. -/
def idleRequest (seqNum : UInt64) : JudgeRequest :=
  ⟨seqNum, 0, 0, ⟨0, 0⟩, ⟨0, 0⟩, ⟨0, 0⟩, ⟨0, 0⟩, ⟨0, 0⟩, ⟨0, 0⟩, 0⟩

def idleGarbage : ELF.Garbage := ⟨0, 0, 0, 0⟩

def idleRun : ELF.UserRun := ⟨0, 0, 0, 0, 0, 0, fun _ => 0⟩

def sampleTimer : Timer := ⟨3700000000, 3700000000, by decide, by decide⟩

/-- A write, a judge and a read. -/
def sampleCalls : List Call :=
  [.buffer (.writeBuffer 0 (fun _ => 7) 16), .judge (idleRequest 1) idleGarbage idleRun,
    .buffer (.readBuffer 0 16)]

/-- A request leaves its sequence number, executed or not. -/
theorem step_judge_seqNum {std : StdSort} {t : Timer} {s s' : History} {req : JudgeRequest}
    {g : ELF.Garbage} {u : ELF.UserRun} (h : s.step std t (.judge req g u) = some s') :
    s'.judger.judgeSeqNum = req.seqNum := by
  simp only [History.step] at h
  split at h
  · rename_i heq
    rw [judge_of_eq heq, Option.some.injEq] at h
    rw [← h]
    exact heq.symm
  · rename_i hne
    rw [judge_of_ne hne, Option.some.injEq] at h
    rw [← h]
    exact (execute_answered t s.judger req g u).seqNum

/-- An operation that clears nothing leaves it as well. -/
theorem step_buffer_seqNum {std : StdSort} {t : Timer} {s s' : History} {op : BufferOp}
    (h : s.step std t (.buffer op) = some s') (hclears : op.clears = false) :
    s'.judger.judgeSeqNum = s.judger.judgeSeqNum := by
  simp only [History.step, Option.bind_eq_some_iff] at h
  obtain ⟨r, hexec, h⟩ := h
  split at h
  · rw [Option.some.injEq] at h
    rw [← h]
    cases effect_of_exec hexec with
    | cleared j1 hyes => rw [hclears] at hyes; cases hyes
    | kept hquiet hsame hmem => exact hsame.judgeSeqNum
  · cases h

/-- They run in a fresh judger, and the request is the last one that was executed. -/
theorem sampleCalls_run {j : Judger} (hinit : init wideBreaks blankRaw = some j) :
    ∃ s, (History.start j).run .insertion sampleTimer sampleCalls = some s ∧
      s.judger.judgeSeqNum = 1 := by
  have hclock : ∀ call ∈ sampleCalls, call.ClockOk := by
    simp [sampleCalls, Call.ClockOk, BufferOp.ClockOk]
  have hrange : ∀ call ∈ sampleCalls, call.RangeOk j.bufferSize := by
    simp [sampleCalls, Call.RangeOk]
  obtain ⟨s, hrun⟩ := run_defined .insertion sampleTimer (s := .start j) (init_cachesOk hinit)
    hclock hrange
  refine ⟨s, hrun, ?_⟩
  simp only [History.run, sampleCalls, List.foldlM_cons, List.foldlM_nil, Option.bind_eq_bind,
    Option.bind_eq_some_iff] at hrun
  obtain ⟨s1, -, s2, hjudge, s3, hread, hlast⟩ := hrun
  obtain rfl := Option.some.inj hlast
  exact (step_buffer_seqNum hread rfl).trans (step_judge_seqNum hjudge)

theorem run_replay_sample : ∃ j, init wideBreaks blankRaw = some j ∧
    ∃ s, (History.start j).run .insertion sampleTimer sampleCalls = some s ∧
      s.judger.judgeSeqNum = 1 ∧ ∃ e, ReplaySafe sampleTimer s e := by
  obtain ⟨j, hinit, -⟩ := init_wideBreaks
  obtain ⟨s, hrun, hseq⟩ := sampleCalls_run hinit
  refine ⟨j, hinit, s, hrun, hseq, ?_⟩
  refine (run_replay .insertion sampleTimer hinit sampleCalls).2 s hrun ?_
  rw [hseq]
  decide

/-! ## Staying inside -/

/-- **Where the buffer operations stay inside the buffer**, in every state that a
    run reaches. -/
theorem run_staysInside_iff (std : StdSort) (t : Timer) {b : MemoryBreaks} {raw : Raw}
    {j : Judger} (hinit : init b raw = some j) {calls : List Call}
    (hclock : ∀ call ∈ calls, call.ClockOk) {s : History}
    (hrun : (History.start j).run std t calls = some s) (op : BufferOp) (hop : op.ClockOk) :
    (∃ r, s.judger.exec std op = some r ∧ StaysInside s.judger op r) ↔ s.judger.Harmless op :=
  exec_staysInside_iff std (run_cachesOk (init_cachesOk hinit) hclock hrun) op hop

/-- Sixty-four zeros. -/
def zeroHex : Vector UInt8 64 := Vector.replicate 64 48

/-- After the sample calls sixteen bytes of the buffer go into a cache. -/
theorem run_staysInside_sample : ∃ j, init wideBreaks blankRaw = some j ∧
    ∃ s, (History.start j).run .insertion sampleTimer sampleCalls = some s ∧
      ∃ r, s.judger.exec .insertion (.storeCache "elf" 0 16 zeroHex 1) = some r ∧
        StaysInside s.judger (.storeCache "elf" 0 16 zeroHex 1) r := by
  obtain ⟨j, hinit, hsize, -⟩ := init_wideBreaks
  obtain ⟨s, hrun, -⟩ := sampleCalls_run hinit
  have hroom : (0 : UInt64).toNat + (16 : UInt64).toNat ≤ s.judger.bufferSize.toNat := by
    rw [(run_place hrun).bufferSize, History.start, hsize]
    decide
  have hop : (BufferOp.storeCache "elf" 0 16 zeroHex 1).ClockOk := show (1 : UInt64) ≠ 0 by decide
  refine ⟨j, hinit, s, hrun, ?_⟩
  exact (run_staysInside_iff .insertion sampleTimer hinit
    (by simp [sampleCalls, Call.ClockOk, BufferOp.ClockOk]) hrun _ hop).mpr
    fun _ _ _ _ _ => .inr hroom

/-- One byte from behind the buffer goes into the empty cache. -/
theorem storeCache_leaves_buffer : ∃ j, init wideBreaks blankRaw = some j ∧
    ¬ ∃ r, j.exec .insertion (.storeCache "elf" j.bufferSize 1 zeroHex 1) = some r ∧
      StaysInside j (.storeCache "elf" j.bufferSize 1 zeroHex 1) r := by
  obtain ⟨j, hinit, -⟩ := init_wideBreaks
  refine ⟨j, hinit, fun h => ?_⟩
  obtain ⟨hnone, htotal⟩ := init_elfCache hinit
  have hclock : (BufferOp.storeCache "elf" j.bufferSize 1 zeroHex 1).ClockOk :=
    show (1 : UInt64) ≠ 0 by decide
  have hharmless := (exec_staysInside_iff .insertion (init_cachesOk hinit) _ hclock).mp h
  obtain ⟨digest, hdigest⟩ : ∃ d, digestFromHex zeroHex = some d :=
    Option.isSome_iff_exists.mp (by decide)
  have hentries : ∀ e ∈ (j.cache .elf).entries, e.digest ≠ digest := by
    intro e he
    rw [show (j.cache .elf).entries = [] from hnone] at he
    cases he
  have hone : nPagesFor (1 : UInt64).toNat = 1 := by decide
  rcases hharmless digest .elf ⟨hdigest, rfl⟩ hentries (by rw [hone]; exact htotal) with h0 | hle
  · exact absurd h0 (by decide)
  · exact absurd hle (by rw [show (1 : UInt64).toNat = 1 from rfl]; omega)

end Judger

end JudgePenguin
