/-
  JudgePenguin/JudgedProcess.lean
  ===============================
  **From a request to its answer.**

  The parts meet here.  `judge` checks a request and loads the file from the buffer;
  the program that was loaded is a `machine`, hence a process whose input is the
  stdin range of the request; it ends with a call that the trap handler sees; and the
  answer is made of what it left.  So a judge call is about a process and two ranges
  of bytes, with neither page, register nor record in it (`Reaches.judged_process`).

  The library's variables are taken to start as the file has them, with `inited` 0.
-/
import JudgePenguin.JudgerAccounting
import JudgePenguin.ProcessIO
import JudgePenguin.ProgramOutput

namespace JudgePenguin

open Words UserLib

namespace Judger

/-- How a program ends whose memory is `m`: in a trap, which may be an instruction
    `syscall` of its own, or in a call of the library that does not come back.  `u` is
    what the kernel finds, and the call shows as an event.  `TrapTransparency` says when
    the kernel finds what the program left. -/
inductive Ending (E : Env) (returnCode : Int32) (m : Mem) (u : ELF.UserRun) : Option IoEvent → Prop
  | trap (hmem : u.umem = m) : Ending E returnCode m u none
  | call {ch : Chance} {a : Args} (htrap : u.trapNum = Trap.TRAP_SYSCALL)
    (hcall : duck64SyscallHandler E.x E.getauxval ch a m = .syscall u.rax u.rdi u.umem) :
    Ending E returnCode m u
      (some (seenEnd a (Trap.exportReturnCode u.trapNum u.rax u.rdi returnCode) (sysOf a.n)))

/-- What the answer says of the ending of a run that took `timeNs`. -/
structure EndingJudged (limit timeNs : UInt64) (status : Trap.Exported) (e : Option IoEvent)
    (result : JudgeResult) : Prop where
  trapNum : result.trapNum = status.trapNum
  returnCode : result.returnCode = status.returnCode
  isTLE : result.isTLE = true ↔ status.trapNum = 32 ∨ limit < timeNs
  isRE : result.isRE = true ↔ result.isTLE = false ∧ status.trapNum ≠ Trap.TRAP_SYSCALL
  exit : ∀ code status', e = some (.exit code status') →
    result.returnCode.toInt = code ∧ result.trapNum = Trap.TRAP_SYSCALL
  abort : ∀ status', e = some (.abort status') → result.trapNum = Trap.TRAP_ABORT

/-- The answer to a request whose program did `es` and ended as it did after `timeNs`. -/
structure Processed (j : Judger) (req : JudgeRequest) (es : List IoEvent) (e : Option IoEvent)
    (status : Trap.Exported) (timeNs : UInt64) (r : Judged) : Prop where
  input : input es <+: j.mem.read (j.addr req.stdin.off) req.stdin.len.toNat
  size : ∀ s : Stream,
    (r.result.outputSize s).toNat = min (req.output s).len.toNat (output s es).length
  bytes : ∀ s : Stream, r.judger.mem.read (r.judger.buffer + (req.output s).off.toNat)
    (r.result.outputSize s).toNat = (output s es).take (req.output s).len.toNat
  ending : EndingJudged req.timeLimitNs timeNs status e r.result

section Process

variable {t : Timer} {j : Judger} {req : JudgeRequest} {loaded : ELF.Loaded}

theorem limited_returnCode (req : JudgeRequest) (res : ELF.RunResult) (result : JudgeResult) :
    (limited req res result).returnCode = result.returnCode := by
  rw [limited]
  split
  · rfl
  · rfl

/-- A runtime error is a bad ending within the limit. -/
theorem Verdict.isRE_iff {e : Entry} {app : ELF.App} (h : Verdict t e app) :
    e.result.isRE = true ↔ e.result.isTLE = false ∧ e.result.trapNum ≠ Trap.TRAP_SYSCALL := by
  constructor
  · intro hre
    have hlimit : e.result.isTLE = false := Bool.eq_false_iff.mpr fun htle => h.exclusive ⟨hre, htle⟩
    exact ⟨hlimit, (h.isRE hlimit).mp hre⟩
  · rintro ⟨hlimit, htrap⟩
    exact (h.isRE hlimit).mpr htrap

/-- What the regions of the program hold becomes the answer. -/
theorem Reaches.answer_output (h : Reaches t j req loaded) (g : ELF.Garbage) (u : ELF.UserRun)
    (x : Statics) {c : ProcessStack.Contents} (hc : c.getauxval ELF.AT_DUCK = loaded.app.duckinfoPtr)
    {out : Stream → List UInt8}
    (hout : ∀ s : Stream,
      (Env.ofApp x c loaded.app).cell u.umem (.field s.sizeField) =
          min ((Env.ofApp x c loaded.app).size s.slot) (out s).length ∧
        u.umem.read ((Env.ofApp x c loaded.app).start s.slot)
            (min ((Env.ofApp x c loaded.app).size s.slot) (out s).length) =
          (out s).take ((Env.ofApp x c loaded.app).size s.slot)) (s : Stream) :
    ((j.judge t req g u).result.outputSize s).toNat = min (req.output s).len.toNat (out s).length ∧
      (j.judge t req g u).judger.mem.read
          ((j.judge t req g u).judger.buffer + (req.output s).off.toNat)
          ((j.judge t req g u).result.outputSize s).toNat =
        (out s).take (req.output s).len.toNat := by
  obtain ⟨res, hres⟩ : ∃ res, ELF.run t loaded.app g u = res := ⟨_, rfl⟩
  have hresult : (j.judge t req g u).result.outputSize s = res.outputSize s := by
    rw [h.result_outputSize g u, hres]
  have hsize (s : Stream) :
      (res.outputSize s).toNat = min (req.output s).len.toNat (out s).length := by
    rw [← hres, ELF.run_outputSize t loaded.app g u x hc, (hout s).1, ← Nat.min_assoc, Nat.min_self,
      h.size_eq]
  have hptr : res.outputPtr s = (Env.ofApp x c loaded.app).start s.slot := by
    rw [← hres, ELF.run_outputPtr]
  have hjudger : (j.judge t req g u).judger.buffer = j.buffer ∧
      (j.judge t req g u).judger.mem = j.mem.apply (j.copyBack req res u.umem) := by
    rw [judge_of_reaches h g u, ← hres]
    exact ⟨rfl, rfl⟩
  have hle (s : Stream) : (res.outputSize s).toNat ≤ (req.output s).len.toNat := by
    rw [hsize]
    exact Nat.min_le_left _ _
  have hbytes := (hout s).2
  rw [h.size_eq] at hbytes
  rw [hresult, hjudger.1, hjudger.2, h.copied u.umem hle, hptr, hsize, hbytes]
  exact ⟨rfl, rfl⟩

/-- The input of the process is the stdin range of the request. -/
theorem Reaches.stdinOf (h : Reaches t j req loaded) (x : Statics) (c : ProcessStack.Contents) :
    (Env.ofApp x c loaded.app).stdinOf (j.umem.apply loaded.writes) =
      j.mem.read (j.addr req.stdin.off) req.stdin.len.toNat := by
  obtain ⟨hacc, rfl⟩ := h.accepts
  exact (hacc.programImage t.tscFreq j.umem).stdin

/-- What the kernel finds of a program that has done `es`. -/
theorem ended_outputs {E : Env} (h : E.Sound) {m₀ m : Mem} {es : List IoEvent} {returnCode : Int32}
    {u : ELF.UserRun} {e : Option IoEvent} (hstart : (machine E).start ⟨m₀, true⟩)
    (hrun : (machine E).Run ⟨m₀, true⟩ es ⟨m, true⟩) (hend : Ending E returnCode m u e) :
    input es <+: E.stdinOf m₀ ∧
      (∀ s : Stream, E.cell u.umem (.field s.sizeField) = min (E.size s.slot) (output s es).length ∧
        u.umem.read (E.start s.slot) (min (E.size s.slot) (output s es).length) =
          (output s es).take (E.size s.slot)) ∧
      ∀ e', e = some e' → ∃ L, IoStep (fun s => E.size s.slot) (.running L) e' (.ended L) := by
  obtain ⟨p, hp, hflow⟩ := run_flowed h hstart hrun
  cases hend with
  | trap hmem =>
    refine ⟨hflow.input_le, fun s => ?_, ?_⟩
    · rw [hmem]
      exact hp.outputs hflow s
    · rintro e' ⟨⟩
  | @call ch a htrap hcall =>
    cases hp with
    | @running _ L hm hpos hsize =>
      obtain ⟨hstep, hcur⟩ := hm.handler_end h hcall
      have hp' : Represents E ⟨u.umem, false⟩ (.ended L) := .ended hcur hpos
      refine ⟨hflow.input_le, hp'.outputs hflow, ?_⟩
      rintro e' ⟨⟩
      rw [htrap]
      exact ⟨L, hstep returnCode⟩

/-- The status of a call that ends the program is the one that is exported. -/
theorem Ending.status {E : Env} {m : Mem} {returnCode : Int32} {u : ELF.UserRun} {e : Option IoEvent}
    (hend : Ending E returnCode m u e) (status : Trap.Exported) :
    (∀ code, e = some (.exit code status) →
      status = Trap.exportReturnCode u.trapNum u.rax u.rdi returnCode) ∧
    (e = some (.abort status) →
      status = Trap.exportReturnCode u.trapNum u.rax u.rdi returnCode) := by
  cases hend with
  | trap =>
    refine ⟨?_, ?_⟩
    · rintro code ⟨⟩
    · rintro ⟨⟩
  | @call ch a htrap hcall =>
    have hseen (status : Trap.Exported) (s : Option Sys) :
        seenEnd a status s = .exit (asInt a.a1) status ∨ seenEnd a status s = .abort status := by
      cases s with
      | none => exact .inr rfl
      | some s =>
        cases s with
        | exit => exact .inl rfl
        | exitGroup => exact .inl rfl
        | _ => exact .inr rfl
    rcases hseen (Trap.exportReturnCode u.trapNum u.rax u.rdi returnCode) (sysOf a.n) with hs | hs
    · rw [hs]
      refine ⟨?_, ?_⟩
      · rintro code ⟨⟩
        rfl
      · rintro ⟨⟩
    · rw [hs]
      refine ⟨?_, ?_⟩
      · rintro code ⟨⟩
      · rintro ⟨⟩
        rfl

/-- **Judging is running a process.**  The program that a request reaches finds its
    `DuckInfo`, and however it runs, whatever it calls and however it ends, what it has
    read is the beginning of the stdin range, the answer and the output ranges have
    what it has written, cut at their lengths, and the answer tells how it ended. -/
theorem Reaches.judged_process (h : Reaches t j req loaded) {x : Statics}
    (hx : Linked x (j.elfFile req)) (hfresh : (j.umem.apply loaded.writes) x.inited = 0) : ∃ c,
    (∀ fuel, 16 ≤ fuel →
      ProcessStack.read (j.umem.apply loaded.writes) fuel loaded.app.rsp = some c) ∧
    c.getauxval ELF.AT_DUCK = loaded.app.duckinfoPtr ∧
    ∀ (es : List IoEvent) (m : Mem) (e : Option IoEvent) (g : ELF.Garbage) (u : ELF.UserRun),
      (machine (Env.ofApp x c loaded.app)).Run ⟨j.umem.apply loaded.writes, true⟩ es ⟨m, true⟩ →
      Ending (Env.ofApp x c loaded.app) g.returnCode m u e →
      Processed j req es e (Trap.exportReturnCode u.trapNum u.rax u.rdi g.returnCode)
        (ELF.run t loaded.app g u).timeNs (j.judge t req g u) := by
  obtain ⟨c, hread, hduck⟩ := h.stack
  refine ⟨c, hread, hduck, fun es m e g u hrun hend => ?_⟩
  obtain ⟨hacc, hloaded⟩ := h.accepts
  have hsound : (Env.ofApp x c loaded.app).Sound := by
    rw [hloaded] at hduck ⊢
    exact hx.sound hacc hduck
  have hinfo : InfoSet (Env.ofApp x c loaded.app) (j.umem.apply loaded.writes) := by
    rw [hloaded] at hduck ⊢
    exact loaded_infoSet hacc t.tscFreq j.umem x hduck
  obtain ⟨hinput, hout, hlast⟩ := ended_outputs hsound ⟨hinfo, hfresh, rfl⟩ hrun hend
  have hanswer := h.answer_output g u x hduck hout
  have hverdict : Verdict t ⟨req, g, u, (j.judge t req g u).result⟩ loaded.app := by
    rw [judge_of_reaches h g u]
    exact runLoaded_verdict t (j.record req) h.timeLimit loaded.app g u
  have hcode : (j.judge t req g u).result.returnCode =
      (Trap.exportReturnCode u.trapNum u.rax u.rdi g.returnCode).returnCode := by
    rw [judge_of_reaches h g u]
    exact limited_returnCode req _ _
  have htrap : (j.judge t req g u).result.trapNum =
      (Trap.exportReturnCode u.trapNum u.rax u.rdi g.returnCode).trapNum := hverdict.trapNum
  refine ⟨?_, fun s => (hanswer s).1, fun s => (hanswer s).2, htrap, hcode, ?_, ?_, ?_, ?_⟩
  · rw [← h.stdinOf x c]
    exact hinput
  · rw [← htrap]
    exact hverdict.isTLE
  · rw [← htrap]
    exact hverdict.isRE_iff
  · intro code status' he
    obtain ⟨L, hstep⟩ := hlast _ he
    have hstatus := (hend.status status').1 code he
    cases hstep with
    | exit htrap' hcode' =>
      rw [hstatus] at htrap' hcode'
      exact ⟨(congrArg Int32.toInt hcode).trans hcode', htrap.trans htrap'⟩
  · intro status' he
    obtain ⟨L, hstep⟩ := hlast _ he
    have hstatus := (hend.status status').2 he
    cases hstep with
    | abort htrap' =>
      rw [hstatus] at htrap'
      exact htrap.trans htrap'

end Process

/-! ## The program of the examples -/

/-- `write(1, 0x400000, 1)`. -/
def byteArgs : Args := ⟨1, 0x400000, 1, 1⟩

theorem byteArgs_allowed {E : Env} {m : Mem} (hcall : WriteCall E .stdout byteCall m) :
    Allowed E byteArgs m (sysOf byteArgs.n) := by
  have hwrite : sysOf byteArgs.n = some (.core .write) := sysOf_eq_some.mpr rfl
  rw [hwrite]
  intro s hs
  obtain rfl : s = .stdout := (Option.some.inj hs).symm
  exact hcall.source

/-- A process that writes one byte and exits with 7. -/
theorem byte_exits {E : Env} {m : Mem} (hcall : WriteCall E .stdout byteCall m) :
    ∃ es m' u, (machine E).Run ⟨m, true⟩ es ⟨m', true⟩ ∧
      Ending E 0 m' u (some (.exit 7 ⟨255, 7⟩)) := by
  have hexit : sysOf (exitArgs 7).n = some .exit := sysOf_eq_some.mpr rfl
  obtain ⟨r, hwrite⟩ : ∃ r, duck64SyscallHandler E.x E.getauxval ⟨0, 0⟩ byteArgs m =
      .returns r none := ⟨_, handler_core E.x E.getauxval ⟨0, 0⟩ byteArgs m (s := .write) rfl⟩
  have hend : duck64SyscallHandler E.x E.getauxval ⟨0, 0⟩ (exitArgs 7) r.mem =
      .syscall 60 7 (ensureInit E.x E.getauxval r.mem) := by
    simp only [duck64SyscallHandler, hexit]
    rfl
  have hseen : IoEvent.exit 7 ⟨255, 7⟩ =
      seenEnd (exitArgs 7) (Trap.exportReturnCode 255 60 7 0) (sysOf (exitArgs 7).n) := by
    rw [hexit]
    rfl
  refine ⟨_, r.mem, ⟨255, 60, 7, 0, 0, 0, ensureInit E.x E.getauxval r.mem⟩,
    .cons (.returns (byteArgs_allowed hcall) hwrite) (.nil _), ?_⟩
  rw [hseen]
  exact .call rfl hend

theorem judged_process_sample : ∃ (j : Judger) (loaded : ELF.Loaded) (es : List IoEvent)
    (status : Trap.Exported) (timeNs : UInt64) (u : ELF.UserRun),
    Reaches sampleTimer j (outputRequest 1 1) loaded ∧
      Processed j (outputRequest 1 1) es (some (.exit 7 ⟨255, 7⟩)) status timeNs
        (j.judge sampleTimer (outputRequest 1 1) idleGarbage u) := by
  obtain ⟨-, s, -, -, hholds, hseq, humem⟩ :=
    run_loadFile .insertion sampleTimer libBytes_length (by decide)
  have hne : 1 ≠ s.judger.judgeSeqNum := by
    rw [hseq]
    decide
  obtain ⟨loaded, hreach⟩ := hholds.lib_reaches (n := 1) hne (by decide) sampleTimer
  obtain ⟨c', -, hduck'⟩ := hreach.stack
  have hfresh : (s.judger.umem.apply loaded.writes) libStatics.inited = 0 := by
    have hinited := (hholds.lib_loaded hreach hduck').inited
    have hzero : s.judger.umem 0x401000 = 0 := by rw [humem]
    exact hinited.trans hzero
  obtain ⟨c, -, hduck, hall⟩ := hreach.judged_process (libStatics_linked (hholds.lib_loads 1 1)) hfresh
  obtain ⟨es, m, u, hrun, hend⟩ := byte_exits (hholds.lib_loaded hreach hduck).byteCall_allowed
  exact ⟨s.judger, loaded, es, _, _, u, hreach, hall es m _ idleGarbage u hrun hend⟩

end Judger

end JudgePenguin
