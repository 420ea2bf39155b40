/-
  JudgePenguin/ProgramOutput.lean
  ===============================
  **From the library to the answer.**

  What a program writes through the library goes a long way: the library keeps it in
  the region of the stream, `ELF::run` reads the size from the program's `DuckInfo`,
  and `judge` copies that much into the buffer.  All of them find the one record that
  the loader made, so the answer has the output of the program, cut off at the limit
  (`Reaches.output_judged`).  The exception is a program that starts with variables
  of an earlier one, since nothing is cleared between them: with `inited` set, the
  library works with the limits of the earlier request.
-/
import JudgePenguin.JudgerLeftovers
import JudgePenguin.LoadedProgram

namespace JudgePenguin

open Words UserLib

/-! ## The two outputs of a request -/

def JudgeRequest.output (req : JudgeRequest) : Stream → BufferDesc
  | .stdout => req.stdout
  | .stderr => req.stderr

def JudgeResult.outputSize (result : JudgeResult) : Stream → UInt64
  | .stdout => result.stdoutSize
  | .stderr => result.stderrSize

namespace ELF

def RunResult.outputSize (res : RunResult) : Stream → UInt64
  | .stdout => res.stdoutSize
  | .stderr => res.stderrSize

def RunResult.outputPtr (res : RunResult) : Stream → Nat
  | .stdout => res.stdoutPtr
  | .stderr => res.stderrPtr

/-- `AT_DUCK` is in the auxiliary vector. -/
theorem initialContents_duck (ehdr : Ehdr) (l : Layout) (ptr : Nat) :
    (initialContents ehdr l ptr).getauxval AT_DUCK = ptr := rfl

/-- The size is that in the program's record, clamped to the limit of its region. -/
theorem run_outputSize (t : Timer) (app : App) (g : Garbage) (u : UserRun) (x : Statics)
    {c : ProcessStack.Contents} (hc : c.getauxval AT_DUCK = app.duckinfoPtr) (s : Stream) :
    ((run t app g u).outputSize s).toNat = min ((Env.ofApp x c app).size s.slot)
      ((Env.ofApp x c app).cell u.umem (.field s.sizeField)) := by
  have hcell (f : Field) : (Env.ofApp x c app).cell u.umem (.field f) =
      u.umem.read64 (app.duckinfoPtr + f.offset) := by
    rw [← hc]
    rfl
  rw [hcell]
  cases s with
  | stdout => exact run_stdoutSize t app g u
  | stderr => exact run_stderrSize t app g u

theorem run_outputPtr (t : Timer) (app : App) (g : Garbage) (u : UserRun) (x : Statics)
    (c : ProcessStack.Contents) (s : Stream) :
    (run t app g u).outputPtr s = (Env.ofApp x c app).start s.slot := by cases s <;> rfl

end ELF

namespace Judger

/-- The answer `r` reports the output of the calls in `log`, and the buffer has it. -/
structure OutputJudged (E : Env) (req : JudgeRequest) (log : List UserLib.Entry) (r : Judged) :
    Prop where
  calls : ∀ e ∈ log, e.Complete E
  size : ∀ s : Stream, (r.result.outputSize s).toNat =
    min (req.output s).len.toNat (written s log).length
  bytes : ∀ s : Stream, r.judger.mem.read (r.judger.buffer + (req.output s).off.toNat)
    (r.result.outputSize s).toNat = (written s log).take (req.output s).len.toNat

section Answer

variable {t : Timer} {j : Judger} {req : JudgeRequest} {loaded : ELF.Loaded}

theorem limited_outputSize (req : JudgeRequest) (res : ELF.RunResult) (s : Stream) :
    (limited req res (resultOf res)).outputSize s = res.outputSize s := by
  obtain ⟨hout, herr, -⟩ := limited_stdoutSize req res (resultOf res)
  cases s with
  | stdout => exact hout
  | stderr => exact herr

/-- The regions of the program are as large as the request wants them. -/
theorem Reaches.size_eq (h : Reaches t j req loaded) (x : Statics) (c : ProcessStack.Contents)
    (s : Stream) : (Env.ofApp x c loaded.app).size s.slot = (req.output s).len.toNat := by
  cases s with
  | stdout => exact h.limits.1
  | stderr => exact h.limits.2

/-- The three copies do not overlap, so that each is found in the buffer. -/
theorem Reaches.copied (h : Reaches t j req loaded) {res : ELF.RunResult} (umem : Mem)
    (hle : ∀ s : Stream, (res.outputSize s).toNat ≤ (req.output s).len.toNat) (s : Stream) :
    (j.mem.apply (j.copyBack req res umem)).read (j.buffer + (req.output s).off.toNat)
        (res.outputSize s).toNat =
      umem.read (res.outputPtr s) (res.outputSize s).toNat := by
  obtain ⟨hinside, hapart⟩ := checkBuffers_iff.mp h.buffers
  have haddr1 := addr_eq (hinside req.stdout (by simp [JudgeRequest.buffers])).1
  have haddr2 := addr_eq (hinside req.stderr (by simp [JudgeRequest.buffers])).1
  have haddr3 := addr_eq (hinside req.OB (by simp [JudgeRequest.buffers])).1
  simp only [JudgeRequest.buffers, List.pairwise_cons, List.forall_mem_cons] at hapart
  obtain ⟨-, -, ⟨hoe, -, hoB, -⟩, ⟨-, heB, -⟩, -⟩ := hapart
  have hle1 : res.stdoutSize.toNat ≤ req.stdout.len.toNat := hle .stdout
  have hle2 : res.stderrSize.toNat ≤ req.stderr.len.toNat := hle .stderr
  have hcopies : (j.copyBack req res umem).Pairwise fun w v =>
      w.addr + w.bytes.length ≤ v.addr ∨ v.addr + v.bytes.length ≤ w.addr := by
    simp only [copyBack, List.pairwise_cons, List.forall_mem_cons, Mem.length_read, haddr1, haddr2,
      haddr3, List.not_mem_nil, false_implies, implies_true, List.Pairwise.nil, and_true]
    simp only [BufferDesc.Apart] at hoe hoB heB
    omega
  obtain ⟨w, hw, haddr, hbytes⟩ : ∃ w ∈ j.copyBack req res umem,
      w.addr = j.buffer + (req.output s).off.toNat ∧
        w.bytes = umem.read (res.outputPtr s) (res.outputSize s).toNat := by
    cases s with
    | stdout => exact ⟨_, List.mem_cons_self, haddr1, rfl⟩
    | stderr => exact ⟨_, List.mem_cons_of_mem _ List.mem_cons_self, haddr2, rfl⟩
  have hread := Mem.read_apply_of_mem j.mem hw hcopies
  rwa [haddr, hbytes, Mem.length_read] at hread

theorem Reaches.result_outputSize (h : Reaches t j req loaded) (g : ELF.Garbage) (u : ELF.UserRun)
    (s : Stream) : (j.judge t req g u).result.outputSize s =
      (ELF.run t loaded.app g u).outputSize s := by
  have hresult : ((j.record req).runLoaded t req loaded.app g u).result =
      limited req (ELF.run t loaded.app g u) (resultOf (ELF.run t loaded.app g u)) := rfl
  rw [judge_of_reaches h g u, hresult, limited_outputSize]

/-- What a program leaves in its regions becomes the answer. -/
theorem Reaches.outputJudged (h : Reaches t j req loaded) (g : ELF.Garbage) (u : ELF.UserRun)
    (x : Statics) {c : ProcessStack.Contents}
    (hc : c.getauxval ELF.AT_DUCK = loaded.app.duckinfoPtr) {log : List UserLib.Entry}
    (hout : Outputs (Env.ofApp x c loaded.app) log u.umem) :
    OutputJudged (Env.ofApp x c loaded.app) req log (j.judge t req g u) := by
  obtain ⟨res, hres⟩ : ∃ res, ELF.run t loaded.app g u = res := ⟨_, rfl⟩
  have hresult (s : Stream) : (j.judge t req g u).result.outputSize s = res.outputSize s := by
    rw [h.result_outputSize g u, hres]
  have hsize (s : Stream) : (res.outputSize s).toNat =
      min (req.output s).len.toNat (written s log).length := by
    rw [← hres, ELF.run_outputSize t loaded.app g u x hc, hout.size, ← Nat.min_assoc, Nat.min_self,
      h.size_eq]
  have hptr (s : Stream) : res.outputPtr s = (Env.ofApp x c loaded.app).start s.slot := by
    rw [← hres, ELF.run_outputPtr]
  have hjudger : (j.judge t req g u).judger.buffer = j.buffer ∧
      (j.judge t req g u).judger.mem = j.mem.apply (j.copyBack req res u.umem) := by
    rw [judge_of_reaches h g u, ← hres]
    exact ⟨rfl, rfl⟩
  refine ⟨hout.each, fun s => ?_, fun s => ?_⟩
  · rw [hresult, hsize]
  · have hbytes := hout.bytes s
    rw [h.size_eq] at hbytes
    rw [hresult, hjudger.1, hjudger.2]
    refine (h.copied u.umem (fun s => ?_) s).trans ?_
    · rw [hsize]
      exact Nat.min_le_left _ _
    · rw [hptr, hsize, hbytes]

/-- The program finds the record that the runner reads back. -/
theorem Reaches.stack (h : Reaches t j req loaded) : ∃ c,
    (∀ fuel, 16 ≤ fuel →
      ProcessStack.read (j.umem.apply loaded.writes) fuel loaded.app.rsp = some c) ∧
    c.getauxval ELF.AT_DUCK = loaded.app.duckinfoPtr := by
  obtain ⟨hacc, hloaded⟩ := h.accepts
  refine ⟨_, fun fuel hfuel => ?_, ELF.initialContents_duck (j.elfFile req).ehdr
    (j.elfConf req).layout loaded.app.duckinfoPtr⟩
  rw [hloaded]
  exact hacc.loaded_stack t.tscFreq j.umem hfuel

/-- **The output of a program.**  The program finds the record that the runner reads
    back.  Whatever it writes with `SYS_write` and `SYS_writev`, each call writes all
    of it, and the answer and the buffer have what fits of each stream, if the library
    starts with variables that were not used or that suit the request. -/
theorem Reaches.output_judged (h : Reaches t j req loaded) {x : Statics}
    (hx : Linked x (j.elfFile req)) : ∃ c,
    (∀ fuel, 16 ≤ fuel →
      ProcessStack.read (j.umem.apply loaded.writes) fuel loaded.app.rsp = some c) ∧
    c.getauxval ELF.AT_DUCK = loaded.app.duckinfoPtr ∧
    ∀ (log : List UserLib.Entry) (g : ELF.Garbage) (u : ELF.UserRun),
      Run (Env.ofApp x c loaded.app).outputOnly (OutputCall (Env.ofApp x c loaded.app))
        (j.umem.apply loaded.writes) log u.umem →
      (log ≠ [] → (Env.ofApp x c loaded.app).StartsRight (j.umem.apply loaded.writes)) →
      OutputJudged (Env.ofApp x c loaded.app) req log (j.judge t req g u) := by
  obtain ⟨c, hread, hduck⟩ := h.stack
  refine ⟨c, hread, hduck, fun log g u hrun hright => h.outputJudged g u x hduck ?_⟩
  obtain ⟨hacc, rfl⟩ := h.accepts
  exact hrun.outputs (hx.sound hacc hduck) (loaded_infoSet hacc t.tscFreq j.umem x hduck) hright

end Answer

/-! ## A program with the library -/

end Judger

namespace ELF

/-- The sample program with one word of data, where the library has `__mmap_p`, and
    16 MiB in all. -/
def libBytes : List UInt8 :=
  sampleBytes.take 96 ++ Mem.leBytes 8 128 ++ Mem.leBytes 8 0x1000000 ++ Mem.leBytes 8 4096 ++
    Mem.leBytes 8 0x401040

def libFile : ElfFile := ⟨fun i => libBytes.getD i 0, 0, 128⟩

def libConfig (n : UInt64) : AppConfig := ⟨0x1001000, 0, 0, n, 0, 0, 0, 0, 0, true⟩

theorem libFile_loads : libFile.loads = [⟨1, 0, 0x400000, 128, 0x1000000, 4096⟩] := by rfl

theorem libConfig_limit (n : UInt64) : (libConfig n).limit = 0x1001000 := by
  show ceilTo (0x1001000 : UInt64).toNat 4096 = 0x1001000
  decide

theorem libConfig_regions (n : UInt64) : (libConfig n).regions = ceilTo n.toNat 4096 := by
  have hzero : ceilTo (0 : UInt64).toNat 4096 = 0 := by decide
  simp only [AppConfig.regions, libConfig, hzero, Nat.zero_add, Nat.add_zero]

theorem libFile_accepted {n : UInt64} (hn : n.toNat ≤ 4096) :
    Accepts libFile (libConfig n) 0x20000000 := by
  have hnum : libFile.ehdr.phnum = 1 := by decide
  have hn' : ceilTo n.toNat 4096 ≤ 4096 := by
    simp only [ceilTo]
    omega
  refine ⟨⟨by decide, by decide, by decide, by decide, by decide, by decide, by decide, by decide,
    .inl (by decide), by decide, by decide, by decide, by decide, by decide, by decide⟩, ?_, ?_,
    0x400000, 0x400000 + 0x1000000, ?_, ?_, ?_⟩
  · intro i hi
    rw [hnum] at hi
    obtain rfl : i = 0 := by omega
    decide
  · rw [libFile_loads]
    intro p hp
    rcases List.mem_singleton.mp hp with rfl
    exact ⟨.inl rfl, by decide, .inr (by decide)⟩
  · rw [libFile_loads]
    rfl
  · rw [libFile_loads]
    rfl
  · refine ⟨by decide, by decide, ?_, ?_⟩
    · rw [libConfig_limit]
      decide
    · rw [libConfig_limit, libConfig_regions]
      omega

end ELF

/-- Where the library has its variables in that program. -/
def libStatics : Statics where
  inited := 0x401000
  duckinfo := 0x401008
  stdoutMaxSize := 0x401010
  stderrMaxSize := 0x401018
  stdinCurrPos := 0x401020
  tscFrequency := 0x401028
  heapBrk := 0x401030
  mmapP := 0x400078
  mmapPool := 0x401040
  endAddr := 0x1400000

theorem libStatics_linked {f : ELF.ElfFile} (hf : f.loads = ELF.libFile.loads) :
    Linked libStatics f := by
  constructor
  · intro s hs
    rw [hf, ELF.libFile_loads]
    refine ⟨_, List.mem_singleton_self _, ?_⟩
    cases s <;> first | exact absurd hs (by decide) | decide
  · intro s s' hs hs' hne
    cases s <;> cases s' <;> first
      | exact absurd rfl hne
      | exact absurd hs (by decide)
      | exact absurd hs' (by decide)
      | decide

namespace UserLib

/-- A `SYS_write` of the first byte of the program. -/
def byteCall : Call := ⟨.write, 1, 0x400000, 1, 0⟩

section Stale

variable {E : Env} {m : Mem}

theorem byteCall_allowed (hx : E.x = libStatics) (hinfo : 0x400000 < E.info)
    (hptr : 0x400000 < E.stdoutPtr) (m : Mem) : WriteCall E .stdout byteCall m := by
  have hpieces : byteCall.pieces m = [(0x400000, 1)] := rfl
  have hout (kept : Nat) : ¬ E.Changed .stdout kept 0x400000 := by
    rintro (⟨s, ⟨hstdin, hstdout, hstderr⟩, hlow, hhigh⟩ | ⟨hlow, hhigh⟩)
    · cases s <;> simp only [Env.start, Env.size, hx, libStatics] at hlow hhigh <;> first
        | omega
        | exact absurd rfl hstdin
        | exact absurd rfl hstdout
        | exact absurd rfl hstderr
    · have hstart : E.start Stream.stdout.slot = E.stdoutPtr := rfl
      omega
  refine ⟨.inl rfl, rfl, fun hnum => absurd hnum (by decide), ?_, ?_⟩
  · rw [hpieces]
    decide
  · refine ⟨fun a hlow hhigh => absurd hhigh (Nat.not_lt.mpr hlow), fun p hp i hi => ?_⟩
    rw [hpieces, shares, shares, List.mem_singleton] at hp
    subst hp
    obtain rfl : i = 0 := by
      dsimp only at hi
      omega
    exact hout _

/-- With the limit of an earlier program, which was 0, nothing is kept. -/
theorem byteCall_stale (h : E.Sound) (hm : InfoSet E m) (hinited : m E.x.inited ≠ 0)
    (hinfo : E.cell m .duckinfo = E.info) (hmax : E.cell m .stdoutMaxSize = 0) :
    E.cell (Entry.reply E ⟨byteCall, m⟩).mem (.field .stdoutSize) = 0 := by
  have hsize : E.cell m (.field .stdoutSize) = 0 := hm.size .stdout
  have hinfo' : m.read64 E.x.duckinfo = E.info := hinfo
  have hmax' : m.read64 E.x.stdoutMaxSize = 0 := hmax
  have hsize' : m.read64 (E.info + 40) = 0 := hsize
  have hreply : Entry.reply E ⟨byteCall, m⟩ = duckWrite E.x 1 0x400000 1 m := by
    rw [Entry.reply, syscallHandler, ensureInit, if_neg hinited]
    rfl
  have hmem : (duckWrite E.x 1 0x400000 1 m).mem = E.set m (.field .stdoutSize) 0 := by
    show (writeTo E.x E.x.stdoutMaxSize 24 40 0x400000 1 m).mem = _
    have hroom : sub64 0 0 = 0 := by decide
    have hnone : m.read 0x400000 0 = [] := rfl
    simp only [writeTo, hinfo', hmax', hsize', hroom, Nat.min_zero, hnone, Mem.write_nil]
    rfl
  rw [hreply, hmem, h.cell_set, if_pos rfl]
  rfl

end Stale

end UserLib

namespace Judger

/-- Run that program with room for `n` bytes of output. -/
def outputRequest (seqNum n : UInt64) : JudgeRequest :=
  ⟨seqNum, 1000000000, 16388, ⟨0, 128⟩, ⟨129, 0⟩, ⟨128, n⟩, ⟨129, 0⟩, ⟨129, 0⟩, ⟨129, 0⟩, 1⟩

section Library

variable {t : Timer} {j : Judger} {seqNum n : UInt64} {loaded : ELF.Loaded}

theorem outputRequest_memory (seqNum n : UInt64) :
    (outputRequest seqNum n).memoryHardLimitKb * 1024 = 0x1001000 ∧
      memoryOverflows (outputRequest seqNum n) = false := by
  show (16388 : UInt64) * 1024 = 0x1001000 ∧ decide ((16388 : UInt64) * 1024 < 16388) = false
  decide

theorem outputRequest_timeLimit (seqNum n : UInt64) :
    badTimeLimit (outputRequest seqNum n) = false := by
  show (decide ((1000000000 : UInt64) = 0) || decide ((1000000000 : UInt64) > MAX_TIME_LIMIT_NS)) =
    false
  decide

theorem HoldsFile.lib_buffers (h : HoldsFile ELF.libBytes j) (seqNum : UInt64) (hn : n.toNat ≤ 1) :
    j.checkBuffers (outputRequest seqNum n).buffers = true := by
  have hlt : 129 < j.bufferSize.toNat := by
    rw [h.size]
    decide
  have hlt' : 128 < j.bufferSize.toNat := Nat.lt_of_succ_lt hlt
  have hfile : j.Holds ⟨0, 128⟩ := ⟨Nat.lt_trans (by decide) hlt', Nat.le_of_lt hlt'⟩
  have hout : j.Holds ⟨128, n⟩ :=
    ⟨hlt', Nat.le_trans (Nat.add_le_add_left hn 128) (Nat.le_of_lt hlt)⟩
  have hnone : j.Holds ⟨129, 0⟩ := ⟨hlt, Nat.le_of_lt hlt⟩
  have hself : BufferDesc.Apart ⟨129, 0⟩ ⟨129, 0⟩ := .inl (Nat.le_refl _)
  have hbehind : BufferDesc.Apart ⟨0, 128⟩ ⟨129, 0⟩ := .inl (by decide)
  have hfront : BufferDesc.Apart ⟨0, 128⟩ ⟨128, n⟩ := .inl (Nat.le_refl _)
  have hlast : BufferDesc.Apart ⟨128, n⟩ ⟨129, 0⟩ := .inl (Nat.add_le_add_left hn 128)
  rw [checkBuffers_iff]
  simp only [JudgeRequest.buffers, outputRequest, List.forall_mem_cons, List.pairwise_cons, hfile,
    hout, hnone, hself, hbehind, hfront, hlast, hlast.symm, List.not_mem_nil, false_implies,
    implies_true, List.Pairwise.nil, and_self]

theorem outputRequest_limit (j : Judger) (seqNum n : UInt64) :
    (j.elfConf (outputRequest seqNum n)).limit = 0x1001000 := by
  simp only [ELF.AppConfig.limit, elfConf, (outputRequest_memory seqNum n).1]
  exact ELF.libConfig_limit n

theorem HoldsFile.lib_loads (h : HoldsFile ELF.libBytes j) (seqNum n : UInt64) :
    (j.elfFile (outputRequest seqNum n)).loads = ELF.libFile.loads :=
  (ELF.ElfFile.loads_congr (h.get rfl 128)).2

theorem HoldsFile.lib_accepts (h : HoldsFile ELF.libBytes j) (seqNum : UInt64) (hn : n.toNat ≤ 1) :
    ELF.Accepts ((j.record (outputRequest seqNum n)).elfFile (outputRequest seqNum n))
      ((j.record (outputRequest seqNum n)).elfConf (outputRequest seqNum n))
      j.breaks.vaddrBreak := by
  have hlen : (128 : UInt64).toUInt32 = 128 := by decide
  refine (ELF.libFile_accepted (Nat.le_trans hn (by decide))).congr hlen (h.get rfl 128) ?_ ?_ h.room
  · exact (outputRequest_limit j seqNum n).trans (ELF.libConfig_limit n).symm
  · simp only [ELF.AppConfig.regions, elfConf, outputRequest, ELF.libConfig]

theorem HoldsFile.lib_reaches (h : HoldsFile ELF.libBytes j) (hne : seqNum ≠ j.judgeSeqNum)
    (hn : n.toNat ≤ 1) (t : Timer) : ∃ loaded, Reaches t j (outputRequest seqNum n) loaded := by
  have hload : loadElf t (j.record (outputRequest seqNum n)) (outputRequest seqNum n) = some _ :=
    congrArg Except.toOption (ELF.load_eq_ok.mpr ⟨h.lib_accepts seqNum hn, rfl⟩)
  exact ⟨_, hne, (outputRequest_memory seqNum n).2, h.lib_buffers seqNum hn,
    outputRequest_timeLimit seqNum n, hload⟩

/-- What is known of the library in a program that was loaded. -/
structure LibLoaded (j : Judger) (E : Env) (umem : Mem) : Prop where
  statics : E.x = libStatics
  sound : E.Sound
  info : InfoSet E umem
  info_eq : E.info = 0x1400f90
  stdoutAbove : 0x400000 < E.stdoutPtr
  kept : ∀ a, 0x401000 ≤ a → a < 0x401038 → umem a = j.umem a

theorem HoldsFile.lib_loaded (h : HoldsFile ELF.libBytes j)
    (hreach : Reaches t j (outputRequest seqNum n) loaded) {c : ProcessStack.Contents}
    (hc : c.getauxval ELF.AT_DUCK = loaded.app.duckinfoPtr) :
    LibLoaded j (Env.ofApp libStatics c loaded.app) (j.umem.apply loaded.writes) := by
  obtain ⟨hacc, rfl⟩ := hreach.accepts
  have hloads := h.lib_loads seqNum n
  have hlimit := outputRequest_limit j seqNum n
  have hptr := hc.trans (hacc.rsp_eq t.tscFreq j.umem).2
  refine ⟨rfl, (libStatics_linked hloads).sound hacc hc,
    loaded_infoSet hacc t.tscFreq j.umem libStatics hc, ?_, ?_, fun a hlow hhigh => ?_⟩
  · show c.getauxval ELF.AT_DUCK = 0x1400f90
    rw [hptr]
    simp only [ELF.AppConfig.layout, hlimit]
  · show 0x400000 < (j.elfConf (outputRequest seqNum n)).layout.stdout.vaddr
    simp only [ELF.AppConfig.layout, hlimit]
    omega
  · -- the variables are in the part of the segment that the file does not fill
    have hbss : ELF.MustBeZero (j.elfFile (outputRequest seqNum n))
        (j.elfConf (outputRequest seqNum n)) a := by
      have hseg := hloads.trans ELF.libFile_loads
      refine .bss (p := ⟨1, 0, 0x400000, 128, 0x1000000, 4096⟩) ?_ ?_ ?_ ?_
      · rw [hseg]
        exact List.mem_singleton_self _
      · dsimp only
        omega
      · dsimp only
        omega
      · rw [hseg]
        intro q hq
        obtain rfl := List.mem_singleton.mp hq
        dsimp only
        omega
    exact Mem.apply_untouched _ (mt (hacc.touched_iff t.tscFreq j.umem a).mp (hacc.not_stores hbss))

theorem LibLoaded.byteCall_allowed {E : Env} {m : Mem} (h : LibLoaded j E m) :
    WriteCall E .stdout byteCall m := by
  refine UserLib.byteCall_allowed h.statics ?_ h.stdoutAbove m
  rw [h.info_eq]
  decide

/-- A run of the program that writes one byte. -/
theorem LibLoaded.run {E : Env} {m : Mem} (h : LibLoaded j E m) :
    Run E.outputOnly (OutputCall E) m [⟨byteCall, m⟩] (UserLib.Entry.reply E ⟨byteCall, m⟩).mem :=
  .call .start byteCall ⟨.stdout, h.byteCall_allowed⟩

theorem LibLoaded.inited {E : Env} {m : Mem} (h : LibLoaded j E m) :
    m E.x.inited = j.umem 0x401000 := by
  rw [h.statics]
  exact h.kept 0x401000 (Nat.le_refl _) (by decide)

/-- The variables that the program starts with are those that were left. -/
theorem LibLoaded.cells {E : Env} {m : Mem} (h : LibLoaded j E m) :
    E.cell m .duckinfo = j.umem.read64 0x401008 ∧
      E.cell m .stdoutMaxSize = j.umem.read64 0x401010 := by
  have hread (a : Nat) (hlow : 0x401000 ≤ a) (hhigh : a + 8 ≤ 0x401038) :
      m.read64 a = j.umem.read64 a :=
    Mem.read64_congr fun i hi => h.kept (a + i) (by omega) (by omega)
  have haddr : E.addr .duckinfo = 0x401008 ∧ E.addr .stdoutMaxSize = 0x401010 := by
    show E.x.duckinfo + 0 = _ ∧ E.x.stdoutMaxSize + 0 = _
    rw [h.statics]
    exact ⟨rfl, rfl⟩
  rw [Env.cell, Env.cell, haddr.1, haddr.2]
  exact ⟨hread _ (by decide) (by decide), hread _ (by decide) (by decide)⟩

/-- What a program leaves that wrote into a stdout of no bytes. -/
structure LeavesStale (j : Judger) : Prop where
  inited : j.umem 0x401000 ≠ 0
  duckinfo : j.umem.read64 0x401008 = 0x1400f90
  stdoutMaxSize : j.umem.read64 0x401010 = 0

theorem LibLoaded.stale {E : Env} {m : Mem} (h : LibLoaded j E m) (hj : LeavesStale j) :
    E.cell (UserLib.Entry.reply E ⟨byteCall, m⟩).mem (.field .stdoutSize) = 0 := by
  refine byteCall_stale h.sound h.info ?_ (h.cells.1.trans ?_) (h.cells.2.trans hj.stdoutMaxSize)
  · rw [h.inited]
    exact hj.inited
  · rw [hj.duckinfo, h.info_eq]

end Library

theorem libBytes_length : ELF.libBytes.length = (128 : UInt64).toNat := by
  have hsample : ELF.sampleBytes.length = 120 := by decide
  simp only [ELF.libBytes, List.length_append, List.length_take, hsample, Mem.length_leBytes]
  decide

/-- One byte of output is reported and copied. -/
theorem output_judged_sample : ∃ (j : Judger) (loaded : ELF.Loaded) (c : ProcessStack.Contents)
    (m : Mem) (u : ELF.UserRun), Reaches sampleTimer j (outputRequest 1 1) loaded ∧
      OutputJudged (Env.ofApp libStatics c loaded.app) (outputRequest 1 1) [⟨byteCall, m⟩]
        (j.judge sampleTimer (outputRequest 1 1) idleGarbage u) := by
  obtain ⟨-, s, -, -, hholds, hseq, humem⟩ :=
    run_loadFile .insertion sampleTimer libBytes_length (by decide)
  have hne : 1 ≠ s.judger.judgeSeqNum := by
    rw [hseq]
    decide
  obtain ⟨loaded, hreach⟩ := hholds.lib_reaches (n := 1) hne (by decide) sampleTimer
  obtain ⟨c, -, hduck, hall⟩ :=
    hreach.output_judged (libStatics_linked (hholds.lib_loads 1 1))
  have hlib := hholds.lib_loaded hreach hduck
  refine ⟨s.judger, loaded, c, _, ⟨255, 0, 0, 0, 0, 0, _⟩, hreach,
    hall _ idleGarbage _ hlib.run fun _ => .inl ?_⟩
  rw [hlib.inited, humem]

/-- A first run of the program, into a stdout of no bytes. -/
theorem exists_stale (t : Timer) : ∃ j u s, init wideBreaks blankRaw = some j ∧
    (History.start j).run .insertion t (loadFile ELF.libBytes 128 ++
      [.judge (outputRequest 1 0) idleGarbage u]) = some s ∧
    HoldsFile ELF.libBytes s.judger ∧ s.judger.judgeSeqNum = 1 ∧ LeavesStale s.judger := by
  obtain ⟨j, s, hinit, hrun, hholds, hseq, humem⟩ :=
    run_loadFile .insertion t libBytes_length (by decide)
  have hne : 1 ≠ s.judger.judgeSeqNum := by
    rw [hseq]
    decide
  obtain ⟨loaded, hreach⟩ := hholds.lib_reaches (n := 0) hne (by decide) t
  obtain ⟨c, -, hduck⟩ := hreach.stack
  have hlib := hholds.lib_loaded hreach hduck
  obtain ⟨L, hL⟩ := hlib.info.outputSoFar (.inl (by rw [hlib.inited, humem]))
  obtain ⟨-, hcur, -⟩ := hL.holds.write_step hlib.sound hlib.byteCall_allowed
  obtain ⟨r, hr⟩ : ∃ r, (UserLib.Entry.reply (Env.ofApp libStatics c loaded.app)
    ⟨byteCall, s.judger.umem.apply loaded.writes⟩).mem = r := ⟨_, rfl⟩
  rw [hr] at hcur
  have hmax := hcur.max .stdout
  rw [hreach.size_eq] at hmax
  obtain ⟨u, hu⟩ : ∃ u : ELF.UserRun, u.umem = r := ⟨{ idleRun with umem := r }, rfl⟩
  have hafter : (s.judger.judge t (outputRequest 1 0) idleGarbage u).judger.umem = r ∧
      (s.judger.judge t (outputRequest 1 0) idleGarbage u).judger.judgeSeqNum = 1 := by
    rw [judge_of_reaches hreach, ← hu]
    exact ⟨rfl, rfl⟩
  have hstep : s.step .insertion t (.judge (outputRequest 1 0) idleGarbage u) = some _ := if_neg hne
  refine ⟨j, u, _, hinit, History.run_concat hrun hstep,
    hholds.judge hreach rfl rfl rfl _ _, hafter.2, ?_⟩
  refine ⟨?_, ?_, ?_⟩
  · rw [hafter.1]
    exact hcur.inited
  · rw [hafter.1]
    exact (hcur.cells .duckinfo _ rfl).trans hlib.info_eq
  · rw [hafter.1]
    exact hmax

/-- The same program judged again, now with room for a byte: the byte that it writes is
    lost. -/
theorem output_lost : ∃ j u₁ s, init wideBreaks blankRaw = some j ∧
    (History.start j).run .insertion sampleTimer (loadFile ELF.libBytes 128 ++
      [.judge (outputRequest 1 0) idleGarbage u₁]) = some s ∧
    ∃ loaded c log u, Reaches sampleTimer s.judger (outputRequest 2 1) loaded ∧
      Linked libStatics (s.judger.elfFile (outputRequest 2 1)) ∧
      (∀ fuel, 16 ≤ fuel →
        ProcessStack.read (s.judger.umem.apply loaded.writes) fuel loaded.app.rsp = some c) ∧
      Run (Env.ofApp libStatics c loaded.app).outputOnly
        (OutputCall (Env.ofApp libStatics c loaded.app)) (s.judger.umem.apply loaded.writes) log
        u.umem ∧
      ¬ OutputJudged (Env.ofApp libStatics c loaded.app) (outputRequest 2 1) log
        (s.judger.judge sampleTimer (outputRequest 2 1) idleGarbage u) := by
  obtain ⟨j, u₁, s, hinit, hrun, hholds, hseq, hstale⟩ := exists_stale sampleTimer
  have hne : 2 ≠ s.judger.judgeSeqNum := by
    rw [hseq]
    decide
  obtain ⟨loaded, hreach⟩ := hholds.lib_reaches (n := 1) hne (by decide) sampleTimer
  obtain ⟨c, hread, hduck⟩ := hreach.stack
  have hlib := hholds.lib_loaded hreach hduck
  have hlost := hlib.stale hstale
  refine ⟨j, u₁, s, hinit, hrun, loaded, c, _, ⟨255, 0, 0, 0, 0, 0, _⟩, hreach,
    libStatics_linked (hholds.lib_loads 2 1), hread, hlib.run, fun hout => ?_⟩
  have hsize := hout.size .stdout
  rw [hreach.result_outputSize, ELF.run_outputSize _ _ _ _ libStatics hduck] at hsize
  have hkept : min (outputRequest 2 1 |>.output .stdout).len.toNat (written .stdout
      [⟨byteCall, s.judger.umem.apply loaded.writes⟩]).length = 1 := rfl
  rw [hkept] at hsize
  have hzero : 1 ≤ 0 := by
    rw [← hlost]
    exact Nat.le_trans (Nat.le_of_eq hsize.symm) (Nat.min_le_right _ _)
  exact absurd hzero (by decide)

end Judger

end JudgePenguin
