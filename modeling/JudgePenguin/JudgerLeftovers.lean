/-
  JudgePenguin/JudgerLeftovers.lean
  =================================
  **What a program finds of the programs before it.**

  Two histories of one judger may end with the same buffer and still leave different
  user memories, since an earlier program writes what it likes.  The loader then
  loads the same program in both (`Reaches.loaded_eq`) and stores the same bytes, but
  it clears nothing: the calls that did are commented out.  So the two programs start
  alike, and with zeros where the format promises zeros, exactly when the bytes that
  the loader does not write were so before (`run_leftovers_iff`).
-/
import JudgePenguin.JudgerConfinement
import JudgePenguin.ElfFootprint

namespace JudgePenguin

open Words

namespace ELF

/-- Two programs start with the same memory below `top`, and with zeros where they may
    expect them. -/
structure NoLeftovers (f : ElfFile) (config : AppConfig) (top : Nat) (m m' : Mem) : Prop where
  same : ∀ x, 0x400000 ≤ x → x < top → m x = m' x
  zero : ∀ x, MustBeZero f config x → m x = 0 ∧ m' x = 0

/-- The user memories before the program is loaded, where the loader writes nothing. -/
structure CleanBefore (f : ElfFile) (config : AppConfig) (top : Nat) (u u' : Mem) : Prop where
  same : ∀ x, 0x400000 ≤ x → x < top → ¬ f.Stores config x → u x = u' x
  zero : ∀ x, MustBeZero f config x → u x = 0 ∧ u' x = 0

theorem Accepts.noLeftovers_iff {f : ElfFile} {config : AppConfig} {b : MemoryBreaks}
    (h : Accepts f config b.vaddrBreak) (tscFreq : UInt64) (umem : Mem) {top : Nat} (u u' : Mem) :
    NoLeftovers f config top (u.apply (f.loaded config tscFreq umem).writes)
        (u'.apply (f.loaded config tscFreq umem).writes) ↔ CleanBefore f config top u u' := by
  have hkept : ∀ {x : Nat}, ¬ f.Stores config x → ∀ v : Mem,
      v.apply (f.loaded config tscFreq umem).writes x = v x := by
    intro x hx v
    exact Mem.apply_untouched v (mt (h.touched_iff tscFreq umem x).mp hx)
  constructor
  · intro hno
    refine ⟨fun x hlow hhigh hx => ?_, fun x hx => ?_⟩
    · have hsame := hno.same x hlow hhigh
      rwa [hkept hx, hkept hx] at hsame
    · have hzero := hno.zero x hx
      rwa [hkept (h.not_stores hx), hkept (h.not_stores hx)] at hzero
  · intro hclean
    refine ⟨fun x hlow hhigh => ?_, fun x hx => ?_⟩
    · by_cases hx : f.Stores config x
      · exact Mem.apply_touched u u' ((h.touched_iff tscFreq umem x).mpr hx)
      · rw [hkept hx, hkept hx]
        exact hclean.same x hlow hhigh hx
    · rw [hkept (h.not_stores hx), hkept (h.not_stores hx)]
      exact hclean.zero x hx

end ELF

namespace Judger

/-! ## One request in two histories -/

section Same

variable {t : Timer} {j j' : Judger} {req : JudgeRequest} {loaded loaded' : ELF.Loaded}

theorem mem_of_contents (hplace : SamePlace j j') (hcontents : j'.contents = j.contents) {i : Nat}
    (hi : i < j.bufferSize.toNat) : j'.mem (j.buffer + i) = j.mem (j.buffer + i) := by
  have hbyte := congrArg (·[i]?) hcontents
  simp only [contents, hplace.buffer, hplace.bufferSize, Mem.getElem?_read _ _ hi,
    Option.some.injEq] at hbyte
  exact hbyte

/-- The bytes of a range of the buffer. -/
theorem mem_of_desc (hplace : SamePlace j j') (hcontents : j'.contents = j.contents)
    {d : BufferDesc} (hd : j.Holds d) {i : Nat} (hi : i < d.len.toNat) :
    j'.mem (j.addr d.off + i) = j.mem (j.addr d.off + i) := by
  have hend := hd.2
  rw [addr_eq hd.1, Nat.add_assoc]
  exact mem_of_contents hplace hcontents (by omega)

/-- The file and the inputs of a request are parts of the buffer. -/
theorem Reaches.sameSources (h : Reaches t j req loaded) (hplace : SamePlace j j')
    (hcontents : j'.contents = j.contents) :
    ELF.SameSources (j.elfFile req) (j.elfConf req) j'.mem := by
  have hinside := (checkBuffers_iff.mp h.buffers).1
  refine ⟨fun i hi => ?_, fun i hi => ?_, fun i hi => ?_, fun _ i hi => ?_⟩
  · -- the length of the file is narrowed
    have hnarrow : (j.elfFile req).len.toNat ≤ req.ELF.len.toNat := Nat.mod_le _ _
    exact mem_of_desc hplace hcontents (hinside req.ELF (by simp [JudgeRequest.buffers]))
      (Nat.lt_of_lt_of_le hi hnarrow)
  · exact mem_of_desc hplace hcontents (hinside req.stdin (by simp [JudgeRequest.buffers])) hi
  · exact mem_of_desc hplace hcontents (hinside req.IB (by simp [JudgeRequest.buffers])) hi
  · exact mem_of_desc hplace hcontents (hinside req.OB (by simp [JudgeRequest.buffers])) hi

/-- The same program is loaded, by the same stores. -/
theorem Reaches.loaded_eq (h : Reaches t j req loaded) (h' : Reaches t j' req loaded')
    (hplace : SamePlace j j') (hcontents : j'.contents = j.contents) : loaded' = loaded := by
  obtain ⟨hacc, rfl⟩ := h.accepts
  obtain ⟨hacc', rfl⟩ := h'.accepts
  have hfile : j'.elfFile req = (j.elfFile req).within j'.mem := by
    simp only [elfFile, ELF.ElfFile.within, addr, hplace.buffer]
  have hconf : j'.elfConf req = j.elfConf req := by
    simp only [elfConf, addr, hplace.buffer]
  have hload : ELF.load (j'.elfFile req) (j'.elfConf req) t.tscFreq j'.breaks j'.umem =
      .ok ((j'.elfFile req).loaded (j'.elfConf req) t.tscFreq j'.umem) :=
    ELF.load_eq_ok.mpr ⟨hacc', rfl⟩
  rw [hconf, hfile, (h.sameSources hplace hcontents).load] at hload
  obtain ⟨-, heq⟩ := ELF.load_eq_ok.mp hload
  rw [hfile, hconf, heq]
  exact hacc.loaded_umem t.tscFreq _ _

end Same

/-- **No data of earlier programs.**  Two histories of one judger that end with the same buffer load
    the same program for a request; what the two programs find below the end of the
    special region is the same, and zero where it has to be, exactly when the bytes
    that the loader does not write were left the same, and zero, before. -/
theorem run_leftovers_iff (std : StdSort) (t : Timer) {j : Judger} {calls calls' : List Call}
    {s s' : History} (hrun : (History.start j).run std t calls = some s)
    (hrun' : (History.start j).run std t calls' = some s')
    (hcontents : s'.judger.contents = s.judger.contents) {req : JudgeRequest}
    {loaded loaded' : ELF.Loaded} (h : Reaches t s.judger req loaded)
    (h' : Reaches t s'.judger req loaded') :
    loaded' = loaded ∧
      (ELF.NoLeftovers (s.judger.elfFile req) (s.judger.elfConf req)
          loaded.app.specialRegionBreakAddr (s.judger.umem.apply loaded.writes)
          (s'.judger.umem.apply loaded'.writes) ↔
        ELF.CleanBefore (s.judger.elfFile req) (s.judger.elfConf req)
          loaded.app.specialRegionBreakAddr s.judger.umem s'.judger.umem) := by
  have hplace : SamePlace s.judger s'.judger := (run_place hrun).symm.trans (run_place hrun')
  have hloaded := h.loaded_eq h' hplace hcontents
  refine ⟨hloaded, ?_⟩
  rw [hloaded]
  obtain ⟨hacc, rfl⟩ := h.accepts
  exact hacc.noLeftovers_iff t.tscFreq s.judger.umem s.judger.umem s'.judger.umem

/-! ## Two programs one after the other -/

/-- A run that fills the memory with one byte. -/
def leaving (v : UInt8) : ELF.UserRun := { idleRun with umem := fun _ => v }

/-- The sample program is loaded and run, and fills the memory. -/
def leavingCalls (v : UInt8) : List Call :=
  loadSample ++ [.judge (sampleRequest 1) idleGarbage (leaving v)]

theorem HoldsFile.contents {bs : List UInt8} {j : Judger} (h : HoldsFile bs j) :
    j.contents = (List.range INITIAL_BUFFER_SIZE_SMALL.toNat).map fun i => bs.getD i 0 := by
  rw [Judger.contents, h.size, Mem.read]
  exact List.map_congr_left fun i _ => h.file i

theorem HoldsFile.leaving {j : Judger} (h : HoldsFile ELF.sampleBytes j) (hne : 1 ≠ j.judgeSeqNum)
    (t : Timer) (v : UInt8) :
    HoldsFile ELF.sampleBytes (j.judge t (sampleRequest 1) idleGarbage (leaving v)).judger ∧
      (j.judge t (sampleRequest 1) idleGarbage (Judger.leaving v)).judger.judgeSeqNum = 1 ∧
      (j.judge t (sampleRequest 1) idleGarbage (Judger.leaving v)).judger.umem = fun _ => v := by
  obtain ⟨loaded, hreach⟩ := h.sampleRequest_reaches hne t
  refine ⟨h.sample_judge hne t _ _, ?_, ?_⟩
  · rw [judge_of_reaches hreach]
    rfl
  · rw [judge_of_reaches hreach]
    rfl

/-- Where the histories end, before a second request. -/
structure Leaves (t : Timer) (v : UInt8) (j : Judger) (s : History) : Prop where
  run : (History.start j).run .insertion t (leavingCalls v) = some s
  holds : HoldsFile ELF.sampleBytes s.judger
  umem : s.judger.umem = fun _ => v
  reaches : ∃ loaded, Reaches t s.judger (sampleRequest 2) loaded

theorem Leaves.of_holds {t : Timer} {j : Judger} {s : History}
    (hrun : (History.start j).run .insertion t loadSample = some s)
    (hholds : HoldsFile ELF.sampleBytes s.judger) (hne : 1 ≠ s.judger.judgeSeqNum) (v : UInt8) :
    ∃ s, Leaves t v j s := by
  obtain ⟨hholds', hseq', humem⟩ := hholds.leaving hne t v
  have hne' : 2 ≠ (s.judger.judge t (sampleRequest 1) idleGarbage (leaving v)).judger.judgeSeqNum := by
    rw [hseq']
    decide
  have hstep : s.step .insertion t (.judge (sampleRequest 1) idleGarbage (leaving v)) = some _ :=
    if_neg hne
  exact ⟨_, History.run_concat hrun hstep, hholds', humem, hholds'.sampleRequest_reaches hne' t⟩

/-- The address behind the file bytes of the sample program is not written. -/
theorem HoldsFile.sample_not_stores {j : Judger} (h : HoldsFile ELF.sampleBytes j)
    (seqNum : UInt64) :
    ¬ (j.elfFile (sampleRequest seqNum)).Stores (j.elfConf (sampleRequest seqNum)) 0x400200 := by
  have hloads : (j.elfFile (sampleRequest seqNum)).loads = ELF.sampleFile.loads :=
    (ELF.ElfFile.loads_congr (h.get (show (sampleRequest seqNum).ELF.off = 0 from rfl) 120)).2
  have hlimit := sampleRequest_limit j (show (sampleRequest seqNum).memoryHardLimitKb = 8 from rfl)
  rintro (⟨p, hp, hlow, hhigh⟩ | hrest)
  · rw [hloads, ELF.sampleFile_loads] at hp
    obtain rfl := List.mem_singleton.mp hp
    exact absurd hhigh (by decide)
  · simp only [ELF.AppConfig.layout, hlimit] at hrest
    omega

/-- After a program that left only zeros it is as after none. -/
theorem run_leftovers_sample : ∃ j, init wideBreaks blankRaw = some j ∧ ∃ s s' loaded loaded',
    (History.start j).run .insertion sampleTimer loadSample = some s ∧
    (History.start j).run .insertion sampleTimer (leavingCalls 0) = some s' ∧
    s'.judger.contents = s.judger.contents ∧
    Reaches sampleTimer s.judger (sampleRequest 2) loaded ∧
    Reaches sampleTimer s'.judger (sampleRequest 2) loaded' ∧ loaded' = loaded ∧
    ELF.NoLeftovers (s.judger.elfFile (sampleRequest 2)) (s.judger.elfConf (sampleRequest 2))
      loaded.app.specialRegionBreakAddr (s.judger.umem.apply loaded.writes)
      (s'.judger.umem.apply loaded'.writes) := by
  obtain ⟨j, s, hinit, hrun, hholds, hseq, humem⟩ := run_loadSample .insertion sampleTimer
  obtain ⟨s', hs'⟩ := Leaves.of_holds hrun hholds (by rw [hseq]; decide) 0
  obtain ⟨loaded, hreach⟩ := hholds.sampleRequest_reaches
    (show 2 ≠ s.judger.judgeSeqNum by rw [hseq]; decide) sampleTimer
  obtain ⟨loaded', hreach'⟩ := hs'.reaches
  have hcontents : s'.judger.contents = s.judger.contents :=
    hs'.holds.contents.trans hholds.contents.symm
  obtain ⟨hloaded, hiff⟩ :=
    run_leftovers_iff .insertion sampleTimer hrun hs'.run hcontents hreach hreach'
  refine ⟨j, hinit, s, s', loaded, loaded', hrun, hs'.run, hcontents, hreach, hreach', hloaded,
    hiff.mpr ?_⟩
  rw [humem, hs'.umem]
  exact ⟨fun _ _ _ _ => rfl, fun _ _ => ⟨rfl, rfl⟩⟩

/-- The second of two programs finds what the first one left behind the file bytes. -/
theorem leftovers_found : ∃ j, init wideBreaks blankRaw = some j ∧ ∃ s s' loaded loaded',
    (History.start j).run .insertion sampleTimer (leavingCalls 0) = some s ∧
    (History.start j).run .insertion sampleTimer (leavingCalls 1) = some s' ∧
    s'.judger.contents = s.judger.contents ∧
    Reaches sampleTimer s.judger (sampleRequest 2) loaded ∧
    Reaches sampleTimer s'.judger (sampleRequest 2) loaded' ∧
    ¬ ELF.NoLeftovers (s.judger.elfFile (sampleRequest 2)) (s.judger.elfConf (sampleRequest 2))
      loaded.app.specialRegionBreakAddr (s.judger.umem.apply loaded.writes)
      (s'.judger.umem.apply loaded'.writes) := by
  obtain ⟨j, s₀, hinit, hrun, hholds, hseq, -⟩ := run_loadSample .insertion sampleTimer
  have hne : 1 ≠ s₀.judger.judgeSeqNum := by
    rw [hseq]
    decide
  obtain ⟨s, hs⟩ := Leaves.of_holds hrun hholds hne 0
  obtain ⟨s', hs'⟩ := Leaves.of_holds hrun hholds hne 1
  obtain ⟨loaded, hreach⟩ := hs.reaches
  obtain ⟨loaded', hreach'⟩ := hs'.reaches
  have hcontents : s'.judger.contents = s.judger.contents :=
    hs'.holds.contents.trans hs.holds.contents.symm
  have hplace : SamePlace s.judger s'.judger := (run_place hs.run).symm.trans (run_place hs'.run)
  refine ⟨j, hinit, s, s', loaded, loaded', hs.run, hs'.run, hcontents, hreach, hreach',
    fun hno => ?_⟩
  rw [hreach.loaded_eq hreach' hplace hcontents] at hno
  obtain ⟨hacc, rfl⟩ := hreach.accepts
  have hclean := (hacc.noLeftovers_iff _ _ _ _).mp hno
  obtain ⟨hpos, hbrk, hpage, himage, htop, -⟩ := hacc.layout_top
  have hbelow : 0x400200 < (s.judger.elfConf (sampleRequest 2)).layout.randomBytes.brk := by omega
  have hbyte := hclean.same 0x400200 (by decide) hbelow (hs.holds.sample_not_stores 2)
  rw [hs.umem, hs'.umem] at hbyte
  exact absurd hbyte (by decide)

end Judger

end JudgePenguin
