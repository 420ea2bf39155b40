/-
  JudgePenguin/JudgerConfinement.lean
  ===================================
  **What a judged program can do to the judger.**

    * The nested loop of `check_buffers` tests a range before it is compared, so
      that the wrapping sums of `check_overlap` are exact where they count
      (`checkBuffers_iff`).
    * A program leaves its mark only on the output ranges, with the sizes that the
      runner clamped (`judge_confined`).
    * Everything else in the answer is a function of the request, the state and the
      run, except for the members of `RunResult` that nobody assigns
      (`judge_deterministic_iff`).
-/
import JudgePenguin.JudgerRuns
import JudgePenguin.ElfLayout

namespace JudgePenguin

open Words

/-! ## Ranges -/

/-- Two ranges without a common byte, in exact arithmetic. -/
def BufferDesc.Apart (b1 b2 : BufferDesc) : Prop :=
  b1.off.toNat + b1.len.toNat ≤ b2.off.toNat ∨ b2.off.toNat + b2.len.toNat ≤ b1.off.toNat

theorem BufferDesc.Apart.symm {b1 b2 : BufferDesc} (h : b1.Apart b2) : b2.Apart b1 := Or.symm h

namespace Judger

/-- `b` lies in the buffer, in exact arithmetic. -/
def Holds (j : Judger) (b : BufferDesc) : Prop :=
  b.off.toNat < j.bufferSize.toNat ∧ b.off.toNat + b.len.toNat ≤ j.bufferSize.toNat

theorem isValidBuffer_iff {j : Judger} {b : BufferDesc} : j.isValidBuffer b = true ↔ j.Holds b :=
  inRange_iff

theorem end_toNat {j : Judger} {b : BufferDesc} (h : j.Holds b) :
    (b.off + b.len).toNat = b.off.toNat + b.len.toNat := by
  have hsize := j.bufferSize.toNat_lt
  have hle := h.2
  rw [UInt64.toNat_add]
  exact Nat.mod_eq_of_lt (by omega)

/-- Between ranges of the buffer the sums of the test are exact. -/
theorem checkOverlap_iff {j : Judger} {b1 b2 : BufferDesc} (h1 : j.Holds b1) (h2 : j.Holds b2) :
    checkOverlap b1 b2 = false ↔ b1.Apart b2 := by
  simp only [checkOverlap, Bool.not_eq_false', Bool.or_eq_true, decide_eq_true_eq,
    UInt64.le_iff_toNat_le, end_toNat h1, end_toNat h2, BufferDesc.Apart]

theorem checkBuffersFrom_iff {j : Judger} {seen bs : List BufferDesc}
    (hseen : ∀ b ∈ seen, j.Holds b) : j.checkBuffersFrom seen bs = true ↔
      (∀ b ∈ bs, j.Holds b) ∧ (∀ b ∈ bs, ∀ b' ∈ seen, b.Apart b') ∧
        bs.Pairwise BufferDesc.Apart := by
  induction bs generalizing seen with
  | nil => simp [checkBuffersFrom]
  | cons b bs ih =>
    by_cases hb : j.Holds b
    · have hseen' : ∀ b' ∈ seen ++ [b], j.Holds b' := by
        intro b' hb'
        rcases List.mem_append.mp hb' with hold | hnew
        · exact hseen b' hold
        · rw [List.mem_singleton.mp hnew]
          exact hb
      have hany : (seen.any fun b' => checkOverlap b b') = false ↔ ∀ b' ∈ seen, b.Apart b' := by
        rw [List.any_eq_false]
        refine forall₂_congr fun b' hb' => ?_
        rw [Bool.not_eq_true, checkOverlap_iff hb (hseen b' hb')]
      have hvalid := isValidBuffer_iff.mpr hb
      by_cases hapart : ∀ b' ∈ seen, b.Apart b'
      · simp only [checkBuffersFrom, hvalid, Bool.not_true, Bool.false_eq_true, if_false,
          hany.mpr hapart, ih hseen', List.forall_mem_cons, List.pairwise_cons]
        constructor
        · rintro ⟨hall, hsep, hpair⟩
          exact ⟨⟨hb, hall⟩, ⟨hapart, fun x hx b' hb' => hsep x hx b' (by simp [hb'])⟩,
            fun x hx => (hsep x hx b (by simp)).symm, hpair⟩
        · rintro ⟨⟨-, hall⟩, ⟨-, hsep⟩, hfirst, hpair⟩
          refine ⟨hall, fun x hx b' hb' => ?_, hpair⟩
          rcases List.mem_append.mp hb' with hold | hnew
          · exact hsep x hx b' hold
          · rw [List.mem_singleton.mp hnew]
            exact (hfirst x hx).symm
      · have htrue : (seen.any fun b' => checkOverlap b b') = true := by
          rw [← Bool.not_eq_false, hany]
          exact hapart
        simp only [checkBuffersFrom, hvalid, Bool.not_true, Bool.false_eq_true, if_false, htrue,
          if_true, false_iff]
        rintro ⟨-, hsep, -⟩
        exact hapart (hsep b (by simp))
    · have hinvalid : j.isValidBuffer b = false := by
        rw [← Bool.not_eq_true, isValidBuffer_iff]
        exact hb
      simp only [checkBuffersFrom, hinvalid, Bool.not_false, if_true, Bool.false_eq_true, false_iff]
      rintro ⟨hall, -⟩
      exact hb (hall b (by simp))

/-- **The check of the six buffers** is exact. -/
theorem checkBuffers_iff {j : Judger} {bs : List BufferDesc} : j.checkBuffers bs = true ↔
    (∀ b ∈ bs, j.Holds b) ∧ bs.Pairwise BufferDesc.Apart := by
  rw [checkBuffers, checkBuffersFrom_iff (fun _ h => absurd h List.not_mem_nil)]
  simp

/-! ## The two ways through `judge` -/

/-- The exits of `judge` before the program is run. -/
def Rejected (t : Timer) (j : Judger) (req : JudgeRequest) : Prop :=
  req.seqNum = j.judgeSeqNum ∨ memoryOverflows req = true ∨ j.checkBuffers req.buffers = false ∨
    badTimeLimit req = true ∨ loadElf t (j.record req) req = none

/-- The call gets to `ELF::run`, with the program `loaded`. -/
structure Reaches (t : Timer) (j : Judger) (req : JudgeRequest) (loaded : ELF.Loaded) : Prop where
  fresh : req.seqNum ≠ j.judgeSeqNum
  memory : memoryOverflows req = false
  buffers : j.checkBuffers req.buffers = true
  timeLimit : badTimeLimit req = false
  load : loadElf t (j.record req) req = some loaded

theorem rejected_or_reaches (t : Timer) (j : Judger) (req : JudgeRequest) :
    Rejected t j req ∨ ∃ loaded, Reaches t j req loaded := by
  by_cases hrej : Rejected t j req
  · exact .inl hrej
  · simp only [Rejected, not_or, Bool.not_eq_true, Bool.not_eq_false] at hrej
    obtain ⟨hseq, hmem, hbuf, htime, hload⟩ := hrej
    obtain ⟨loaded, hloaded⟩ := Option.ne_none_iff_exists'.mp hload
    exact .inr ⟨loaded, hseq, hmem, hbuf, htime, hloaded⟩

theorem Reaches.not_rejected {t : Timer} {j : Judger} {req : JudgeRequest} {loaded : ELF.Loaded}
    (h : Reaches t j req loaded) : ¬ Rejected t j req := by
  simp [Rejected, h.fresh, h.memory, h.buffers, h.timeLimit, h.load]

/-- The check depends on the size of the buffer. -/
theorem checkBuffersFrom_congr {j j' : Judger} (h : j'.bufferSize = j.bufferSize)
    (seen bs : List BufferDesc) : j'.checkBuffersFrom seen bs = j.checkBuffersFrom seen bs := by
  induction bs generalizing seen with
  | nil => rfl
  | cons b bs ih =>
    have hvalid : j'.isValidBuffer b = j.isValidBuffer b := by simp only [isValidBuffer, inRange, h]
    simp only [checkBuffersFrom, hvalid, ih]

theorem checkBuffers_record (j : Judger) (req : JudgeRequest) (bs : List BufferDesc) :
    (j.record req).checkBuffers bs = j.checkBuffers bs :=
  checkBuffersFrom_congr (show (j.record req).bufferSize = j.bufferSize from rfl) [] bs

theorem judge_of_reaches {t : Timer} {j : Judger} {req : JudgeRequest} {loaded : ELF.Loaded}
    (h : Reaches t j req loaded) (g : ELF.Garbage) (u : ELF.UserRun) :
    j.judge t req g u = (j.record req).runLoaded t req loaded.app g u := by
  rw [judge_of_ne h.fresh]
  simp only [execute, h.memory, checkBuffers_record, h.buffers, h.timeLimit, h.load,
    Bool.not_true, Bool.false_eq_true, if_false, Option.elim_some]

/-- A rejected call answers without a look at the run that would have been. -/
theorem judge_of_rejected {t : Timer} {j : Judger} {req : JudgeRequest} (h : Rejected t j req) :
    (∀ g u, j.judge t req g u = ⟨j.judgeResult, j⟩) ∨
      ∃ e, ∀ g u, j.judge t req g u = (j.record req).exitWith e := by
  by_cases hseq : req.seqNum = j.judgeSeqNum
  · exact .inl (judge_of_eq hseq)
  · refine .inr ?_
    simp only [judge_of_ne hseq, execute, checkBuffers_record]
    rcases h with h | h | h | h | h
    · exact absurd h hseq
    · exact ⟨_, fun g u => by rw [if_pos h]; rfl⟩
    · split
      · exact ⟨_, fun g u => rfl⟩
      · exact ⟨_, fun g u => by rw [h]; rfl⟩
    · split
      · exact ⟨_, fun g u => rfl⟩
      · split
        · exact ⟨_, fun g u => rfl⟩
        · exact ⟨_, fun g u => rfl⟩
    · split
      · exact ⟨_, fun g u => rfl⟩
      · split
        · exact ⟨_, fun g u => rfl⟩
        · split
          · exact ⟨_, fun g u => rfl⟩
          · exact ⟨_, fun g u => by rw [h]; rfl⟩

theorem judge_rejected_eq {t : Timer} {j : Judger} {req : JudgeRequest} (h : Rejected t j req)
    (g1 g2 : ELF.Garbage) (u1 u2 : ELF.UserRun) : j.judge t req g1 u1 = j.judge t req g2 u2 := by
  rcases judge_of_rejected h with heq | ⟨e, heq⟩
  · rw [heq, heq]
  · rw [heq, heq]

theorem judge_rejected_mem {t : Timer} {j : Judger} {req : JudgeRequest} (h : Rejected t j req)
    (g : ELF.Garbage) (u : ELF.UserRun) : (j.judge t req g u).judger.mem = j.mem := by
  rcases judge_of_rejected h with heq | ⟨e, heq⟩
  · rw [heq]
  · rw [heq]
    rfl

/-! ## Confinement -/

theorem limited_stdoutSize (req : JudgeRequest) (res : ELF.RunResult) (result : JudgeResult) :
    (limited req res result).stdoutSize = result.stdoutSize ∧
      (limited req res result).stderrSize = result.stderrSize ∧
      (limited req res result).countInst = result.countInst := by
  unfold limited
  split
  · exact ⟨rfl, rfl, rfl⟩
  · exact ⟨rfl, rfl, rfl⟩

/-- The program is one that the loader accepts, and is loaded as it should be. -/
theorem Reaches.accepts {t : Timer} {j : Judger} {req : JudgeRequest} {loaded : ELF.Loaded}
    (h : Reaches t j req loaded) :
    ELF.Accepts (j.elfFile req) (j.elfConf req) j.breaks.vaddrBreak ∧
      loaded = (j.elfFile req).loaded (j.elfConf req) t.tscFreq j.umem := by
  have hload := h.load
  simp only [loadElf] at hload
  rcases hl : ELF.load ((j.record req).elfFile req) ((j.record req).elfConf req) t.tscFreq
    (j.record req).breaks (j.record req).umem with e | r
  · rw [hl] at hload
    cases hload
  · rw [hl] at hload
    obtain rfl := Option.some.inj hload
    exact ELF.load_eq_ok.mp hl

/-- The limits of the loaded program are those of the request. -/
theorem Reaches.limits {t : Timer} {j : Judger} {req : JudgeRequest} {loaded : ELF.Loaded}
    (h : Reaches t j req loaded) : loaded.app.duckinfoOrig.stdoutLimit = req.stdout.len.toNat ∧
      loaded.app.duckinfoOrig.stderrLimit = req.stderr.len.toNat := by
  rw [h.accepts.2]
  exact ⟨rfl, rfl⟩

/-- The ranges that a run may write. -/
def OutputRange (j : Judger) (req : JudgeRequest) (result : JudgeResult) (a : Nat) : Prop :=
  j.InDesc ⟨req.stdout.off, result.stdoutSize⟩ a ∨ j.InDesc ⟨req.stderr.off, result.stderrSize⟩ a ∨
    j.InDesc req.OB a

/-- What is left of the judger by a call that ran a program. -/
structure Confined (j : Judger) (req : JudgeRequest) (r : Judged) : Prop where
  inside : ∀ b ∈ req.buffers, j.Holds b
  apart : req.buffers.Pairwise BufferDesc.Apart
  stdoutSize : r.result.stdoutSize.toNat ≤ req.stdout.len.toNat
  stderrSize : r.result.stderrSize.toNat ≤ req.stderr.len.toNat
  outputs : ∀ a, ¬ OutputRange j req r.result a → r.judger.mem a = j.mem a
  inputs : ∀ b ∈ [req.ELF, req.stdin, req.IB], ∀ a, j.InDesc b a → r.judger.mem a = j.mem a

/-- A range apart from the three outputs. -/
theorem not_outputRange {j : Judger} {req : JudgeRequest} {result : JudgeResult}
    (h1 : result.stdoutSize.toNat ≤ req.stdout.len.toNat)
    (h2 : result.stderrSize.toNat ≤ req.stderr.len.toNat) {b : BufferDesc}
    (hout : b.Apart req.stdout) (herr : b.Apart req.stderr) (hOB : b.Apart req.OB) {a : Nat}
    (ha : j.InDesc b a) : ¬ OutputRange j req result a := by
  simp only [OutputRange, InDesc, BufferDesc.Apart] at *
  omega

theorem Reaches.confined {t : Timer} {j : Judger} {req : JudgeRequest} {loaded : ELF.Loaded}
    (h : Reaches t j req loaded) (g : ELF.Garbage) (u : ELF.UserRun) :
    Confined j req (j.judge t req g u) := by
  obtain ⟨hinside, hapart⟩ := checkBuffers_iff.mp h.buffers
  obtain ⟨hlimit1, hlimit2⟩ := h.limits
  rw [judge_of_reaches h g u]
  set res := ELF.run t loaded.app g u with hres
  have hresult : ((j.record req).runLoaded t req loaded.app g u).result =
      limited req res (resultOf res) := rfl
  obtain ⟨hout, herr, -⟩ := limited_stdoutSize req res (resultOf res)
  have hsize1 : res.stdoutSize.toNat ≤ req.stdout.len.toNat := by
    rw [hres, ELF.run_stdoutSize, hlimit1]
    exact Nat.min_le_left _ _
  have hsize2 : res.stderrSize.toNat ≤ req.stderr.len.toNat := by
    rw [hres, ELF.run_stderrSize, hlimit2]
    exact Nat.min_le_left _ _
  have h1 : ((j.record req).runLoaded t req loaded.app g u).result.stdoutSize = res.stdoutSize := by
    rw [hresult, hout]
    rfl
  have h2 : ((j.record req).runLoaded t req loaded.app g u).result.stderrSize = res.stderrSize := by
    rw [hresult, herr]
    rfl
  have houtputs : ∀ a, ¬ OutputRange j req
      ((j.record req).runLoaded t req loaded.app g u).result a →
      ((j.record req).runLoaded t req loaded.app g u).judger.mem a = j.mem a := by
    intro a ha
    simp only [OutputRange, h1, h2, not_or] at ha
    obtain ⟨ha1, ha2, ha3⟩ := ha
    refine Mem.apply_untouched j.mem ?_
    have hstdout := addr_eq (hinside req.stdout (by simp [JudgeRequest.buffers])).1
    have hstderr := addr_eq (hinside req.stderr (by simp [JudgeRequest.buffers])).1
    have hOB := addr_eq (hinside req.OB (by simp [JudgeRequest.buffers])).1
    rintro ⟨w, hw, hlo, hhi⟩
    simp only [copyBack, List.mem_cons, List.not_mem_nil, or_false] at hw
    rcases hw with rfl | rfl | rfl
    · rw [Mem.length_read] at hhi
      exact ha1 ⟨hstdout ▸ hlo, hstdout ▸ hhi⟩
    · rw [Mem.length_read] at hhi
      exact ha2 ⟨hstderr ▸ hlo, hstderr ▸ hhi⟩
    · rw [Mem.length_read] at hhi
      exact ha3 ⟨hOB ▸ hlo, hOB ▸ hhi⟩
  have hpair := hapart
  simp only [JudgeRequest.buffers, List.pairwise_cons, List.forall_mem_cons] at hpair
  obtain ⟨⟨-, hEo, hEe, -, hEB, -⟩, ⟨hso, hse, -, hsB, -⟩, ⟨-, hoI, -, -⟩, ⟨heI, -, -⟩, ⟨hIB, -⟩,
    -⟩ := hpair
  refine ⟨hinside, hapart, by rw [h1]; exact hsize1, by rw [h2]; exact hsize2, houtputs, ?_⟩
  intro b hb a ha
  refine houtputs a (not_outputRange (by rw [h1]; exact hsize1) (by rw [h2]; exact hsize2) ?_ ?_ ?_
    ha)
  all_goals
    simp only [List.mem_cons, List.not_mem_nil, or_false] at hb
    rcases hb with rfl | rfl | rfl
  · exact hEo
  · exact hso
  · exact hoI.symm
  · exact hEe
  · exact hse
  · exact heI.symm
  · exact hEB
  · exact hsB
  · exact hIB

/-- **A judged program can change only its output ranges**, whatever memory it
    leaves.  With a buffer of less than 4 GiB the length of the ELF file survives
    its narrowing. -/
theorem judge_confined (t : Timer) (j : Judger) (hsize : j.bufferSize.toNat < 2 ^ 32)
    (req : JudgeRequest) (g : ELF.Garbage) (u : ELF.UserRun) :
    (Rejected t j req ∧ (j.judge t req g u).judger.mem = j.mem ∨
      ∃ loaded, Reaches t j req loaded ∧ Confined j req (j.judge t req g u) ∧
        (j.elfFile req).len.toNat = req.ELF.len.toNat) ∧
    ((j.judge t req g u).result.error ≠ none → (j.judge t req g u).judger.mem = j.mem) := by
  rcases rejected_or_reaches t j req with h | ⟨loaded, h⟩
  · have hmem := judge_rejected_mem h g u
    exact ⟨.inl ⟨h, hmem⟩, fun _ => hmem⟩
  · have hlen := ((checkBuffers_iff.mp h.buffers).1 req.ELF (by simp [JudgeRequest.buffers])).2
    refine ⟨.inr ⟨loaded, h, h.confined g u, Nat.mod_eq_of_lt (by omega)⟩, fun herr => ?_⟩
    refine absurd ?_ herr
    rw [judge_of_reaches h g u]
    exact limited_error req _ _

/-! ## What nobody assigns -/

/-- The answer and the state agree, whatever the stack slots held. -/
def Deterministic (t : Timer) (j : Judger) (req : JudgeRequest) (u : ELF.UserRun) : Prop :=
  ∀ g1 g2, (j.judge t req g1 u).result = (j.judge t req g2 u).result ∧
    (j.judge t req g1 u).judger.contents = (j.judge t req g2 u).judger.contents ∧
    (j.judge t req g1 u).judger.totalTimeNs = (j.judge t req g2 u).judger.totalTimeNs

/-- The instruction count that a client gets is whatever the stack slot held. -/
theorem Reaches.countInst {t : Timer} {j : Judger} {req : JudgeRequest} {loaded : ELF.Loaded}
    (h : Reaches t j req loaded) (g : ELF.Garbage) (u : ELF.UserRun) :
    (j.judge t req g u).result.countInst = g.countInst := by
  rw [judge_of_reaches h g u]
  exact (limited_stdoutSize req _ _).2.2

/-- **The verdict depends on uninitialised memory** exactly when the program is run. -/
theorem judge_deterministic_iff (t : Timer) (j : Judger) (req : JudgeRequest) (u : ELF.UserRun) :
    Deterministic t j req u ↔ Rejected t j req := by
  constructor
  · intro hdet
    rcases rejected_or_reaches t j req with hrej | ⟨loaded, h⟩
    · exact hrej
    · have heq := congrArg JudgeResult.countInst (hdet ⟨0, 0, 0, 0⟩ ⟨1, 0, 0, 0⟩).1
      rw [h.countInst, h.countInst] at heq
      exact absurd heq (by decide)
  · intro hrej g1 g2
    have hsame : j.judge t req g1 u = j.judge t req g2 u := judge_rejected_eq hrej g1 g2 u u
    rw [hsame]
    exact ⟨rfl, rfl, rfl⟩

/-! ## A judger with a program -/

/-- The file `bs` is at the front of the buffer, which has only zeros behind it. -/
structure HoldsFile (bs : List UInt8) (j : Judger) : Prop where
  size : j.bufferSize = INITIAL_BUFFER_SIZE_SMALL
  room : 0x20000000 ≤ j.breaks.vaddrBreak
  file : ∀ i, j.mem (j.buffer + i) = bs.getD i 0

section HoldsFile

variable {bs : List UInt8} {j : Judger} {req : JudgeRequest}

theorem HoldsFile.get (h : HoldsFile bs j) (hoff : req.ELF.off = 0) (len : UInt32) (off n : Nat) :
    (j.elfFile req).get off n = ELF.ElfFile.get ⟨fun i => bs.getD i 0, 0, len⟩ off n := by
  have haddr : j.addr 0 = j.buffer := addr_eq (by rw [h.size]; decide)
  -- the bytes of the file, wherever the buffer is
  refine congrArg Mem.leNat (List.map_congr_left fun i _ => ?_)
  have hbyte := h.file (off + i)
  rw [← Nat.add_assoc, ← haddr, ← hoff] at hbyte
  simp only [Nat.zero_add]
  exact hbyte

theorem not_inDesc_of_empty {b : BufferDesc} {a : Nat} (h : b.len.toNat ≤ 0) : ¬ j.InDesc b a := by
  rintro ⟨hlo, hhi⟩
  omega

/-- A program without outputs stays where it is. -/
theorem HoldsFile.judge {t : Timer} {loaded : ELF.Loaded} (h : HoldsFile bs j)
    (hreach : Reaches t j req loaded) (hout : req.stdout.len.toNat = 0)
    (herr : req.stderr.len.toNat = 0) (hOB : req.OB.len.toNat = 0) (g : ELF.Garbage)
    (u : ELF.UserRun) : HoldsFile bs (j.judge t req g u).judger := by
  have hconf := hreach.confined g u
  have hans := execute_answered t j req g u
  rw [← judge_of_ne hreach.fresh] at hans
  have h1 := hconf.stdoutSize
  have h2 := hconf.stderrSize
  refine ⟨hans.bufferSize.trans h.size, by rw [hans.breaks]; exact h.room, fun i => ?_⟩
  rw [hans.buffer, hconf.outputs, h.file]
  rintro (h | h | h)
  · exact not_inDesc_of_empty (Nat.le_trans h1 (Nat.le_of_eq hout)) h
  · exact not_inDesc_of_empty (Nat.le_trans h2 (Nat.le_of_eq herr)) h
  · exact not_inDesc_of_empty (Nat.le_of_eq hOB) h

end HoldsFile

/-- A file in a memory of zeros. -/
theorem write_file {m : Mem} (a : Nat) (hzero : ∀ x, m x = 0) (bs : List UInt8) (i : Nat) :
    m.apply [⟨a, Mem.read (fun i => bs.getD i 0) 0 bs.length⟩] (a + i) = bs.getD i 0 := by
  simp only [Mem.apply, List.foldl_cons, List.foldl_nil]
  have hlen : (Mem.read (fun i => bs.getD i 0) 0 bs.length).length = bs.length :=
    Mem.length_read _ _ _
  rcases Nat.lt_or_ge i bs.length with hi | hi
  · rw [Mem.write_inside_getD _ _ _ (Nat.le_add_right _ _) (by omega), Nat.add_sub_cancel_left,
      Mem.getD_read _ _ hi, Nat.zero_add]
  · rw [Mem.write_outside _ _ _ (.inr (by omega)), hzero, List.getD_eq_getElem?_getD,
      List.getElem?_eq_none hi]
    rfl

theorem init_umem {b : MemoryBreaks} {raw : Raw} {j : Judger} (h : init b raw = some j) :
    j.umem = raw.umem := by
  obtain ⟨region, -, hcaches⟩ := Option.bind_eq_some_iff.mp h
  obtain ⟨elf, -, hdata⟩ := Option.bind_eq_some_iff.mp hcaches
  obtain ⟨data, -, rfl⟩ := Option.map_eq_some_iff.mp hdata
  rfl

/-- A client writes a file of `len` bytes into a fresh judger. -/
def loadFile (bs : List UInt8) (len : UInt64) : List Call :=
  [.buffer (.writeBuffer 0 (fun i => bs.getD i 0) len)]

theorem run_loadFile (std : StdSort) (t : Timer) {bs : List UInt8} {len : UInt64}
    (hlen : bs.length = len.toNat) (hfits : len.toNat ≤ INITIAL_BUFFER_SIZE_SMALL.toNat) :
    ∃ j s, init wideBreaks blankRaw = some j ∧
      (History.start j).run std t (loadFile bs len) = some s ∧ HoldsFile bs s.judger ∧
      s.judger.judgeSeqNum = CLEARED_SEQ_NUM ∧ s.judger.umem = fun _ => 0 := by
  obtain ⟨j, hinit, hsize, hroom, hzero⟩ := init_wideBreaks
  have hpos : (0 : UInt64).toNat < j.bufferSize.toNat := by
    rw [hsize]
    decide
  have hend : (0 : UInt64).toNat + len.toNat ≤ j.bufferSize.toNat := by
    rw [hsize]
    exact Nat.le_trans (Nat.le_of_eq (Nat.zero_add _)) hfits
  have hr : j.inRange 0 len = true := inRange_iff.mpr ⟨hpos, hend⟩
  have haddr : j.addr 0 = j.buffer := addr_eq hpos
  have hexec : j.exec std (.writeBuffer 0 (fun i => bs.getD i 0) len) =
      some (j.writeBuffer 0 (fun i => bs.getD i 0) len) := rfl
  have hinside := (writeBuffer_staysInside j 0 (fun i => bs.getD i 0) len).inside
  have heq : (j.writeBuffer 0 (fun i => bs.getD i 0) len).judger =
      (j.poke [⟨j.addr 0, Mem.read (fun i => bs.getD i 0) 0 bs.length⟩]).clearJudgeResult := by
    simp only [writeBuffer, hr, if_true, hlen]
  refine ⟨j, ⟨(j.writeBuffer 0 (fun i => bs.getD i 0) len).judger, none, false⟩, hinit, ?_, ?_, ?_,
    ?_⟩
  · simp only [History.run, loadFile, List.foldlM_cons, List.foldlM_nil, History.step,
      History.start, hexec, Option.bind_eq_bind, Option.bind_some, if_pos hinside]
    rfl
  · refine ⟨?_, ?_, fun i => ?_⟩
    · simp only [heq, clearJudgeResult_bufferSize]
      exact hsize
    · simp only [heq, clearJudgeResult_breaks]
      exact Nat.le_trans (by decide) (Nat.le_of_eq hroom.symm)
    · simp only [heq, clearJudgeResult_mem, clearJudgeResult_buffer, poke, haddr]
      exact write_file j.buffer hzero bs i
  · have hcleared : ClearedOk (j.poke [⟨j.addr 0, Mem.read (fun i => bs.getD i 0) 0 bs.length⟩]) :=
      (init_tracked hinit).cleared
    obtain ⟨hok, hflag⟩ := clearJudgeResult_cleared hcleared
    rw [← heq] at hok hflag
    exact (hok hflag).1
  · simp only [heq, clearJudgeResult_umem]
    exact init_umem hinit

/-- Run the sample program without inputs and outputs. -/
def sampleRequest (seqNum : UInt64) : JudgeRequest :=
  ⟨seqNum, 1000000000, 8, ⟨0, 120⟩, ⟨120, 0⟩, ⟨120, 0⟩, ⟨120, 0⟩, ⟨120, 0⟩, ⟨120, 0⟩, 1⟩

/-- The same with room for three outputs. -/
def writingRequest : JudgeRequest :=
  { sampleRequest 1 with stdout := ⟨120, 16⟩, stderr := ⟨136, 16⟩, OB := ⟨152, 8⟩ }

section Sample

variable {j : Judger} {req : JudgeRequest}

theorem HoldsFile.sample_lt (h : HoldsFile ELF.sampleBytes j) : 160 < j.bufferSize.toNat := by
  rw [h.size]
  decide

/-- Ranges behind the program, one after the other. -/
theorem HoldsFile.sample_buffers (h : HoldsFile ELF.sampleBytes j) (seqNum : UInt64) :
    j.checkBuffers (sampleRequest seqNum).buffers = true ∧
      j.checkBuffers writingRequest.buffers = true := by
  have hlt := h.sample_lt
  have hholds (off len : UInt64) (hoff : off.toNat < 160)
      (hend : off.toNat + len.toNat ≤ 160) : j.Holds ⟨off, len⟩ :=
    ⟨Nat.lt_trans hoff hlt, Nat.le_trans hend (Nat.le_of_lt hlt)⟩
  rw [checkBuffers_iff, checkBuffers_iff]
  simp only [JudgeRequest.buffers, sampleRequest, writingRequest, List.forall_mem_cons,
    List.pairwise_cons, List.not_mem_nil, false_implies, implies_true, List.Pairwise.nil, and_true]
  refine ⟨⟨?_, ?_⟩, ?_, ?_⟩
  · exact ⟨hholds 0 120 (by decide) (by decide), hholds 120 0 (by decide) (by decide),
      hholds 120 0 (by decide) (by decide), hholds 120 0 (by decide) (by decide),
      hholds 120 0 (by decide) (by decide), hholds 120 0 (by decide) (by decide)⟩
  · simp only [BufferDesc.Apart]
    decide
  · exact ⟨hholds 0 120 (by decide) (by decide), hholds 120 0 (by decide) (by decide),
      hholds 120 16 (by decide) (by decide), hholds 136 16 (by decide) (by decide),
      hholds 120 0 (by decide) (by decide), hholds 152 8 (by decide) (by decide)⟩
  · simp only [BufferDesc.Apart]
    decide

theorem sampleRequest_memory (hmem : req.memoryHardLimitKb = 8) :
    req.memoryHardLimitKb * 1024 = 8192 ∧ memoryOverflows req = false := by
  rw [memoryOverflows, hmem]
  decide

theorem sampleRequest_timeLimit (htime : req.timeLimitNs = 1000000000) :
    badTimeLimit req = false := by
  rw [badTimeLimit, htime]
  decide

theorem sampleRequest_limit (j : Judger) (hmem : req.memoryHardLimitKb = 8) :
    (j.elfConf req).limit = 8192 := by
  simp only [ELF.AppConfig.limit, elfConf, (sampleRequest_memory hmem).1]
  rfl

/-- A request for the sample program whose regions are small gets to it. -/
theorem HoldsFile.sample_reaches (h : HoldsFile ELF.sampleBytes j) (hfresh : req.seqNum ≠ j.judgeSeqNum)
    (hELF : req.ELF = ⟨0, 120⟩) (hmem : req.memoryHardLimitKb = 8)
    (htime : req.timeLimitNs = 1000000000) (hbuffers : j.checkBuffers req.buffers = true)
    (hregions : (j.elfConf req).regions ≤ 0x100000) (t : Timer) :
    ∃ loaded, Reaches t j req loaded := by
  have hlen : req.ELF.len.toUInt32 = 120 := by
    rw [hELF]
    decide
  have hoff : req.ELF.off = 0 := by rw [hELF]
  have hroom : 0x400000 + 8192 + (j.elfConf req).regions + 8192 ≤ j.breaks.vaddrBreak := by
    have hbreak := h.room
    omega
  have hacc : ELF.Accepts (j.elfFile req) (j.elfConf req) j.breaks.vaddrBreak :=
    (ELF.sampleFile_accepts (sampleRequest_limit j hmem) hroom).congr hlen (h.get hoff 120) rfl rfl
      (Nat.le_refl _)
  have hload : loadElf t (j.record req) req = some _ :=
    congrArg Except.toOption (ELF.load_eq_ok.mpr ⟨hacc, rfl⟩)
  exact ⟨_, hfresh, (sampleRequest_memory hmem).2, hbuffers, sampleRequest_timeLimit htime, hload⟩

theorem HoldsFile.sampleRequest_reaches (h : HoldsFile ELF.sampleBytes j) {seqNum : UInt64}
    (hne : seqNum ≠ j.judgeSeqNum) (t : Timer) :
    ∃ loaded, Reaches t j (sampleRequest seqNum) loaded := by
  refine h.sample_reaches hne rfl rfl rfl (h.sample_buffers seqNum).1 ?_ t
  simp only [ELF.AppConfig.regions, elfConf, sampleRequest]
  decide

/-- The program has no outputs. -/
theorem HoldsFile.sample_judge (h : HoldsFile ELF.sampleBytes j) {seqNum : UInt64}
    (hne : seqNum ≠ j.judgeSeqNum) (t : Timer) (g : ELF.Garbage) (u : ELF.UserRun) :
    HoldsFile ELF.sampleBytes (j.judge t (sampleRequest seqNum) g u).judger := by
  obtain ⟨loaded, hreach⟩ := h.sampleRequest_reaches hne t
  exact h.judge hreach rfl rfl rfl g u

end Sample

/-- A client writes the program into a fresh judger. -/
def loadSample : List Call := loadFile ELF.sampleBytes 120

theorem run_loadSample (std : StdSort) (t : Timer) : ∃ j s, init wideBreaks blankRaw = some j ∧
    (History.start j).run std t loadSample = some s ∧ HoldsFile ELF.sampleBytes s.judger ∧
    s.judger.judgeSeqNum = CLEARED_SEQ_NUM ∧ s.judger.umem = fun _ => 0 := by
  have hlen : ELF.sampleBytes.length = (120 : UInt64).toNat := by decide
  exact run_loadFile std t hlen (by decide)

/-- The program fills its memory, the two sizes with it. -/
theorem judge_confined_sample : ∃ j loaded, j.bufferSize.toNat < 2 ^ 32 ∧
    Reaches sampleTimer j writingRequest loaded ∧
    Confined j writingRequest
      (j.judge sampleTimer writingRequest idleGarbage { idleRun with umem := fun _ => 7 }) := by
  obtain ⟨-, s, -, -, hholds, hseq, -⟩ := run_loadSample .insertion sampleTimer
  have hsize : s.judger.bufferSize.toNat < 2 ^ 32 := by
    rw [hholds.size]
    decide
  obtain ⟨loaded, hreach⟩ : ∃ loaded, Reaches sampleTimer s.judger writingRequest loaded := by
    refine hholds.sample_reaches (show 1 ≠ s.judger.judgeSeqNum by rw [hseq]; decide) rfl rfl rfl
      (hholds.sample_buffers 1).2 ?_ sampleTimer
    simp only [ELF.AppConfig.regions, elfConf, writingRequest, sampleRequest]
    decide
  refine ⟨s.judger, loaded, hsize, hreach, ?_⟩
  rcases (judge_confined sampleTimer s.judger hsize writingRequest idleGarbage
    { idleRun with umem := fun _ => 7 }).1 with ⟨hrej, -⟩ | ⟨-, -, hconf, -⟩
  · exact absurd hrej hreach.not_rejected
  · exact hconf

/-- Two stack slots, two instruction counts for one run. -/
theorem countInst_differs : ∃ j, init wideBreaks blankRaw = some j ∧
    ∃ s, (History.start j).run .insertion sampleTimer loadSample = some s ∧
      (s.judger.judge sampleTimer (sampleRequest 1) ⟨0, 0, 0, 0⟩ idleRun).result.countInst = 0 ∧
      (s.judger.judge sampleTimer (sampleRequest 1) ⟨1, 0, 0, 0⟩ idleRun).result.countInst = 1 ∧
      ¬ Deterministic sampleTimer s.judger (sampleRequest 1) idleRun := by
  obtain ⟨j, s, hinit, hrun, hholds, hseq, -⟩ := run_loadSample .insertion sampleTimer
  obtain ⟨loaded, hreach⟩ := hholds.sampleRequest_reaches
    (show 1 ≠ s.judger.judgeSeqNum by rw [hseq]; decide) sampleTimer
  have h0 := hreach.countInst ⟨0, 0, 0, 0⟩ idleRun
  have h1 := hreach.countInst ⟨1, 0, 0, 0⟩ idleRun
  refine ⟨j, hinit, s, hrun, h0, h1, fun hdet => ?_⟩
  have heq := congrArg JudgeResult.countInst (hdet ⟨0, 0, 0, 0⟩ ⟨1, 0, 0, 0⟩).1
  rw [h0, h1] at heq
  exact absurd heq (by decide)

end Judger

end JudgePenguin
