/-
  JudgePenguin/ElfAccept.lean
  ===========================
  **Which ELF files the loader accepts.**

  `Accepts` states the requirement over unbounded integers.  The loader computes
  modulo `2 ^ 64`, and some of its checks taken alone can be passed by a sum that
  wraps; `load_ok_iff` says that all of them together accept exactly the files of
  `Accepts`, and `load_safe` that no input makes the loader read outside the file.
-/
import JudgePenguin.Elf

namespace JudgePenguin

open Words Guarded

namespace ELF

/-! ## The exact specification -/

/-- The value of a field, wherever it is. -/
def ElfFile.get (f : ElfFile) (off n : Nat) : Nat := f.mem.readLE (f.buf + off) n

def ElfFile.ehdr (f : ElfFile) : Ehdr := ⟨f.get 24 8, f.get 32 8, f.get 54 2, f.get 56 2⟩

/-- The ELF header has the required values. -/
structure HeaderOk (f : ElfFile) : Prop where
  len : 64 ≤ f.len.toNat
  mag0 : f.get 0 1 = 0x7f
  mag1 : f.get 1 1 = 0x45
  mag2 : f.get 2 1 = 0x4c
  mag3 : f.get 3 1 = 0x46
  class64 : f.get 4 1 = 2
  data : f.get 5 1 = 1
  identVersion : f.get 6 1 = 1
  osabi : f.get 7 1 = 0 ∨ f.get 7 1 = 3
  type : f.get 16 2 = 2
  machine : f.get 18 2 = 62
  version : f.get 20 4 = 1
  phoff : f.ehdr.phoff < f.len.toNat
  phentsize : f.ehdr.phentsize < f.len.toNat
  phnum : f.ehdr.phnum < f.len.toNat

structure Phdr where
  type : Nat
  offset : Nat
  vaddr : Nat
  filesz : Nat
  memsz : Nat
  align : Nat

/-- The program header at index `off`. -/
def ElfFile.phdr (f : ElfFile) (off : Nat) : Phdr :=
  ⟨f.get off 4, f.get (off + 8) 8, f.get (off + 16) 8, f.get (off + 32) 8, f.get (off + 40) 8,
    f.get (off + 48) 8⟩

/-- The exact index of program header `i`. -/
def Ehdr.phdrIndex (h : Ehdr) (i : Nat) : Nat := h.phoff + i * h.phentsize

/-- The `PT_LOAD` headers among those numbered `is`. -/
def ElfFile.loadsAmong (f : ElfFile) (is : List Nat) : List Phdr :=
  (is.map fun i => f.phdr (f.ehdr.phdrIndex i)).filter fun p => decide (p.type = PT_LOAD)

/-- The `PT_LOAD` headers of the file. -/
def ElfFile.loads (f : ElfFile) : List Phdr := f.loadsAmong (List.range f.ehdr.phnum)

/-- What every `PT_LOAD` header has to satisfy. -/
structure SegmentOk (f : ElfFile) (p : Phdr) : Prop where
  align : p.align = 4096 ∨ p.align = 2097152
  memsz : p.filesz ≤ p.memsz
  inFile : p.filesz = 0 ∨ p.offset + p.filesz ≤ f.len.toNat

/-- The memory limit in whole pages. -/
def AppConfig.limit (config : AppConfig) : Nat := ceilTo config.memoryHardLimit.toNat 4096

/-- The bytes of the five configured regions, each in whole pages. -/
def AppConfig.regions (config : AppConfig) : Nat :=
  ceilTo config.stdinSize.toNat 4096 + ceilTo config.stdoutMaxSize.toNat 4096 +
    ceilTo config.stderrMaxSize.toNat 4096 + ceilTo config.IBSize.toNat 4096 +
    ceilTo config.OBSize.toNat 4096

/-- A program on the addresses `[lo, hi)` fits below `vaddrBreak`, with a page of
    stack and the special region. -/
structure Fits (config : AppConfig) (vaddrBreak lo hi : Nat) : Prop where
  start : floorTo lo 4096 = 0x400000
  nonempty : 0x400000 < ceilTo hi 4096
  limit : ceilTo hi 4096 - 0x400000 + 4096 ≤ config.limit
  room : 0x400000 + config.limit + config.regions + 8192 ≤ vaddrBreak

theorem Fits.top_lt {config : AppConfig} {vaddrBreak lo hi : Nat}
    (h : Fits config vaddrBreak lo hi) (hv : vaddrBreak ≤ 2 ^ 47) : hi < 2 ^ 48 := by
  have h1 := le_ceilTo (r := 4096) hi (by decide)
  have h2 := h.limit
  have h3 := h.room
  omega

/-- **The files that the loader has to accept.** -/
structure Accepts (f : ElfFile) (config : AppConfig) (vaddrBreak : Nat) : Prop where
  header : HeaderOk f
  phdrs : ∀ i, i < f.ehdr.phnum → f.ehdr.phdrIndex i + 56 ≤ f.len.toNat
  segments : ∀ p ∈ f.loads, SegmentOk f p
  fits : ∃ lo hi, (f.loads.map Phdr.vaddr).min? = some lo ∧
    (f.loads.map fun p => p.vaddr + p.memsz).max? = some hi ∧ Fits config vaddrBreak lo hi

/-! ## Fields -/

section Fields

variable {f : ElfFile} {off n v : Nat} {β : Type} {r : β}

theorem field_bind_eq_ok {g : Nat → Except Stop β} :
    (f.field off n >>= g) = .ok r ↔ off + n ≤ f.len.toNat ∧ g (f.get off n) = .ok r := by
  rw [bind_eq_ok]
  constructor
  · rintro ⟨a, ha, h⟩
    obtain ⟨hle, rfl⟩ := access_eq_ok.mp ha
    exact ⟨hle, h⟩
  · rintro ⟨hle, h⟩
    exact ⟨_, access_of hle _, h⟩

theorem expect_bind_eq_ok {g : Unit → Except Stop β} :
    (f.expect off n v >>= g) = .ok r ↔
      off + n ≤ f.len.toNat ∧ f.get off n = v ∧ g () = .ok r := by
  rw [bind_eq_ok]
  constructor
  · rintro ⟨u, hu, h⟩
    obtain ⟨hle, hv⟩ := field_bind_eq_ok.mp hu
    exact ⟨hle, Decidable.not_not.mp (rejectIf_eq_ok.mp hv), h⟩
  · rintro ⟨hle, hv, h⟩
    exact ⟨(), field_bind_eq_ok.mpr ⟨hle, rejectIf_eq_ok.mpr fun hne => hne hv⟩, h⟩

theorem pure_eq_ok {a : β} : (pure a : Except Stop β) = .ok r ↔ a = r := by
  constructor
  · intro h
    cases h
    rfl
  · rintro rfl
    rfl

theorem Safe.field_bind {g : Nat → Except Stop β} (hle : off + n ≤ f.len.toNat)
    (hg : Safe (g (f.get off n))) : Safe (f.field off n >>= g) := by
  refine Safe.bind (Safe.access hle _) fun a ha => ?_
  obtain ⟨-, rfl⟩ := access_eq_ok.mp ha
  exact hg

theorem Safe.expect_bind {g : Unit → Except Stop β} (hle : off + n ≤ f.len.toNat)
    (hg : Safe (g ())) : Safe (f.expect off n v >>= g) :=
  Safe.bind (Safe.field_bind hle (Safe.rejectIf _)) fun _ _ => hg

end Fields

/-! ## The header -/

/-- The header checks are the header part of the specification. -/
theorem readEhdr_eq_ok {f : ElfFile} {h : Ehdr} :
    readEhdr f = .ok h ↔ HeaderOk f ∧ h = f.ehdr := by
  simp only [readEhdr, rejectIf_bind_eq_ok, expect_bind_eq_ok, field_bind_eq_ok, pure_eq_ok]
  simp only [EHDR64_SIZE, EI_CLASS, EI_DATA, EI_VERSION, EI_OSABI, ELFCLASS64, ELFDATA2LSB, EV_CURRENT,
    ELFOSABI_SYSV, ELFOSABI_LINUX, ET_EXEC, EM_X86_64, Nat.not_lt, ge_iff_le, Nat.not_le]
  constructor
  · rintro ⟨hlen, -, h0, -, h1, -, h2, -, h3, -, h4, -, h5, -, h6, -, h7, -, h16, -, h18, -, h20,
      -, -, -, -, hoff, hsize, hnum, rfl⟩
    exact ⟨⟨hlen, h0, h1, h2, h3, h4, h5, h6, by tauto, h16, h18, h20, hoff, hsize, hnum⟩, rfl⟩
  · rintro ⟨ok, rfl⟩
    have hlen := ok.len
    have hos := ok.osabi
    exact ⟨hlen, by omega, ok.mag0, by omega, ok.mag1, by omega, ok.mag2, by omega, ok.mag3,
      by omega, ok.class64, by omega, ok.data, by omega, ok.identVersion, by omega, by tauto,
      by omega, ok.type, by omega, ok.machine, by omega, ok.version, by omega, by omega, by omega,
      by omega, ok.phoff, ok.phentsize, ok.phnum, rfl⟩

theorem readEhdr_safe (f : ElfFile) : Safe (readEhdr f) := by
  refine Safe.rejectIf_bind fun hlen => ?_
  simp only [EHDR64_SIZE, Nat.not_lt] at hlen
  refine Safe.expect_bind (by omega) ?_
  refine Safe.expect_bind (by omega) ?_
  refine Safe.expect_bind (by omega) ?_
  refine Safe.expect_bind (by omega) ?_
  refine Safe.expect_bind (by simp only [EI_CLASS]; omega) ?_
  refine Safe.expect_bind (by simp only [EI_DATA]; omega) ?_
  refine Safe.expect_bind (by simp only [EI_VERSION]; omega) ?_
  refine Safe.field_bind (by simp only [EI_OSABI]; omega) ?_
  refine Safe.rejectIf_bind fun _ => ?_
  refine Safe.expect_bind (by omega) ?_
  refine Safe.expect_bind (by omega) ?_
  refine Safe.expect_bind (by omega) ?_
  refine Safe.field_bind (by omega) ?_
  refine Safe.field_bind (by omega) ?_
  refine Safe.field_bind (by omega) ?_
  refine Safe.field_bind (by omega) ?_
  refine Safe.rejectIf_bind fun _ => ?_
  refine Safe.rejectIf_bind fun _ => ?_
  exact Safe.rejectIf_bind fun _ => Safe.ok _

/-- The index of a program header does not wrap. -/
theorem phdrOff_eq {f : ElfFile} (ok : HeaderOk f) {i : Nat} (hi : i < f.ehdr.phnum) :
    f.ehdr.phdrOff i = f.ehdr.phdrIndex i ∧ f.ehdr.phdrIndex i < 2 ^ 33 := by
  have hlen := f.len.toNat_lt
  have hoff := ok.phoff
  have hsize : f.ehdr.phentsize < 2 ^ 16 := Mem.readLE_lt f.mem _ 2
  have hnum : f.ehdr.phnum < 2 ^ 16 := Mem.readLE_lt f.mem _ 2
  have hmul : i * f.ehdr.phentsize ≤ 2 ^ 16 * 2 ^ 16 :=
    Nat.mul_le_mul (by omega) (by omega)
  simp only [Ehdr.phdrOff, Ehdr.phdrIndex]
  generalize i * f.ehdr.phentsize = k at *
  rw [wrap64_of_lt (show k < 2 ^ 64 by omega), wrap64_of_lt (by omega)]
  exact ⟨rfl, by omega⟩

/-! ## The scan -/

/-- The range of addresses after one more `PT_LOAD` header. -/
def widen (range : Nat × Nat) (p : Phdr) : Nat × Nat :=
  (min range.1 p.vaddr, max range.2 (p.vaddr + p.memsz))

/-- What the scan checks of a `PT_LOAD` header.  The sum in `inFile` may wrap. -/
structure SegmentScanned (f : ElfFile) (p : Phdr) : Prop where
  align : p.align = 4096 ∨ p.align = 2097152
  memsz : p.filesz ≤ p.memsz
  inFile : p.filesz = 0 ∨ p.offset ≤ f.len.toNat ∧ wrap64 (p.offset + p.filesz) ≤ f.len.toNat
  top : p.vaddr + p.memsz < 2 ^ 64

/-- A segment that is not absurdly large is in the file: only a size next to
    `2 ^ 64` can wrap back into it. -/
theorem SegmentScanned.ok {f : ElfFile} {p : Phdr} (h : SegmentScanned f p)
    (hm : p.memsz < 2 ^ 48) : SegmentOk f p := by
  have hlen := f.len.toNat_lt
  refine ⟨h.align, h.memsz, ?_⟩
  rcases h.inFile with h0 | ⟨hoff, hsum⟩
  · exact .inl h0
  · have hmem := h.memsz
    rw [wrap64_of_lt (by omega)] at hsum
    exact .inr hsum

theorem SegmentOk.scanned {f : ElfFile} {p : Phdr} (h : SegmentOk f p)
    (htop : p.vaddr + p.memsz < 2 ^ 64) : SegmentScanned f p := by
  have hlen := f.len.toNat_lt
  refine ⟨h.align, h.memsz, ?_, htop⟩
  rcases h.inFile with h0 | hin
  · exact .inl h0
  · rw [wrap64_of_lt (by omega)]
    exact .inr ⟨by omega, hin⟩

/-- The checks of the code are `SegmentScanned`. -/
theorem segment_checks {f : ElfFile} {off : Nat} :
    (¬ (f.get (off + 32) 8 ≠ 0 ∧ (f.get (off + 8) 8 > f.len.toNat ∨
        wrap64 (f.get (off + 8) 8 + f.get (off + 32) 8) > f.len.toNat)) ∧
      ¬ (f.get (off + 48) 8 ≠ PAGE_SIZE ∧ f.get (off + 48) 8 ≠ HUGE_PAGE_SIZE) ∧
      ¬ f.get (off + 40) 8 < f.get (off + 32) 8 ∧
      ¬ wrap64 (f.get (off + 16) 8 + f.get (off + 40) 8) < f.get (off + 16) 8) ↔
    SegmentScanned f (f.phdr off) := by
  have hva : (f.phdr off).vaddr < 2 ^ 64 := Mem.read64_lt f.mem _
  have hms : (f.phdr off).memsz < 2 ^ 64 := Mem.read64_lt f.mem _
  have hend : ¬ wrap64 ((f.phdr off).vaddr + (f.phdr off).memsz) < (f.phdr off).vaddr ↔
      (f.phdr off).vaddr + (f.phdr off).memsz < 2 ^ 64 := by
    simp only [wrap64]
    omega
  constructor
  · rintro ⟨h1, h2, h3, h4⟩
    refine ⟨?_, Nat.le_of_not_lt h3, ?_, hend.mp h4⟩
    · simp only [PAGE_SIZE, HUGE_PAGE_SIZE] at h2
      simp only [ElfFile.phdr]
      omega
    · simp only [ElfFile.phdr]
      omega
  · rintro ⟨h2, h3, h1, h4⟩
    refine ⟨?_, ?_, Nat.not_lt.mpr h3, hend.mpr h4⟩
    · simp only [ElfFile.phdr] at h1
      omega
    · simp only [ElfFile.phdr] at h2
      simp only [PAGE_SIZE, HUGE_PAGE_SIZE]
      omega

/-- **One pass of the scan**, for a header with a valid number. -/
theorem scanPhdr_eq_ok {f : ElfFile} (ok : HeaderOk f) {i : Nat} (hi : i < f.ehdr.phnum)
    {range range' : Nat × Nat} :
    scanPhdr f f.ehdr range i = .ok range' ↔
      f.ehdr.phdrIndex i + 56 ≤ f.len.toNat ∧
      (∀ p ∈ f.loadsAmong [i], SegmentScanned f p) ∧
      range' = (f.loadsAmong [i]).foldl widen range := by
  obtain ⟨heq, hlt⟩ := phdrOff_eq ok hi
  have hlen := f.len.toNat_lt
  simp only [scanPhdr, heq, rejectIf_bind_eq_ok, field_bind_eq_ok]
  rw [wrap64_of_lt (by simp only [PHDR_SIZE]; omega)]
  simp only [PHDR_SIZE, gt_iff_lt, Nat.not_lt]
  by_cases htype : f.get (f.ehdr.phdrIndex i) 4 = PT_LOAD
  · have hloads : f.loadsAmong [i] = [f.phdr (f.ehdr.phdrIndex i)] := by
      simp [ElfFile.loadsAmong, ElfFile.phdr, htype]
    rw [hloads]
    simp only [htype, ne_eq, not_true_eq_false, if_false, rejectIf_bind_eq_ok, field_bind_eq_ok,
      pure_eq_ok, List.mem_singleton, forall_eq, List.foldl_cons, List.foldl_nil]
    rw [← segment_checks]
    constructor
    · rintro ⟨hfit, -, -, -, -, -, -, h1, h2, h3, h4, rfl⟩
      refine ⟨hfit, ⟨h1, h2, h3, h4⟩, ?_⟩
      have htop := (segment_checks.mp ⟨h1, h2, h3, h4⟩).top
      simp only [ElfFile.phdr] at htop
      rw [wrap64_of_lt htop]
      rfl
    · rintro ⟨hfit, ⟨h1, h2, h3, h4⟩, rfl⟩
      have htop := (segment_checks.mp ⟨h1, h2, h3, h4⟩).top
      refine ⟨hfit, by omega, by omega, by omega, by omega, by omega, by omega, h1, h2, h3, h4, ?_⟩
      simp only [ElfFile.phdr] at htop
      rw [wrap64_of_lt htop]
      rfl
  · have hloads : f.loadsAmong [i] = [] := by
      simp [ElfFile.loadsAmong, ElfFile.phdr, htype]
    rw [hloads]
    simp only [htype, ne_eq, not_false_eq_true, if_true, pure_eq_ok, List.not_mem_nil,
      false_imp_iff, implies_true, true_and, List.foldl_nil]
    constructor
    · rintro ⟨hfit, -, rfl⟩
      exact ⟨hfit, rfl⟩
    · rintro ⟨hfit, rfl⟩
      exact ⟨hfit, by omega, rfl⟩

theorem loadsAmong_cons (f : ElfFile) (i : Nat) (is : List Nat) :
    f.loadsAmong (i :: is) = f.loadsAmong [i] ++ f.loadsAmong is := by
  simp only [ElfFile.loadsAmong, List.map_cons, List.map_nil, List.filter_cons, List.filter_nil]
  split
  · rfl
  · rfl

/-- The loop over any list of valid numbers. -/
theorem scan_eq_ok {f : ElfFile} (ok : HeaderOk f) {is : List Nat}
    (his : ∀ i ∈ is, i < f.ehdr.phnum) {range range' : Nat × Nat} :
    is.foldlM (scanPhdr f f.ehdr) range = .ok range' ↔
      (∀ i ∈ is, f.ehdr.phdrIndex i + 56 ≤ f.len.toNat) ∧
      (∀ p ∈ f.loadsAmong is, SegmentScanned f p) ∧
      range' = (f.loadsAmong is).foldl widen range := by
  induction is generalizing range with
  | nil =>
    rw [List.foldlM_nil, pure_eq_ok]
    simp only [ElfFile.loadsAmong, List.map_nil, List.filter_nil, List.not_mem_nil, false_imp_iff,
      implies_true, true_and, List.foldl_nil]
    exact eq_comm
  | cons i is ih =>
    have htail : ∀ j ∈ is, j < f.ehdr.phnum := fun j hj => his j (by simp [hj])
    rw [List.foldlM_cons, bind_eq_ok, loadsAmong_cons]
    constructor
    · rintro ⟨mid, hone, hrest⟩
      obtain ⟨hfit, hseg, rfl⟩ := (scanPhdr_eq_ok ok (his i (by simp))).mp hone
      obtain ⟨hfits, hsegs, rfl⟩ := (ih htail).mp hrest
      refine ⟨List.forall_mem_cons.mpr ⟨hfit, hfits⟩, ?_, by rw [List.foldl_append]⟩
      exact List.forall_mem_append.mpr ⟨hseg, hsegs⟩
    · rintro ⟨hfits, hsegs, rfl⟩
      obtain ⟨hfit, hfits'⟩ := List.forall_mem_cons.mp hfits
      obtain ⟨hseg, hsegs'⟩ := List.forall_mem_append.mp hsegs
      refine ⟨_, (scanPhdr_eq_ok ok (his i (by simp))).mpr ⟨hfit, hseg, rfl⟩, ?_⟩
      exact (ih htail).mpr ⟨hfits', hsegs', by rw [List.foldl_append]⟩

/-- The two components of the range are a running minimum and a running maximum. -/
theorem foldl_widen (ps : List Phdr) (range : Nat × Nat) :
    ps.foldl widen range = ((ps.map Phdr.vaddr).foldl min range.1,
      (ps.map fun p => p.vaddr + p.memsz).foldl max range.2) := by
  induction ps generalizing range with
  | nil => rfl
  | cons p ps ih =>
    rw [List.foldl_cons, ih]
    rfl

theorem scanPhdr_safe {f : ElfFile} (ok : HeaderOk f) {i : Nat} (hi : i < f.ehdr.phnum)
    (range : Nat × Nat) : Safe (scanPhdr f f.ehdr range i) := by
  obtain ⟨heq, hlt⟩ := phdrOff_eq ok hi
  simp only [scanPhdr, heq]
  refine Safe.rejectIf_bind fun hfit => ?_
  rw [wrap64_of_lt (by simp only [PHDR_SIZE]; omega)] at hfit
  simp only [PHDR_SIZE, gt_iff_lt, Nat.not_lt] at hfit
  refine Safe.field_bind (by omega) ?_
  by_cases htype : f.get (f.ehdr.phdrIndex i) 4 = PT_LOAD
  · rw [if_neg (by simpa using htype)]
    refine Safe.field_bind (by omega) ?_
    refine Safe.field_bind (by omega) ?_
    refine Safe.field_bind (by omega) ?_
    refine Safe.field_bind (by omega) ?_
    refine Safe.field_bind (by omega) ?_
    refine Safe.rejectIf_bind fun _ => ?_
    refine Safe.rejectIf_bind fun _ => ?_
    refine Safe.rejectIf_bind fun _ => ?_
    exact Safe.rejectIf_bind fun _ => Safe.ok _
  · rw [if_pos htype]
    exact Safe.ok _

/-! ## The layout -/

/-- The regions behind the program, with exact sums. -/
def AppConfig.layout (config : AppConfig) : Layout :=
  let brk := 0x400000 + config.limit
  let stdoutAt := brk + ceilTo config.stdinSize.toNat 4096
  let stderrAt := stdoutAt + ceilTo config.stdoutMaxSize.toNat 4096
  let ibAt := stderrAt + ceilTo config.stderrMaxSize.toNat 4096
  let obAt := ibAt + ceilTo config.IBSize.toNat 4096
  let imageAt := obAt + ceilTo config.OBSize.toNat 4096
  ⟨brk, ⟨brk, stdoutAt⟩, ⟨stdoutAt, stderrAt⟩, ⟨stderrAt, ibAt⟩, ⟨ibAt, obAt⟩, ⟨obAt, imageAt⟩,
    ⟨imageAt, imageAt + 4096⟩, ⟨imageAt + 4096, imageAt + 8192⟩⟩

theorem allocate_eq_ok {curr size : Nat} (hc : curr < 2 ^ 64) (hs : size < 2 ^ 64) {r : Region} :
    allocate curr size = .ok r ↔ curr + size < 2 ^ 64 ∧ r = ⟨curr, curr + size⟩ := by
  simp only [allocate, rejectIf_bind_eq_ok, pure_eq_ok]
  constructor
  · rintro ⟨hno, rfl⟩
    have hlt : curr + size < 2 ^ 64 := by
      simp only [wrap64] at hno
      omega
    exact ⟨hlt, by rw [wrap64_of_lt hlt]⟩
  · rintro ⟨hlt, rfl⟩
    rw [wrap64_of_lt hlt]
    exact ⟨by omega, rfl⟩

theorem allocateFor_eq_ok {curr size : Nat} (hc : curr < 2 ^ 64) (hs : size < 2 ^ 64)
    {r : Region} : allocateFor curr size = .ok r ↔
      curr + ceilTo size 4096 < 2 ^ 64 ∧ r = ⟨curr, curr + ceilTo size 4096⟩ := by
  simp only [allocateFor, rejectIf_bind_eq_ok]
  by_cases hw : size + PAGE_SIZE - 1 < 2 ^ 64
  · rw [roundUp_eq_ceilTo (by decide) hw]
    have hle : size ≤ ceilTo size PAGE_SIZE := le_ceilTo size (by decide)
    have hlt : ceilTo size PAGE_SIZE < 2 ^ 64 := by
      simp only [ceilTo, PAGE_SIZE] at *
      omega
    rw [allocate_eq_ok hc hlt]
    exact ⟨fun h => h.2, fun h => ⟨by omega, h⟩⟩
  · -- the rounding wraps to nothing, which the next check refuses
    rw [roundUp_eq_zero hs (by omega) (by decide)]
    constructor
    · rintro ⟨hno, -⟩
      simp only [PAGE_SIZE] at hw
      omega
    · rintro ⟨hlt, -⟩
      simp only [ceilTo, PAGE_SIZE] at *
      omega

/-- **The checks after the scan** accept exactly what fits. -/
theorem layOut_eq_ok {b : MemoryBreaks} {config : AppConfig} {lo hi : Nat} (hhi : hi < 2 ^ 64)
    {l : Layout} :
    layOut b config (lo, hi) = .ok l ↔ Fits config b.vaddrBreak lo hi ∧ l = config.layout := by
  have hkernel := b.kernel
  have hlower := b.lower
  have hmhl := config.memoryHardLimit.toNat_lt
  have hstdin := config.stdinSize.toNat_lt
  have hstdout := config.stdoutMaxSize.toNat_lt
  have hstderr := config.stderrMaxSize.toNat_lt
  have hIB := config.IBSize.toNat_lt
  have hOB := config.OBSize.toNat_lt
  simp only [layOut, bind_eq_ok, rejectIf_eq_ok, pure_eq_ok, exists_const]
  simp only [roundDown_eq_floorTo, hkernel]
  constructor
  · rintro ⟨h1, h2, h3, h4, h5, h6, h7, rIn, eIn, rOut, eOut, rErr, eErr, rIB, eIB, rOB, eOB,
      rImg, eImg, rRnd, eRnd, h8, h9, rfl⟩
    have hhi' : roundUp hi PAGE_SIZE = ceilTo hi 4096 := by
      by_cases hw : hi + PAGE_SIZE - 1 < 2 ^ 64
      · exact roundUp_eq_ceilTo (by decide) hw
      · rw [roundUp_eq_zero hhi (by omega) (by decide)] at h2
        omega
    have hlim : roundUp config.memoryHardLimit.toNat PAGE_SIZE = config.limit := by
      by_cases hw : config.memoryHardLimit.toNat + PAGE_SIZE - 1 < 2 ^ 64
      · exact roundUp_eq_ceilTo (by decide) hw
      · rw [roundUp_eq_zero hmhl (by omega) (by decide)] at h3
        omega
    rw [hhi'] at h2 h3 h4
    rw [hlim] at h3 h4 h6 h7 eIn h8 ⊢
    simp only [LOAD_VADDR_START, PAGE_SIZE, KERNEL_BREAK, ne_eq, Decidable.not_not] at *
    have hM : config.limit < 2 ^ 64 := by
      rw [← hlim]
      exact Nat.lt_of_le_of_lt (Nat.div_mul_le_self _ _) (wrap64_lt _)
    have hbrk : wrap64 (0x400000 + config.limit) = 0x400000 + config.limit := by
      apply wrap64_of_lt
      simp only [wrap64] at h6
      omega
    rw [hbrk] at h6 h7 eIn h8 ⊢
    obtain ⟨hl, rfl⟩ := (allocateFor_eq_ok (by omega) hstdin).mp eIn
    obtain ⟨hl, rfl⟩ := (allocateFor_eq_ok hl hstdout).mp eOut
    obtain ⟨hl, rfl⟩ := (allocateFor_eq_ok hl hstderr).mp eErr
    obtain ⟨hl, rfl⟩ := (allocateFor_eq_ok hl hIB).mp eIB
    obtain ⟨hl, rfl⟩ := (allocateFor_eq_ok hl hOB).mp eOB
    obtain ⟨hl, rfl⟩ := (allocate_eq_ok hl (by decide)).mp eImg
    obtain ⟨hl, rfl⟩ := (allocate_eq_ok hl (by decide)).mp eRnd
    simp only at hl h9
    have hneed : wrap64 (ceilTo hi 4096 - floorTo lo 4096 + 4096) =
        ceilTo hi 4096 - floorTo lo 4096 + 4096 := wrap64_of_lt (by omega)
    rw [hneed] at h4
    refine ⟨⟨h5, by omega, by omega, ?_⟩, ?_⟩
    · simp only [AppConfig.regions]
      omega
    · simp only [AppConfig.layout]
  · rintro ⟨⟨hstart, hne, hlimit, hroom⟩, rfl⟩
    simp only [AppConfig.regions] at hroom
    have hhi' : roundUp hi PAGE_SIZE = ceilTo hi 4096 := by
      apply roundUp_eq_ceilTo (by decide)
      have := le_ceilTo (r := 4096) hi (by decide)
      simp only [PAGE_SIZE]
      omega
    have hlim : roundUp config.memoryHardLimit.toNat PAGE_SIZE = config.limit := by
      apply roundUp_eq_ceilTo (by decide)
      have := le_ceilTo (r := 4096) config.memoryHardLimit.toNat (by decide)
      simp only [AppConfig.limit, PAGE_SIZE] at *
      omega
    rw [hhi', hlim]
    simp only [LOAD_VADDR_START, PAGE_SIZE, KERNEL_BREAK, hstart]
    rw [wrap64_of_lt (show 0x400000 + config.limit < 2 ^ 64 by omega),
      wrap64_of_lt (show ceilTo hi 4096 - 0x400000 + 4096 < 2 ^ 64 by omega)]
    refine ⟨by omega, by omega, by omega, by omega, by omega, by omega, by omega,
      _, (allocateFor_eq_ok (by omega) hstdin).mpr ⟨by omega, rfl⟩,
      _, (allocateFor_eq_ok (by simp only; omega) hstdout).mpr ⟨by simp only; omega, rfl⟩,
      _, (allocateFor_eq_ok (by simp only; omega) hstderr).mpr ⟨by simp only; omega, rfl⟩,
      _, (allocateFor_eq_ok (by simp only; omega) hIB).mpr ⟨by simp only; omega, rfl⟩,
      _, (allocateFor_eq_ok (by simp only; omega) hOB).mpr ⟨by simp only; omega, rfl⟩,
      _, (allocate_eq_ok (by simp only; omega) (by decide)).mpr ⟨by simp only; omega, rfl⟩,
      _, (allocate_eq_ok (by simp only; omega) (by decide)).mpr ⟨by simp only; omega, rfl⟩,
      by simp only; omega, by simp only; omega, ?_⟩
    simp only [AppConfig.layout]

/-! ## Copying -/

/-- The stores that load the segments `ps`. -/
def ElfFile.segmentWrites (f : ElfFile) (ps : List Phdr) : List Mem.Write :=
  (ps.filter fun p => decide (p.filesz ≠ 0)).map fun p =>
    ⟨p.vaddr, f.mem.read (f.buf + p.offset) p.filesz⟩

/-- The second loop copies what the first one checked. -/
theorem loadSegment_eq {f : ElfFile} (ok : HeaderOk f) {i : Nat} (hi : i < f.ehdr.phnum)
    (hfit : f.ehdr.phdrIndex i + 56 ≤ f.len.toNat)
    (hseg : ∀ p ∈ f.loadsAmong [i], SegmentOk f p) (ws : List Mem.Write) :
    loadSegment f f.ehdr ws i = .ok (ws ++ f.segmentWrites (f.loadsAmong [i])) := by
  obtain ⟨heq, -⟩ := phdrOff_eq ok hi
  simp only [loadSegment, heq, field_bind_eq_ok]
  refine ⟨by omega, ?_⟩
  by_cases htype : f.get (f.ehdr.phdrIndex i) 4 = PT_LOAD
  · have hloads : f.loadsAmong [i] = [f.phdr (f.ehdr.phdrIndex i)] := by
      simp [ElfFile.loadsAmong, ElfFile.phdr, htype]
    rw [hloads] at hseg ⊢
    have hin := (hseg _ (List.mem_singleton_self _)).inFile
    simp only [htype, ne_eq, not_true_eq_false, if_false, field_bind_eq_ok]
    refine ⟨by omega, by omega, by omega, ?_⟩
    by_cases hzero : f.get (f.ehdr.phdrIndex i + 32) 8 = 0
    · rw [if_pos hzero]
      simp [ElfFile.segmentWrites, ElfFile.phdr, hzero, pure_eq_ok]
    · rw [if_neg hzero]
      have hle : f.get (f.ehdr.phdrIndex i + 8) 8 + f.get (f.ehdr.phdrIndex i + 32) 8 ≤
          f.len.toNat := hin.resolve_left hzero
      refine bind_eq_ok.mpr ⟨_, access_of hle _, ?_⟩
      simp [ElfFile.segmentWrites, ElfFile.phdr, hzero, pure_eq_ok]
  · have hloads : f.loadsAmong [i] = [] := by
      simp [ElfFile.loadsAmong, ElfFile.phdr, htype]
    rw [hloads, if_pos htype]
    simp [ElfFile.segmentWrites, pure_eq_ok]

theorem loadSegments_eq {f : ElfFile} (ok : HeaderOk f) {is : List Nat}
    (his : ∀ i ∈ is, i < f.ehdr.phnum)
    (hfit : ∀ i ∈ is, f.ehdr.phdrIndex i + 56 ≤ f.len.toNat)
    (hseg : ∀ p ∈ f.loadsAmong is, SegmentOk f p) (ws : List Mem.Write) :
    is.foldlM (loadSegment f f.ehdr) ws = .ok (ws ++ f.segmentWrites (f.loadsAmong is)) := by
  induction is generalizing ws with
  | nil => simp [ElfFile.loadsAmong, ElfFile.segmentWrites, pure_eq_ok]
  | cons i is ih =>
    rw [loadsAmong_cons] at hseg ⊢
    obtain ⟨hone, hrest⟩ := List.forall_mem_append.mp hseg
    rw [List.foldlM_cons, bind_eq_ok]
    refine ⟨_, loadSegment_eq ok (his i (by simp)) (hfit i (by simp)) hone ws, ?_⟩
    rw [ih (fun j hj => his j (by simp [hj])) (fun j hj => hfit j (by simp [hj])) hrest]
    simp [ElfFile.segmentWrites]

theorem checkFlags_eq {f : ElfFile} (ok : HeaderOk f) {is : List Nat}
    (his : ∀ i ∈ is, i < f.ehdr.phnum)
    (hfit : ∀ i ∈ is, f.ehdr.phdrIndex i + 56 ≤ f.len.toNat) :
    is.foldlM (checkFlags f f.ehdr) () = .ok () := by
  induction is with
  | nil => rfl
  | cons i is ih =>
    obtain ⟨heq, -⟩ := phdrOff_eq ok (his i (by simp))
    have hle := hfit i (by simp)
    rw [List.foldlM_cons, bind_eq_ok]
    refine ⟨(), ?_, ih (fun j hj => his j (by simp [hj])) fun j hj => hfit j (by simp [hj])⟩
    simp only [checkFlags, heq, field_bind_eq_ok]
    refine ⟨by omega, ?_⟩
    split
    · rfl
    · exact field_bind_eq_ok.mpr ⟨by omega, rfl⟩

/-! ## The whole loader -/

/-- The stores before the stack is built. -/
def ElfFile.dataWrites (f : ElfFile) (config : AppConfig) : List Mem.Write :=
  f.segmentWrites f.loads ++ inputWrites f config config.layout ++
    [⟨config.layout.elfImage.vaddr, f.mem.read (f.buf + 0) (min f.len.toNat PAGE_SIZE)⟩] ++
    randomWrites config.layout

def ElfFile.stack (f : ElfFile) (config : AppConfig) (tscFreq : UInt64) (umem : Mem) : Stack :=
  buildStack (umem.apply (f.dataWrites config)) f.ehdr config.layout
    (duckInfo config config.layout tscFreq)

/-- What an accepted file is loaded to. -/
def ElfFile.loaded (f : ElfFile) (config : AppConfig) (tscFreq : UInt64) (umem : Mem) : Loaded :=
  ⟨mkApp f.ehdr config.layout (duckInfo config config.layout tscFreq)
    (f.stack config tscFreq umem),
    f.dataWrites config ++ (f.stack config tscFreq umem).writes⟩

/-- After the checks nothing can go wrong any more. -/
theorem install_eq {f : ElfFile} (ok : HeaderOk f) (config : AppConfig) (tscFreq : UInt64)
    (umem : Mem) (hfit : ∀ i, i < f.ehdr.phnum → f.ehdr.phdrIndex i + 56 ≤ f.len.toNat)
    (hseg : ∀ p ∈ f.loads, SegmentOk f p) :
    install f config tscFreq umem f.ehdr config.layout = .ok (f.loaded config tscFreq umem) := by
  have his : ∀ i ∈ List.range f.ehdr.phnum, i < f.ehdr.phnum := fun i hi => List.mem_range.mp hi
  have hsegs := loadSegments_eq ok his (fun i hi => hfit i (his i hi)) hseg []
  rw [List.nil_append] at hsegs
  have himage : f.bytes 0 (min f.len.toNat PAGE_SIZE) =
      .ok (f.mem.read (f.buf + 0) (min f.len.toNat PAGE_SIZE)) :=
    access_of (by rw [Nat.zero_add]; exact Nat.min_le_left _ _) _
  refine bind_eq_ok.mpr ⟨_, hsegs, bind_eq_ok.mpr ⟨_, himage, ?_⟩⟩
  exact bind_eq_ok.mpr ⟨(), checkFlags_eq ok his fun i hi => hfit i (his i hi), rfl⟩

theorem foldl_max_lt {vs : List Nat} (hvs : ∀ v ∈ vs, v < 2 ^ 64) {a : Nat} (ha : a < 2 ^ 64) :
    vs.foldl max a < 2 ^ 64 := by
  induction vs generalizing a with
  | nil => exact ha
  | cons v vs ih =>
    rw [List.foldl_cons]
    have hv := hvs v (by simp)
    exact ih (fun w hw => hvs w (by simp [hw])) (by omega)

/-- Each segment ends by the top of the range. -/
theorem le_of_max? {vs : List Nat} {hi v : Nat} (h : vs.max? = some hi) (hv : v ∈ vs) : v ≤ hi :=
  (List.max?_eq_some_iff.mp h).2 v hv

/-- The scan of an accepted file returns the minimum and the maximum of the
    specification; without a `PT_LOAD` header it returns an empty range. -/
theorem scan_range {f : ElfFile} :
    (f.loads = [] ∧ f.loads.foldl widen (2 ^ 64 - 1, 0) = (2 ^ 64 - 1, 0)) ∨
    ∃ lo hi, (f.loads.map Phdr.vaddr).min? = some lo ∧
      (f.loads.map fun p => p.vaddr + p.memsz).max? = some hi ∧
      f.loads.foldl widen (2 ^ 64 - 1, 0) = (lo, hi) := by
  have hva : ∀ p ∈ f.loads, p.vaddr < 2 ^ 64 := by
    intro p hp
    obtain ⟨i, -, rfl⟩ := List.mem_map.mp (List.mem_filter.mp hp).1
    exact Mem.read64_lt f.mem _
  rw [foldl_widen]
  cases hloads : f.loads with
  | nil => exact .inl ⟨rfl, rfl⟩
  | cons p ps =>
    have hp := hva p (by rw [hloads]; simp)
    refine .inr ⟨_, _, List.min?_cons', List.max?_cons', ?_⟩
    simp only [List.map_cons, List.foldl_cons]
    rw [Nat.min_eq_right (by omega), Nat.max_eq_right (Nat.zero_le _)]

/-- A file that passes all checks meets the exact specification. -/
theorem accepts_of_checks {f : ElfFile} {config : AppConfig} {b : MemoryBreaks} {h : Ehdr}
    {range : Nat × Nat} {l : Layout} (hread : readEhdr f = .ok h)
    (hscan : scanPhdrs f h = .ok range) (hlay : layOut b config range = .ok l) :
    Accepts f config b.vaddrBreak ∧ h = f.ehdr ∧ l = config.layout := by
  have hlower := b.lower
  obtain ⟨ok, rfl⟩ := readEhdr_eq_ok.mp hread
  obtain ⟨lo, hi⟩ := range
  obtain ⟨hfits, hsegs, hrange⟩ :=
    (scan_eq_ok ok fun i hi => List.mem_range.mp hi).mp hscan
  have hhi : hi < 2 ^ 64 := by
    have htop : ∀ v ∈ f.loads.map fun p => p.vaddr + p.memsz, v < 2 ^ 64 := by
      intro v hv
      obtain ⟨p, hp, rfl⟩ := List.mem_map.mp hv
      exact (hsegs p hp).top
    have := foldl_max_lt htop (show 0 < 2 ^ 64 by decide)
    have heq := congrArg Prod.snd (hrange.trans (foldl_widen f.loads (2 ^ 64 - 1, 0)))
    simp only at heq
    rwa [← heq] at this
  obtain ⟨hfit, rfl⟩ := (layOut_eq_ok hhi).mp hlay
  rcases scan_range (f := f) with ⟨-, hempty⟩ | ⟨lo', hi', hmin, hmax, heq⟩
  · -- an empty range starts at the top of the address space
    have hpair := hrange.trans hempty
    simp only [Prod.mk.injEq] at hpair
    have hstart := hfit.start
    rw [hpair.1] at hstart
    simp [floorTo] at hstart
  · have hpair := hrange.trans heq
    simp only [Prod.mk.injEq] at hpair
    obtain ⟨rfl, rfl⟩ := hpair
    have htop := hfit.top_lt (by omega)
    refine ⟨⟨ok, fun i hi => hfits i (List.mem_range.mpr hi), ?_, lo, hi, hmin, hmax, hfit⟩, rfl,
      rfl⟩
    intro p hp
    have hle := le_of_max? hmax (List.mem_map.mpr ⟨p, hp, rfl⟩)
    exact (hsegs p hp).ok (by omega)

/-- And a file that meets it passes. -/
theorem Accepts.checks {f : ElfFile} {config : AppConfig} {b : MemoryBreaks}
    (h : Accepts f config b.vaddrBreak) : ∃ range, readEhdr f = .ok f.ehdr ∧
      scanPhdrs f f.ehdr = .ok range ∧ layOut b config range = .ok config.layout := by
  have hlower := b.lower
  have his : ∀ i ∈ List.range f.ehdr.phnum, i < f.ehdr.phnum := fun i hi => List.mem_range.mp hi
  obtain ⟨ok, hfits, hok, lo, hi, hmin, hmax, hfit⟩ := h
  have hhi := hfit.top_lt (by omega)
  refine ⟨(lo, hi), readEhdr_eq_ok.mpr ⟨ok, rfl⟩, ?_, (layOut_eq_ok (by omega)).mpr ⟨hfit, rfl⟩⟩
  refine (scan_eq_ok ok his).mpr ⟨fun i hi => hfits i (his i hi), ?_, ?_⟩
  · intro p hp
    have hle := le_of_max? hmax (List.mem_map.mpr ⟨p, hp, rfl⟩)
    exact (hok p hp).scanned (by omega)
  · rcases scan_range (f := f) with ⟨hnil, -⟩ | ⟨lo', hi', hmin', hmax', heq⟩
    · rw [hnil] at hmin
      cases hmin
    · rw [hmin] at hmin'
      rw [hmax] at hmax'
      cases hmin'
      cases hmax'
      exact heq.symm

section Load

variable {f : ElfFile} {config : AppConfig} {tscFreq : UInt64} {b : MemoryBreaks} {umem : Mem}

theorem loadElf64_eq_ok {r : Loaded} : loadElf64 f config tscFreq b umem = .ok r ↔
    Accepts f config b.vaddrBreak ∧ r = f.loaded config tscFreq umem := by
  simp only [loadElf64, bind_eq_ok]
  constructor
  · rintro ⟨h, hread, range, hscan, l, hlay, hinst⟩
    obtain ⟨hacc, rfl, rfl⟩ := accepts_of_checks hread hscan hlay
    rw [install_eq hacc.header config tscFreq umem hacc.phdrs hacc.segments] at hinst
    cases hinst
    exact ⟨hacc, rfl⟩
  · rintro ⟨hacc, rfl⟩
    obtain ⟨range, hread, hscan, hlay⟩ := hacc.checks
    exact ⟨_, hread, _, hscan, _, hlay,
      install_eq hacc.header config tscFreq umem hacc.phdrs hacc.segments⟩

/-- **`ELF::load`** returns true exactly on the files of the exact specification,
    and then returns what the specification says. -/
theorem load_eq_ok {r : Loaded} : load f config tscFreq b umem = .ok r ↔
    Accepts f config b.vaddrBreak ∧ r = f.loaded config tscFreq umem := by
  simp only [load, rejectIf_bind_eq_ok, field_bind_eq_ok]
  constructor
  · rintro ⟨-, -, hload⟩
    split at hload
    · exact loadElf64_eq_ok.mp hload
    · cases hload
  · rintro ⟨hacc, rfl⟩
    have hlen := hacc.header.len
    have hclass : f.get EI_CLASS 1 = ELFCLASS64 := hacc.header.class64
    rw [if_pos hclass]
    refine ⟨?_, ?_, loadElf64_eq_ok.mpr ⟨hacc, rfl⟩⟩
    · simp only [EHDR32_SIZE]
      omega
    · simp only [EI_CLASS]
      omega

theorem layOut_safe (range : Nat × Nat) : Safe (layOut b config range) := by
  have halloc : ∀ curr size, Safe (allocate curr size) := fun _ _ =>
    Safe.rejectIf_bind fun _ => Safe.ok _
  have hfor : ∀ curr size, Safe (allocateFor curr size) := fun _ _ =>
    Safe.rejectIf_bind fun _ => halloc _ _
  simp only [layOut]
  refine Safe.rejectIf_bind fun _ => Safe.rejectIf_bind fun _ => ?_
  refine Safe.rejectIf_bind fun _ => Safe.rejectIf_bind fun _ => ?_
  refine Safe.rejectIf_bind fun _ => Safe.rejectIf_bind fun _ => ?_
  refine Safe.rejectIf_bind fun _ => ?_
  refine Safe.bind (hfor _ _) fun _ _ => Safe.bind (hfor _ _) fun _ _ => ?_
  refine Safe.bind (hfor _ _) fun _ _ => Safe.bind (hfor _ _) fun _ _ => ?_
  refine Safe.bind (hfor _ _) fun _ _ => Safe.bind (halloc _ _) fun _ _ => ?_
  refine Safe.bind (halloc _ _) fun _ _ => ?_
  exact Safe.rejectIf_bind fun _ => Safe.rejectIf_bind fun _ => Safe.ok _

/-- **No input makes the loader read outside the file.** -/
theorem load_safe : Safe (load f config tscFreq b umem) := by
  refine Safe.rejectIf_bind fun hlen => ?_
  simp only [EHDR32_SIZE, Nat.not_lt] at hlen
  refine Safe.field_bind (by simp only [EI_CLASS]; omega) ?_
  split
  · refine Safe.bind (readEhdr_safe f) fun h hread => ?_
    obtain ⟨ok, rfl⟩ := readEhdr_eq_ok.mp hread
    refine Safe.bind ?_ fun range hscan => ?_
    · exact Safe.foldlM (fun i hi r => scanPhdr_safe ok (List.mem_range.mp hi) r) _
    refine Safe.bind (layOut_safe range) fun l hlay => ?_
    obtain ⟨hacc, -, rfl⟩ := accepts_of_checks hread hscan hlay
    rw [install_eq hacc.header config tscFreq umem hacc.phdrs hacc.segments]
    exact Safe.ok _
  · intro h
    cases h

end Load

/-- **Acceptance equals the exact specification.**  The loader returns true if and
    only if the file, the configuration and the break meet it; otherwise it returns
    false, and no byte of user memory has changed. -/
theorem load_accepts_iff (f : ElfFile) (config : AppConfig) (tscFreq : UInt64) (b : MemoryBreaks)
    (umem : Mem) :
    ((∃ r, load f config tscFreq b umem = .ok r) ↔ Accepts f config b.vaddrBreak) ∧
    ((∃ r, load f config tscFreq b umem = .ok r) ∨
      load f config tscFreq b umem = .error .rejected ∧
        memAfter umem (load f config tscFreq b umem) = umem) := by
  refine ⟨⟨?_, ?_⟩, ?_⟩
  · rintro ⟨r, hr⟩
    exact (load_eq_ok.mp hr).1
  · intro h
    exact ⟨_, load_eq_ok.mpr ⟨h, rfl⟩⟩
  · by_cases hok : ∃ r, load f config tscFreq b umem = .ok r
    · exact .inl hok
    · have hrej := Safe.eq_rejected load_safe hok
      exact .inr ⟨hrej, by rw [hrej]; rfl⟩

end ELF

end JudgePenguin
