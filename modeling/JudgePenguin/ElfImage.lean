/-
  JudgePenguin/ElfImage.lean
  ==========================
  **What a program finds in its memory.**

  The stores of the loader come in three groups: the segments, which may overlap
  each other and then the last one wins; the stores to the special region, each
  behind the one before; and the stack page, which lies between the two.  So no
  store destroys what an earlier group left (`Accepts.programImage`).

  The page behind `OB` holds a copy of the beginning of the file, and `AT_PHDR`
  points into that page by the offset that the header names.  The copy ends after
  4096 bytes, which the checks on the header table do not look at:
  `phdrs_visible_iff` says when the program headers are where `AT_PHDR` points.
-/
import JudgePenguin.ElfInPlace

namespace JudgePenguin

open Words Guarded

namespace ELF

/-! ## Three groups of stores -/

/-- The stores to the special region. -/
def ElfFile.specialWrites (f : ElfFile) (config : AppConfig) : List Mem.Write :=
  inputWrites f config config.layout ++
    [⟨config.layout.elfImage.vaddr, f.mem.read f.buf (min f.len.toNat PAGE_SIZE)⟩] ++
    randomWrites config.layout

theorem ElfFile.dataWrites_eq (f : ElfFile) (config : AppConfig) :
    f.dataWrites config = f.segmentWrites f.loads ++ f.specialWrites config := by
  simp only [ElfFile.dataWrites, ElfFile.specialWrites, Nat.add_zero, List.append_assoc]

theorem ElfFile.segmentWrites_append (f : ElfFile) (ps qs : List Phdr) :
    f.segmentWrites (ps ++ qs) = f.segmentWrites ps ++ f.segmentWrites qs := by
  simp only [ElfFile.segmentWrites, List.filter_append, List.map_append]

theorem ElfFile.segmentWrites_cons (f : ElfFile) {p : Phdr} (hp : p.filesz ≠ 0) (ps : List Phdr) :
    f.segmentWrites (p :: ps) =
      ⟨p.vaddr, f.mem.read (f.buf + p.offset) p.filesz⟩ :: f.segmentWrites ps := by
  simp [ElfFile.segmentWrites, hp]

/-- A segment is copied to the addresses of its file bytes. -/
theorem segment_touched {f : ElfFile} {ps : List Phdr} {x : Nat}
    (h : Mem.Touched (f.segmentWrites ps) x) :
    ∃ p ∈ ps, p.vaddr ≤ x ∧ x < p.vaddr + p.filesz := by
  obtain ⟨w, hw, h1, h2⟩ := h
  obtain ⟨p, hp, rfl⟩ := List.mem_map.mp hw
  rw [Mem.length_read] at h2
  exact ⟨p, (List.mem_filter.mp hp).1, h1, h2⟩

/-- The stores to the special region go upwards. -/
theorem specialWrites_pairwise (f : ElfFile) (config : AppConfig) :
    (f.specialWrites config).Pairwise fun w v => w.addr + w.bytes.length ≤ v.addr := by
  have g1 := le_ceilTo (r := 4096) config.stdinSize.toNat (by decide)
  have g4 := le_ceilTo (r := 4096) config.IBSize.toNat (by decide)
  have g5 := le_ceilTo (r := 4096) config.OBSize.toNat (by decide)
  have hpage : min f.len.toNat PAGE_SIZE ≤ 4096 := Nat.min_le_right _ _
  cases hclear : config.OBNeedClear with
  | true =>
    simp only [ElfFile.specialWrites, inputWrites, hclear, if_true, randomWrites, List.append_nil,
      List.cons_append, List.nil_append, List.pairwise_cons, List.forall_mem_cons, Mem.length_read,
      Mem.length_leBytes, AppConfig.layout, List.not_mem_nil, false_imp_iff, implies_true, and_true,
      List.Pairwise.nil]
    omega
  | false =>
    simp only [ElfFile.specialWrites, inputWrites, hclear, Bool.false_eq_true, if_false,
      randomWrites, List.cons_append, List.nil_append, List.pairwise_cons, List.forall_mem_cons,
      Mem.length_read, Mem.length_leBytes, AppConfig.layout, List.not_mem_nil, false_imp_iff,
      implies_true, and_true, List.Pairwise.nil]
    omega

/-- They start behind the program's memory. -/
theorem specialWrites_above (f : ElfFile) (config : AppConfig) :
    ∀ w ∈ f.specialWrites config, config.layout.loadVaddrBreak ≤ w.addr := by
  have hstdin : (⟨config.layout.stdin.vaddr, f.mem.read config.stdinPtr config.stdinSize.toNat⟩ :
      Mem.Write).addr = config.layout.loadVaddrBreak := rfl
  have hpairs := List.pairwise_cons.mp (specialWrites_pairwise f config)
  intro w hw
  rcases List.mem_cons.mp hw with rfl | hlater
  · exact Nat.le_of_eq hstdin.symm
  · have hle := hpairs.1 w hlater
    omega

/-! ## The image -/

/-- **The memory of a loaded program.**  `f.loads` are the `PT_LOAD` headers in
    table order; where the file bytes of segments overlap, the last one counts. -/
structure ProgramImage (f : ElfFile) (config : AppConfig) (l : Layout) (m : Mem) : Prop where
  segments : ∀ (i : Nat) (p : Phdr), f.loads[i]? = some p → ∀ k, k < p.filesz →
    (∀ (j : Nat) (q : Phdr), i < j → f.loads[j]? = some q →
      ¬ (q.vaddr ≤ p.vaddr + k ∧ p.vaddr + k < q.vaddr + q.filesz)) →
    m (p.vaddr + k) = f.mem (f.buf + p.offset + k)
  stdin : m.read l.stdin.vaddr config.stdinSize.toNat =
    f.mem.read config.stdinPtr config.stdinSize.toNat
  IB : m.read l.IB.vaddr config.IBSize.toNat = f.mem.read config.IBPtr config.IBSize.toNat
  OB : config.OBNeedClear = false →
    m.read l.OB.vaddr config.OBSize.toNat = f.mem.read config.OBPtr config.OBSize.toNat
  elfImage : m.read l.elfImage.vaddr (min f.len.toNat PAGE_SIZE) =
    f.mem.read f.buf (min f.len.toNat PAGE_SIZE)

section Accepted

variable {f : ElfFile} {config : AppConfig} {b : MemoryBreaks}

theorem Accepts.stack_touched (h : Accepts f config b.vaddrBreak) (tscFreq : UInt64) (umem : Mem)
    {x : Nat} (hx : Mem.Touched (f.stack config tscFreq umem).writes x) :
    config.layout.loadVaddrBreak - 4096 ≤ x ∧ x < config.layout.loadVaddrBreak := by
  obtain ⟨hpos, -⟩ := h.layout_top
  obtain ⟨w, hw, h1, h2⟩ := hx
  obtain ⟨hlow, hhigh⟩ := buildStack_bounds _ f.ehdr (duckInfo config config.layout tscFreq)
    (dvd_loadVaddrBreak config) (Nat.le_trans (by decide) hpos) w hw
  exact ⟨by omega, by omega⟩

/-- A store to the special region is still there after the stack was built. -/
theorem Accepts.special_read (h : Accepts f config b.vaddrBreak) (tscFreq : UInt64) (umem : Mem)
    {w : Mem.Write} (hw : w ∈ f.specialWrites config) :
    (umem.apply (f.loaded config tscFreq umem).writes).read w.addr w.bytes.length = w.bytes := by
  have hspecial := Mem.read_apply_of_mem (umem.apply (f.segmentWrites f.loads)) hw
    ((specialWrites_pairwise f config).imp .inl)
  simp only [ElfFile.loaded, ElfFile.dataWrites_eq, Mem.apply_append]
  refine Eq.trans (Mem.read_congr fun i hi => ?_) hspecial
  apply Mem.apply_untouched
  intro hx
  have hlt := (h.stack_touched tscFreq umem hx).2
  have hle := specialWrites_above f config w hw
  omega

/-- A byte of a segment that no later segment covers. -/
theorem Accepts.segment_byte (h : Accepts f config b.vaddrBreak) (tscFreq : UInt64) (umem : Mem)
    {before after : List Phdr} {p : Phdr} (hloads : f.loads = before ++ p :: after) {k : Nat}
    (hk : k < p.filesz)
    (hlast : ∀ q ∈ after, ¬ (q.vaddr ≤ p.vaddr + k ∧ p.vaddr + k < q.vaddr + q.filesz)) :
    (umem.apply (f.loaded config tscFreq umem).writes) (p.vaddr + k) =
      f.mem (f.buf + p.offset + k) := by
  have hp : p ∈ f.loads := by simp [hloads]
  have hbounds := (h.segment_bounds p hp).2
  have hmemsz := (h.segments p hp).memsz
  have hsplit : (f.loaded config tscFreq umem).writes = f.segmentWrites before ++
      ⟨p.vaddr, f.mem.read (f.buf + p.offset) p.filesz⟩ :: (f.segmentWrites after ++
        f.specialWrites config ++ (f.stack config tscFreq umem).writes) := by
    simp only [ElfFile.loaded, ElfFile.dataWrites_eq, hloads, ElfFile.segmentWrites_append,
      f.segmentWrites_cons (Nat.ne_of_gt (Nat.zero_lt_of_lt hk)), List.append_assoc,
      List.cons_append]
  have hlater : ¬ Mem.Touched (f.segmentWrites after ++ f.specialWrites config ++
      (f.stack config tscFreq umem).writes) (p.vaddr + k) := by
    intro hx
    rcases (Mem.touched_append _ _ _).mp hx with hdata | hstack
    · rcases (Mem.touched_append _ _ _).mp hdata with hseg | hspecial
      · obtain ⟨q, hq, hcover⟩ := segment_touched hseg
        exact hlast q hq hcover
      · obtain ⟨w, hw, hle, -⟩ := hspecial
        have habove := specialWrites_above f config w hw
        omega
    · have hpage := (h.stack_touched tscFreq umem hstack).1
      omega
  have hin : p.vaddr + k < p.vaddr + (f.mem.read (f.buf + p.offset) p.filesz).length := by
    rw [Mem.length_read]
    exact Nat.add_lt_add_left hk _
  rw [hsplit, Mem.apply_last umem _ (Nat.le_add_right _ _) hin hlater, Nat.add_sub_cancel_left]
  exact Mem.getD_read f.mem _ hk 0

/-- Everything that was copied is there. -/
theorem Accepts.programImage (h : Accepts f config b.vaddrBreak) (tscFreq : UInt64) (umem : Mem) :
    ProgramImage f config config.layout
      (umem.apply (f.loaded config tscFreq umem).writes) := by
  have hread := fun w hw => h.special_read tscFreq umem (w := w) hw
  constructor
  · intro i p hi k hk hlast
    obtain ⟨hlt, hget⟩ := List.getElem?_eq_some_iff.mp hi
    have hloads : f.loads = f.loads.take i ++ p :: f.loads.drop (i + 1) := by
      rw [← hget, List.getElem_cons_drop, List.take_append_drop]
    refine h.segment_byte tscFreq umem hloads hk ?_
    intro q hq
    obtain ⟨j, hj⟩ := List.getElem?_of_mem hq
    rw [List.getElem?_drop] at hj
    exact hlast (i + 1 + j) q (by omega) hj
  · have hstdin := hread ⟨config.layout.stdin.vaddr,
      f.mem.read config.stdinPtr config.stdinSize.toNat⟩ (by simp [ElfFile.specialWrites, inputWrites])
    rwa [Mem.length_read] at hstdin
  · have hIB := hread ⟨config.layout.IB.vaddr, f.mem.read config.IBPtr config.IBSize.toNat⟩
      (by simp [ElfFile.specialWrites, inputWrites])
    rwa [Mem.length_read] at hIB
  · intro hclear
    have hOB := hread ⟨config.layout.OB.vaddr, f.mem.read config.OBPtr config.OBSize.toNat⟩
      (by simp [ElfFile.specialWrites, inputWrites, hclear])
    rwa [Mem.length_read] at hOB
  · have himage := hread ⟨config.layout.elfImage.vaddr, f.mem.read f.buf (min f.len.toNat PAGE_SIZE)⟩
      (by simp [ElfFile.specialWrites])
    rwa [Mem.length_read] at himage

/-- What is left of the result of the loader in place when the sources are not
    looked at: where the special region ends. -/
theorem loadInPlace_top {tscFreq : UInt64} {r : Placed}
    (hload : loadInPlace f config tscFreq b = .ok r) :
    r.app.specialRegionBreakAddr = config.layout.randomBytes.brk := by
  simp only [loadInPlace, rejectIf_bind_eq_ok, field_bind_eq_ok] at hload
  obtain ⟨-, -, hload⟩ := hload
  split at hload
  · simp only [loadElf64InPlace, installInPlace, bind_eq_ok] at hload
    obtain ⟨h, hread, range, hscan, l, hlay, m, -, image, -, phoff, -, phentsize, -, phnum, -, u, -,
      hr⟩ := hload
    obtain ⟨-, -, rfl⟩ := accepts_of_checks hread hscan hlay
    cases hr
    rfl
  · cases hload

end Accepted

/-- **The initial program image.**  Whatever the loader accepts, on one memory with
    the sources outside the program's addresses: every byte that was copied is where
    it was copied to, and only segments can overwrite segments. -/
theorem load_image (f : ElfFile) (config : AppConfig) (tscFreq : UInt64) (b : MemoryBreaks)
    (r : Placed) (hload : loadInPlace f config tscFreq b = .ok r)
    (hsrc : SourcesOutside f config r.app.specialRegionBreakAddr) :
    ∃ range l, scanPhdrs f f.ehdr = .ok range ∧ layOut b config range = .ok l ∧
      r.app.duckinfoOrig = duckInfo config l tscFreq ∧ ProgramImage f config l r.mem := by
  rw [loadInPlace_top hload] at hsrc
  obtain ⟨loaded, hsplit, rfl⟩ := (loadInPlace_eq_ok hsrc).mp hload
  obtain ⟨hacc, rfl⟩ := load_eq_ok.mp hsplit
  obtain ⟨range, -, hscan, hlay⟩ := hacc.checks
  exact ⟨range, config.layout, hscan, hlay, rfl, hacc.programImage tscFreq f.mem⟩

/-- A program of two segments that overlap, with four bytes for each of `stdin`, `IB`
    and `OB` behind it. -/
def splitBytes : List UInt8 :=
  sampleBytes.take 56 ++ Mem.leBytes 2 2 ++ List.replicate 6 0 ++
    Mem.leBytes 4 1 ++ Mem.leBytes 4 5 ++ Mem.leBytes 8 0 ++ Mem.leBytes 8 0x400000 ++
    Mem.leBytes 8 0 ++ Mem.leBytes 8 176 ++ Mem.leBytes 8 176 ++ Mem.leBytes 8 4096 ++
    Mem.leBytes 4 1 ++ Mem.leBytes 4 6 ++ Mem.leBytes 8 64 ++ Mem.leBytes 8 0x400080 ++
    Mem.leBytes 8 0 ++ Mem.leBytes 8 56 ++ Mem.leBytes 8 256 ++ Mem.leBytes 8 4096 ++
    [1, 2, 3, 4, 5, 6, 7, 8, 9, 10, 11, 12]

def splitFile : ElfFile := ⟨fun i => splitBytes.getD i 0, 0, 176⟩

def splitConfig : AppConfig := ⟨8192, 176, 4, 16, 16, 180, 4, 184, 4, false⟩

theorem splitFile_loads : splitFile.loads =
    [⟨1, 0, 0x400000, 176, 176, 4096⟩, ⟨1, 64, 0x400080, 56, 256, 4096⟩] := by rfl

theorem splitFile_accepted : Accepts splitFile splitConfig MemoryBreaks.init.vaddrBreak := by
  have hnum : splitFile.ehdr.phnum = 2 := by decide
  refine ⟨⟨by decide, by decide, by decide, by decide, by decide, by decide, by decide, by decide,
    .inl (by decide), by decide, by decide, by decide, by decide, by decide, by decide⟩, ?_, ?_,
    0x400000, 0x400080 + 256, ?_, ?_, ?_⟩
  · intro i hi
    rw [hnum] at hi
    obtain rfl | rfl : i = 0 ∨ i = 1 := by omega
    · decide
    · decide
  · rw [splitFile_loads]
    simp only [List.mem_cons, List.not_mem_nil, or_false, forall_eq_or_imp, forall_eq]
    exact ⟨⟨.inl rfl, by decide, .inr (by decide)⟩, ⟨.inl rfl, by decide, .inr (by decide)⟩⟩
  · rw [splitFile_loads]
    rfl
  · rw [splitFile_loads]
    rfl
  · exact ⟨by decide, by decide, by decide, by decide⟩

/-- Its sources are at the front of the memory. -/
theorem split_sourcesOutside (top : Nat) : SourcesOutside splitFile splitConfig top := by
  have hlow : ∀ a i, a < 4096 → i < 4096 → ¬ Window top (a + i) := by
    rintro a i ha hi ⟨hge, -⟩
    omega
  refine ⟨fun i hi => hlow 0 i (by decide) ?_, fun i hi => hlow 176 i (by decide) ?_,
    fun i hi => hlow 180 i (by decide) ?_, fun _ i hi => hlow 184 i (by decide) ?_⟩
  · exact Nat.lt_of_lt_of_le hi (by decide)
  · exact Nat.lt_of_lt_of_le hi (by decide)
  · exact Nat.lt_of_lt_of_le hi (by decide)
  · exact Nat.lt_of_lt_of_le hi (by decide)

/-- At `0x400080` both segments have a byte, and that of the second is there. -/
theorem load_image_sample : ∃ r l, loadInPlace splitFile splitConfig 0 MemoryBreaks.init = .ok r ∧
    ProgramImage splitFile splitConfig l r.mem ∧ r.mem 0x40007f = 0 ∧ r.mem 0x400080 = 1 ∧
    splitFile.mem 128 = 64 ∧ r.mem.read l.stdin.vaddr 4 = [1, 2, 3, 4] ∧
    r.mem.read l.IB.vaddr 4 = [5, 6, 7, 8] ∧ r.mem.read l.OB.vaddr 4 = [9, 10, 11, 12] := by
  have hload : loadInPlace splitFile splitConfig 0 MemoryBreaks.init =
      .ok (splitFile.placed splitConfig 0) :=
    (loadInPlace_eq_ok (split_sourcesOutside _)).mpr
      ⟨_, load_eq_ok.mpr ⟨splitFile_accepted, rfl⟩, rfl⟩
  obtain ⟨range, l, -, -, -, himage⟩ :=
    load_image splitFile splitConfig 0 MemoryBreaks.init _ hload (split_sourcesOutside _)
  refine ⟨_, l, hload, himage, ?_, ?_, by decide, ?_, ?_, ?_⟩
  · refine (himage.segments 0 ⟨1, 0, 0x400000, 176, 176, 4096⟩ (by rw [splitFile_loads]; rfl) 127
      (by decide) ?_).trans (by decide)
    intro j q hj hq
    rw [splitFile_loads] at hq
    obtain rfl : j = 1 := by
      have hlt := (List.getElem?_eq_some_iff.mp hq).1
      simp only [List.length_cons, List.length_nil] at hlt
      omega
    cases hq
    decide
  · refine (himage.segments 1 ⟨1, 64, 0x400080, 56, 256, 4096⟩ (by rw [splitFile_loads]; rfl) 0
      (by decide) ?_).trans (by decide)
    intro j q hj hq
    rw [splitFile_loads] at hq
    have hlt := (List.getElem?_eq_some_iff.mp hq).1
    simp only [List.length_cons, List.length_nil] at hlt
    omega
  · exact himage.stdin.trans (by decide)
  · exact himage.IB.trans (by decide)
  · exact (himage.OB rfl).trans (by decide)

/-! ## The program headers -/

/-- The bytes at `AT_PHDR` are the header table of the file: each lies in the page
    of the ELF image, and is the byte of the file at that place of the table. -/
def PhdrsVisible (f : ElfFile) (config : AppConfig) (umem : Mem) (r : Loaded) : Prop :=
  ∃ c, ProcessStack.read (umem.apply r.writes) 16 r.app.rsp = some c ∧
    ∀ k, k < f.ehdr.phnum * f.ehdr.phentsize →
      config.layout.elfImage.vaddr ≤ c.getauxval AT_PHDR + k ∧
      c.getauxval AT_PHDR + k < config.layout.elfImage.brk ∧
      f.ehdr.phoff + k < f.len.toNat ∧
      (umem.apply r.writes) (c.getauxval AT_PHDR + k) = f.mem (f.buf + (f.ehdr.phoff + k))

/-- The whole table lies in the part of the file that is copied. -/
def TableCopied (f : ElfFile) : Prop :=
  f.ehdr.phnum * f.ehdr.phentsize = 0 ∨
    f.ehdr.phoff + f.ehdr.phnum * f.ehdr.phentsize ≤ min f.len.toNat PAGE_SIZE

theorem Accepts.phdrsVisible_iff {f : ElfFile} {config : AppConfig} {b : MemoryBreaks}
    (h : Accepts f config b.vaddrBreak) (tscFreq : UInt64) (umem : Mem) :
    PhdrsVisible f config umem (f.loaded config tscFreq umem) ↔ TableCopied f := by
  have hlower := b.lower
  have hlen := f.len.toNat_lt
  have hphoff := h.header.phoff
  obtain ⟨-, himage, hpage, hrandom, htop, hbrk⟩ := h.layout_top
  have hread := h.loaded_stack tscFreq umem (Nat.le_refl 16)
  have hphdr : (initialContents f.ehdr config.layout
      (f.loaded config tscFreq umem).app.duckinfoPtr).getauxval AT_PHDR =
      config.layout.elfImage.vaddr + f.ehdr.phoff := by
    have hwrap : config.layout.elfImage.vaddr + f.ehdr.phoff < 2 ^ 64 := by omega
    exact wrap64_of_lt hwrap
  have hcopy := (h.programImage tscFreq umem).elfImage
  constructor
  · rintro ⟨c, hc, hall⟩
    have hsame := hread.symm.trans hc
    cases hsame
    rw [hphdr] at hall
    by_cases hzero : f.ehdr.phnum * f.ehdr.phentsize = 0
    · exact .inl hzero
    · -- the last byte of the table bounds it
      obtain ⟨-, hpageEnd, hfileEnd, -⟩ := hall (f.ehdr.phnum * f.ehdr.phentsize - 1) (by omega)
      refine .inr (Nat.le_min.mpr ⟨by omega, ?_⟩)
      simp only [PAGE_SIZE]
      omega
  · intro htable
    refine ⟨_, hread, fun k hk => ?_⟩
    have hin := htable.resolve_left (Nat.ne_of_gt (Nat.zero_lt_of_lt hk))
    have hk' : f.ehdr.phoff + k < min f.len.toNat PAGE_SIZE := by omega
    have hbyte := congrArg (·[f.ehdr.phoff + k]?) hcopy
    simp only [Mem.getElem?_read _ _ hk', Option.some.injEq] at hbyte
    have hlt := Nat.lt_min.mp hk'
    simp only [PAGE_SIZE] at hlt
    rw [hphdr, Nat.add_assoc]
    exact ⟨by omega, by omega, hlt.1, hbyte⟩

/-- **`AT_PHDR`.**  The program headers are where it points exactly if the table
    ends in the first page of the file; the checks accept tables anywhere. -/
theorem phdrs_visible_iff (f : ElfFile) (config : AppConfig) (tscFreq : UInt64) (b : MemoryBreaks)
    (umem : Mem) (r : Loaded) (hload : load f config tscFreq b umem = .ok r) :
    PhdrsVisible f config umem r ↔ TableCopied f := by
  obtain ⟨hacc, rfl⟩ := load_eq_ok.mp hload
  exact hacc.phdrsVisible_iff tscFreq umem

theorem phdrs_visible_sample :
    PhdrsVisible sampleFile sampleConfig (fun _ => 0)
      (sampleFile.loaded sampleConfig 0 fun _ => 0) :=
  (phdrs_visible_iff sampleFile sampleConfig 0 MemoryBreaks.init _ _ sample_load).mpr
    (.inr (by decide))

/-! ## A table behind the first page -/

/-- The program of `sampleFile` with its header table at 4096. -/
def farBytes (i : Nat) : UInt8 :=
  if i = 32 then 0 else if i = 33 then 16
  else if i < 64 then sampleBytes.getD i 0
  else if 4096 ≤ i then sampleBytes.getD (i - 4032) 0 else 0

def farFile : ElfFile := ⟨farBytes, 0, 4152⟩

theorem farFile_loads : farFile.loads = [⟨1, 0, 0x400000, 120, 120, 4096⟩] := by rfl

theorem farFile_accepted : Accepts farFile sampleConfig MemoryBreaks.init.vaddrBreak := by
  have hnum : farFile.ehdr.phnum = 1 := by decide
  refine ⟨⟨by decide, by decide, by decide, by decide, by decide, by decide, by decide, by decide,
    .inl (by decide), by decide, by decide, by decide, by decide, by decide, by decide⟩, ?_, ?_,
    0x400000, 0x400000 + 120, ?_, ?_, ?_⟩
  · intro i hi
    rw [hnum] at hi
    obtain rfl : i = 0 := by omega
    decide
  · rw [farFile_loads]
    intro p hp
    rcases List.mem_singleton.mp hp with rfl
    exact ⟨.inl rfl, by decide, .inr (by decide)⟩
  · rw [farFile_loads]
    rfl
  · rw [farFile_loads]
    rfl
  · exact ⟨by decide, by decide, by decide, by decide⟩

/-- It is loaded, and `AT_PHDR` points behind the page of the image. -/
theorem far_table_invisible :
    load farFile sampleConfig 0 MemoryBreaks.init (fun _ => 0) =
        .ok (farFile.loaded sampleConfig 0 fun _ => 0) ∧
      ¬ PhdrsVisible farFile sampleConfig (fun _ => 0)
        (farFile.loaded sampleConfig 0 fun _ => 0) := by
  refine ⟨load_eq_ok.mpr ⟨farFile_accepted, rfl⟩, fun hvisible => ?_⟩
  have htable := (farFile_accepted.phdrsVisible_iff 0 _).mp hvisible
  exact absurd htable (by unfold TableCopied; decide)

end ELF

end JudgePenguin
