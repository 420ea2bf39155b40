/-
  JudgePenguin/ElfFootprint.lean
  ==============================
  **What the loader reads and what it writes.**

  The loader looks at the bytes of the file and of the three inputs and at nothing
  else (`SameSources.load`, `Accepts.loaded_umem`).  In user memory it writes the
  file bytes of the segments, the words of the stack, the inputs, the copy of the
  file and the two random words, each in full, and no other byte
  (`Accepts.touched_iff`).  So the memory of a segment behind its file bytes, the
  heap, and an `OB` that is to be clear are what they were before
  (`Accepts.not_stores`).
-/
import JudgePenguin.ElfImage

namespace JudgePenguin

open Words Guarded

namespace ELF

/-! ## What is read -/

section Reads

variable {f : ElfFile} {config : AppConfig} {m : Mem} {b : MemoryBreaks}

theorem SameSources.readEhdr (h : SameSources f config m) :
    readEhdr (f.within m) = ELF.readEhdr f := by
  have hlen : (f.within m).len = f.len := rfl
  simp only [ELF.readEhdr, ElfFile.expect, h.field, hlen]

theorem SameSources.scanPhdrs (h : SameSources f config m) (e : Ehdr) :
    scanPhdrs (f.within m) e = ELF.scanPhdrs f e := by
  have hlen : (f.within m).len = f.len := rfl
  have hstep : scanPhdr (f.within m) e = scanPhdr f e := by
    funext range i
    simp only [scanPhdr, h.field, hlen]
  rw [ELF.scanPhdrs, ELF.scanPhdrs, hstep]

theorem SameSources.loadSegments (h : SameSources f config m) (e : Ehdr) :
    loadSegments (f.within m) e = ELF.loadSegments f e := by
  have hstep : ELF.loadSegment (f.within m) e = ELF.loadSegment f e := by
    funext ws i
    exact h.loadSegment e ws i
  rw [ELF.loadSegments, ELF.loadSegments, hstep]

theorem SameSources.inputWrites (h : SameSources f config m) (l : Layout) :
    inputWrites (f.within m) config l = ELF.inputWrites f config l := by
  have hstdin : m.read config.stdinPtr config.stdinSize.toNat =
      f.mem.read config.stdinPtr config.stdinSize.toNat := Mem.read_congr h.stdin
  have hIB : m.read config.IBPtr config.IBSize.toNat =
      f.mem.read config.IBPtr config.IBSize.toNat := Mem.read_congr h.IB
  have hmem : (f.within m).mem = m := rfl
  rw [ELF.inputWrites, ELF.inputWrites, hmem, hstdin, hIB]
  cases hclear : config.OBNeedClear with
  | true => rfl
  | false =>
    have hOB : m.read config.OBPtr config.OBSize.toNat =
        f.mem.read config.OBPtr config.OBSize.toNat := Mem.read_congr (h.OB hclear)
    rw [hOB]

/-- **The loader reads its sources only.** -/
theorem SameSources.load (h : SameSources f config m) (tscFreq : UInt64) (b : MemoryBreaks)
    (umem : Mem) : load (f.within m) config tscFreq b umem = ELF.load f config tscFreq b umem := by
  have hlen : (f.within m).len = f.len := rfl
  simp only [ELF.load, loadElf64, install, h.field, h.bytes, h.readEhdr, h.scanPhdrs,
    h.loadSegments, h.inputWrites, h.checkFlags, hlen]

/-- The result does not depend on the user memory, since the realignment that would
    read it has nothing to do. -/
theorem Accepts.loaded_umem (h : Accepts f config b.vaddrBreak) (tscFreq : UInt64)
    (umem umem' : Mem) : f.loaded config tscFreq umem = f.loaded config tscFreq umem' := by
  obtain ⟨hpos, -⟩ := h.layout_top
  simp only [ElfFile.loaded, ElfFile.stack,
    buildStack_eq _ f.ehdr (duckInfo config config.layout tscFreq) (dvd_loadVaddrBreak config)
      (Nat.le_trans (by decide) hpos)]

end Reads

/-! ## What is written -/

/-- The bytes that are written: file bytes of a segment, the stack, and what is copied
    to the special region. -/
def ElfFile.Stores (f : ElfFile) (config : AppConfig) (x : Nat) : Prop :=
  let l := config.layout
  (∃ p ∈ f.loads, p.vaddr ≤ x ∧ x < p.vaddr + p.filesz) ∨
    (l.loadVaddrBreak - 384 ≤ x ∧ x < l.loadVaddrBreak) ∨
    (l.stdin.vaddr ≤ x ∧ x < l.stdin.vaddr + config.stdinSize.toNat) ∨
    (l.IB.vaddr ≤ x ∧ x < l.IB.vaddr + config.IBSize.toNat) ∨
    (config.OBNeedClear = false ∧ l.OB.vaddr ≤ x ∧ x < l.OB.vaddr + config.OBSize.toNat) ∨
    (l.elfImage.vaddr ≤ x ∧ x < l.elfImage.vaddr + min f.len.toNat 4096) ∨
    (l.randomBytes.vaddr ≤ x ∧ x < l.randomBytes.vaddr + 16)

/-- The pushes fill the words below `rsp`. -/
theorem pushAll_touched (vs : List Nat) {rsp x : Nat} (h : vs.length * 8 ≤ rsp) :
    Mem.Touched (pushAll rsp vs).1 x ↔ rsp - vs.length * 8 ≤ x ∧ x < rsp := by
  induction vs generalizing rsp with
  | nil =>
    refine iff_of_false (Mem.not_touched_nil x) ?_
    rw [List.length_nil]
    omega
  | cons v vs ih =>
    rw [List.length_cons] at h ⊢
    have hroom : vs.length * 8 ≤ rsp - 8 := by omega
    rw [pushAll, Mem.touched_cons, ih hroom, Mem.length_leBytes]
    dsimp only
    omega

/-- A segment is copied to the addresses of its file bytes, all of them. -/
theorem touched_segmentWrites (f : ElfFile) (ps : List Phdr) (x : Nat) :
    Mem.Touched (f.segmentWrites ps) x ↔ ∃ p ∈ ps, p.vaddr ≤ x ∧ x < p.vaddr + p.filesz := by
  refine ⟨segment_touched, ?_⟩
  rintro ⟨p, hp, hlow, hhigh⟩
  have hsize : p.filesz ≠ 0 := by omega
  refine ⟨⟨p.vaddr, f.mem.read (f.buf + p.offset) p.filesz⟩, ?_, hlow, ?_⟩
  · exact List.mem_map.mpr ⟨p, List.mem_filter.mpr ⟨hp, decide_eq_true hsize⟩, rfl⟩
  · rw [Mem.length_read]
    exact hhigh

theorem touched_specialWrites (f : ElfFile) (config : AppConfig) (x : Nat) :
    Mem.Touched (f.specialWrites config) x ↔
      (config.layout.stdin.vaddr ≤ x ∧ x < config.layout.stdin.vaddr + config.stdinSize.toNat) ∨
      (config.layout.IB.vaddr ≤ x ∧ x < config.layout.IB.vaddr + config.IBSize.toNat) ∨
      (config.OBNeedClear = false ∧ config.layout.OB.vaddr ≤ x ∧
        x < config.layout.OB.vaddr + config.OBSize.toNat) ∨
      (config.layout.elfImage.vaddr ≤ x ∧
        x < config.layout.elfImage.vaddr + min f.len.toNat 4096) ∨
      (config.layout.randomBytes.vaddr ≤ x ∧ x < config.layout.randomBytes.vaddr + 16) := by
  cases hclear : config.OBNeedClear with
  | true =>
    simp only [ElfFile.specialWrites, inputWrites, hclear, if_true, randomWrites,
      Mem.touched_append, Mem.touched_cons, Mem.not_touched_nil, Mem.length_read,
      Mem.length_leBytes, or_false, PAGE_SIZE, Bool.true_eq_false, false_and, false_or]
    omega
  | false =>
    simp only [ElfFile.specialWrites, inputWrites, hclear, Bool.false_eq_true, if_false,
      randomWrites, Mem.touched_append, Mem.touched_cons, Mem.not_touched_nil, Mem.length_read,
      Mem.length_leBytes, or_false, PAGE_SIZE, true_and]
    omega

section Writes

variable {f : ElfFile} {config : AppConfig} {b : MemoryBreaks}

/-- **The bytes that the loader writes.** -/
theorem Accepts.touched_iff (h : Accepts f config b.vaddrBreak) (tscFreq : UInt64) (umem : Mem)
    (x : Nat) : Mem.Touched (f.loaded config tscFreq umem).writes x ↔ f.Stores config x := by
  obtain ⟨hpos, -⟩ := h.layout_top
  have hroom : (pushedWords f.ehdr config.layout (config.layout.loadVaddrBreak - 112)).length * 8 ≤
      config.layout.loadVaddrBreak - 112 := by
    rw [length_pushedWords]
    omega
  have hstack : Mem.Touched (f.stack config tscFreq umem).writes x ↔
      config.layout.loadVaddrBreak - 384 ≤ x ∧ x < config.layout.loadVaddrBreak := by
    simp only [ElfFile.stack, buildStack_eq _ f.ehdr (duckInfo config config.layout tscFreq)
      (dvd_loadVaddrBreak config) (Nat.le_trans (by decide) hpos), Mem.touched_cons,
      pushAll_touched _ hroom, length_pushedWords, length_duckInfo_bytes, DUCKINFO_SIZE]
    omega
  have hsplit : (f.loaded config tscFreq umem).writes =
      f.segmentWrites f.loads ++ f.specialWrites config ++ (f.stack config tscFreq umem).writes := by
    rw [← ElfFile.dataWrites_eq]
    rfl
  rw [hsplit, Mem.touched_append, Mem.touched_append, touched_segmentWrites, hstack,
    touched_specialWrites, or_assoc]
  exact or_congr_right or_comm

/-- What a program may expect to be zero: the memory of a segment behind its file
    bytes, the heap and the stack around what is written there, and an `OB` that is to
    be clear. -/
inductive MustBeZero (f : ElfFile) (config : AppConfig) (x : Nat) : Prop where
  | bss {p : Phdr} (hp : p ∈ f.loads) (hlow : p.vaddr + p.filesz ≤ x)
      (hhigh : x < p.vaddr + p.memsz)
      (hfile : ∀ q ∈ f.loads, ¬ (q.vaddr ≤ x ∧ x < q.vaddr + q.filesz))
  | heapStack (hlow : ∀ p ∈ f.loads, p.vaddr + p.memsz ≤ x)
      (hhigh : x < config.layout.loadVaddrBreak) (hrest : ¬ f.Stores config x)
  | OB (hclear : config.OBNeedClear = true) (hlow : config.layout.OB.vaddr ≤ x)
      (hhigh : x < config.layout.OB.brk)

/-- None of it is written. -/
theorem Accepts.not_stores (h : Accepts f config b.vaddrBreak) {x : Nat}
    (hx : MustBeZero f config x) : ¬ f.Stores config x := by
  have hsegs := h.segment_bounds
  have g1 := le_ceilTo (r := 4096) config.stdinSize.toNat (by decide)
  have g4 := le_ceilTo (r := 4096) config.IBSize.toNat (by decide)
  obtain ⟨hpos, -⟩ := h.layout_top
  cases hx with
  | @bss p hp hlow hhigh hfile =>
    have hbound := (hsegs p hp).2
    have habove : x < config.layout.loadVaddrBreak - 4096 := Nat.lt_of_lt_of_le hhigh hbound
    rintro (⟨q, hq, hcover⟩ | hrest)
    · exact hfile q hq hcover
    · simp only [AppConfig.layout] at hrest habove hpos
      omega
  | heapStack hlow hhigh hrest => exact hrest
  | OB hclear hlow hhigh =>
    rintro (⟨q, hq, hlowq, hhighq⟩ | hrest)
    · have hbound := (hsegs q hq).2
      have hmemsz := (h.segments q hq).memsz
      simp only [AppConfig.layout] at hlow hbound
      omega
    · rw [hclear] at hrest
      simp only [AppConfig.layout, Bool.true_eq_false, false_and, false_or] at hrest hlow hhigh
      omega

end Writes

end ELF

end JudgePenguin
