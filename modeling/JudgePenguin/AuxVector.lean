/-
  JudgePenguin/AuxVector.lean
  ===========================
  **The auxiliary vector of a loaded program**, as the program reads it.

  `load_elf64` pushes the vector from its end to its beginning, after a single zero
  word that is the key of the last pair; the page-aligned break keeps `rsp` aligned
  without the realignment.  Read back, the vector holds the pushed pairs in reverse
  order (`loaded_stack`).  `AT_HWCAP` is pushed twice, so that key alone is met
  twice, and a lookup finds the value pushed second.
-/
import JudgePenguin.ElfLayout
import JudgePenguin.ProcessStack

namespace JudgePenguin

open Words ProcessStack

namespace ELF

/-! ## What is pushed -/

/-- The pairs of `load_elf64`, in program order: each value is pushed before its key. -/
def pushedAuxv (h : Ehdr) (l : Layout) (duckinfoPtr : Nat) : List (Nat × Nat) :=
  [(AT_PAGESZ, PAGE_SIZE), (AT_DUCK, duckinfoPtr), (AT_BASE, l.elfImage.vaddr),
    (AT_PHDR, wrap64 (l.elfImage.vaddr + h.phoff)), (AT_ENTRY, h.entry), (AT_PHENT, h.phentsize),
    (AT_PHNUM, h.phnum), (AT_HWCAP, 0xbfebfbff), (AT_HWCAP, 0x2), (AT_UID, 1000), (AT_EUID, 1000),
    (AT_GID, 1000), (AT_EGID, 1000), (AT_SECURE, 0), (AT_RANDOM, l.randomBytes.vaddr)]

/-- The stack without arguments and environment, with the vector the other way round. -/
def initialContents (h : Ehdr) (l : Layout) (duckinfoPtr : Nat) : Contents :=
  ⟨0, [], [], (pushedAuxv h l duckinfoPtr).reverse⟩

theorem initialContents_words (h : Ehdr) (l : Layout) (ptr : Nat) :
    (initialContents h l ptr).words = (pushedWords h l ptr).reverse := rfl

theorem initialContents_wellFormed (h : Ehdr) (l : Layout) (ptr : Nat) :
    (initialContents h l ptr).WellFormed := by
  refine ⟨List.forall_mem_nil _, List.forall_mem_nil _, ?_⟩
  intro kv hkv
  have hmem := List.mem_reverse.mp hkv
  simp only [pushedAuxv, List.mem_cons, List.not_mem_nil, or_false] at hmem
  rcases hmem with rfl | rfl | rfl | rfl | rfl | rfl | rfl | rfl | rfl | rfl | rfl | rfl | rfl |
    rfl | rfl
  all_goals exact Nat.succ_ne_zero _

/-! ## What stands on the stack -/

/-- Pushed words stand in reverse order. -/
theorem pushAll_holds (m : Mem) (vs : List Nat) {rsp : Nat} (h : vs.length * 8 ≤ rsp)
    (hvs : ∀ v ∈ vs, v < 2 ^ 64) :
    (m.apply (pushAll rsp vs).1).HoldsWords (rsp - vs.length * 8) vs.reverse := by
  induction vs generalizing m rsp with
  | nil => exact trivial
  | cons v vs ih =>
    rw [List.length_cons] at h ⊢
    have hroom : vs.length * 8 ≤ rsp - 8 := by omega
    have hrest := ih (m.write (rsp - 8) (Mem.leBytes 8 v)) hroom fun w hw => hvs w (by simp [hw])
    have hlow : rsp - 8 - vs.length * 8 = rsp - (vs.length + 1) * 8 := by omega
    have hhigh : rsp - (vs.length + 1) * 8 + 8 * vs.reverse.length = rsp - 8 := by
      rw [List.length_reverse]
      omega
    rw [hlow] at hrest
    rw [List.reverse_cons, Mem.holdsWords_append, hhigh]
    refine ⟨hrest, ?_, trivial⟩
    -- the later pushes stay below the first one
    have hkept : ∀ i < 8, ((m.write (rsp - 8) (Mem.leBytes 8 v)).apply (pushAll (rsp - 8) vs).1)
        (rsp - 8 + i) = m.write (rsp - 8) (Mem.leBytes 8 v) (rsp - 8 + i) := by
      intro i hi
      apply Mem.apply_untouched
      rintro ⟨w, hw, h1, h2⟩
      obtain ⟨-, hb, hlen⟩ := pushAll_bounds vs hroom w hw
      omega
    have hword := Mem.read64_congr hkept
    exact hword.trans (Mem.read64_write64_self m (rsp - 8) (hvs v (by simp)))

section Accepted

variable {f : ElfFile} {config : AppConfig} {b : MemoryBreaks}

/-- The special region ends below the top of the lower half. -/
theorem Accepts.layout_top (h : Accepts f config b.vaddrBreak) :
    0x401000 ≤ config.layout.loadVaddrBreak ∧
      config.layout.loadVaddrBreak ≤ config.layout.elfImage.vaddr ∧
      config.layout.elfImage.vaddr + 4096 = config.layout.elfImage.brk ∧
      config.layout.elfImage.brk = config.layout.randomBytes.vaddr ∧
      config.layout.randomBytes.vaddr + 4096 = config.layout.randomBytes.brk ∧
      config.layout.randomBytes.brk ≤ b.vaddrBreak := by
  obtain ⟨lo, hi, -, -, hfit⟩ := h.fits
  have hroom := hfit.room
  have hlimit := hfit.limit
  have hne := hfit.nonempty
  simp only [AppConfig.regions] at hroom
  simp only [AppConfig.layout, true_and]
  omega

theorem dvd_loadVaddrBreak (config : AppConfig) : 4096 ∣ config.layout.loadVaddrBreak := by
  have hdvd := dvd_limit config
  simp only [AppConfig.layout]
  omega

/-- No pushed word is cut off. -/
theorem Accepts.pushed_lt (h : Accepts f config b.vaddrBreak) {ptr : Nat}
    (hptr : ptr ≤ config.layout.loadVaddrBreak) :
    ∀ v ∈ pushedWords f.ehdr config.layout ptr, v < 2 ^ 64 := by
  have hlower := b.lower
  obtain ⟨-, himage, hpage, hrandom, htop, hbrk⟩ := h.layout_top
  have hentry : f.ehdr.entry < 2 ^ 64 := Mem.readLE_lt f.mem _ 8
  have hsize : f.ehdr.phentsize < 2 ^ 16 := Mem.readLE_lt f.mem _ 2
  have hnum : f.ehdr.phnum < 2 ^ 16 := Mem.readLE_lt f.mem _ 2
  have hphdr := wrap64_lt (config.layout.elfImage.vaddr + f.ehdr.phoff)
  intro v hv
  simp only [pushedWords, List.mem_cons, List.not_mem_nil, or_false] at hv
  have hconst : v = 0 ∨ v = PAGE_SIZE ∨ v = 0xbfebfbff ∨ v = 2 ∨ v = 1000 ∨ v ≤ AT_DUCK ∨
      v = ptr ∨ v = config.layout.elfImage.vaddr ∨ v = config.layout.randomBytes.vaddr ∨
      v = wrap64 (config.layout.elfImage.vaddr + f.ehdr.phoff) ∨ v = f.ehdr.entry ∨
      v = f.ehdr.phentsize ∨ v = f.ehdr.phnum := by
    simp only [AT_PHDR, AT_PHENT, AT_PHNUM, AT_PAGESZ, AT_BASE, AT_ENTRY, AT_UID, AT_EUID, AT_GID,
      AT_EGID, AT_HWCAP, AT_SECURE, AT_RANDOM, AT_DUCK] at hv ⊢
    omega
  simp only [PAGE_SIZE, AT_DUCK] at hconst
  omega

/-- The stores of the stack leave the initial contents at `rsp`. -/
theorem Accepts.stack_holds (h : Accepts f config b.vaddrBreak) (tscFreq : UInt64) (umem : Mem) :
    (umem.apply (f.loaded config tscFreq umem).writes).HoldsWords
      (f.loaded config tscFreq umem).app.rsp
      (initialContents f.ehdr config.layout (f.loaded config tscFreq umem).app.duckinfoPtr).words := by
  obtain ⟨hpos, -⟩ := h.layout_top
  have hpushed := h.pushed_lt (Nat.sub_le config.layout.loadVaddrBreak 112)
  have hroom : (pushedWords f.ehdr config.layout (config.layout.loadVaddrBreak - 112)).length * 8 ≤
      config.layout.loadVaddrBreak - 112 := by
    rw [length_pushedWords]
    omega
  have hrsp : config.layout.loadVaddrBreak - 112 -
      (pushedWords f.ehdr config.layout (config.layout.loadVaddrBreak - 112)).length * 8 =
      config.layout.loadVaddrBreak - 384 := by
    rw [length_pushedWords]
    omega
  simp only [ElfFile.loaded, mkApp, ElfFile.stack, Mem.apply_append,
    buildStack_eq _ f.ehdr (duckInfo config config.layout tscFreq) (dvd_loadVaddrBreak config)
      (Nat.le_trans (by decide) hpos)]
  rw [Mem.apply_cons, initialContents_words, ← hrsp]
  exact pushAll_holds _ _ hroom hpushed

/-- **The initial stack of a loaded program**, however far the reader may look. -/
theorem Accepts.loaded_stack (h : Accepts f config b.vaddrBreak) (tscFreq : UInt64) (umem : Mem)
    {fuel : Nat} (hfuel : 16 ≤ fuel) :
    ProcessStack.read (umem.apply (f.loaded config tscFreq umem).writes) fuel
        (f.loaded config tscFreq umem).app.rsp =
      some (initialContents f.ehdr config.layout
        (f.loaded config tscFreq umem).app.duckinfoPtr) :=
  have hempty : 0 < fuel := Nat.lt_of_lt_of_le (by decide) hfuel
  read_of_holds (initialContents_wellFormed _ _ _) hempty hempty hfuel (h.stack_holds tscFreq umem)

theorem Accepts.rsp_eq (h : Accepts f config b.vaddrBreak) (tscFreq : UInt64) (umem : Mem) :
    (f.loaded config tscFreq umem).app.rsp = config.layout.loadVaddrBreak - 384 ∧
      (f.loaded config tscFreq umem).app.duckinfoPtr = config.layout.loadVaddrBreak - 112 := by
  obtain ⟨hpos, -⟩ := h.layout_top
  simp only [ElfFile.loaded, mkApp, ElfFile.stack,
    buildStack_eq _ f.ehdr (duckInfo config config.layout tscFreq) (dvd_loadVaddrBreak config)
      (Nat.le_trans (by decide) hpos), and_self]

end Accepted

/-! ## The round trip -/

/-- The key is met once, and a lookup finds the value. -/
structure MeetsOnce (c : Contents) (key value : Nat) : Prop where
  once : c.auxv.countP (fun kv => decide (kv.1 = key)) = 1
  found : c.getauxval key = value

/-- Every pushed key is met once on the stack of the loaded program `r`, and found
    with its value. -/
structure AuxvRoundTrip (f : ElfFile) (config : AppConfig) (umem : Mem) (r : Loaded) : Prop where
  reads : ∃ c, (∀ fuel, 16 ≤ fuel →
      ProcessStack.read (umem.apply r.writes) fuel r.app.rsp = some c) ∧
    ∀ kv ∈ pushedAuxv f.ehdr config.layout r.app.duckinfoPtr, MeetsOnce c kv.1 kv.2
  aligned : r.app.rsp % 16 = 0

/-- `AT_HWCAP` is the only key that is pushed more than once. -/
theorem meetsOnce_iff (h : Ehdr) (l : Layout) (ptr : Nat) :
    ∀ kv ∈ pushedAuxv h l ptr, MeetsOnce (initialContents h l ptr) kv.1 kv.2 ↔ kv.1 ≠ AT_HWCAP := by
  have hcount : ∀ v, ¬ MeetsOnce (initialContents h l ptr) AT_HWCAP v := by
    intro v hv
    have htwice : (initialContents h l ptr).auxv.countP
        (fun kv => decide (kv.1 = AT_HWCAP)) = 2 := rfl
    have honce := hv.once
    omega
  intro kv hkv
  simp only [pushedAuxv, List.mem_cons, List.not_mem_nil, or_false] at hkv
  rcases hkv with rfl | rfl | rfl | rfl | rfl | rfl | rfl | rfl | rfl | rfl | rfl | rfl | rfl |
    rfl | rfl
  case inr.inr.inr.inr.inr.inr.inr.inl => exact iff_of_false (hcount _) (by simp)
  case inr.inr.inr.inr.inr.inr.inr.inr.inl => exact iff_of_false (hcount _) (by simp)
  all_goals
    refine iff_of_true ⟨rfl, rfl⟩ ?_
    simp only [AT_PAGESZ, AT_DUCK, AT_BASE, AT_PHDR, AT_ENTRY, AT_PHENT, AT_PHNUM, AT_UID, AT_EUID,
      AT_GID, AT_EGID, AT_SECURE, AT_RANDOM, AT_HWCAP]
    decide

theorem Accepts.not_roundTrip {f : ElfFile} {config : AppConfig} {b : MemoryBreaks}
    (h : Accepts f config b.vaddrBreak) (tscFreq : UInt64) (umem : Mem) :
    ¬ AuxvRoundTrip f config umem (f.loaded config tscFreq umem) := by
  rintro ⟨⟨c, hc, hall⟩, -⟩
  have hread := h.loaded_stack tscFreq umem (Nat.le_refl 16)
  have hsame := (hc 16 (Nat.le_refl 16)).symm.trans hread
  cases hsame
  have hcap := hall (AT_HWCAP, 0x2) (by simp [pushedAuxv])
  exact (meetsOnce_iff _ _ _ _ (by simp [pushedAuxv])).mp hcap rfl

/-- **The auxiliary vector.**  For no program does every key come back once:
    `AT_HWCAP` was pushed with two values, and a lookup finds the second of them.
    Every other key does, `rsp` is aligned, and the address under `AT_DUCK` is that
    of the record. -/
theorem load_auxv (f : ElfFile) (config : AppConfig) (tscFreq : UInt64) (b : MemoryBreaks)
    (umem : Mem) (r : Loaded) (hload : load f config tscFreq b umem = .ok r) :
    ¬ AuxvRoundTrip f config umem r ∧
      ∃ c, (∀ fuel, 16 ≤ fuel →
          ProcessStack.read (umem.apply r.writes) fuel r.app.rsp = some c) ∧
        (∀ kv ∈ pushedAuxv f.ehdr config.layout r.app.duckinfoPtr,
          MeetsOnce c kv.1 kv.2 ↔ kv.1 ≠ AT_HWCAP) ∧
        c.getauxval AT_HWCAP = 0x2 ∧ r.app.rsp % 16 = 0 ∧
        (umem.apply r.writes).read (c.getauxval AT_DUCK) DUCKINFO_SIZE =
          r.app.duckinfoOrig.bytes := by
  obtain ⟨hacc, hr⟩ := load_eq_ok.mp hload
  obtain ⟨range, l, -, -, hconf⟩ := (load_confined f config tscFreq b umem).2 r hload
  have hduck := hconf.duckInfo
  subst hr
  obtain ⟨hpos, -⟩ := hacc.layout_top
  obtain ⟨hrsp, -⟩ := hacc.rsp_eq tscFreq umem
  have hread := fun fuel (hfuel : 16 ≤ fuel) => hacc.loaded_stack tscFreq umem hfuel
  have hkeys := meetsOnce_iff f.ehdr config.layout (f.loaded config tscFreq umem).app.duckinfoPtr
  refine ⟨hacc.not_roundTrip tscFreq umem, _, hread, hkeys, rfl, ?_, hduck⟩
  obtain ⟨k, hk⟩ := dvd_loadVaddrBreak config
  rw [hrsp]
  omega

theorem sample_load : load sampleFile sampleConfig 0 MemoryBreaks.init (fun _ => 0) =
    .ok (sampleFile.loaded sampleConfig 0 fun _ => 0) :=
  load_eq_ok.mpr ⟨sampleFile_accepted, rfl⟩

theorem load_auxv_sample :
    ∃ (umem : Mem) (r : Loaded) (c : Contents),
      load sampleFile sampleConfig 0 MemoryBreaks.init umem = .ok r ∧
        ProcessStack.read (umem.apply r.writes) 16 r.app.rsp = some c ∧
        c.getauxval AT_HWCAP = 0x2 ∧ ¬ AuxvRoundTrip sampleFile sampleConfig umem r := by
  obtain ⟨hnot, c, hread, -, hcap, -⟩ :=
    load_auxv sampleFile sampleConfig 0 MemoryBreaks.init (fun _ => 0) _ sample_load
  exact ⟨fun _ => 0, _, c, sample_load, hread 16 (Nat.le_refl 16), hcap, hnot⟩

/-- Even a program of one segment finds `AT_HWCAP` twice. -/
theorem hwcap_met_twice :
    load sampleFile sampleConfig 0 MemoryBreaks.init (fun _ => 0) =
        .ok (sampleFile.loaded sampleConfig 0 fun _ => 0) ∧
      ¬ AuxvRoundTrip sampleFile sampleConfig (fun _ => 0)
        (sampleFile.loaded sampleConfig 0 fun _ => 0) :=
  ⟨sample_load, sampleFile_accepted.not_roundTrip 0 _⟩

end ELF

end JudgePenguin
