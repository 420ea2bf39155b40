/-
  JudgePenguin/ElfLayout.lean
  ===========================
  **Where a loaded program lies.**

  For an accepted file every store of the loader stays between the load address
  and the end of the special region.  The segments keep a page away from the
  break, and everything that is pushed lies in that page: `DuckInfo` takes 112
  bytes and the 34 words below it another 272, so `rsp` ends 384 bytes below the
  page-aligned break and the realignment has nothing to do (`stack_eq`).
-/
import JudgePenguin.ElfAccept

namespace JudgePenguin

open Words Guarded

namespace ELF

/-! ## The pushes -/

/-- The pushes fill the words below `rsp`, each once. -/
theorem pushAll_rsp (vs : List Nat) {rsp : Nat} (h : vs.length * 8 ≤ rsp) :
    (pushAll rsp vs).2 = rsp - vs.length * 8 := by
  induction vs generalizing rsp with
  | nil => rfl
  | cons v vs ih =>
    simp only [List.length_cons] at h
    simp only [pushAll, List.length_cons]
    rw [ih (by omega)]
    omega

theorem pushAll_bounds (vs : List Nat) {rsp : Nat} (h : vs.length * 8 ≤ rsp) :
    ∀ w ∈ (pushAll rsp vs).1,
      rsp - vs.length * 8 ≤ w.addr ∧ w.addr + 8 ≤ rsp ∧ w.bytes.length = 8 := by
  induction vs generalizing rsp with
  | nil =>
    intro w hw
    cases hw
  | cons v vs ih =>
    simp only [List.length_cons] at h
    simp only [pushAll, List.length_cons]
    intro w hw
    rcases List.mem_cons.mp hw with rfl | hrest
    · exact ⟨by simp only; omega, by simp only; omega, by simp⟩
    · have hroom : vs.length * 8 ≤ rsp - 8 := by omega
      obtain ⟨h1, h2, h3⟩ := ih hroom w hrest
      exact ⟨by omega, by omega, h3⟩

theorem length_pushedWords (h : Ehdr) (l : Layout) (ptr : Nat) :
    (pushedWords h l ptr).length = 34 := rfl

@[simp] theorem length_duckInfo_bytes (d : DuckInfo) : d.bytes.length = DUCKINFO_SIZE := by
  simp [DuckInfo.bytes, DuckInfo.words, DUCKINFO_SIZE]

/-- **The initial stack.**  Below a page-aligned break the realignment branch is
    never taken. -/
theorem buildStack_eq (umem : Mem) (h : Ehdr) {l : Layout} (info : DuckInfo)
    (halign : 4096 ∣ l.loadVaddrBreak) (hpos : 4096 ≤ l.loadVaddrBreak) :
    buildStack umem h l info =
      ⟨⟨l.loadVaddrBreak - 112, info.bytes⟩ ::
        (pushAll (l.loadVaddrBreak - 112) (pushedWords h l (l.loadVaddrBreak - 112))).1,
        l.loadVaddrBreak - 384, l.loadVaddrBreak - 112⟩ := by
  obtain ⟨k, hk⟩ := halign
  have hrsp : (pushAll (l.loadVaddrBreak - 112)
      (pushedWords h l (l.loadVaddrBreak - 112))).2 = l.loadVaddrBreak - 384 := by
    rw [pushAll_rsp _ (by rw [length_pushedWords]; omega), length_pushedWords]
    omega
  simp only [buildStack, DUCKINFO_SIZE, hrsp]
  rw [if_neg (by omega)]

/-- The pushes lie in the last page below the break. -/
theorem buildStack_bounds (umem : Mem) (h : Ehdr) {l : Layout} (info : DuckInfo)
    (halign : 4096 ∣ l.loadVaddrBreak) (hpos : 4096 ≤ l.loadVaddrBreak) :
    ∀ w ∈ (buildStack umem h l info).writes, l.loadVaddrBreak - 4096 ≤ w.addr ∧
      w.addr + w.bytes.length ≤ l.loadVaddrBreak := by
  rw [buildStack_eq umem h info halign hpos]
  intro w hw
  rcases List.mem_cons.mp hw with rfl | hpush
  · rw [length_duckInfo_bytes]
    simp only [DUCKINFO_SIZE]
    omega
  · obtain ⟨h1, h2, h3⟩ := pushAll_bounds _ (by rw [length_pushedWords]; omega) w hpush
    rw [length_pushedWords] at h1
    omega

/-- The pushes below it leave the `DuckInfo` record alone. -/
theorem buildStack_duckInfo (m umem : Mem) (h : Ehdr) {l : Layout} (info : DuckInfo)
    (halign : 4096 ∣ l.loadVaddrBreak) (hpos : 4096 ≤ l.loadVaddrBreak) :
    (m.apply (buildStack umem h l info).writes).read (l.loadVaddrBreak - 112) 112 =
      info.bytes := by
  rw [buildStack_eq umem h info halign hpos]
  simp only [Mem.apply_cons]
  have hself := Mem.read_write_self m (l.loadVaddrBreak - 112) info.bytes
  rw [length_duckInfo_bytes, DUCKINFO_SIZE] at hself
  refine Eq.trans (Mem.read_congr fun i hi => ?_) hself
  apply Mem.apply_untouched
  rintro ⟨w, hw, hx1, hx2⟩
  obtain ⟨h1, h2, h3⟩ := pushAll_bounds _ (by rw [length_pushedWords]; omega) w hw
  omega

/-! ## The regions -/

/-- The seven regions behind the program, each with the bytes it has to hold. -/
def Layout.sized (l : Layout) (f : ElfFile) (config : AppConfig) : List (Region × Nat) :=
  [(l.stdin, config.stdinSize.toNat), (l.stdout, config.stdoutMaxSize.toNat),
    (l.stderr, config.stderrMaxSize.toNat), (l.IB, config.IBSize.toNat),
    (l.OB, config.OBSize.toNat), (l.elfImage, min f.len.toNat PAGE_SIZE), (l.randomBytes, 16)]

/-- Regions that follow each other in whole pages and hold what they have to. -/
structure Consecutive (start stop : Nat) (rs : List (Region × Nat)) : Prop where
  first : ∀ r ∈ rs.head?, r.1.vaddr = start
  last : ∀ r ∈ rs.getLast?, r.1.brk = stop
  adjacent : rs.IsChain fun r s => r.1.brk = s.1.vaddr
  aligned : ∀ r ∈ rs, 4096 ∣ r.1.vaddr ∧ 4096 ∣ r.1.brk
  holds : ∀ r ∈ rs, r.1.vaddr + r.2 ≤ r.1.brk
  disjoint : rs.Pairwise fun r s => r.1.brk ≤ s.1.vaddr

theorem dvd_limit (config : AppConfig) : 4096 ∣ config.limit := dvd_ceilTo _ _

theorem layout_consecutive (f : ElfFile) (config : AppConfig) :
    Consecutive config.layout.loadVaddrBreak config.layout.randomBytes.brk
      (config.layout.sized f config) := by
  have hM := dvd_limit config
  have h1 := dvd_ceilTo config.stdinSize.toNat 4096
  have h2 := dvd_ceilTo config.stdoutMaxSize.toNat 4096
  have h3 := dvd_ceilTo config.stderrMaxSize.toNat 4096
  have h4 := dvd_ceilTo config.IBSize.toNat 4096
  have h5 := dvd_ceilTo config.OBSize.toNat 4096
  have g1 := le_ceilTo (r := 4096) config.stdinSize.toNat (by decide)
  have g2 := le_ceilTo (r := 4096) config.stdoutMaxSize.toNat (by decide)
  have g3 := le_ceilTo (r := 4096) config.stderrMaxSize.toNat (by decide)
  have g4 := le_ceilTo (r := 4096) config.IBSize.toNat (by decide)
  have g5 := le_ceilTo (r := 4096) config.OBSize.toNat (by decide)
  have hpage : min f.len.toNat PAGE_SIZE ≤ 4096 := Nat.min_le_right _ _
  constructor
  · simp [Layout.sized, AppConfig.layout]
  · simp [Layout.sized, AppConfig.layout]
  · simp [Layout.sized, AppConfig.layout]
  · simp only [Layout.sized, AppConfig.layout, List.forall_mem_cons]
    refine ⟨?_, ?_, ?_, ?_, ?_, ?_, ?_, by simp⟩ <;> omega
  · simp only [Layout.sized, AppConfig.layout, List.forall_mem_cons]
    refine ⟨?_, ?_, ?_, ?_, ?_, ?_, ?_, by simp⟩ <;> omega
  · simp only [Layout.sized, AppConfig.layout, List.pairwise_cons, List.forall_mem_cons]
    refine ⟨⟨?_, ?_, ?_, ?_, ?_, ?_, by simp⟩, ⟨?_, ?_, ?_, ?_, ?_, by simp⟩,
      ⟨?_, ?_, ?_, ?_, by simp⟩, ⟨?_, ?_, ?_, by simp⟩, ⟨?_, ?_, by simp⟩, ⟨?_, by simp⟩, by simp,
      List.Pairwise.nil⟩ <;> omega

/-! ## Confinement -/

/-- The loaded program `r`, laid out as `l`. -/
structure Confined (f : ElfFile) (config : AppConfig) (tscFreq : UInt64) (b : MemoryBreaks)
    (umem : Mem) (l : Layout) (r : Loaded) : Prop where
  writes : ∀ w ∈ r.writes,
    0x400000 ≤ w.addr ∧ w.addr + w.bytes.length ≤ r.app.specialRegionBreakAddr
  top : r.app.specialRegionBreakAddr ≤ b.vaddrBreak
  segments : ∀ p ∈ f.loads, 0x400000 ≤ p.vaddr ∧ p.vaddr + p.memsz ≤ r.app.breakAddr - 4096
  pushes : ∃ data, r.writes = data ++
      (buildStack (umem.apply data) f.ehdr l (duckInfo config l tscFreq)).writes ∧
    ∀ w ∈ (buildStack (umem.apply data) f.ehdr l (duckInfo config l tscFreq)).writes,
      r.app.breakAddr - 4096 ≤ w.addr ∧ w.addr + w.bytes.length ≤ r.app.breakAddr
  regions : Consecutive r.app.breakAddr r.app.specialRegionBreakAddr (l.sized f config)
  orig : r.app.duckinfoOrig = ⟨40, l.stdin.vaddr, config.stdinSize.toNat, l.stdout.vaddr,
    config.stdoutMaxSize.toNat, 0, l.stderr.vaddr, config.stderrMaxSize.toNat, 0, l.IB.vaddr,
    config.IBSize.toNat, l.OB.vaddr, config.OBSize.toNat, tscFreq.toNat⟩
  duckInfo : (umem.apply r.writes).read r.app.duckinfoPtr DUCKINFO_SIZE =
    r.app.duckinfoOrig.bytes
  app : r.app.startAddr = 0x400000 ∧ r.app.breakAddr = 0x400000 + config.limit ∧
    r.app.specialRegionStartAddr = r.app.breakAddr ∧ r.app.stdinStartAddr = l.stdin.vaddr ∧
    r.app.stdinBreakAddr = l.stdin.brk ∧ r.app.entry = f.ehdr.entry

/-- The stores before the stack stay off the stack page: the segments below it and
    the rest in the special region. -/
theorem dataWrites_bounds {f : ElfFile} {config : AppConfig}
    (hsegs : ∀ p ∈ f.loads, SegmentOk f p)
    (hbounds : ∀ p ∈ f.loads, 0x400000 ≤ p.vaddr ∧
      p.vaddr + p.memsz ≤ config.layout.loadVaddrBreak - 4096) :
    ∀ w ∈ f.dataWrites config,
      (0x400000 ≤ w.addr ∧ w.addr + w.bytes.length ≤ config.layout.loadVaddrBreak - 4096) ∨
      (config.layout.loadVaddrBreak ≤ w.addr ∧
        w.addr + w.bytes.length ≤ config.layout.randomBytes.brk) := by
  have g1 := le_ceilTo (r := 4096) config.stdinSize.toNat (by decide)
  have g4 := le_ceilTo (r := 4096) config.IBSize.toNat (by decide)
  have g5 := le_ceilTo (r := 4096) config.OBSize.toNat (by decide)
  have hpage : min f.len.toNat PAGE_SIZE ≤ 4096 := Nat.min_le_right _ _
  intro w hw
  simp only [ElfFile.dataWrites, List.mem_append] at hw
  rcases hw with ((hseg | hin) | himg) | hrnd
  · obtain ⟨p, hp, rfl⟩ := List.mem_map.mp hseg
    have hp' := (List.mem_filter.mp hp).1
    have hb := hbounds p hp'
    have hm := (hsegs p hp').memsz
    simp only [Mem.length_read]
    exact .inl ⟨hb.1, by omega⟩
  · right
    simp only [inputWrites, List.mem_append, List.mem_cons, List.not_mem_nil, or_false] at hin
    rcases hin with (rfl | rfl) | hob
    · simp only [Mem.length_read, AppConfig.layout]
      omega
    · simp only [Mem.length_read, AppConfig.layout]
      omega
    · split at hob
      · cases hob
      · rcases List.mem_singleton.mp hob with rfl
        simp only [Mem.length_read, AppConfig.layout]
        omega
  · right
    rcases List.mem_singleton.mp himg with rfl
    simp only [Mem.length_read, AppConfig.layout]
    omega
  · right
    simp only [randomWrites, List.mem_cons, List.not_mem_nil, or_false] at hrnd
    rcases hrnd with rfl | rfl
    · simp only [Mem.length_leBytes, AppConfig.layout]
      omega
    · simp only [Mem.length_leBytes, AppConfig.layout]
      omega

/-- The segments of an accepted file lie between the load address and the stack
    page. -/
theorem Accepts.segment_bounds {f : ElfFile} {config : AppConfig} {vaddrBreak : Nat}
    (h : Accepts f config vaddrBreak) :
    ∀ p ∈ f.loads, 0x400000 ≤ p.vaddr ∧
      p.vaddr + p.memsz ≤ config.layout.loadVaddrBreak - 4096 := by
  obtain ⟨lo, hi, hmin, hmax, hfit⟩ := h.fits
  have hstart := hfit.start
  have hlimit := hfit.limit
  have hne := hfit.nonempty
  have hfloor := floorTo_le lo 4096
  have hceil := le_ceilTo (r := 4096) hi (by decide)
  intro p hp
  have h1 := (List.min?_eq_some_iff.mp hmin).2 _ (List.mem_map.mpr ⟨p, hp, rfl⟩)
  have h2 := le_of_max? hmax (List.mem_map.mpr ⟨p, hp, rfl⟩)
  simp only [AppConfig.layout]
  omega

/-- The special region lies behind the program's memory. -/
theorem layout_special (config : AppConfig) :
    config.layout.loadVaddrBreak ≤ config.layout.randomBytes.brk := by
  simp only [AppConfig.layout]
  omega

/-- **Confinement and layout.**  No run of the loader reads outside the file; and
    when it returns true, its stores stay in the program's memory, the stack page
    meets no segment, and the regions are those that `DuckInfo` and `app` name. -/
theorem load_confined (f : ElfFile) (config : AppConfig) (tscFreq : UInt64) (b : MemoryBreaks)
    (umem : Mem) : Safe (load f config tscFreq b umem) ∧
      ∀ r, load f config tscFreq b umem = .ok r →
        ∃ range l, scanPhdrs f f.ehdr = .ok range ∧ layOut b config range = .ok l ∧
          Confined f config tscFreq b umem l r := by
  refine ⟨load_safe, fun r hr => ?_⟩
  obtain ⟨hacc, rfl⟩ := load_eq_ok.mp hr
  obtain ⟨range, -, hscan, hlay⟩ := hacc.checks
  refine ⟨range, config.layout, hscan, hlay, ?_⟩
  have hsegs := hacc.segment_bounds
  have hdata := dataWrites_bounds hacc.segments hsegs
  obtain ⟨lo, hi, -, -, hfit⟩ := hacc.fits
  have hroom := hfit.room
  have hlimit := hfit.limit
  have hne := hfit.nonempty
  have hdvd := dvd_limit config
  have halign : 4096 ∣ config.layout.loadVaddrBreak := by
    simp only [AppConfig.layout]
    omega
  have hpos : 0x401000 ≤ config.layout.loadVaddrBreak := by
    simp only [AppConfig.layout]
    omega
  have hspecial := layout_special config
  have hstack := buildStack_bounds (umem.apply (f.dataWrites config)) f.ehdr
    (duckInfo config config.layout tscFreq) halign (by omega)
  constructor
  · intro w hw
    rcases List.mem_append.mp hw with hdw | hsw
    · rcases hdata w hdw with h | h
      · exact ⟨h.1, Nat.le_trans h.2 (Nat.le_trans (Nat.sub_le _ _) hspecial)⟩
      · exact ⟨by omega, h.2⟩
    · have h := hstack w hsw
      exact ⟨by omega, Nat.le_trans h.2 hspecial⟩
  · simp only [ElfFile.loaded, mkApp, AppConfig.layout]
    simp only [AppConfig.regions] at hroom
    omega
  · exact hsegs
  · exact ⟨f.dataWrites config, rfl, hstack⟩
  · exact layout_consecutive f config
  · rfl
  · have hptr : (f.loaded config tscFreq umem).app.duckinfoPtr =
        config.layout.loadVaddrBreak - 112 := by
      simp only [ElfFile.loaded, mkApp, ElfFile.stack,
        buildStack_eq _ f.ehdr (duckInfo config config.layout tscFreq) halign (by omega)]
    rw [hptr]
    simp only [ElfFile.loaded, Mem.apply_append]
    exact buildStack_duckInfo _ _ _ _ halign (by omega)
  · exact ⟨rfl, rfl, rfl, rfl, rfl, rfl⟩

/-! ## A small program -/

/-- A program of one segment: the header, one program header and no code. -/
def sampleBytes : List UInt8 :=
  [0x7f, 0x45, 0x4c, 0x46, 2, 1, 1, 0] ++ List.replicate 8 0 ++ Mem.leBytes 2 2 ++
    Mem.leBytes 2 62 ++ Mem.leBytes 4 1 ++ Mem.leBytes 8 0x400000 ++ Mem.leBytes 8 64 ++
    List.replicate 14 0 ++ Mem.leBytes 2 56 ++ Mem.leBytes 2 1 ++ List.replicate 6 0 ++
    Mem.leBytes 4 1 ++ Mem.leBytes 4 5 ++ Mem.leBytes 8 0 ++ Mem.leBytes 8 0x400000 ++
    Mem.leBytes 8 0 ++ Mem.leBytes 8 120 ++ Mem.leBytes 8 120 ++ Mem.leBytes 8 4096

def sampleFile : ElfFile := ⟨fun i => sampleBytes.getD i 0, 0, 120⟩

def sampleConfig : AppConfig := ⟨8192, 0, 0, 0, 0, 0, 0, 0, 0, true⟩

theorem sampleFile_loads : sampleFile.loads = [⟨1, 0, 0x400000, 120, 120, 4096⟩] := by rfl

/-- It is accepted with two pages, wherever there is room for the regions. -/
theorem sampleFile_accepts {config : AppConfig} {v : Nat} (hlimit : config.limit = 8192)
    (hroom : 0x400000 + 8192 + config.regions + 8192 ≤ v) : Accepts sampleFile config v := by
  have hnum : sampleFile.ehdr.phnum = 1 := by decide
  refine ⟨⟨by decide, by decide, by decide, by decide, by decide, by decide, by decide, by decide,
    .inl (by decide), by decide, by decide, by decide, by decide, by decide, by decide⟩, ?_, ?_,
    0x400000, 0x400000 + 120, ?_, ?_, ?_⟩
  · intro i hi
    rw [hnum] at hi
    obtain rfl : i = 0 := by omega
    decide
  · rw [sampleFile_loads]
    intro p hp
    rcases List.mem_singleton.mp hp with rfl
    exact ⟨.inl rfl, by decide, .inr (by decide)⟩
  · rw [sampleFile_loads]
    rfl
  · rw [sampleFile_loads]
    rfl
  · exact ⟨by decide, by decide, by rw [hlimit]; decide, by rw [hlimit]; exact hroom⟩

theorem sampleFile_accepted : Accepts sampleFile sampleConfig MemoryBreaks.init.vaddrBreak :=
  sampleFile_accepts (by decide) (by decide)

theorem HeaderOk.congr {f f' : ElfFile} (h : HeaderOk f) (hlen : f'.len = f.len)
    (hget : ∀ off n, f'.get off n = f.get off n) (hehdr : f'.ehdr = f.ehdr) : HeaderOk f' where
  len := by rw [hlen]; exact h.len
  mag0 := (hget 0 1).trans h.mag0
  mag1 := (hget 1 1).trans h.mag1
  mag2 := (hget 2 1).trans h.mag2
  mag3 := (hget 3 1).trans h.mag3
  class64 := (hget 4 1).trans h.class64
  data := (hget 5 1).trans h.data
  identVersion := (hget 6 1).trans h.identVersion
  osabi := by rw [hget 7 1]; exact h.osabi
  type := (hget 16 2).trans h.type
  machine := (hget 18 2).trans h.machine
  version := (hget 20 4).trans h.version
  phoff := by rw [hehdr, hlen]; exact h.phoff
  phentsize := by rw [hehdr, hlen]; exact h.phentsize
  phnum := by rw [hehdr, hlen]; exact h.phnum

/-- The headers depend on the bytes of the file. -/
theorem ElfFile.loads_congr {f f' : ElfFile} (hget : ∀ off n, f'.get off n = f.get off n) :
    f'.ehdr = f.ehdr ∧ f'.loads = f.loads := by
  have hehdr : f'.ehdr = f.ehdr := by simp only [ElfFile.ehdr, hget]
  refine ⟨hehdr, ?_⟩
  simp only [ElfFile.loads, ElfFile.loadsAmong, hehdr, ElfFile.phdr, hget]

/-- Acceptance depends on the bytes of the file and the sizes of the regions. -/
theorem Accepts.congr {f f' : ElfFile} {config config' : AppConfig} {v v' : Nat}
    (h : Accepts f config v) (hlen : f'.len = f.len) (hget : ∀ off n, f'.get off n = f.get off n)
    (hlimit : config'.limit = config.limit) (hregions : config'.regions = config.regions)
    (hv : v ≤ v') : Accepts f' config' v' := by
  obtain ⟨hehdr, hloads⟩ := ElfFile.loads_congr hget
  obtain ⟨lo, hi, hmin, hmax, hfits⟩ := h.fits
  refine ⟨h.header.congr hlen hget hehdr, ?_, ?_, lo, hi, by rw [hloads]; exact hmin,
    by rw [hloads]; exact hmax, hfits.start, hfits.nonempty, by rw [hlimit]; exact hfits.limit, ?_⟩
  · rw [hehdr, hlen]
    exact h.phdrs
  · rw [hloads]
    intro p hp
    have hok := h.segments p hp
    exact ⟨hok.align, hok.memsz, by rw [hlen]; exact hok.inFile⟩
  · rw [hlimit, hregions]
    exact Nat.le_trans hfits.room hv

theorem load_confined_sample :
    ∃ r range l, load sampleFile sampleConfig 0 MemoryBreaks.init (fun _ => 0) = .ok r ∧
      scanPhdrs sampleFile sampleFile.ehdr = .ok range ∧
      layOut MemoryBreaks.init sampleConfig range = .ok l ∧
      Confined sampleFile sampleConfig 0 MemoryBreaks.init (fun _ => 0) l r := by
  have hload : load sampleFile sampleConfig 0 MemoryBreaks.init (fun _ => 0) =
      .ok (sampleFile.loaded sampleConfig 0 fun _ => 0) :=
    load_eq_ok.mpr ⟨sampleFile_accepted, rfl⟩
  obtain ⟨range, l, hscan, hlay, h⟩ :=
    (load_confined sampleFile sampleConfig 0 MemoryBreaks.init fun _ => 0).2 _ hload
  exact ⟨_, range, l, hload, hscan, hlay, h⟩

end ELF

end JudgePenguin
