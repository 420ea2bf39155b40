/-
  JudgePenguin/FirmwareWindow.lean
  ================================
  **Where `load_firmware` writes and what it maps.**

  The size check, the place of the image and the length of the last `memset` start
  from three different bases: `KERNEL_SIZE` counts from `mem_virt`, the image lies
  `page_table_size + KERNEL_OFFSET` behind it, and the clearing runs `KERNEL_SIZE`
  far from `kernel_base_linux`.  So an image may reach `KERNEL_OFFSET` bytes into
  the stack, and the clearing always ends `page_table_size` behind the window
  (`loadFirmware_window`).  All addresses are counted from `mem_virt`.
-/
import JudgePenguin.KernelMapping

namespace JudgePenguin.Driver

open Words ArrayLoops

/-! ## The accesses of `load_firmware` -/

inductive HostWrite where
  | clear (addr n : Nat)
  | copy (addr : Nat) (bytes : List UInt8)

namespace HostWrite

def run : HostWrite → PageTables → Option PageTables
  | .clear addr n, s => s.memset addr 0 n
  | .copy addr bytes, s => s.memcpy addr bytes

def addr : HostWrite → Nat
  | .clear addr _ => addr
  | .copy addr _ => addr

def length : HostWrite → Nat
  | .clear _ n => n
  | .copy _ bytes => bytes.length

end HostWrite

/-- The pages of one loop over `map_page`. -/
structure PageRange where
  phys : Nat
  virt : Nat
  pages : Nat

def PageRange.map (p : PageRange) : PageTables → Option PageTables := mapPages p.phys p.virt p.pages

def hostWrites (f : Firmware) (d : DriverState) : List HostWrite :=
  let base := d.kernelBaseLinux
  [.clear base KERNEL_OFFSET,
   .copy (wrap64 (base + KERNEL_OFFSET)) (f.data.read 0 f.size),
   .clear (wrap64 (base + KERNEL_OFFSET + f.size)) (sub64 (sub64 KERNEL_SIZE f.size) KERNEL_OFFSET)]

def imagePages (f : Firmware) (d : DriverState) : PageRange where
  phys := wrap64 (MEM_START + d.pageTableSize)
  virt := d.kernelBaseLinux
  pages := wrap64 (f.size + KERNEL_OFFSET + PAGE_SIZE - 1) / PAGE_SIZE

def stackPages (d : DriverState) : PageRange where
  phys := MEM_START + KERNEL_SIZE - KERNEL_STACK_SIZE
  virt := sub64 d.kernelStackTopLinux KERNEL_STACK_SIZE
  pages := KERNEL_STACK_SIZE / PAGE_SIZE

def writeAll : List HostWrite → PageTables → Option PageTables
  | [], s => some s
  | w :: rest, s => (w.run s).bind (writeAll rest)

theorem writeAll_cons_bind {α : Type} (w : HostWrite) (rest : List HostWrite) (s : PageTables)
    (k : PageTables → Option α) :
    (writeAll (w :: rest) s).bind k = (w.run s).bind fun s' => (writeAll rest s').bind k :=
  Option.bind_assoc _ _ _

theorem writeAll_nil_bind {α : Type} (s : PageTables) (k : PageTables → Option α) :
    (writeAll [] s).bind k = k s := Option.bind_some _ _

/-- `load_firmware` writes these bytes, maps these pages and does nothing else. -/
theorem placeFirmware_eq (f : Firmware) (d : DriverState) :
    placeFirmware f d = (writeAll (hostWrites f d) d.tables).bind fun s =>
      ((imagePages f d).map s).bind (stackPages d).map := by
  unfold placeFirmware hostWrites
  rw [writeAll_cons_bind]
  simp only [writeAll_cons_bind, writeAll_nil_bind, Option.bind_eq_bind, HostWrite.run]
  rfl

/-! ## The window -/

/-- The byte at the Linux address `a`, counted from `mem_virt`. -/
def offset (memVirt a : Nat) : Nat := sub64 a memVirt

/-- The image ends at or below the base of the stack. -/
def ImageBelowStack (memVirt : Nat) (f : Firmware) (d : DriverState) : Prop :=
  offset memVirt (wrap64 (d.kernelBaseLinux + KERNEL_OFFSET + f.size)) ≤
    offset memVirt (sub64 d.kernelStackTopLinux KERNEL_STACK_SIZE)

/-- No page is mapped as both. -/
def PagesApart (f : Firmware) (d : DriverState) : Prop :=
  ∀ i < (imagePages f d).pages, ∀ j < (stackPages d).pages,
    wrap64 ((imagePages f d).virt + i * PAGE_SIZE) / PAGE_SIZE ≠
      wrap64 ((stackPages d).virt + j * PAGE_SIZE) / PAGE_SIZE

/-- Every byte written lies in the window, behind the page tables. -/
def WritesInside (memVirt : Nat) (f : Firmware) (d : DriverState) : Prop :=
  ∀ w ∈ hostWrites f d, ∀ i < w.length,
    d.pageTableSize ≤ offset memVirt (wrap64 (w.addr + i)) ∧
      offset memVirt (wrap64 (w.addr + i)) < KERNEL_SIZE

def StaysInside (memVirt : Nat) (f : Firmware) (d : DriverState) : Prop :=
  ImageBelowStack memVirt f d ∧ PagesApart f d ∧ WritesInside memVirt f d

/-- The limit that the size check compares with. -/
def sizeLimit (d : DriverState) : Nat := sub64 (KERNEL_SIZE - KERNEL_STACK_SIZE) d.pageTableSize

section Window

variable {memVirt : Nat} {d : DriverState} {f : Firmware}

theorem offset_wrap (hlt : memVirt < 2 ^ 64) {o : Nat} (ho : o < 2 ^ 64) :
    offset memVirt (wrap64 (memVirt + o)) = o := by
  rw [Nat.add_comm]
  exact sub64_wrap64_add ho hlt

theorem Statics.sizeLimit_eq (hs : Statics memVirt d) : sizeLimit d = 2859008 := by
  unfold sizeLimit
  rw [hs.pageTableSize]
  decide

theorem imageBelowStack_iff (hlt : memVirt < 2 ^ 64) (hs : Statics memVirt d)
    (hf : f.size ≤ sizeLimit d) :
    ImageBelowStack memVirt f d ↔ f.size + KERNEL_OFFSET ≤ sizeLimit d := by
  have hsize : KERNEL_SIZE = 4194304 := by decide
  have hstack : KERNEL_STACK_SIZE = 65536 := by decide
  have hoffset : KERNEL_OFFSET = 352 := by decide
  have hpts : PAGE_TABLE_SIZE = 1269760 := by decide
  have hend : wrap64 (d.kernelBaseLinux + KERNEL_OFFSET + f.size)
      = wrap64 (memVirt + (1270112 + f.size)) := by
    rw [hs.base, hpts, hoffset]
    simp only [wrap64]
    omega
  have hbase : sub64 d.kernelStackTopLinux KERNEL_STACK_SIZE = wrap64 (memVirt + 4128768) := by
    rw [hs.top, hsize, hstack]
    simp only [sub64, wrap64]
    omega
  rw [hs.sizeLimit_eq] at hf ⊢
  unfold ImageBelowStack
  rw [hend, hbase, offset_wrap hlt (by omega), offset_wrap hlt (by omega), hoffset]
  omega

theorem pagesApart_iff (hs : Statics memVirt d) (hf : f.size ≤ sizeLimit d) :
    PagesApart f d ↔ f.size + KERNEL_OFFSET ≤ sizeLimit d := by
  have hsize : KERNEL_SIZE = 4194304 := by decide
  have hstack : KERNEL_STACK_SIZE = 65536 := by decide
  have hoffset : KERNEL_OFFSET = 352 := by decide
  have hpts : PAGE_TABLE_SIZE = 1269760 := by decide
  have hpage : PAGE_SIZE = 4096 := by decide
  rw [hs.sizeLimit_eq] at hf ⊢
  have himage : (imagePages f d).pages = (f.size + 4447) / 4096 := by
    simp only [imagePages, hoffset, hpage, wrap64]
    omega
  have hstackPages : (stackPages d).pages = 16 := by
    simp only [stackPages, hstack, hpage]
  have hv : ∀ i, wrap64 ((imagePages f d).virt + i * PAGE_SIZE)
      = wrap64 (memVirt + 4096 * (310 + i)) := by
    intro i
    simp only [imagePages, hs.base, hpts, hpage, wrap64]
    omega
  have hw : ∀ j, wrap64 ((stackPages d).virt + j * PAGE_SIZE)
      = wrap64 (memVirt + 4096 * (1008 + j)) := by
    intro j
    simp only [stackPages, hs.top, hsize, hstack, hpage, sub64, wrap64]
    omega
  unfold PagesApart
  rw [himage, hstackPages, hoffset, hpage]
  constructor
  · intro hapart
    by_contra hcon
    -- the last page of the image is the first of the stack
    apply hapart 698 (by omega) 0 (by omega)
    rw [← hpage, hv, hw]
  · intro hle i hi j hj
    rw [← hpage, hv, hw, hpage]
    simp only [wrap64]
    omega

/-- The last byte that the second `memset` clears is behind the window. -/
theorem not_writesInside (hlt : memVirt < 2 ^ 64) (hs : Statics memVirt d)
    (hf : f.size ≤ sizeLimit d) : ¬ WritesInside memVirt f d := by
  have hsize : KERNEL_SIZE = 4194304 := by decide
  have hoffset : KERNEL_OFFSET = 352 := by decide
  have hpts : PAGE_TABLE_SIZE = 1269760 := by decide
  rw [hs.sizeLimit_eq] at hf
  have hlen : sub64 (sub64 KERNEL_SIZE f.size) KERNEL_OFFSET = 4193952 - f.size := by
    rw [hsize, hoffset]
    simp only [sub64, wrap64]
    omega
  intro hinside
  have hlast := hinside (.clear (wrap64 (d.kernelBaseLinux + KERNEL_OFFSET + f.size))
    (sub64 (sub64 KERNEL_SIZE f.size) KERNEL_OFFSET)) (by simp [hostWrites]) (4193951 - f.size) (by
      rw [HostWrite.length, hlen]
      omega)
  have haddr : wrap64 (wrap64 (d.kernelBaseLinux + KERNEL_OFFSET + f.size) + (4193951 - f.size))
      = wrap64 (memVirt + 5464063) := by
    rw [hs.base, hpts, hoffset]
    simp only [wrap64]
    omega
  rw [HostWrite.addr, haddr, offset_wrap hlt (by omega), hsize] at hlast
  omega

/-- `load_firmware` keeps what `init_memory` derived from the page tables. -/
theorem Statics.loadFirmware {request : Except Int Firmware} {o : Outcome} (hs : Statics memVirt d)
    (h : loadFirmware request d = some o) : Statics memVirt o.state := by
  cases request with
  | error err =>
    cases h
    exact hs
  | ok f =>
    unfold Driver.loadFirmware at h
    dsimp only at h
    split at h
    · cases h
      exact ⟨hs.pageTableSize, hs.base, hs.top⟩
    · split at h
      · cases h
        exact ⟨hs.pageTableSize, hs.base, hs.top⟩
      · obtain ⟨s, -, rfl⟩ := Option.map_eq_some_iff.mp h
        exact ⟨hs.pageTableSize, hs.base, hs.top⟩

theorem Statics.loadFirmwares {requests : List (Except Int Firmware)} {d' : DriverState}
    (hs : Statics memVirt d) (h : loadFirmwares requests d = some d') : Statics memVirt d' := by
  induction requests generalizing d with
  | nil =>
    cases h
    exact hs
  | cons request rest ih =>
    obtain ⟨o, ho, hrest⟩ := Option.bind_eq_some_iff.mp h
    exact ih (hs.loadFirmware ho) hrest

end Window

/-- A call that passes the checks. -/
theorem loadFirmware_eq {f : Firmware} {d : DriverState} (hsigned : f.signed = true)
    (hf : f.size ≤ sizeLimit d) : loadFirmware (.ok f) d = (placeFirmware f d).map fun s =>
      ⟨0, DriverState.release { d.acquire .firmware with tables := s } .firmware⟩ := by
  have hsign : ¬ f.signed = false := by
    rw [hsigned]
    decide
  have hsize : ¬ f.size > sub64 (KERNEL_SIZE - KERNEL_STACK_SIZE) (d.acquire .firmware).pageTableSize :=
    Nat.not_lt.mpr hf
  rw [loadFirmware]
  dsimp only
  rw [if_neg hsign, if_neg hsize]
  rfl

/-- **`load_firmware` never stays inside the window.**  After `init_memory` and any
    earlier calls, and for every size that passes the check, `load_firmware` carries out
    `hostWrites` and maps `imagePages` and `stackPages`; the image ends below the
    stack, and no page is mapped as both, exactly if the check would also pass with
    `KERNEL_OFFSET` added; the clearing leaves the window in any case. -/
theorem loadFirmware_window {memVirt : Nat} {c : MemoryCalls} (hlt : memVirt < 2 ^ 64)
    (hc : c.Succeed memVirt) (d0 : DriverState) :
    ∃ d, initMemory c d0 = some ⟨0, d⟩ ∧ sizeLimit d = 0x2ba000 ∧
      ∀ requests d', loadFirmwares requests d = some d' → ∀ f : Firmware, f.size ≤ sizeLimit d' →
        (f.signed = true → loadFirmware (.ok f) d' =
          ((writeAll (hostWrites f d') d'.tables).bind fun s =>
            ((imagePages f d').map s).bind (stackPages d').map).map fun s =>
          ⟨0, DriverState.release { d'.acquire .firmware with tables := s } .firmware⟩) ∧
        ¬ StaysInside memVirt f d' ∧ ¬ WritesInside memVirt f d' ∧
        (ImageBelowStack memVirt f d' ↔ f.size + KERNEL_OFFSET ≤ sizeLimit d') ∧
        (PagesApart f d' ↔ f.size + KERNEL_OFFSET ≤ sizeLimit d') := by
  obtain ⟨d, hinit, hr⟩ := initMemory_spec hlt hc d0
  refine ⟨d, hinit, hr.statics.sizeLimit_eq, ?_⟩
  intro requests d' hrun f hf
  have hs := hr.statics.loadFirmwares hrun
  have hout := not_writesInside hlt hs hf
  refine ⟨fun hsigned => ?_, fun h => hout h.2.2, hout, imageBelowStack_iff hlt hs hf,
    pagesApart_iff hs hf⟩
  rw [loadFirmware_eq hsigned hf, placeFirmware_eq]

def sampleMemoryCalls : MemoryCalls := ⟨true, true, some 0xffffc90000000000, 0, fun _ => 0xcc⟩

theorem sampleMemoryCalls_succeed : sampleMemoryCalls.Succeed 0xffffc90000000000 := ⟨rfl, rfl, rfl, rfl⟩

/-- `loadFirmware_window` at the first call, for an image of 3000 bytes. -/
theorem loadFirmware_window_sample :
    ∃ d, initMemory sampleMemoryCalls (DriverState.fresh fun _ => 0) = some ⟨0, d⟩ ∧
      sampleFirmware.size ≤ sizeLimit d ∧ ¬ StaysInside 0xffffc90000000000 sampleFirmware d := by
  obtain ⟨d, hinit, hlimit, h⟩ := loadFirmware_window (by decide) sampleMemoryCalls_succeed
    (DriverState.fresh fun _ => 0)
  have hf : sampleFirmware.size ≤ sizeLimit d := by
    rw [hlimit]
    decide
  exact ⟨d, hinit, hf, (h [] d rfl sampleFirmware hf).2.1⟩

/-- The largest image that passes the check. -/
def largestFirmware : Firmware := { sampleFirmware with size := 0x2ba000 }

/-- It fails all three parts. -/
theorem largestFirmware_leaves :
    ∃ d, initMemory sampleMemoryCalls (DriverState.fresh fun _ => 0) = some ⟨0, d⟩ ∧
      largestFirmware.size ≤ sizeLimit d ∧ ¬ ImageBelowStack 0xffffc90000000000 largestFirmware d ∧
      ¬ PagesApart largestFirmware d ∧ ¬ WritesInside 0xffffc90000000000 largestFirmware d := by
  obtain ⟨d, hinit, hr⟩ := initMemory_spec (by decide) sampleMemoryCalls_succeed
    (DriverState.fresh fun _ => 0)
  have hlimit := hr.statics.sizeLimit_eq
  have hf : largestFirmware.size ≤ sizeLimit d := by
    rw [hlimit]
    decide
  have hover : ¬ largestFirmware.size + KERNEL_OFFSET ≤ sizeLimit d := by
    rw [hlimit]
    decide
  refine ⟨d, hinit, hf, ?_, ?_, not_writesInside (by decide) hr.statics hf⟩
  · rw [imageBelowStack_iff (by decide) hr.statics hf]
    exact hover
  · rw [pagesApart_iff hr.statics hf]
    exact hover

end JudgePenguin.Driver
