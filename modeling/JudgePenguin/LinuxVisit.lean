/-
  JudgePenguin/LinuxVisit.lean
  ============================
  **From `load_firmware` to the kernel and back** — the driver's side of a visit.

  The driver leaves page tables and an image in the reserved memory; `entry`,
  `switch_linux` and `duck_entry` rely on both.  `handed_over` is what the driver
  promises, `kernel_visit` that the way in and the way back work on it, for every
  Linux, every image that fits and every kernel that leaves the trail alone, and
  `kernel_starts` that what the C library then finds is a start of `Trap.platform`.
-/
import JudgePenguin.FirmwareWindow
import JudgePenguin.KernelReturn

namespace JudgePenguin

namespace Driver

section Bases

variable {memVirt : Nat} {d : DriverState} {node : Nodes}

/-- Only `init_memory` assigns the low addresses. -/
theorem loadFirmware_bases {request : Except Int Firmware} {o : Outcome}
    (h : loadFirmware request d = some o) :
    o.state.kernelBase = d.kernelBase ∧ o.state.kernelStackTop = d.kernelStackTop := by
  cases request with
  | error err =>
    cases h
    exact ⟨rfl, rfl⟩
  | ok f =>
    unfold Driver.loadFirmware at h
    dsimp only at h
    split at h
    · cases h
      exact ⟨rfl, rfl⟩
    · split at h
      · cases h
        exact ⟨rfl, rfl⟩
      · obtain ⟨s, -, rfl⟩ := Option.map_eq_some_iff.mp h
        exact ⟨rfl, rfl⟩

theorem loadFirmwares_bases {requests : List (Except Int Firmware)} {d' : DriverState}
    (h : loadFirmwares requests d = some d') :
    d'.kernelBase = d.kernelBase ∧ d'.kernelStackTop = d.kernelStackTop := by
  induction requests generalizing d with
  | nil =>
    cases h
    exact ⟨rfl, rfl⟩
  | cons request rest ih =>
    obtain ⟨o, ho, hrest⟩ := Option.bind_eq_some_iff.mp h
    obtain ⟨hbase, htop⟩ := loadFirmware_bases ho
    obtain ⟨hbase', htop'⟩ := ih hrest
    exact ⟨hbase'.trans hbase, htop'.trans htop⟩

theorem initMemory_bases {c : MemoryCalls} (hlt : memVirt < 2 ^ 64) (hc : c.Succeed memVirt)
    {d0 : DriverState} (h : initMemory c d0 = some ⟨0, d⟩) :
    d.kernelBase = d.pageTableSize ∧ d.kernelStackTop = KERNEL_SIZE := by
  obtain ⟨s, hs, -⟩ := initPageTable_reserved hlt c.memory d0
  rw [initMemory_eq hc hs] at h
  cases h
  exact ⟨rfl, rfl⟩

/-- The invariant depends on the page tables, not on the bytes around them. -/
theorem Reloaded.of_tables {hlt : memVirt < 2 ^ 64} {fs : Firmware → Prop}
    (h : Reloaded memVirt hlt fs d node) {m : Mem}
    (hm : ∀ x, MEM_START ≤ x → x < MEM_START + PAGE_TABLE_SIZE → m x = d.tables.mem x) :
    Reloaded memVirt hlt fs { d with tables := { d.tables with mem := m } } node := by
  obtain ⟨hmaps, hdual⟩ := h.loaded
  refine ⟨⟨h.statics.pageTableSize, h.statics.base, h.statics.top⟩, ⟨?_, hdual⟩, h.covered⟩
  refine hmaps.of_tables (card_windowCands memVirt) fun x hx => ?_
  have hphys : (reserved memVirt hlt).phys = MEM_START := rfl
  have hblocks : (reserved memVirt hlt).blocks = 310 := rfl
  have hpts : PAGE_TABLE_SIZE = 1269760 := by decide
  obtain ⟨h1, h2⟩ := hx
  exact hm x (by omega) (by omega)

end Bases

end Driver

namespace Wrapper

open X86 (Reg Regs Mmu calleeSaved)
open X86.Paged
open Driver (DriverState Firmware MemoryCalls MEM_START MEM_SIZE KERNEL_SIZE KERNEL_STACK_SIZE
  KERNEL_OFFSET PAGE_TABLE_SIZE initMemory loadFirmwares lastAccepted)

section Handover

variable {memVirt : Nat} {calls : MemoryCalls} {f : Firmware}

/-- The tables that the driver keeps are those that CR3 will name. -/
theorem tablesHold_of_reloaded {hlt : memVirt < 2 ^ 64} (hw : Driver.KernelWindow memVirt)
    {fs : Firmware → Prop} {d : DriverState} {node : Driver.Nodes}
    (h : Driver.Reloaded memVirt hlt fs d node) (hf : fs f) (hacc : f.Accepted) {phys : Mem}
    (hphys : ∀ x, MEM_START ≤ x → x < IMAGE → phys x = d.tables.mem x) :
    TablesHold memVirt f phys := by
  intro phys' hsame
  have htables : ∀ x, MEM_START ≤ x → x < MEM_START + PAGE_TABLE_SIZE → phys' x = d.tables.mem x := by
    intro x h1 h2
    rw [hsame x fun h => h ⟨h1, h2⟩, hphys x h1 h2]
  have h' := h.of_tables htables
  obtain ⟨-, hlow, hhigh⟩ := h'.translate hw
  have hroot : d.tables.P4Base = MEM_START := by
    obtain ⟨⟨t, dom, hr, ht, -⟩, -⟩ := h.loaded
    exact hr.root.trans ht.root
  rw [hroot] at hlow hhigh
  exact ⟨hlow, fun o ho => hhigh o (ho.lt hacc) (h'.covered f hf hacc o ho)⟩

/-- What the driver leaves in the reserved memory, and the addresses that it keeps. -/
theorem handed_over (hw : Driver.KernelWindow memVirt) (hc : calls.Succeed memVirt)
    (d0 : DriverState) {requests : List (Except Int Firmware)} (hf : lastAccepted requests = some f)
    (hend : memVirt + KERNEL_SIZE < 2 ^ 64) :
    ∃ d d', initMemory calls d0 = some ⟨0, d⟩ ∧ loadFirmwares requests d = some d' ∧
      LaidOut memVirt d' ∧ ∀ phys : Mem,
        (∀ x, MEM_START ≤ x → x < MEM_START + MEM_SIZE → phys x = d'.tables.mem x) →
        TablesHold memVirt f phys ∧ ∀ o < KERNEL_SIZE, phys (IMAGE + o) = f.image o := by
  have hlt : memVirt < 2 ^ 64 := hw.lt (o := 0) (by decide)
  obtain ⟨d, hinit, hr⟩ := Driver.initMemory_spec hlt hc d0
  obtain ⟨d', node, hrun, hr'⟩ := Driver.loadFirmwares_run hlt hw hr requests
  have hnone : Driver.Held none d.tables.mem := by rintro f' ⟨⟩
  obtain ⟨hheld, -⟩ := Driver.loadFirmwares_image hlt hw hr hnone hrun
  obtain ⟨hbase, htop⟩ := Driver.initMemory_bases hlt hc hinit
  obtain ⟨hbase', htop'⟩ := Driver.loadFirmwares_bases hrun
  have hacc : .ok f ∈ requests ∧ f.Accepted := by
    rcases Driver.foldl_accept hf with hfirst | h
    · cases hfirst
    · exact h
  have himage : f.InPlace d'.tables.mem := hheld f hf
  obtain ⟨hsize, -, -, hpts, hmem, hmemsize, -, -, himageeq, -⟩ := sizes
  refine ⟨d, d', hinit, hrun, ⟨?_, ?_, ?_, ?_⟩, fun phys hphys => ⟨?_, fun o ho => ?_⟩⟩
  · rw [hbase', hbase, hr.statics.pageTableSize]
  · rw [hr'.statics.base]
    exact Nat.mod_eq_of_lt (by omega)
  · rw [htop', htop]
  · rw [hr'.statics.top]
    exact Nat.mod_eq_of_lt hend
  · refine tablesHold_of_reloaded hw hr' (Or.inr hacc.1) hacc.2 fun x h1 h2 => hphys x h1 ?_
    rw [himageeq] at h2
    clear himageeq
    omega
  · rw [← himage o ho]
    refine hphys _ (Nat.le_add_right_of_le (Nat.le_add_right _ _)) ?_
    show MEM_START + PAGE_TABLE_SIZE + o < _
    omega

/-- The words of the file, where `load_firmware` puts them. -/
theorem read64_image {phys : Mem} (h : ∀ o < KERNEL_SIZE, phys (IMAGE + o) = f.image o) {o : Nat}
    (hf : o + 8 ≤ f.size) (hwin : KERNEL_OFFSET + o + 8 ≤ KERNEL_SIZE) :
    phys.read64 (IMAGE + (KERNEL_OFFSET + o)) = f.data.read64 o := by
  have hbytes : phys.read (IMAGE + (KERNEL_OFFSET + o)) 8 = f.data.read o 8 := by
    refine List.map_congr_left fun i hi => ?_
    have hlt := List.mem_range.mp hi
    rw [Nat.add_assoc, h _ (by omega), Firmware.image, if_pos ⟨by omega, by omega⟩,
      Nat.add_assoc KERNEL_OFFSET, Nat.add_sub_cancel_left]
  simp only [Mem.read64, Mem.readLE, hbytes]

theorem read64_entry {l : Link} {I : Trap.Image} (hl : l.Fits f I) {phys : Mem}
    (h : ∀ o < KERNEL_SIZE, phys (IMAGE + o) = f.image o) :
    phys.read64 (IMAGE + 360) = l.entry.toNat := by
  obtain ⟨hsize, hstack, hoffset, hpts, hmem, hmemsize, hsbase, hwords, himage, hheader⟩ := sizes
  have hfile := hl.header
  have hbelow := hl.below
  have hword : phys.read64 (IMAGE + (KERNEL_OFFSET + 8)) = f.data.read64 8 :=
    read64_image h (by omega) (by omega)
  rw [hoffset] at hword
  exact hword.trans hl.entry

end Handover

/-! ## The visit -/

/-- Linux in `jpenguin_main`, on its own tables and stack, with the reserved memory as
    the driver left it. -/
structure InLinux (linux : Nat → Option Nat) (memVirt lo : Nat) (f : Firmware) (place : Nat → Nat)
    (reserved : Mem) (m : Machine) : Prop where
  reserved : ∀ x, MEM_START ≤ x → x < MEM_START + MEM_SIZE → m.core.phys x = reserved x
  cr3 : m.sys.cpu.cr3 = m.core.cr3
  stack : LinuxStack linux memVirt f m.core.cr3 lo place
  rsp : m.core.rsp.toNat = lo + 56

section Visit

variable {memVirt lo : Nat} {linux : Nat → Option Nat} {place : Nat → Nat} {calls : MemoryCalls}
  {f : Firmware} {l : Link} {I : Trap.Image}

theorem lowBase : (UInt64.ofNat PAGE_TABLE_SIZE).toNat = PAGE_TABLE_SIZE := by decide

/-- The way in, from what the driver hands over. -/
theorem visit_started (c : Compiled) (hw : Window memVirt linux) (hc : calls.Succeed memVirt)
    (hl : l.Fits f I) (d0 : DriverState) {requests : List (Except Int Firmware)}
    (hf : lastAccepted requests = some f) (ret : UInt64) :
    ∃ d d', initMemory calls d0 = some ⟨0, d⟩ ∧ loadFirmwares requests d = some d' ∧
      LaidOut memVirt d' ∧
      ∀ m : Machine, InLinux linux memVirt lo f place d'.tables.mem m →
        TablesHold memVirt f m.core.phys ∧
        (∀ o < KERNEL_SIZE, m.core.phys (IMAGE + o) = f.image o) ∧
        (m.sys.cpu.tr / 8 < 16 → Available (m.sys.gdt 2 &&& ~~~DESC_TSS_BUSY) →
          ∃ core, enterKernel (mmu linux) c I l d' ret m = some (.entered ⟨core, entered m.sys⟩) ∧
            Started linux memVirt lo f l I c place (UInt64.ofNat d'.kernelBaseLinux)
              (UInt64.ofNat PAGE_TABLE_SIZE) ret
              (Function.update m.core.regs .rdi (UInt64.ofNat d'.kernelStackTopLinux)) m core) := by
  obtain ⟨d, d', hinit, hrun, hlaid, hhold⟩ := handed_over hw.place hc d0 hf hw.bound
  refine ⟨d, d', hinit, hrun, hlaid, fun m hm => ?_⟩
  obtain ⟨hg, hbytes⟩ := hhold m.core.phys hm.reserved
  refine ⟨hg, hbytes, fun htr hown => ?_⟩
  exact enterKernel_entered ret hw hl hm.stack hlaid rfl lowBase hm.cr3 hg (read64_entry hl hbytes)
    hm.rsp htr hown

/-- A visit to the kernel, after `init_memory` and any calls of `load_firmware`.  If
    `save_linux` refuses, `entry` returns `-1`, and otherwise the C library starts at the low
    address of the image, with the vector that `kern_loader` pushes and `rsp` eight bytes
    off a boundary of 16.  From there every kernel that leaves its page tables and the
    trail alone comes back by `duck_exit`: Linux finds its stack, the registers that a call keeps,
    its page tables and what `save_linux` saved, except `ss`, and the code in `rax`. -/
theorem kernel_visit (segBase : State → UInt16 → UInt64 → UInt64) (c : Compiled)
    (hw : Window memVirt linux) (hc : calls.Succeed memVirt) (hl : l.Fits f I) (d0 : DriverState)
    {requests : List (Except Int Firmware)} (hf : lastAccepted requests = some f) (ret : UInt64) :
    ∃ d d', initMemory calls d0 = some ⟨0, d⟩ ∧ loadFirmwares requests d = some d' ∧
      ∀ m : Machine, InLinux linux memVirt lo f place d'.tables.mem m →
        (m.sys.cpu.tr / 8 ≥ 16 →
          ∃ m', enterKernel (mmu linux) c I l d' ret m = some (.refused m') ∧
            BackIn ret m.core m'.core ∧ m'.sys.cpu = m.sys.cpu ∧ m'.core.regs .rax = 0xffffffff) ∧
        (m.sys.cpu.tr / 8 < 16 → Available (m.sys.gdt 2 &&& ~~~DESC_TSS_BUSY) →
          ∃ core, enterKernel (mmu linux) c I l d' ret m = some (.entered ⟨core, entered m.sys⟩) ∧
            core.rip = UInt64.ofNat PAGE_TABLE_SIZE + l.start ∧ core.cr3 = CR3_PHYS ∧
            TablesHold memVirt f core.phys ∧ core.rsp.toNat % 16 = 8 ∧
            (∀ k < 4, core.load (mmu linux) (core.rsp + UInt64.ofNat (8 * k)) = some 0) ∧
            ∀ m₂, Behaves memVirt f l c place (UInt64.ofNat PAGE_TABLE_SIZE) ⟨core, entered m.sys⟩ m₂ →
              TaskDescribed m.sys.cpu.tr m.sys.linuxGdt →
              ∃ m', leaveKernel (mmu linux) segBase c l m₂ = some m' ∧ BackIn ret m.core m'.core ∧
                m'.core.regs .rax = m₂.core.regs .rdi ∧ m'.core.phys = m₂.core.phys ∧
                RestoredBySwitch m.sys m'.sys m₂.sys.cpu) := by
  obtain ⟨hsize, hstack, hoffset, hpts, hmem, hmemsize, hsbase, hwords, himage, hheader⟩ := sizes
  have hsmall := c.small
  have hodd := c.odd
  obtain ⟨d, d', hinit, hrun, hlaid, hvisit⟩ := visit_started c hw hc hl d0 hf ret
  refine ⟨d, d', hinit, hrun, fun m hm => ?_⟩
  obtain ⟨hg, hbytes, hstart⟩ := hvisit m hm
  refine ⟨fun htr => enterKernel_refused hw hl hm.stack hlaid hg (read64_entry hl hbytes) hm.rsp htr,
    fun htr hown => ?_⟩
  obtain ⟨core, henter, hs⟩ := hstart htr hown
  refine ⟨core, henter, hs.rip, hs.cr3, hs.tables, ?_, fun k hk => ?_, fun m₂ hk htask => ?_⟩
  · rw [hs.rsp]
    omega
  · obtain ⟨h3, h2, h1, h0, -⟩ := hs.vector
    have hword : core.phys.read64 (stackWord (STACK_WORDS - 12 - c.words + k)) = 0 := by
      rcases k with _ | _ | _ | _ | k
      · exact h0
      · exact h1
      · exact h2
      · exact h3
      · omega
    have hto : (core.rsp + UInt64.ofNat (8 * k)).toNat
        = STACK_BASE + 8 * (STACK_WORDS - 12 - c.words + k) := by
      have hk8 : (UInt64.ofNat (8 * k)).toNat = 8 * k := by
        apply UInt64.toNat_ofNat_of_lt'
        exact Nat.lt_of_lt_of_le (show 8 * k < 32 by omega) (by decide)
      rw [UInt64.toNat_add, hs.rsp, hk8]
      omega
    have hload := ((stack_low memVirt linux f).maps (STACK_WORDS - 12 - c.words + k) (by omega)).load
      hs.cr3 hs.tables hto
    rw [hload, hword]
    rfl
  · exact leaveKernel_back segBase hw hl hm.stack (hlaid.toNat hw rfl).1 lowBase hm.cr3 hm.rsp
      (fun r hr => update_rdi_saved hr _ _) hs hk htask

end Visit

/-! ## What the kernel finds -/

/-- The file as the kernel sees it at its low addresses. -/
def linkedAt (f : Firmware) : Mem := fun va => f.image (va - PAGE_TABLE_SIZE)

/-- The descriptors of the kernel's GDT are in the file as well, behind the header. -/
structure GdtFits (l : Link) (f : Firmware) (I : Trap.Image) : Prop where
  file : ∀ i < 10, PAGE_TABLE_SIZE + (KERNEL_OFFSET + HEADER_SIZE) ≤ I.gdtSlot i ∧
    I.gdtSlot i + 8 ≤ PAGE_TABLE_SIZE + (KERNEL_OFFSET + f.size)
  cell : ∀ i < 10, ∀ a ∈ l.cells, Mem.Apart64 (I.gdtSlot i) (PAGE_TABLE_SIZE + a.toNat)

section Start

variable {memVirt lo : Nat} {linux : Nat → Option Nat} {place : Nat → Nat} {calls : MemoryCalls}
  {f : Firmware} {l : Link} {I : Trap.Image} {m phys : Mem} {S : Nat → Prop}

/-- A pointer is the same pointer at its low address. -/
theorem dynlinkPtr_low (h : ∀ va, S va → m va = phys (MEM_START + va)) (offset : Nat) {t : Nat}
    (ht : ∀ va, t ≤ va → va < t + 8 → S va) {va : Nat} (hva : S va) :
    Trap.dynlinkPtr offset m t va = Trap.dynlinkPtr offset phys (MEM_START + t) (MEM_START + va) := by
  have hread : m.read t 8 = phys.read (MEM_START + t) 8 := by
    refine List.map_congr_left fun i hi => ?_
    have hlt := List.mem_range.mp hi
    rw [Nat.add_assoc]
    exact h _ (ht _ (by omega) (by omega))
  have hword : m.read64 t = phys.read64 (MEM_START + t) := by
    simp only [Mem.read64, Mem.readLE, hread]
  simp only [Trap.dynlinkPtr, hword]
  split
  · simp only [Mem.write64, Mem.write, Mem.length_leBytes, Nat.add_sub_add_left]
    by_cases hin : t ≤ va ∧ va < t + 8
    · rw [if_pos hin, if_pos (by omega)]
    · rw [if_neg hin, if_neg (by omega)]
      exact h va hva
  · exact h va hva

/-- So is the whole relocation, on the bytes of the pointers. -/
theorem fakeDynlink_low (h : ∀ va, SlotBytes I (MEM_START + va) → m va = phys (MEM_START + va)) :
    (∀ va, SlotBytes I (MEM_START + va) → Trap.fakeDynlink I m va = relocate I phys (MEM_START + va)) ∧
      ∀ va, ¬ SlotBytes I (MEM_START + va) → Trap.fakeDynlink I m va = m va := by
  suffices H : ∀ slots : List Nat, (∀ t ∈ slots, t ∈ I.slots) → ∀ m phys : Mem,
      (∀ va, SlotBytes I (MEM_START + va) → m va = phys (MEM_START + va)) →
      (∀ va, SlotBytes I (MEM_START + va) → slots.foldl (Trap.dynlinkPtr I.kernelBase) m va =
        slots.foldl (fun phys t => Trap.dynlinkPtr I.kernelBase phys (MEM_START + t)) phys
          (MEM_START + va)) ∧
      ∀ va, ¬ SlotBytes I (MEM_START + va) → slots.foldl (Trap.dynlinkPtr I.kernelBase) m va = m va from
    H I.slots (fun t ht => ht) m phys h
  intro slots hslots
  induction slots with
  | nil => exact fun m phys h => ⟨h, fun _ _ => rfl⟩
  | cons t slots ih =>
    intro m phys h
    have ht := hslots t List.mem_cons_self
    have hslot : ∀ va, t ≤ va → va < t + 8 → SlotBytes I (MEM_START + va) :=
      fun va h1 h2 => ⟨t, ht, by omega, by omega⟩
    have hsame : ∀ va, SlotBytes I (MEM_START + va) → Trap.dynlinkPtr I.kernelBase m t va =
        Trap.dynlinkPtr I.kernelBase phys (MEM_START + t) (MEM_START + va) :=
      fun va hva => dynlinkPtr_low h I.kernelBase hslot hva
    have hkeep : ∀ va, ¬ SlotBytes I (MEM_START + va) → Trap.dynlinkPtr I.kernelBase m t va = m va :=
      fun va hva => dynlinkPtr_eqOff I.kernelBase m t va fun hx => hva (hslot va hx.1 hx.2)
    rw [List.foldl_cons, List.foldl_cons]
    generalize Trap.dynlinkPtr I.kernelBase m t = m' at hsame hkeep ⊢
    generalize Trap.dynlinkPtr I.kernelBase phys (MEM_START + t) = phys' at hsame ⊢
    obtain ⟨hin, hout⟩ := ih (fun t ht => hslots t (List.mem_cons_of_mem _ ht)) m' phys' hsame
    exact ⟨hin, fun va hva => (hout va hva).trans (hkeep va hva)⟩

/-- A pointer of `m` after the relocation of its bytes in physical memory. -/
theorem read64_relocate {s : Mem} (hI : I.Linked)
    (hm : ∀ va, SlotBytes I (MEM_START + va) → m va = phys (MEM_START + va))
    (hs : ∀ va, SlotBytes I (MEM_START + va) → s va = relocate I phys (MEM_START + va)) {t : Nat}
    (ht : t ∈ I.slots) : s.read64 t = Trap.relocated I.kernelBase (m.read64 t) := by
  rw [← Trap.read64_fakeDynlink hI ht]
  apply Mem.read64_congr
  intro i hi
  have hva : SlotBytes I (MEM_START + (t + i)) := ⟨t, ht, by omega, by omega⟩
  rw [(fakeDynlink_low hm).1 _ hva, hs _ hva]

/-- A memory starts the platform if its pointers are those of the file, relocated, and
    what no pointer covers of the GDT is as in the file. -/
theorem starts_relocated (hI : I.Loaded (linkedAt f)) {s : Trap.Platform}
    (hbooted : s.booted = false) {before : Mem}
    (hbefore : ∀ va, SlotBytes I (MEM_START + va) → linkedAt f va = before (MEM_START + va))
    (hslots : ∀ va, SlotBytes I (MEM_START + va) → s.mem va = relocate I before (MEM_START + va))
    (hgdt : ∀ i < 10, ∀ j < 8, ¬ SlotBytes I (MEM_START + (I.gdtSlot i + j)) →
      s.mem (I.gdtSlot i + j) = linkedAt f (I.gdtSlot i + j)) : (Trap.platform I).start s := by
  classical
  -- the memory before the relocation
  let m₀ : Mem := fun va => if SlotBytes I (MEM_START + va) then linkedAt f va else s.mem va
  have hm₀ : ∀ va, SlotBytes I (MEM_START + va) → m₀ va = before (MEM_START + va) := by
    intro va hva
    rw [← hbefore va hva]
    exact if_pos hva
  obtain ⟨hin, hout⟩ := fakeDynlink_low hm₀
  refine ⟨⟨m₀, ⟨fun n hn => ?_, fun i hi => ?_⟩, funext fun va => ?_⟩, hbooted⟩
  · rw [← hI.traps n hn]
    apply Mem.read64_congr
    intro i hi
    have hslot : I.trapSlot n ∈ I.slots :=
      List.mem_append_right _ (List.mem_map.mpr ⟨n, List.mem_range.mpr hn, rfl⟩)
    exact if_pos ⟨_, hslot, by omega, by omega⟩
  · rw [← hI.gdt i hi]
    apply Mem.read64_congr
    intro j hj
    by_cases hva : SlotBytes I (MEM_START + (I.gdtSlot i + j))
    · exact if_pos hva
    · exact (if_neg hva).trans (hgdt i hi j hj hva)
  · by_cases hva : SlotBytes I (MEM_START + va)
    · rw [hin va hva, hslots va hva]
    · rw [hout va hva]
      exact (if_neg hva).symm

/-- The C library finds the reserved memory at the low addresses, and it is the memory of a
    start of `Trap.platform`: the image of the linker, relocated once.  Where the pointers
    have places of their own, each is that of the file, relocated once. -/
theorem kernel_starts (c : Compiled) (hw : Window memVirt linux) (hc : calls.Succeed memVirt)
    (hl : l.Fits f I) (hgdt : GdtFits l f I) (hI : I.Loaded (linkedAt f)) (d0 : DriverState)
    {requests : List (Except Int Firmware)} (hf : lastAccepted requests = some f) (ret : UInt64) :
    ∃ d d', initMemory calls d0 = some ⟨0, d⟩ ∧ loadFirmwares requests d = some d' ∧
      ∀ m : Machine, InLinux linux memVirt lo f place d'.tables.mem m → m.sys.cpu.tr / 8 < 16 →
        Available (m.sys.gdt 2 &&& ~~~DESC_TSS_BUSY) →
        ∃ core, enterKernel (mmu linux) c I l d' ret m = some (.entered ⟨core, entered m.sys⟩) ∧
          (∀ va < MEM_SIZE, mmu linux core.cr3 core.phys va = some (MEM_START + va)) ∧
          ∀ s : Trap.Platform, s.booted = false →
            (∀ va < MEM_SIZE, s.mem va = core.phys (MEM_START + va)) →
            (Trap.platform I).start s ∧ (I.Linked → ∀ t ∈ I.slots,
              s.mem.read64 t = Trap.relocated I.kernelBase ((linkedAt f).read64 t)) := by
  obtain ⟨hsize, hstack, hoffset, hpts, hmem, hmemsize, hsbase, hwords, himage, hheader⟩ := sizes
  have hbelow := hl.below
  obtain ⟨d, d', hinit, hrun, -, hvisit⟩ := visit_started c hw hc hl d0 hf ret
  refine ⟨d, d', hinit, hrun, fun m hm htr hown => ?_⟩
  obtain ⟨-, hbytes, hstart⟩ := hvisit m hm
  obtain ⟨core, henter, hs⟩ := hstart htr hown
  refine ⟨core, henter, fun va hva => ?_, fun s hbooted hlow => ?_⟩
  · rw [hs.cr3]
    exact (maps_low (show va + 1 ≤ MEM_SIZE from hva)).bytes core.phys hs.tables 0 (by decide)
  -- a byte of the file, as the driver left it
  have hfile : ∀ va, PAGE_TABLE_SIZE ≤ va → va < PAGE_TABLE_SIZE + (KERNEL_OFFSET + f.size) →
      m.core.phys (MEM_START + va) = linkedAt f va := by
    intro va h1 h2
    have hplace : MEM_START + va = IMAGE + (va - PAGE_TABLE_SIZE) := by omega
    rw [hplace, hbytes _ (by omega)]
    rfl
  obtain ⟨before, hbefore, hafter⟩ := hs.relocated
  have hslots : ∀ va, SlotBytes I (MEM_START + va) →
      s.mem va = relocate I before (MEM_START + va) := by
    intro va hva
    have hbounds := hva.bounds hl
    rw [hlow va (by omega), hafter _ hva]
  have hlinkedAt : ∀ va, SlotBytes I (MEM_START + va) → linkedAt f va = before (MEM_START + va) := by
    intro va hva
    have hbounds := hva.bounds hl
    rw [hbefore _ hva, hfile va (by omega) (by omega)]
  refine ⟨starts_relocated hI hbooted hlinkedAt hslots fun i hi j hj hslot => ?_,
    fun hlinked t ht => read64_relocate hlinked hlinkedAt hslots ht⟩
  obtain ⟨h1, h2⟩ := hgdt.file i hi
  rw [hlow _ (by omega), ← hfile _ (by omega) (by omega)]
  refine hs.off _ ?_
  rintro (h | h | ⟨a, ha, h⟩ | h | h)
  · exact not_linux hm.stack (by omega) (by omega) h
  · have hstackx := stack_bounds hl le_rfl h
    omega
  · have hapart := hgdt.cell i hi a ha
    unfold Mem.Apart64 at hapart
    obtain ⟨h3, h4⟩ := h
    omega
  · exact hslot h
  · omega

end Start

/-! ## A visit of a kernel that does nothing -/

/-- `switch_linux` with `kernel_stack_top` in `rbx`. -/
def sampleCompiled : Compiled where
  words := 1
  spill f := [f .rbx]
  atCall f v := Function.update (Function.update f .rdi v) .rbx (f .rdi)
  unspill g ws := Function.update g .rbx (ws.headD 0)
  odd := rfl
  small := by decide
  length_spill f := rfl
  atCall_rdi f v := by
    rw [Function.update_of_ne (by decide), Function.update_self]
  returns f v g h := by
    refine ⟨Function.update_of_ne (by decide) _ _, fun r hr => ?_⟩
    by_cases hrbx : r = .rbx
    · subst hrbx
      exact Function.update_self ..
    · have hrdi : r ≠ .rdi := by
        rintro rfl
        exact absurd hr (by decide)
      rw [Function.update_of_ne hrbx, h r hr, Function.update_of_ne hrbx, Function.update_of_ne hrdi]

def sampleLink : Link where
  entry := 0x1000
  entryReturn := 0x1020
  linuxRsp := 0x1040
  linuxCr3 := 0x1048
  switchLinux := 0x1100
  switchReturn := 0x1180
  duckEntry := 0x1200
  duckExit := 0x1220
  wrapperRsp := 0x1240
  kernLoader := 0x1300
  start := 0x1400

def visitedAddr : Trap.Static → Nat
  | .idt => 0x140000
  | .gdt => 0x141000
  | .taskState => 0x141100
  | .syscallStack => 0x141200
  | .traps => 0x142000

theorem visitedAddr_bound (x : Trap.Static) : visitedAddr x + x.size ≤ 2 ^ 47 := by
  cases x <;> decide

theorem visitedAddr_apart (x y : Trap.Static) (h : x ≠ y) :
    visitedAddr x + x.size ≤ visitedAddr y ∨ visitedAddr y + y.size ≤ visitedAddr x := by
  cases x <;> cases y <;> first | exact absurd rfl h | decide

theorem visitedStack_bound : 0x150000 + 8 * Trap.STACK_SIZE ≤ 2 ^ 47 := by decide

theorem visitedStack_aligned : Trap.STACK_SIZE ∣ 0x150000 := by decide

theorem visitedEntry : 0x139000 < 2 ^ 47 := by decide

theorem visitedStubs (n : Nat) (hn : n < 256) :
    0x2000 + 16 * n ≠ 0 ∧ 0x136000 + (0x2000 + 16 * n) < 2 ^ 47 := by omega

/-- The kernel of `sampleLink`, behind the page tables. -/
def visitedImage : Trap.Image where
  kernelBase := 0x136000
  addr := visitedAddr
  interruptStack := 0x150000
  syscallEntry := 0x139000
  stub n := 0x2000 + 16 * n
  symbols :=
    { initArrayStart := 0x160000, initArrayEnd := 0x160010, finiArrayStart := 0x160010
      finiArrayEnd := 0x160020, stdoutFile := 0x161000, stdout := 0x160100, stdoutUsed := 0x160108
      stderrFile := 0x162000, stderr := 0x160110, stderrUsed := 0x160118 }
  bound := visitedAddr_bound
  apart := visitedAddr_apart
  stack_bound := visitedStack_bound
  stack_aligned := visitedStack_aligned
  entry_bound := visitedEntry
  stubs := visitedStubs

theorem visitedImage_slots : ∀ s ∈ visitedImage.slots, 0x142000 ≤ s ∧ s ≤ 0x162060 := by
  intro s hs
  rcases List.mem_append.mp hs with h | h
  · revert s
    decide +kernel
  · obtain ⟨n, hn, rfl⟩ := List.mem_map.mp h
    have hlt := List.mem_range.mp hn
    have hslot : visitedImage.trapSlot n = 0x142000 + 8 * n := rfl
    omega

/-- The byte at a link address. -/
def visitedByte (a : Nat) : UInt8 :=
  if a < KERNEL_OFFSET + 8 then
    [0x4a, 0x50, 0x65, 0x6e, 0x67, 0x75, 0x69, 0x6e].getD (a - KERNEL_OFFSET) 0
  else if a = KERNEL_OFFSET + 9 then 0x10
  else if 0xc000 ≤ a ∧ a < 0xc800 then
    UInt8.ofNat ((0x2000 + 16 * ((a - 0xc000) / 8)) / 256 ^ ((a - 0xc000) % 8))
  else if 0xb000 ≤ a ∧ a < 0xb060 then
    UInt8.ofNat ((Trap.gdtInitial.getD ((a - 0xb000) / 8) 0).toNat / 256 ^ ((a - 0xb000) % 8))
  else 0

def visitedFirmware : Firmware := ⟨0x30000, fun o => visitedByte (KERNEL_OFFSET + o)⟩

theorem sampleLink_fits : sampleLink.Fits visitedFirmware visitedImage where
  below := by decide
  header := by decide
  entry := by decide
  code := by
    simp only [Link.codes, List.mem_cons, List.not_mem_nil, or_false, forall_eq_or_imp, forall_eq]
    decide
  cell := by
    simp only [Link.cells, List.mem_cons, List.not_mem_nil, or_false, forall_eq_or_imp, forall_eq]
    decide
  apart := by
    unfold Mem.Apart64
    decide
  base := by decide
  slot s hs := by
    obtain ⟨h1, h2⟩ := visitedImage_slots s hs
    have hpts : PAGE_TABLE_SIZE + (KERNEL_OFFSET + HEADER_SIZE) ≤ 0x142000 := by decide
    have hend : 0x162068 ≤ PAGE_TABLE_SIZE + (KERNEL_OFFSET + visitedFirmware.size) := by decide
    omega
  slot_cell s hs a ha := by
    obtain ⟨h1, -⟩ := visitedImage_slots s hs
    have hcell : ∀ a ∈ sampleLink.cells, PAGE_TABLE_SIZE + a.toNat + 8 ≤ 0x142000 := by
      simp only [Link.cells, List.mem_cons, List.not_mem_nil, or_false, forall_eq_or_imp, forall_eq]
      decide
    exact Or.inr (le_trans (hcell a ha) h1)

/-- The window, and one page for the stack. -/
def sampleLinux (va : Nat) : Option Nat :=
  if 0xffffc90000000000 ≤ va ∧ va < 0xffffc90000400000 then
    some (MEM_START + (va - 0xffffc90000000000))
  else if 0xffffc90001000000 ≤ va ∧ va < 0xffffc90001001000 then
    some (0x2000 + (va - 0xffffc90001000000))
  else none

theorem sampleLinux_window : Window 0xffffc90000000000 sampleLinux where
  place := Driver.kernelWindow_sample
  maps o ho := by
    have hsize : KERNEL_SIZE = 4194304 := by decide
    rw [sampleLinux, if_pos ⟨by omega, by omega⟩, Nat.add_sub_cancel_left]

theorem sampleLinux_stack : LinuxStack sampleLinux 0xffffc90000000000 visitedFirmware 0x1000
    0xffffc90001000000 (fun k => 0x2000 + 8 * k) where
  stack := by
    refine ⟨fun k hk => ⟨fun phys _ i hi => ?_⟩, fun j hj k hk hne => ?_, fun k hk x h1 h2 => ?_,
      by decide⟩
    · have hne : ¬ (0x1000 : UInt64) = CR3_PHYS := by decide
      rw [mmu, if_neg hne, sampleLinux, if_neg (by omega), if_pos ⟨by omega, by omega⟩,
        Nat.add_assoc, Nat.add_sub_cancel_left, ← Nat.add_assoc]
    · unfold Mem.Apart64
      omega
    · have hmem : MEM_START = 1073741824 := by decide
      rintro ⟨hge, -⟩
      omega
  outside k hk := by
    have hmem : MEM_START = 1073741824 := by decide
    omega

/-- Linux, about to visit the kernel in `mem`. -/
def sampleMachine (mem : Mem) : Machine where
  core :=
    { regs := fun _ => 7, rsp := 0xffffc90001000038, rip := 0, cr3 := 0x1000, phys := mem }
  sys := linuxState 0x40

/-- A kernel that calls `duck_exit` at once, with `rdi` as it is. -/
theorem kernel_visit_sample : ∃ d d', initMemory Driver.sampleMemoryCalls
      (DriverState.fresh fun _ => 0) = some ⟨0, d⟩ ∧
    loadFirmwares [.ok visitedFirmware] d = some d' ∧
    ∃ core m', enterKernel (mmu sampleLinux) sampleCompiled visitedImage sampleLink d' 0x1234
        (sampleMachine d'.tables.mem) = some (.entered ⟨core, entered (linuxState 0x40)⟩) ∧
      leaveKernel (mmu sampleLinux) (fun _ _ base => base) sampleCompiled sampleLink
        ⟨{ core with rip := UInt64.ofNat PAGE_TABLE_SIZE + sampleLink.duckExit },
          entered (linuxState 0x40)⟩ = some m' ∧
      BackIn 0x1234 (sampleMachine d'.tables.mem).core m'.core ∧ m'.sys.cpu.tr = 0x40 := by
  obtain ⟨d, d', hinit, hrun, h⟩ := kernel_visit (fun _ _ base => base) sampleCompiled
    sampleLinux_window Driver.sampleMemoryCalls_succeed sampleLink_fits (DriverState.fresh fun _ => 0)
    (show lastAccepted [.ok visitedFirmware] = some visitedFirmware from rfl) 0x1234
  have hin : InLinux sampleLinux 0xffffc90000000000 0xffffc90001000000 visitedFirmware
      (fun k => 0x2000 + 8 * k) d'.tables.mem (sampleMachine d'.tables.mem) :=
    ⟨fun _ _ _ => rfl, rfl, sampleLinux_stack, rfl⟩
  obtain ⟨core, henter, -, hc, hg, -, -, hback⟩ := (h _ hin).2
    (show (linuxState 0x40).cpu.tr / 8 < 16 by decide)
    (show Available ((linuxState 0x40).gdt 2 &&& ~~~DESC_TSS_BUSY) by decide)
  obtain ⟨m', hleave, hbackin, -, -, hrestored⟩ := hback
    ⟨{ core with rip := UInt64.ofNat PAGE_TABLE_SIZE + sampleLink.duckExit },
      entered (linuxState 0x40)⟩ ⟨rfl, hc, hg, fun _ _ => rfl, rfl⟩
    (show TaskDescribed (linuxState 0x40).cpu.tr (linuxState 0x40).linuxGdt from
      ⟨by decide, by decide, by decide⟩)
  exact ⟨d, d', hinit, hrun, core, m', henter, hleave, hbackin, hrestored.restored.tr⟩

theorem visitedImage_loaded : visitedImage.Loaded (linkedAt visitedFirmware) where
  traps := by decide +kernel
  gdt := by decide +kernel

theorem sampleLink_gdtFits : GdtFits sampleLink visitedFirmware visitedImage where
  file := by decide +kernel
  cell := by
    simp only [Link.cells, List.mem_cons, List.not_mem_nil, or_false, forall_eq_or_imp, forall_eq]
    unfold Mem.Apart64
    decide +kernel

theorem visitedImage_linked : visitedImage.Linked where
  slots_apart := by decide +kernel
  traps_apart := by decide +kernel
  gdt_apart := by decide +kernel

theorem kernel_starts_sample : ∃ d d', initMemory Driver.sampleMemoryCalls
      (DriverState.fresh fun _ => 0) = some ⟨0, d⟩ ∧
    loadFirmwares [.ok visitedFirmware] d = some d' ∧
    ∃ core, enterKernel (mmu sampleLinux) sampleCompiled visitedImage sampleLink d' 0x1234
        (sampleMachine d'.tables.mem) = some (.entered ⟨core, entered (linuxState 0x40)⟩) ∧
      (Trap.platform visitedImage).start
        ⟨fun va => core.phys (MEM_START + va), ⟨⟨0, 0⟩, ⟨0, 0⟩, ⟨0, 0⟩⟩, ⟨0, 0, 0, 0, 0⟩, false⟩ ∧
      Mem.read64 (fun va => core.phys (MEM_START + va)) 0x142008 = 0x136000 + 0x2010 ∧
      Mem.read64 (fun va => core.phys (MEM_START + va)) 0x160000 = 0 := by
  obtain ⟨d, d', hinit, hrun, h⟩ := kernel_starts sampleCompiled sampleLinux_window
    Driver.sampleMemoryCalls_succeed sampleLink_fits sampleLink_gdtFits visitedImage_loaded
    (DriverState.fresh fun _ => 0)
    (show lastAccepted [.ok visitedFirmware] = some visitedFirmware from rfl) 0x1234
  have hin : InLinux sampleLinux 0xffffc90000000000 0xffffc90001000000 visitedFirmware
      (fun k => 0x2000 + 8 * k) d'.tables.mem (sampleMachine d'.tables.mem) :=
    ⟨fun _ _ _ => rfl, rfl, sampleLinux_stack, rfl⟩
  obtain ⟨core, henter, -, hstart⟩ := h _ hin
    (show (linuxState 0x40).cpu.tr / 8 < 16 by decide)
    (show Available ((linuxState 0x40).gdt 2 &&& ~~~DESC_TSS_BUSY) by decide)
  obtain ⟨hplatform, hpointers⟩ := hstart
    ⟨fun va => core.phys (MEM_START + va), ⟨⟨0, 0⟩, ⟨0, 0⟩, ⟨0, 0⟩⟩, ⟨0, 0, 0, 0, 0⟩, false⟩ rfl
    fun _ _ => rfl
  refine ⟨d, d', hinit, hrun, core, henter, hplatform, ?_, ?_⟩
  · rw [hpointers visitedImage_linked 0x142008 (by decide +kernel)]
    decide +kernel
  · rw [hpointers visitedImage_linked 0x160000 (by decide +kernel)]
    decide +kernel

end Wrapper

end JudgePenguin
