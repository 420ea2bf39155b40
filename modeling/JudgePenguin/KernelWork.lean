/-
  JudgePenguin/KernelWork.lean
  ============================
  **What the kernel does during a visit does not cut off the way back.**

  A kernel comes back to Linux when it leaves its page tables and the trail alone
  (`Behaves`).  Two parts of it store wherever they are asked to: the allocator of
  virtual memory and the loader of programs.  Both stay above `kernel_break`, which
  lies above the trail, so that any order of their calls keeps the way back open
  (`work_returns`); nothing is assumed of the sizes and the files.
-/
import JudgePenguin.LinuxVisit
import JudgePenguin.Lts
import JudgePenguin.MemoryIsolation

namespace JudgePenguin

namespace Wrapper

open X86.Paged
open Driver (DriverState MemoryCalls Firmware MEM_START MEM_SIZE KERNEL_SIZE KERNEL_OFFSET
  PAGE_TABLE_SIZE initMemory loadFirmwares lastAccepted)

/-! ## The kernel at work -/

/-- What the kernel sees at its low addresses. -/
def lowView (phys : Mem) : Mem := fun va => phys (MEM_START + va)

theorem read64_lowView (phys : Mem) (a : Nat) :
    (lowView phys).read64 a = phys.read64 (MEM_START + a) := by
  have hread : (lowView phys).read a 8 = phys.read (MEM_START + a) 8 :=
    List.map_congr_left fun i _ => congrArg phys (Nat.add_assoc ..).symm
  simp only [Mem.read64, Mem.readLE, hread]

inductive Work where
  | call (c : MemoryCall)
  | stores

/-- A call of the allocator or of the loader, or stores of anything else that spare `S`. -/
inductive Works (S : Nat → Prop) : MemoryState → Work → MemoryState → Prop
  | call (s : MemoryState) (c : MemoryCall) : Works S s (.call c) (s.call c)
  | stores (s : MemoryState) {umem : Mem} (h : ∀ va, S va → umem va = s.umem va) :
    Works S s .stores { s with umem := umem }

/-- The kernel at work, from `Memory::init` on. -/
def kernelWork (S : Nat → Prop) (umem : Mem) : Lts MemoryState Work where
  start s := s = MemoryState.init umem
  step := Works S

/-- The runs of the allocator and the loader alone are among these. -/
theorem calls_run (S : Nat → Prop) (umem : Mem) (s : MemoryState) (calls : List MemoryCall) :
    (kernelWork S umem).Run s (calls.map Work.call) (s.run calls) := by
  induction calls generalizing s with
  | nil => exact .nil s
  | cons c calls ih => exact .cons (.call s c) (ih (s.call c))

/-- The loader stores above `kernel_break`, and the allocator does not store. -/
theorem call_below (s : MemoryState) (c : MemoryCall) {va : Nat} (h : va < KERNEL_BREAK) :
    (s.call c).umem va = s.umem va := by
  cases c with
  | allocate size =>
    rw [MemoryState.call]
    cases allocateVirtualMemory s.breaks size with
    | none => rfl
    | some region => rfl
  | load file config tscFreq =>
    simp only [MemoryState.call]
    cases hload : ELF.load file config tscFreq s.breaks s.umem with
    | error stop => rfl
    | ok r =>
      obtain ⟨range, layout, -, -, hconf⟩ :=
        (ELF.load_confined file config tscFreq s.breaks s.umem).2 r hload
      refine Mem.apply_untouched s.umem ?_
      rintro ⟨w, hw, hlow, -⟩
      have hstart := (hconf.writes w hw).1
      have hbreak : KERNEL_BREAK = 0x400000 := rfl
      omega

/-- Every run leaves the spared bytes as they were. -/
theorem spared_inductive {S : Nat → Prop} (hS : ∀ va, S va → va < KERNEL_BREAK) (umem : Mem) :
    (kernelWork S umem).Inductive fun s => ∀ va, S va → s.umem va = umem va where
  start := by
    rintro s rfl va -
    rfl
  step := by
    intro s w s' hs hstep va hva
    cases hstep with
    | call c => rw [call_below s c (hS va hva), hs va hva]
    | stores h => exact (h va hva).trans (hs va hva)

/-! ## The way back -/

/-- The page tables and the trail, at their low addresses. -/
def Spared (l : Link) (c : Compiled) (place : Nat → Nat) (va : Nat) : Prop :=
  va < KERNEL_SIZE ∧ (va < PAGE_TABLE_SIZE ∨ TrailBytes l c place (MEM_START + va))

/-- At `duck_exit`, with the memory of `s` at the low addresses. -/
structure WorkedTo (l : Link) (kb : UInt64) (m₁ : Machine) (s : MemoryState) (m₂ : Machine) :
    Prop where
  rip : m₂.core.rip = kb + l.duckExit
  cr3 : m₂.core.cr3 = m₁.core.cr3
  low : ∀ va < MEM_SIZE, m₂.core.phys (MEM_START + va) = s.umem va
  other : ∀ x, ¬ (MEM_START ≤ x ∧ x < MEM_START + MEM_SIZE) → m₂.core.phys x = m₁.core.phys x
  sys : m₂.sys = { m₁.sys with cpu := m₂.sys.cpu }

section Back

variable {memVirt lo : Nat} {linux : Nat → Option Nat} {place : Nat → Nat} {calls : MemoryCalls}
  {f : Firmware} {l : Link} {I : Trap.Image} {c : Compiled} {kb cr3 : UInt64} {m₁ m₂ : Machine}
  {s : MemoryState}

/-- What of the trail is in the reserved memory is below `kernel_break`. -/
theorem trail_low (hl : l.Fits f I) (hL : LinuxStack linux memVirt f cr3 lo place) {x : Nat}
    (h : TrailBytes l c place x) (h1 : MEM_START ≤ x) (h2 : x < MEM_START + MEM_SIZE) :
    x < MEM_START + KERNEL_SIZE := by
  obtain ⟨hsize, -, -, hpts, hmem, -, hsbase, -, himage, -⟩ := sizes
  have hbelow := hl.below
  rcases h with h | h | ⟨a, ha, h⟩
  · exact absurd h (hL.not_words h1 h2)
  · exact (stack_bounds hl le_rfl h).2
  · have hin := cell_bounds hl ha h
    omega

/-- A kernel that works so behaves. -/
theorem WorkedTo.behaves (h : WorkedTo l kb m₁ s m₂) (hl : l.Fits f I)
    (hL : LinuxStack linux memVirt f cr3 lo place) (hc : m₁.core.cr3 = CR3_PHYS)
    (hg : TablesHold memVirt f m₁.core.phys)
    (hs : (kernelWork (Spared l c place) (lowView m₁.core.phys)).Reachable s) :
    Behaves memVirt f l c place kb m₁ m₂ := by
  obtain ⟨hsize, -, -, hpts, hmem, hmemsize, -, -, himage, -⟩ := sizes
  have hspared : ∀ va, Spared l c place va →
      m₂.core.phys (MEM_START + va) = m₁.core.phys (MEM_START + va) := by
    intro va hva
    have hlt := hva.1
    rw [h.low va (by omega)]
    exact (spared_inductive (fun va hva => hva.1) _).reachable hs va hva
  refine ⟨h.rip, h.cr3.trans hc, tablesHold_keeps memVirt f _ _ hg fun x hx => ?_, fun x hx => ?_, h.sys⟩
  · obtain ⟨h1, h2⟩ := not_not.mp hx
    obtain ⟨va, rfl⟩ := Nat.exists_eq_add_of_le h1
    exact hspared va ⟨by omega, Or.inl (by omega)⟩
  · by_cases hin : MEM_START ≤ x ∧ x < MEM_START + MEM_SIZE
    · have hlow := trail_low hl hL hx hin.1 hin.2
      obtain ⟨va, rfl⟩ := Nat.exists_eq_add_of_le hin.1
      exact hspared va ⟨by omega, Or.inr hx⟩
    · exact h.other x hin

/-- **No work cuts off the way back.**  `Memory::init` finds its `kernel_break` in the
    header, and in every run from there, whatever is allocated, loaded and stored
    elsewhere, `duck_exit` ends in Linux as it was left. -/
theorem work_returns (segBase : State → UInt16 → UInt64 → UInt64) (c : Compiled)
    (hw : Window memVirt linux) (hc : calls.Succeed memVirt) (hl : l.Fits f I) (d0 : DriverState)
    {requests : List (Except Int Firmware)} (hf : lastAccepted requests = some f) (ret : UInt64) :
    ∃ d d', initMemory calls d0 = some ⟨0, d⟩ ∧ loadFirmwares requests d = some d' ∧
      ∀ m : Machine, InLinux linux memVirt lo f place d'.tables.mem m → m.sys.cpu.tr / 8 < 16 →
        Available (m.sys.gdt 2 &&& ~~~DESC_TSS_BUSY) → TaskDescribed m.sys.cpu.tr m.sys.linuxGdt →
        ∃ core, enterKernel (mmu linux) c I l d' ret m = some (.entered ⟨core, entered m.sys⟩) ∧
          (lowView core.phys).read64
              (PAGE_TABLE_SIZE + (UInt64.ofNat KERNEL_OFFSET + HEADER_KERNEL_STACK_TOP).toNat) =
            MemoryBreaks.init.kernelBreak ∧
          ∀ s, (kernelWork (Spared l c place) (lowView core.phys)).Reachable s →
            ∀ m₂, WorkedTo l (UInt64.ofNat PAGE_TABLE_SIZE) ⟨core, entered m.sys⟩ s m₂ →
              ∃ m', leaveKernel (mmu linux) segBase c l m₂ = some m' ∧ BackIn ret m.core m'.core ∧
                m'.core.regs .rax = m₂.core.regs .rdi ∧ m'.core.phys = m₂.core.phys ∧
                RestoredBySwitch m.sys m'.sys m₂.sys.cpu := by
  obtain ⟨d, d', hinit, hrun, hlaid, hvisit⟩ := visit_started c hw hc hl d0 hf ret
  refine ⟨d, d', hinit, hrun, fun m hm htr hown htask => ?_⟩
  obtain ⟨-, -, hstart⟩ := hvisit m hm
  obtain ⟨core, henter, hs⟩ := hstart htr hown
  refine ⟨core, henter, ?_, fun s hreach m₂ hwork => ?_⟩
  · rw [read64_lowView, ← Nat.add_assoc]
    exact hs.kernelStackTop
  · exact leaveKernel_back segBase hw hl hm.stack (hlaid.toNat hw rfl).1 lowBase hm.cr3 hm.rsp
      (fun r hr => update_rdi_saved hr _ _) hs (hwork.behaves hl hm.stack hs.cr3 hs.tables hreach)
      htask

end Back

/-- The memory `phys` with that of `umem` at the low addresses. -/
def putLow (phys umem : Mem) : Mem := fun x =>
  if MEM_START ≤ x ∧ x < MEM_START + MEM_SIZE then umem (x - MEM_START) else phys x

/-- Linux after a visit in which a program was loaded between two allocations. -/
theorem work_returns_sample : ∃ d d', initMemory Driver.sampleMemoryCalls
      (DriverState.fresh fun _ => 0) = some ⟨0, d⟩ ∧
    loadFirmwares [.ok visitedFirmware] d = some d' ∧
    ∃ core m', enterKernel (mmu sampleLinux) sampleCompiled visitedImage sampleLink d' 0x1234
        (sampleMachine d'.tables.mem) = some (.entered ⟨core, entered (linuxState 0x40)⟩) ∧
      leaveKernel (mmu sampleLinux) (fun _ _ base => base) sampleCompiled sampleLink
        ⟨{ core with
            rip := UInt64.ofNat PAGE_TABLE_SIZE + sampleLink.duckExit
            phys := putLow core.phys
              ((MemoryState.init (lowView core.phys)).run sampleCalls).umem },
          entered (linuxState 0x40)⟩ = some m' ∧
      BackIn 0x1234 (sampleMachine d'.tables.mem).core m'.core := by
  obtain ⟨d, d', hinit, hrun, h⟩ := work_returns (fun _ _ base => base) sampleCompiled
    sampleLinux_window Driver.sampleMemoryCalls_succeed sampleLink_fits (DriverState.fresh fun _ => 0)
    (show lastAccepted [.ok visitedFirmware] = some visitedFirmware from rfl) 0x1234
  have hin : InLinux sampleLinux 0xffffc90000000000 0xffffc90001000000 visitedFirmware
      (fun k => 0x2000 + 8 * k) d'.tables.mem (sampleMachine d'.tables.mem) :=
    ⟨fun _ _ _ => rfl, rfl, sampleLinux_stack, rfl⟩
  obtain ⟨core, henter, -, hback⟩ := h _ hin
    (show (linuxState 0x40).cpu.tr / 8 < 16 by decide)
    (show Available ((linuxState 0x40).gdt 2 &&& ~~~DESC_TSS_BUSY) by decide)
    (show TaskDescribed (linuxState 0x40).cpu.tr (linuxState 0x40).linuxGdt from
      ⟨by decide, by decide, by decide⟩)
  have hreach : (kernelWork (Spared sampleLink sampleCompiled fun k => 0x2000 + 8 * k)
      (lowView core.phys)).Reachable ((MemoryState.init (lowView core.phys)).run sampleCalls) :=
    ⟨_, _, rfl, calls_run _ _ _ sampleCalls⟩
  have hlow : ∀ va < MEM_SIZE, putLow core.phys
      ((MemoryState.init (lowView core.phys)).run sampleCalls).umem (MEM_START + va) =
        ((MemoryState.init (lowView core.phys)).run sampleCalls).umem va := by
    intro va hva
    rw [putLow, if_pos ⟨Nat.le_add_right _ _, Nat.add_lt_add_left hva _⟩, Nat.add_sub_cancel_left]
  obtain ⟨m', hleave, hbackin, -, -, -⟩ := hback _ hreach
    ⟨{ core with
        rip := UInt64.ofNat PAGE_TABLE_SIZE + sampleLink.duckExit
        phys := putLow core.phys ((MemoryState.init (lowView core.phys)).run sampleCalls).umem },
      entered (linuxState 0x40)⟩ ⟨rfl, rfl, hlow, fun x hx => if_neg hx, rfl⟩
  exact ⟨d, d', hinit, hrun, core, m', henter, hleave, hbackin⟩

end Wrapper

end JudgePenguin
