/-
  JudgePenguin/MemoryIsolation.lean
  =================================
  **Judged programs against the kernel's own allocations.**

  Two modules share user space: `allocate_virtual_memory` takes 2 MiB regions off
  its top and never gives one back, and `ELF::load` lays a program out from
  `0x400000` up.  All they have in common is `vaddr_break`.  Any order of calls
  keeps the allocations aligned, inside the arena and apart, and above the break
  (`run_isolated`), and the loader stays between the kernel and the break of the
  moment, so below all of them (`run_isolates`).
-/
import JudgePenguin.ElfLayout

namespace JudgePenguin

open Words Guarded

/-! ## Calls -/

/-- A region that `allocate_virtual_memory` returned for a request of `size` bytes. -/
structure Allocation where
  addr : Nat
  size : Nat

/-- The bytes taken off the top for it. -/
def Allocation.len (a : Allocation) : Nat := roundUp a.size HUGE_PAGE_SIZE

structure MemoryState where
  breaks : MemoryBreaks
  allocated : List Allocation
  umem : Mem

inductive MemoryCall where
  | allocate (size : Nat)
  | load (file : ELF.ElfFile) (config : ELF.AppConfig) (tscFreq : UInt64)

/-- The rounding of a requested size does not wrap. -/
def MemoryCall.NoWrap : MemoryCall → Prop
  | .allocate size => size + HUGE_PAGE_SIZE - 1 < 2 ^ 64
  | .load .. => True

/-- One call.  A failed allocation leaves the breaks as they are, and the loader
    never moves them. -/
def MemoryState.call (s : MemoryState) : MemoryCall → MemoryState
  | .allocate size =>
    (allocateVirtualMemory s.breaks size).elim s fun region =>
      { s with breaks := region.2, allocated := ⟨region.1, size⟩ :: s.allocated }
  | .load file config tscFreq =>
    { s with umem := ELF.memAfter s.umem (ELF.load file config tscFreq s.breaks s.umem) }

/-- After `Memory::init`. -/
def MemoryState.init (umem : Mem) : MemoryState := ⟨MemoryBreaks.init, [], umem⟩

def MemoryState.run (s : MemoryState) (calls : List MemoryCall) : MemoryState :=
  calls.foldl MemoryState.call s

/-! ## The allocations -/

def Allocation.Apart (a b : Allocation) : Prop :=
  a.addr + a.len ≤ b.addr ∨ b.addr + b.len ≤ a.addr

/-- What every order of calls keeps. -/
structure Isolated (s : MemoryState) : Prop where
  kernel : s.breaks.kernelBreak = 0x400000
  breaks : s.breaks.kernelBreak ≤ s.breaks.vaddrBreak
  breakAligned : HUGE_PAGE_SIZE ∣ s.breaks.vaddrBreak
  breakLe : s.breaks.vaddrBreak ≤ RESERVED_MEM_SIZE
  aligned : ∀ a ∈ s.allocated, HUGE_PAGE_SIZE ∣ a.addr
  long : ∀ a ∈ s.allocated, a.size ≤ a.len
  above : ∀ a ∈ s.allocated, s.breaks.vaddrBreak ≤ a.addr
  inside : ∀ a ∈ s.allocated, a.addr + a.len ≤ RESERVED_MEM_SIZE
  apart : s.allocated.Pairwise Allocation.Apart

theorem init_isolated (umem : Mem) : Isolated (MemoryState.init umem) := by
  have hnone : ∀ a, a ∉ (MemoryState.init umem).allocated := fun _ => List.not_mem_nil
  have haligned : HUGE_PAGE_SIZE ∣ MemoryBreaks.init.vaddrBreak := by decide
  exact ⟨rfl, MemoryBreaks.init.le, haligned, Nat.le_refl _, fun a ha => absurd ha (hnone a),
    fun a ha => absurd ha (hnone a), fun a ha => absurd ha (hnone a),
    fun a ha => absurd ha (hnone a), List.Pairwise.nil⟩

/-- A new region fits between the old break and the new one. -/
theorem Isolated.allocate {s : MemoryState} (h : Isolated s) {size addr : Nat}
    (hwrap : size + HUGE_PAGE_SIZE - 1 < 2 ^ 64) {b' : MemoryBreaks}
    (halloc : allocateVirtualMemory s.breaks size = some (addr, b')) :
    Isolated { s with breaks := b', allocated := ⟨addr, size⟩ :: s.allocated } := by
  obtain ⟨hbreak, hkernel, htop⟩ := allocateVirtualMemory_spec halloc
  have hround : roundUp size HUGE_PAGE_SIZE = ceilTo size HUGE_PAGE_SIZE :=
    roundUp_eq_ceilTo (by decide) hwrap
  have hlong : size ≤ roundUp size HUGE_PAGE_SIZE := by
    rw [hround]
    exact le_ceilTo size (by decide)
  have haligned : HUGE_PAGE_SIZE ∣ addr := by
    have hb := h.breakAligned
    have hr := dvd_ceilTo size HUGE_PAGE_SIZE
    rw [← htop, hround] at hb
    exact (Nat.dvd_add_left hr).mp hb
  have htop' : addr + roundUp size HUGE_PAGE_SIZE ≤ RESERVED_MEM_SIZE := by
    rw [htop]
    exact h.breakLe
  have hdown : addr ≤ s.breaks.vaddrBreak := by
    rw [← htop]
    exact Nat.le_add_right _ _
  refine ⟨b'.kernel, b'.le, by rw [hbreak]; exact haligned, ?_, ?_, ?_, ?_, ?_, ?_⟩
  · rw [hbreak]
    exact Nat.le_trans hdown h.breakLe
  · exact List.forall_mem_cons.mpr ⟨haligned, h.aligned⟩
  · exact List.forall_mem_cons.mpr ⟨hlong, h.long⟩
  · refine List.forall_mem_cons.mpr ⟨Nat.le_of_eq hbreak, fun a ha => ?_⟩
    have hold := h.above a ha
    simp only [hbreak]
    exact Nat.le_trans hdown hold
  · exact List.forall_mem_cons.mpr ⟨htop', h.inside⟩
  · refine h.apart.cons fun a ha => .inl ?_
    have hold := h.above a ha
    rw [← htop] at hold
    exact hold

/-- **One call** keeps it. -/
theorem Isolated.call {s : MemoryState} (h : Isolated s) (c : MemoryCall) (hc : c.NoWrap) :
    Isolated (s.call c) := by
  cases c with
  | allocate size =>
    simp only [MemoryState.call]
    rcases halloc : allocateVirtualMemory s.breaks size with _ | ⟨addr, b'⟩
    · exact h
    · exact h.allocate hc halloc
  | load file config tscFreq =>
    exact ⟨h.kernel, h.breaks, h.breakAligned, h.breakLe, h.aligned, h.long, h.above, h.inside,
      h.apart⟩

/-- **Every order of calls** keeps it. -/
theorem Isolated.run {s : MemoryState} (h : Isolated s) {calls : List MemoryCall}
    (hcalls : ∀ c ∈ calls, c.NoWrap) : Isolated (s.run calls) := by
  induction calls generalizing s with
  | nil => exact h
  | cons c calls ih =>
    exact ih (h.call c (hcalls c (by simp))) fun c' hc' => hcalls c' (by simp [hc'])

/-- The two functions of the allocator test the same condition. -/
theorem allocateVirtualMemory_none_iff (b : MemoryBreaks) (size : Nat) :
    allocateVirtualMemory b size = none ↔ canAllocateVirtualMemory b size = false := by
  simp only [allocateVirtualMemory, canAllocateVirtualMemory]
  split
  · rename_i hlt
    simp [hlt]
  · rename_i hge
    simp [Nat.not_lt.mp hge]

/-! ## The programs -/

/-- The loaded program `r` lies between the kernel and every allocation. -/
structure Between (s : MemoryState) (r : ELF.Loaded) : Prop where
  writes : ∀ w ∈ r.writes, s.breaks.kernelBreak ≤ w.addr ∧
    ∀ a ∈ s.allocated, w.addr + w.bytes.length ≤ a.addr
  reserved : s.breaks.kernelBreak ≤ r.app.startAddr ∧
    r.app.startAddr ≤ r.app.breakAddr ∧ r.app.breakAddr ≤ r.app.specialRegionBreakAddr ∧
    ∀ a ∈ s.allocated, r.app.specialRegionBreakAddr ≤ a.addr

/-- The loader knows only the breaks, and every allocation is above `vaddr_break`. -/
theorem Isolated.between {s : MemoryState} (h : Isolated s) {file : ELF.ElfFile}
    {config : ELF.AppConfig} {tscFreq : UInt64} {r : ELF.Loaded}
    (hload : ELF.load file config tscFreq s.breaks s.umem = .ok r) : Between s r := by
  obtain ⟨range, l, -, -, hconf⟩ := (ELF.load_confined file config tscFreq s.breaks s.umem).2 r hload
  obtain ⟨hstart, hbreak, -⟩ := hconf.app
  obtain ⟨-, rfl⟩ := ELF.load_eq_ok.mp hload
  have htop := fun a ha => Nat.le_trans hconf.top (h.above a ha)
  refine ⟨fun w hw => ⟨?_, fun a ha => ?_⟩, ?_, ?_, ?_, htop⟩
  · rw [h.kernel]
    exact (hconf.writes w hw).1
  · exact Nat.le_trans (hconf.writes w hw).2 (htop a ha)
  · rw [h.kernel, hstart]
  · rw [hstart, hbreak]
    exact Nat.le_add_right _ _
  · exact ELF.layout_special config

/-- **User programs never overlap kernel allocations.**  After any order of calls
    the allocations are as they should be, the next allocation fails exactly when
    `can_allocate_virtual_memory` says so and then changes nothing, and the next
    program lies below every allocation and above the kernel. -/
theorem run_isolates (umem : Mem) (calls : List MemoryCall) (hcalls : ∀ c ∈ calls, c.NoWrap) :
    Isolated ((MemoryState.init umem).run calls) ∧
      (∀ size, size + HUGE_PAGE_SIZE - 1 < 2 ^ 64 →
        (allocateVirtualMemory ((MemoryState.init umem).run calls).breaks size = none ↔
          canAllocateVirtualMemory ((MemoryState.init umem).run calls).breaks size = false) ∧
        (canAllocateVirtualMemory ((MemoryState.init umem).run calls).breaks size = false →
          ((MemoryState.init umem).run calls).call (.allocate size) =
            (MemoryState.init umem).run calls)) ∧
      ∀ file config tscFreq r, ELF.load file config tscFreq
          ((MemoryState.init umem).run calls).breaks ((MemoryState.init umem).run calls).umem =
            .ok r →
        Between ((MemoryState.init umem).run calls) r := by
  have h := (init_isolated umem).run hcalls
  refine ⟨h, fun size _ => ⟨allocateVirtualMemory_none_iff _ _, fun hcan => ?_⟩, ?_⟩
  · have hnone := (allocateVirtualMemory_none_iff _ _).mpr hcan
    simp only [MemoryState.call, hnone, Option.elim_none]
  · intro file config tscFreq r hload
    exact h.between hload

/-- Two allocations with the sample program between them. -/
def sampleCalls : List MemoryCall :=
  [.allocate 0x200001, .load ELF.sampleFile ELF.sampleConfig 0, .allocate 0x1000]

theorem sampleCalls_noWrap : ∀ c ∈ sampleCalls, c.NoWrap := by
  have h1 : MemoryCall.NoWrap (.allocate 0x200001) :=
    show 0x200001 + HUGE_PAGE_SIZE - 1 < 2 ^ 64 by decide
  have h2 : MemoryCall.NoWrap (.allocate 0x1000) :=
    show 0x1000 + HUGE_PAGE_SIZE - 1 < 2 ^ 64 by decide
  refine List.forall_mem_cons.mpr ⟨h1, List.forall_mem_cons.mpr ⟨trivial, ?_⟩⟩
  exact List.forall_mem_singleton.mpr h2

theorem run_isolates_sample :
    (∀ c ∈ sampleCalls, c.NoWrap) ∧ Isolated ((MemoryState.init fun _ => 0).run sampleCalls) :=
  ⟨sampleCalls_noWrap, (run_isolates (fun _ => 0) sampleCalls sampleCalls_noWrap).1⟩

end JudgePenguin
