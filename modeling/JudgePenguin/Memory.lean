/-
  JudgePenguin/Memory.lean
  ========================
  **Page sizes, the wrapping roundings of `inc/utils.hpp`, and the kernel's
  virtual-memory allocator** (`lib/memory.cpp`).

  The kernel owns `[0, kernel_break)`; user programs live from `kernel_break`
  up to `vaddr_break`; `allocate_virtual_memory` takes 2 MiB-rounded regions off
  the top by lowering `vaddr_break`.  Both breaks are 64-bit, and every sum here
  wraps as the compiled code's does.
-/
import JudgePenguin.Words

namespace JudgePenguin

open Words

def PAGE_SIZE : Nat := 4096
def HUGE_PAGE_SIZE : Nat := 2097152
def RESERVED_MEM_SIZE : Nat := 0x20000000

/-- `Utils::round_up` on `uint64_t`: the sum may wrap before the division. -/
def roundUp (x r : Nat) : Nat := wrap64 (r - 1 + x) / r * r

/-- `Utils::round_down` on `uint64_t`. -/
def roundDown (x r : Nat) : Nat := x / r * r

theorem roundDown_eq_floorTo (x r : Nat) : roundDown x r = floorTo x r := rfl

theorem roundUp_eq_ceilTo {x r : Nat} (hr : 0 < r) (h : x + r - 1 < 2 ^ 64) :
    roundUp x r = ceilTo x r := by
  simp only [roundUp, ceilTo]
  rw [wrap64_of_lt (by omega), show r - 1 + x = x + r - 1 by omega]

/-- When the sum does wrap, what is left of it is below `r` and rounds to `0`. -/
theorem roundUp_eq_zero {x r : Nat} (hx : x < 2 ^ 64) (h : 2 ^ 64 ≤ x + r - 1) (hr : r ≤ 2 ^ 64) :
    roundUp x r = 0 := by
  have hmod : (r - 1 + x) % 2 ^ 64 = x + r - 1 - 2 ^ 64 := by omega
  simp only [roundUp, wrap64]
  rw [hmod, Nat.div_eq_of_lt (by omega), Nat.zero_mul]

/-- `Memory::remap`: where the kernel sees a physical address. -/
def remap (addr : Nat) : Nat := sub64 addr (1024 <<< 30)

/-! ## The allocator -/

/-- The kernel's stack top: the driver stores `KERNEL_SIZE` in the kernel header,
    and `Memory::init` takes it for `kernel_break`. -/
def KERNEL_BREAK : Nat := 0x400000

/-- The two breaks of `lib/memory.cpp`; `vaddr_break` never meets the kernel, and
    user space is part of the lower half of the address space. -/
structure MemoryBreaks where
  kernelBreak : Nat
  vaddrBreak : Nat
  kernel : kernelBreak = KERNEL_BREAK
  le : kernelBreak ≤ vaddrBreak
  lower : vaddrBreak ≤ 2 ^ 47

/-- `Memory::init`: user space ends with the reserved physical memory. -/
def MemoryBreaks.init : MemoryBreaks :=
  ⟨KERNEL_BREAK, RESERVED_MEM_SIZE, rfl, by decide, by decide⟩

def canAllocateVirtualMemory (b : MemoryBreaks) (size : Nat) : Bool :=
  decide (b.vaddrBreak - b.kernelBreak ≥ roundUp size HUGE_PAGE_SIZE)

/-- `none` is the source's `NULL`; otherwise the address of the new region and
    the lowered break. -/
def allocateVirtualMemory (b : MemoryBreaks) (size : Nat) : Option (Nat × MemoryBreaks) :=
  if h : b.vaddrBreak - b.kernelBreak < roundUp size HUGE_PAGE_SIZE then none
  else
    have hle := b.le
    have hlower := b.lower
    some (b.vaddrBreak - roundUp size HUGE_PAGE_SIZE,
      ⟨b.kernelBreak, b.vaddrBreak - roundUp size HUGE_PAGE_SIZE, b.kernel, by omega, by omega⟩)

theorem allocateVirtualMemory_spec {b b' : MemoryBreaks} {size addr : Nat}
    (h : allocateVirtualMemory b size = some (addr, b')) :
    b'.vaddrBreak = addr ∧ KERNEL_BREAK ≤ addr ∧
      addr + roundUp size HUGE_PAGE_SIZE = b.vaddrBreak := by
  simp only [allocateVirtualMemory] at h
  split at h
  · cases h
  · have hle := b.le
    have hkernel := b.kernel
    injection h with h
    injection h with haddr hb
    subst haddr hb
    exact ⟨rfl, by omega, by omega⟩

theorem allocateVirtualMemory_of_room {b : MemoryBreaks} {size : Nat}
    (h : b.kernelBreak + roundUp size HUGE_PAGE_SIZE ≤ b.vaddrBreak) :
    ∃ addr b', allocateVirtualMemory b size = some (addr, b') := by
  unfold allocateVirtualMemory
  rw [dif_neg (by omega)]
  exact ⟨_, _, rfl⟩

end JudgePenguin
