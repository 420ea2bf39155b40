/-
  JudgePenguin/KernelVisit.lean
  =============================
  **From Linux into the kernel** (`driver/main.c`, `wrapper/entry.S`,
  `wrapper/switch.cpp`, `wrapper/duck.S`, `kern/kern_loader.S`).

  `jpenguin_main` calls `entry` at the Linux address of the image.  It keeps the Linux
  stack pointer in the image, takes the kernel stack by its Linux address and calls
  `switch_linux`, which loads CR3; `duck_entry` then moves the stack and control to
  the low addresses and `kern_loader` starts the C library.  The memory is the
  physical one, and `mmu` says what the tables that CR3 names make of an address:
  those of the driver are walked in memory, those of Linux are given.

  `switch_linux` is C++.  A `Compiled` is any way to keep its registers that obeys the
  calling convention.  A piece of code runs only if the processor finds its first byte,
  which is looked at when the piece starts and again behind each load of CR3.
-/
import JudgePenguin.FirmwareImage
import JudgePenguin.KernelTables
import JudgePenguin.LinuxSwitch
import JudgePenguin.X86Space

namespace JudgePenguin

namespace Wrapper

open X86 (Reg Regs Mmu calleeSaved)
open X86.Paged
open Driver (DriverState Firmware MEM_START MEM_SIZE KERNEL_SIZE KERNEL_STACK_SIZE KERNEL_OFFSET
  PAGE_TABLE_SIZE)

/-! ## The machine -/

/-- The members of `jpenguin_kernel_header`. -/
def HEADER_ENTRY : UInt64 := 8
def HEADER_KERNEL_BASE : UInt64 := 16
def HEADER_KERNEL_STACK_TOP : UInt64 := 24
def HEADER_MAGIC : UInt64 := 32
def HEADER_SIZE : Nat := 36

/-- Where the address 0 of the linker is in memory. -/
def IMAGE : Nat := MEM_START + PAGE_TABLE_SIZE

/-- The tables of the driver, and whatever tables Linux runs with. -/
def mmu (linux : Nat → Option Nat) : Mmu := fun cr3 phys va =>
  if cr3 = CR3_PHYS then (Paging.translate phys cr3.toNat va).map Paging.Translation.phys
  else linux va

/-- Registers, memory and what `switch.cpp` deals with. -/
structure Machine where
  core : Core
  sys : State

/-- The addresses that the linker gives to the code and to the words in it. -/
structure Link where
  entry : UInt64
  entryReturn : UInt64
  linuxRsp : UInt64
  linuxCr3 : UInt64
  switchLinux : UInt64
  switchReturn : UInt64
  duckEntry : UInt64
  duckExit : UInt64
  wrapperRsp : UInt64
  kernLoader : UInt64
  start : UInt64

/-! ## `entry.S`, `duck.S` and `kern_loader.S` -/

/-- The registers that `entry` and `duck_entry` push, in their order. -/
def entrySaved : List Reg := [.rbp, .rbx, .r12, .r13, .r14, .r15]
def duckSaved : List Reg := [.rbx, .rbp, .r12, .r13, .r14, .r15]

namespace Link

variable (l : Link)

def entryCode : List Instr :=
  entrySaved.map .pushq ++
    [.storeRsp l.linuxRsp, .movToRsp .rdi, .call l.switchLinux l.entryReturn]

/-- What follows the call. -/
def entryReturnCode : List Instr :=
  .loadRsp l.linuxRsp :: (entrySaved.reverse.map .popq ++ [.ret])

def duckEntryCode : List Instr :=
  duckSaved.map .pushq ++
    [.storeRsp l.wrapperRsp, .addToRsp .rdi, .leaq l.kernLoader .r15, .addq .rdi .r15, .jmpTo .r15]

def duckExitCode : List Instr :=
  .loadRsp l.wrapperRsp :: (duckSaved.reverse.map .popq ++ [.movq .rdi .rax, .ret])

def kernLoaderCode : List Instr :=
  [.pushImm 0, .pushImm 0, .pushImm 0, .pushImm 0, .jmp l.start]

end Link

/-! ## `switch_linux` -/

/-- What the compiler makes of the registers of `switch_linux`: the words of its frame,
    the registers at the call of `duck_entry`, and what it brings back from those that
    the call leaves and the frame. -/
structure Compiled where
  words : Nat
  spill : Regs → List UInt64
  atCall : Regs → UInt64 → Regs
  unspill : Regs → List UInt64 → Regs
  /-- Calls are made with `rsp` at a 16-byte boundary. -/
  odd : words % 2 = 1
  small : words ≤ 4096
  length_spill : ∀ f, (spill f).length = words
  atCall_rdi : ∀ f v, atCall f v .rdi = v
  returns : ∀ f v g, (∀ r ∈ calleeSaved, g r = atCall f v r) →
    unspill g (spill f) .rax = g .rax ∧ ∀ r ∈ calleeSaved, unspill g (spill f) r = f r

section Code

variable (mmu : Mmu)

/-- `dynlink_ptr`. -/
def dynlinkPtr (offset : UInt64) (m : Core) (ptr : UInt64) : Option Core :=
  (m.load mmu ptr).bind fun v => if v ≠ 0 then m.store mmu ptr (v + offset) else some m

/-- `fake_dynlink`.  The slots of `I` are the addresses at which the kernel runs. -/
def fakeDynlink (I : Trap.Image) (base offset : UInt64) (m : Core) : Option Core :=
  I.slots.foldlM (fun m slot => dynlinkPtr mmu offset m (base + UInt64.ofNat (slot - I.kernelBase))) m

/-- The end of a compiled function: its registers, and back to the caller. -/
def epilogue (c : Compiled) (m : Core) : Option Core :=
  (m.popAll mmu c.words).bind fun p =>
    (({ p.2 with regs := c.unspill p.2.regs p.1 } : Core).pop mmu).map fun q =>
      { q.2 with rip := q.1 }

/-- What `switch_linux` does first: it returns `-1` when `save_linux` refuses, or calls
    `duck_entry`. -/
inductive Switched where
  | refused (m : Machine)
  | entered (m : Machine)

/-- `switch_linux` up to the call of `duck_entry`. -/
def enterSwitch (c : Compiled) (I : Trap.Image) (l : Link) (m : Machine) : Option Switched := do
  if ¬ m.core.At mmu IMAGE l.switchLinux then none
  else
    let base := m.core.rip - l.switchLinux
    let f := m.core.regs
    let core ← m.core.pushAll mmu (c.spill f)
    match saveLinux m.sys with
    | .error _ => none
    | .ok (s, ret) =>
      if ret ≠ 0 then
        let regs := Function.update (c.atCall f 0) .rax (0xffffffff : UInt64)
        (epilogue mmu c { core with regs := regs }).map fun core => .refused ⟨core, s⟩
      else
        let core ← core.store mmu (base + l.linuxCr3) s.data.cr3
        let core := { core with cr3 := s.cpu.cr3 }
        -- the next instruction is fetched with the new CR3
        if ¬ core.At mmu IMAGE l.switchLinux then none
        else
          let header := base + UInt64.ofNat KERNEL_OFFSET
          let offset ← core.load mmu (header + HEADER_KERNEL_BASE)
          let core ← fakeDynlink mmu I base offset core
          let core ← core.write mmu (header + HEADER_MAGIC) (Mem.leBytes 4 0xabcd1234)
          let top ← core.load mmu (header + HEADER_KERNEL_STACK_TOP)
          let core := { core with regs := c.atCall f (top - f .rdi) }
          let core ← step mmu base core (.call l.duckEntry l.switchReturn)
          return .entered ⟨core, s⟩

/-- `switch_linux` from the return of `duck_entry` on. -/
def leaveSwitch (segBase : State → UInt16 → UInt64 → UInt64) (c : Compiled) (l : Link)
    (m : Machine) : Option Machine := do
  if ¬ m.core.At mmu IMAGE l.switchReturn then none
  else
    let base := m.core.rip - l.switchReturn
    let cr3 ← m.core.load mmu (base + l.linuxCr3)
    match restoreLinux segBase { m.sys with linuxCr3 := cr3 } with
    | .error _ => none
    | .ok s =>
      let core := { m.core with cr3 := cr3 }
      if ¬ core.At mmu IMAGE l.switchReturn then none
      else
        let core ← epilogue mmu c core
        return ⟨core, s⟩

/-! ## The whole way -/

/-- `jpenguin_main` up to the call of `entry`, which returns to `ret`. -/
def jpenguinMain (d : DriverState) (ret : UInt64) (m : Core) : Option Core := do
  let header := UInt64.ofNat (d.kernelBaseLinux + KERNEL_OFFSET)
  let m ← m.store mmu (header + HEADER_KERNEL_BASE) (UInt64.ofNat d.kernelBase)
  let m ← m.store mmu (header + HEADER_KERNEL_STACK_TOP) (UInt64.ofNat d.kernelStackTop)
  let entry ← m.load mmu (header + HEADER_ENTRY)
  let m := m.set .rdi (UInt64.ofNat d.kernelStackTopLinux)
  let m ← m.push mmu ret
  return { m with rip := entry + UInt64.ofNat d.kernelBaseLinux }

/-- From `jpenguin_main` to the start of the C library, or to its return if `save_linux`
    refuses. -/
def enterKernel (c : Compiled) (I : Trap.Image) (l : Link) (d : DriverState) (ret : UInt64)
    (m : Machine) : Option Switched := do
  let core ← jpenguinMain mmu d ret m.core
  let core ← runAt mmu IMAGE l.entry l.entryCode core
  match ← enterSwitch mmu c I l { m with core := core } with
  | .refused m =>
    let core ← runAt mmu IMAGE l.entryReturn l.entryReturnCode m.core
    return .refused { m with core := core }
  | .entered m =>
    let core ← runAt mmu IMAGE l.duckEntry l.duckEntryCode m.core
    let core ← runAt mmu IMAGE l.kernLoader l.kernLoaderCode core
    return .entered { m with core := core }

/-- From `duck_exit` to the return of `entry`. -/
def leaveKernel (segBase : State → UInt16 → UInt64 → UInt64) (c : Compiled) (l : Link)
    (m : Machine) : Option Machine := do
  let core ← runAt mmu IMAGE l.duckExit l.duckExitCode m.core
  let m ← leaveSwitch mmu segBase c l { m with core := core }
  let core ← runAt mmu IMAGE l.entryReturn l.entryReturnCode m.core
  return { m with core := core }

end Code

/-! ## Where things are -/

/-- The bytes that do not belong to the page tables. -/
def BehindTables (x : Nat) : Prop := ¬ (MEM_START ≤ x ∧ x < IMAGE)

/-- The two mappings of the kernel. -/
structure Mapped (memVirt : Nat) (f : Firmware) (phys : Mem) : Prop where
  low : ∀ va < MEM_SIZE, Paging.translate phys MEM_START va = some ⟨MEM_START + va, true⟩
  window : ∀ o, f.Covers o →
    Paging.translate phys MEM_START (memVirt + o) = some ⟨MEM_START + o, true⟩

/-- The page tables in memory are those of the driver. -/
def TablesHold (memVirt : Nat) (f : Firmware) (phys : Mem) : Prop :=
  ∀ phys' : Mem, (∀ x, ¬ BehindTables x → phys' x = phys x) → Mapped memVirt f phys'

theorem tablesHold_keeps (memVirt : Nat) (f : Firmware) :
    Keeps (TablesHold memVirt f) BehindTables := by
  intro phys phys' hold hoff phys'' hsame
  refine hold phys'' fun x hx => ?_
  rw [hsame x hx, hoff x hx]

/-- The first word of the kernel stack, counted from `mem_virt`, and its words. -/
def STACK_BASE : Nat := KERNEL_SIZE - KERNEL_STACK_SIZE
def STACK_WORDS : Nat := KERNEL_STACK_SIZE / 8
def stackWord (k : Nat) : Nat := MEM_START + STACK_BASE + 8 * k

/-- What Linux maps, besides its own memory. -/
structure Window (memVirt : Nat) (linux : Nat → Option Nat) : Prop where
  place : Driver.KernelWindow memVirt
  maps : ∀ o < KERNEL_SIZE, linux (memVirt + o) = some (MEM_START + o)

namespace Link

variable (l : Link)

def codes : List UInt64 :=
  [l.entry, l.entryReturn, l.switchLinux, l.switchReturn, l.duckEntry, l.duckExit, l.kernLoader]

/-- The words that the wrapper keeps in the image. -/
def cells : List UInt64 := [l.linuxRsp, l.linuxCr3, l.wrapperRsp]

/-- `l` and `I` are where the linker puts code and data into the file `f`, behind the
    header, and the image ends below the stack. -/
structure Fits (f : Firmware) (I : Trap.Image) : Prop where
  below : KERNEL_OFFSET + f.size ≤ STACK_BASE - PAGE_TABLE_SIZE
  header : HEADER_SIZE ≤ f.size
  entry : f.data.read64 HEADER_ENTRY.toNat = l.entry.toNat
  code : ∀ a ∈ l.codes, a.toNat < KERNEL_OFFSET + f.size
  cell : ∀ a ∈ l.cells, KERNEL_OFFSET + HEADER_SIZE ≤ a.toNat ∧ a.toNat + 8 ≤ KERNEL_OFFSET + f.size
  apart : (l.cells.map UInt64.toNat).Pairwise Mem.Apart64
  base : I.kernelBase = PAGE_TABLE_SIZE
  slot : ∀ s ∈ I.slots, PAGE_TABLE_SIZE + (KERNEL_OFFSET + HEADER_SIZE) ≤ s ∧
    s + 8 ≤ PAGE_TABLE_SIZE + (KERNEL_OFFSET + f.size)
  slot_cell : ∀ s ∈ I.slots, ∀ a ∈ l.cells, Mem.Apart64 s (PAGE_TABLE_SIZE + a.toNat)

end Link

section Layout

variable {memVirt : Nat} {linux : Nat → Option Nat} {f : Firmware} {l : Link} {I : Trap.Image}
  {cr3 : UInt64}

theorem sizes : KERNEL_SIZE = 4194304 ∧ KERNEL_STACK_SIZE = 65536 ∧ KERNEL_OFFSET = 352 ∧
    PAGE_TABLE_SIZE = 1269760 ∧ MEM_START = 1073741824 ∧ MEM_SIZE = 536870912 ∧
    STACK_BASE = 4128768 ∧ STACK_WORDS = 8192 ∧ IMAGE = 1075011584 ∧ HEADER_SIZE = 36 := by decide

/-- The window is mapped alike by Linux and by the driver. -/
theorem Window.covered (h : Window memVirt linux) {o n : Nat} (hlt : o + n ≤ KERNEL_SIZE)
    (hcov : ∀ i < n, f.Covers (o + i)) :
    Maps (mmu linux) cr3 (TablesHold memVirt f) (memVirt + o) (MEM_START + o) n where
  bytes phys hold i hi := by
    rw [Nat.add_assoc, Nat.add_assoc, mmu]
    by_cases hc : cr3 = CR3_PHYS
    · have hroot : cr3.toNat = MEM_START := by
        rw [hc]
        rfl
      rw [if_pos hc, hroot, (hold phys fun x _ => rfl).window _ (hcov i hi), Option.map_some]
    · rw [if_neg hc, h.maps _ (by omega)]

theorem Window.image (h : Window memVirt linux) (hl : l.Fits f I) {o n : Nat}
    (hlt : o + n ≤ KERNEL_OFFSET + f.size) :
    Maps (mmu linux) cr3 (TablesHold memVirt f) (memVirt + (PAGE_TABLE_SIZE + o)) (IMAGE + o) n := by
  have hbelow := hl.below
  obtain ⟨hsize, hstack, hoffset, hpts, hmem, -, hsbase, -, himage, -⟩ := sizes
  have hplace : IMAGE + o = MEM_START + (PAGE_TABLE_SIZE + o) := by
    unfold IMAGE
    omega
  rw [hplace]
  refine h.covered (by omega) fun i hi => Or.inl ⟨by omega, ?_⟩
  have hceil : KERNEL_OFFSET + f.size ≤ Words.ceilTo (KERNEL_OFFSET + f.size) 4096 := by
    unfold Words.ceilTo
    omega
  omega

/-- The window ends below the last page of the address space. -/
theorem Window.bound (h : Window memVirt linux) : memVirt + KERNEL_SIZE < 2 ^ 64 := by
  obtain ⟨hsize, hstack, hoffset, hpts, hmem, -, hsbase, hwords, himage, -⟩ := sizes
  have hend := h.place.no_wrap
  have hcan := Paging.canonical_iff.mp (h.place.canonical 0 (by omega))
  have htop := (h.place.free 4194303 (by omega)).2.2
  by_contra hcon
  -- that page has top index 511
  apply htop
  unfold Paging.index
  rw [Paging.pageSize_three]
  omega

theorem Window.stack (h : Window memVirt linux) (f : Firmware) (cr3 : UInt64) :
    StackAt (mmu linux) cr3 (TablesHold memVirt f) BehindTables (memVirt + STACK_BASE) STACK_WORDS
      stackWord := by
  obtain ⟨hsize, hstack, hoffset, hpts, hmem, -, hsbase, hwords, himage, -⟩ := sizes
  have hbound := h.bound
  refine ⟨fun k hk => ?_, fun j hj k hk hne => ?_, fun k hk x h1 h2 => ?_, by omega⟩
  · have hplace : stackWord k = MEM_START + (STACK_BASE + 8 * k) := by
      unfold stackWord
      omega
    rw [hplace, Nat.add_assoc]
    exact h.covered (by omega) fun i hi => Or.inr ⟨by omega, by omega⟩
  · unfold Mem.Apart64 stackWord
    omega
  · unfold stackWord at h1 h2
    rintro ⟨-, hx⟩
    omega

/-- The low addresses. -/
theorem maps_low {o n : Nat} (hlt : o + n ≤ MEM_SIZE) :
    Maps (mmu linux) CR3_PHYS (TablesHold memVirt f) o (MEM_START + o) n where
  bytes phys hold i hi := by
    have hroot : CR3_PHYS.toNat = MEM_START := rfl
    rw [mmu, if_pos rfl, hroot, (hold phys fun x _ => rfl).low _ (by omega), Option.map_some,
      Nat.add_assoc]

theorem stack_low (memVirt : Nat) (linux : Nat → Option Nat) (f : Firmware) :
    StackAt (mmu linux) CR3_PHYS (TablesHold memVirt f) BehindTables STACK_BASE STACK_WORDS
      stackWord := by
  obtain ⟨hsize, hstack, hoffset, hpts, hmem, hmemsize, hsbase, hwords, himage, -⟩ := sizes
  refine ⟨fun k hk => ?_, fun j hj k hk hne => ?_, fun k hk x h1 h2 => ?_, by omega⟩
  · have hplace : stackWord k = MEM_START + (STACK_BASE + 8 * k) := by
      unfold stackWord
      omega
    rw [hplace]
    exact maps_low (by omega)
  · unfold Mem.Apart64 stackWord
    omega
  · unfold stackWord at h1 h2
    rintro ⟨-, hx⟩
    omega

end Layout

end Wrapper

end JudgePenguin
