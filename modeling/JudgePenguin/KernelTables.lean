/-
  JudgePenguin/KernelTables.lean
  ==============================
  **The descriptor tables of the kernel** (`kern/trap.cpp`, `wrapper/dynlink.hpp`).

  The kernel is linked at address 0 and runs at `kernel_base`, so that the wrapper
  first adds the base to every pointer that the linker has put into data, those of
  `__traps` among them.  `Trap::init` then writes the gates of the IDT, the
  task-state segment and its descriptor, and every run of a user program writes gate
  `0x80` and the word for thread-local storage again.  The memory has the addresses
  at which the kernel runs; the wrapper reaches the same bytes through the mapping of
  Linux.

  A table is compared with what the processor decodes: a gate spells the address of its
  stub (`idtGateAt_of_bytes`) and the TSS descriptor that of the task state
  (`systemBase_tssDescriptor`).
-/
import JudgePenguin.Lts
import JudgePenguin.Splice
import JudgePenguin.TrapEntry
import JudgePenguin.Words
import JudgePenguin.X86Gates

namespace JudgePenguin

open Words X86

namespace Trap

/-! ## The image of the kernel -/

/-- The statics that the processor reads, or that lead it to what it reads. -/
inductive Static where
  | idt
  | gdt
  | taskState
  | traps
  | syscallStack
deriving DecidableEq

def sizeofInterruptDescriptor : Nat := 16
def sizeofTaskState : Nat := 112
def STACK_SIZE : Nat := 4096

def Static.size : Static → Nat
  | .idt => 256 * sizeofInterruptDescriptor
  | .gdt => 12 * 8
  | .taskState => sizeofTaskState
  | .traps => 256 * 8
  | .syscallStack => 8

/-- The symbols of the C library and of the linker that `fake_dynlink` names. -/
structure Symbols where
  initArrayStart : Nat
  initArrayEnd : Nat
  finiArrayStart : Nat
  finiArrayEnd : Nat
  stdoutFile : Nat
  stdout : Nat
  stdoutUsed : Nat
  stderrFile : Nat
  stderr : Nat
  stderrUsed : Nat

/-- The slots `a`, `a + 8`, … that lie before `b`. -/
def arraySlots (a b : Nat) : List Nat := (List.range ((b - a + 7) / 8)).map fun i => a + 8 * i

/-- The members of an `_IO_FILE` that are relocated. -/
def fileSlots (file : Nat) : List Nat := [file + 88, file + 24, file + 64, file + 72, file + 80]

/-- The kernel where it is loaded: addresses are those at which it runs, and `stub n`
    is the link address of `__trap_n`. -/
structure Image where
  kernelBase : Nat
  addr : Static → Nat
  interruptStack : Nat
  syscallEntry : Nat
  stub : Nat → Nat
  symbols : Symbols
  bound : ∀ x, addr x + x.size ≤ 2 ^ 47
  apart : ∀ x y, x ≠ y → addr x + x.size ≤ addr y ∨ addr y + y.size ≤ addr x
  stack_bound : interruptStack + 8 * STACK_SIZE ≤ 2 ^ 47
  stack_aligned : STACK_SIZE ∣ interruptStack
  entry_bound : syscallEntry < 2 ^ 47
  stubs : ∀ n < 256, stub n ≠ 0 ∧ kernelBase + stub n < 2 ^ 47

/-- The element `i` of `__traps`. -/
def Image.trapSlot (I : Image) (i : Nat) : Nat := I.addr .traps + 8 * i

/-- The pointers of the C library that `fake_dynlink` relocates, in its order. -/
def Symbols.slots (y : Symbols) : List Nat :=
  arraySlots y.initArrayStart y.initArrayEnd ++ arraySlots y.finiArrayStart y.finiArrayEnd ++
    fileSlots y.stdoutFile ++ [y.stdout, y.stdoutUsed] ++ fileSlots y.stderrFile ++
    [y.stderr, y.stderrUsed]

/-- All that it relocates. -/
def Image.slots (I : Image) : List Nat := I.symbols.slots ++ (List.range 256).map I.trapSlot

/-! ## `dynlink.hpp` -/

def dynlinkPtr (offset : Nat) (m : Mem) (ptr : Nat) : Mem :=
  if m.read64 ptr ≠ 0 then m.write64 ptr (wrap64 (m.read64 ptr + offset)) else m

def fakeDynlink (I : Image) (m : Mem) : Mem := I.slots.foldl (dynlinkPtr I.kernelBase) m

/-- A pointer after relocation: null stays null. -/
def relocated (offset v : Nat) : Nat := if v ≠ 0 then wrap64 (v + offset) else 0

/-! ## The tables of `trap.cpp` -/

structure InterruptDescriptor where
  ptrLow : UInt16
  selector : UInt16
  ist : UInt8
  options : UInt8
  ptrMid : UInt16
  ptrHigh : UInt32
  reserved : UInt32

/-- The members as the packed structure lays them out. -/
def InterruptDescriptor.bytes (d : InterruptDescriptor) : List UInt8 :=
  Mem.leBytes 2 d.ptrLow.toNat ++ Mem.leBytes 2 d.selector.toNat ++ [d.ist, d.options] ++
    Mem.leBytes 2 d.ptrMid.toNat ++ Mem.leBytes 4 d.ptrHigh.toNat ++ Mem.leBytes 4 d.reserved.toNat

/-- The descriptor that `set_idt` makes. -/
def gateTo (a : UInt64) : InterruptDescriptor :=
  { ptrLow := a.toUInt16
    selector := GDT_KERNEL_CS
    ist := 0
    options := ((14 : UInt8) <<< 0) ||| ((1 : UInt8) <<< 7)
    ptrMid := (a >>> 16).toUInt16
    ptrHigh := (a >>> 32).toUInt32
    reserved := 0 }

def Image.gate (I : Image) (id : Nat) : Nat := I.addr .idt + sizeofInterruptDescriptor * id

def setIdt (I : Image) (m : Mem) (id : Nat) (addr : Nat) : Mem :=
  m.write (I.gate id) (gateTo (UInt64.ofNat addr)).bytes

/-- The initialiser of `gdt`; the two words of the TSS are made by `init`. -/
def gdtInitial : List UInt64 :=
  [0,
    ((1 : UInt64) <<< 43) ||| ((1 : UInt64) <<< 44) ||| ((1 : UInt64) <<< 47) |||
      ((1 : UInt64) <<< 53),
    ((1 : UInt64) <<< 44) ||| ((1 : UInt64) <<< 47) ||| ((1 : UInt64) <<< 41),
    0x00cffa000000ffff,
    ((1 : UInt64) <<< 44) ||| ((1 : UInt64) <<< 47) ||| ((1 : UInt64) <<< 41) |||
      ((3 : UInt64) <<< 45),
    ((1 : UInt64) <<< 43) ||| ((1 : UInt64) <<< 44) ||| ((1 : UInt64) <<< 47) |||
      ((1 : UInt64) <<< 53) ||| ((3 : UInt64) <<< 45),
    0x00cff2000000ffff, 0, 0, 0x00cf9a000000ffff]

def GDT_TSS : UInt16 := 80
def GDT_USER32_TLS : UInt16 := 56

/-- The low word of the TSS descriptor. -/
def tssDescriptor (taskStateAddr : UInt64) : UInt64 :=
  (UInt64.ofNat sizeofTaskState - (1 : UInt64)) ||| ((taskStateAddr &&& 0xffffff) <<< 16) |||
    ((9 : UInt64) <<< 40) ||| ((0 : UInt64) <<< 45) ||| ((1 : UInt64) <<< 47) |||
    ((1 : UInt64) <<< 53) ||| ((taskStateAddr >>> 24) <<< 56)

def Image.gdtSlot (I : Image) (i : Nat) : Nat := I.addr .gdt + 8 * i

/-- `rsp` and `ist` are at bytes 4 and 28 of the packed `TaskState`. -/
def Image.rspSlot (I : Image) (i : Nat) : Nat := I.addr .taskState + (4 + 8 * i)
def Image.istSlot (I : Image) (i : Nat) : Nat := I.addr .taskState + (28 + 8 * i)

/-- The end of `interrupt_stack[i]`. -/
def Image.stackTop (I : Image) (i : Nat) : Nat := I.interruptStack + STACK_SIZE * i + STACK_SIZE

/-- The registers of `syscall` that `init` sets. -/
structure SyscallMsrs where
  efer : UInt64
  lstar : UInt64
  cstar : UInt64
  star : UInt64
  sfmask : UInt64

/-- The memory, the registers of the processor that `init` loads, and whether it has. -/
structure Platform where
  mem : Mem
  tables : Tables
  msrs : SyscallMsrs
  booted : Bool

/-! ## `init` -/

/-- The loop over all gates. -/
def initIdt (I : Image) (m : Mem) : Mem :=
  (List.range 256).foldl (fun m i => setIdt I m i (m.read64 (I.trapSlot i))) m

/-- The two gates that are changed afterwards. -/
def patchIdt (I : Image) (m : Mem) : Mem :=
  let m := m.write (I.gate 3 + 5) [m (I.gate 3 + 5) ||| ((3 : UInt8) <<< 5)]
  m.write (I.gate TRAP_RUN_USER.toNat + 4) [7]

def initTaskState (I : Image) (m : Mem) : Mem :=
  let m := m.write64 (I.rspSlot 0) (I.stackTop 0)
  let m := (List.range 7).foldl (fun m i => m.write64 (I.istSlot (i + 1)) (I.stackTop (i + 1))) m
  m.write (I.addr .taskState + 102) (Mem.leBytes 2 sizeofTaskState)

def fixTss (I : Image) (m : Mem) : Mem :=
  let a := UInt64.ofNat (I.addr .taskState)
  let m := m.write64 (I.gdtSlot (GDT_TSS.toNat / 8)) (tssDescriptor a).toNat
  m.write64 (I.gdtSlot (GDT_TSS.toNat / 8 + 1)) (a >>> 32).toNat

/-- What `idt_desc` and `gdt_desc` hold when they are loaded. -/
def Image.idtDesc (I : Image) : TableReg := ⟨I.addr .idt, Static.idt.size - 1⟩
def Image.gdtDesc (I : Image) : TableReg := ⟨I.addr .gdt, Static.gdt.size - 1⟩

def initSyscall (I : Image) (r : SyscallMsrs) : SyscallMsrs :=
  { efer := r.efer ||| 1
    lstar := UInt64.ofNat I.syscallEntry
    cstar := UInt64.ofNat I.syscallEntry
    star := (GDT_KERNEL_CS.toUInt64 <<< 32) ||| (GDT_USER32_CS.toUInt64 <<< 48)
    sfmask := SFMASK }

/-- `Trap::init`; a task register that cannot be loaded is `none`. -/
def init (I : Image) (s : Platform) : Option Platform :=
  let m := fixTss I (initTaskState I (patchIdt I (initIdt I s.mem)))
  (ltr m { s.tables with idtr := I.idtDesc, gdtr := I.gdtDesc } GDT_TSS.toNat).map fun r =>
    { mem := r.1.write64 (I.addr .syscallStack) (r.1.read64 (I.rspSlot 0))
      tables := r.2
      msrs := initSyscall I s.msrs
      booted := true }

/-- What the branch of `trap_handler` for `int 233` does to the tables. -/
def runUserTables (I : Image) (s : Platform) : Platform :=
  let m := s.mem.write64 (I.gdtSlot (GDT_USER32_TLS.toNat / 8)) 0
  { s with
    mem := setIdt I m 0x80 (m.read64 (I.trapSlot 0x80))
    tables := { s.tables with idtr := I.idtDesc, gdtr := I.gdtDesc } }

/-! ## Runs -/

/-- What happens to the tables: they are made, a user program is started, or other
    code of the kernel or of the program stores outside of the statics. -/
inductive Event where
  | init
  | runUser
  | store (a : Nat) (bs : List UInt8)

/-- A store that leaves the statics alone. -/
def Image.Elsewhere (I : Image) (a n : Nat) : Prop :=
  ∀ x, a + n ≤ I.addr x ∨ I.addr x + x.size ≤ a

inductive Step (I : Image) : Platform → Event → Platform → Prop
  | init {s s' : Platform} (h : init I s = some s') : Step I s .init s'
  | runUser {s : Platform} (hbooted : s.booted = true) : Step I s .runUser (runUserTables I s)
  | store {s : Platform} {a : Nat} {bs : List UInt8} (h : I.Elsewhere a bs.length) :
    Step I s (.store a bs) { s with mem := s.mem.write a bs }

/-- The kernel as the linker makes it: the stubs in `__traps` and the initialised GDT. -/
structure Image.Loaded (I : Image) (m : Mem) : Prop where
  traps : ∀ n < 256, m.read64 (I.trapSlot n) = I.stub n
  gdt : ∀ i < 10, m.read64 (I.gdtSlot i) = (gdtInitial.getD i 0).toNat

/-- The linker gives each pointer of the library a place of its own, outside of the
    statics that are used before they are written. -/
structure Image.Linked (I : Image) : Prop where
  slots_apart : I.symbols.slots.Pairwise Mem.Apart64
  traps_apart : ∀ a ∈ I.symbols.slots,
    a + 8 ≤ I.addr .traps ∨ I.addr .traps + Static.traps.size ≤ a
  gdt_apart : ∀ a ∈ I.symbols.slots, a + 8 ≤ I.addr .gdt ∨ I.addr .gdt + Static.gdt.size ≤ a

/-- Every run starts with the image that the wrapper has relocated. -/
def platform (I : Image) : Lts Platform Event where
  start s := (∃ m, I.Loaded m ∧ s.mem = fakeDynlink I m) ∧ s.booted = false
  step := Step I

/-! ## Relocation -/

theorem dynlinkPtr_eq (offset : Nat) (m : Mem) (ptr : Nat) :
    dynlinkPtr offset m ptr = m.map64 (relocated offset) ptr := by
  simp only [dynlinkPtr, relocated, Mem.map64]
  by_cases h : m.read64 ptr ≠ 0
  · rw [if_pos h, if_pos h]
  · have hzero : m.read64 ptr = 0 := Decidable.not_not.mp h
    rw [if_neg h, if_neg h, ← hzero, Mem.write64_read64]

theorem relocated_lt (offset v : Nat) : relocated offset v < 2 ^ 64 := by
  unfold relocated
  split
  · exact wrap64_lt _
  · decide

theorem slots_apart {I : Image} (hI : I.Linked) : I.slots.Pairwise Mem.Apart64 := by
  refine List.pairwise_append.mpr ⟨hI.slots_apart, ?_, ?_⟩
  · refine List.Pairwise.map _ ?_ List.pairwise_lt_range
    intro i j hij
    unfold Mem.Apart64 Image.trapSlot
    omega
  · intro a ha b hb
    obtain ⟨n, hn, rfl⟩ := List.mem_map.mp hb
    have hlt := List.mem_range.mp hn
    have hapart := hI.traps_apart a ha
    simp only [Static.size] at hapart
    unfold Mem.Apart64 Image.trapSlot
    omega

/-- A pointer in one of the slots is relocated once. -/
theorem read64_fakeDynlink {I : Image} (hI : I.Linked) {a : Nat} (ha : a ∈ I.slots) (m : Mem) :
    (fakeDynlink I m).read64 a = relocated I.kernelBase (m.read64 a) := by
  have hop : dynlinkPtr I.kernelBase = Mem.map64 (relocated I.kernelBase) := by
    funext m ptr
    exact dynlinkPtr_eq _ m ptr
  rw [fakeDynlink, hop, Mem.read64_foldl_map64 (relocated_lt _) (slots_apart hI) ha]

/-- A word that shares no byte with a slot is as it was. -/
theorem read64_fakeDynlink_other {I : Image} {b : Nat} (h : ∀ a ∈ I.slots, Mem.Apart64 b a)
    (m : Mem) : (fakeDynlink I m).read64 b = m.read64 b := by
  have hop : dynlinkPtr I.kernelBase = Mem.map64 (relocated I.kernelBase) := by
    funext m ptr
    exact dynlinkPtr_eq _ m ptr
  rw [fakeDynlink, hop, Mem.read64_foldl_map64_outside _ h]

theorem trapSlot_mem {I : Image} {n : Nat} (hn : n < 256) : I.trapSlot n ∈ I.slots :=
  List.mem_append_right _ (List.mem_map.mpr ⟨n, List.mem_range.mpr hn, rfl⟩)

/-! ## What a gate means to the processor -/

/-- The address that the three members spell. -/
theorem gateTo_offset (a : UInt64) :
    (gateTo a).ptrLow.toNat + 2 ^ 16 * (gateTo a).ptrMid.toNat +
      2 ^ 32 * (gateTo a).ptrHigh.toNat = a.toNat := by
  have hlow : (gateTo a).ptrLow.toNat = a.toNat % 2 ^ 16 := UInt64.toNat_toUInt16 a
  have hmid : (gateTo a).ptrMid.toNat = a.toNat / 2 ^ 16 % 2 ^ 16 := by
    simp only [gateTo, UInt64.toNat_toUInt16, UInt64.toNat_shiftRight]
    rw [show (16 : UInt64).toNat % 64 = 16 from rfl, Nat.shiftRight_eq_div_pow]
  have hhigh : (gateTo a).ptrHigh.toNat = a.toNat / 2 ^ 32 % 2 ^ 32 := by
    simp only [gateTo, UInt64.toNat_toUInt32, UInt64.toNat_shiftRight]
    rw [show (32 : UInt64).toNat % 64 = 32 from rfl, Nat.shiftRight_eq_div_pow]
  have ha := a.toNat_lt
  omega

theorem leNat_leBytes_of_lt (n : Nat) {v : Nat} (h : v < 256 ^ n) :
    Mem.leNat (Mem.leBytes n v) = v := by
  rw [Mem.leNat_leBytes, Nat.mod_eq_of_lt h]

/-- **A descriptor is decoded to what was encoded.** -/
theorem idtGateAt_of_bytes {m : Mem} {a : Nat} {d : InterruptDescriptor}
    (h : m.read a sizeofInterruptDescriptor = d.bytes) :
    idtGateAt m a =
      { offset := d.ptrLow.toNat + 2 ^ 16 * d.ptrMid.toNat + 2 ^ 32 * d.ptrHigh.toNat
        selector := d.selector.toNat
        ist := d.ist.toNat % 8
        type := d.options.toNat % 16
        dpl := d.options.toNat / 32 % 4
        present := d.options.toNat / 128 = 1 } := by
  have hlow : m.readLE a 2 = d.ptrLow.toNat :=
    (Mem.readLE_of_read h 0 2 (by decide)).trans
      (leNat_leBytes_of_lt 2 d.ptrLow.toNat_lt)
  have hselector : m.readLE (a + 2) 2 = d.selector.toNat :=
    (Mem.readLE_of_read h 2 2 (by decide)).trans
      (leNat_leBytes_of_lt 2 d.selector.toNat_lt)
  have hmid : m.readLE (a + 6) 2 = d.ptrMid.toNat :=
    (Mem.readLE_of_read h 6 2 (by decide)).trans
      (leNat_leBytes_of_lt 2 d.ptrMid.toNat_lt)
  have hhigh : m.readLE (a + 8) 4 = d.ptrHigh.toNat :=
    (Mem.readLE_of_read h 8 4 (by decide)).trans
      (leNat_leBytes_of_lt 4 d.ptrHigh.toNat_lt)
  have hist : m (a + 4) = d.ist := Mem.apply_of_read h (by decide)
  have hoptions : m (a + 5) = d.options := Mem.apply_of_read h (by decide)
  simp only [idtGateAt, hlow, hselector, hmid, hhigh, hist, hoptions]

/-! ## Where the stores of the kernel go -/

section Places

variable {I : Image} {x y : Static} {m m' : Mem} {a b n : Nat}

/-- The bytes of a static. -/
def Image.In (I : Image) (x : Static) (b : Nat) : Prop := I.addr x ≤ b ∧ b < I.addr x + x.size

def Image.Within (I : Image) (x : Static) (a n : Nat) : Prop :=
  I.addr x ≤ a ∧ a + n ≤ I.addr x + x.size

theorem Image.gate_within (I : Image) {id : Nat} (hid : id < 256) (off k : Nat)
    (hoff : off + k ≤ sizeofInterruptDescriptor) : I.Within .idt (I.gate id + off) k := by
  unfold sizeofInterruptDescriptor at hoff
  simp only [Image.Within, Image.gate, Static.size, sizeofInterruptDescriptor]
  omega

theorem Image.trapSlot_within (I : Image) (hn : n < 256) : I.Within .traps (I.trapSlot n) 8 := by
  simp only [Image.Within, Image.trapSlot, Static.size]
  omega

theorem Image.gdtSlot_within (I : Image) (hn : n < 12) : I.Within .gdt (I.gdtSlot n) 8 := by
  simp only [Image.Within, Image.gdtSlot, Static.size]
  omega

theorem Image.rspSlot_within (I : Image) (hn : n < 3) : I.Within .taskState (I.rspSlot n) 8 := by
  simp only [Image.Within, Image.rspSlot, Static.size, sizeofTaskState]
  omega

theorem Image.istSlot_within (I : Image) (hn : n < 8) : I.Within .taskState (I.istSlot n) 8 := by
  simp only [Image.Within, Image.istSlot, Static.size, sizeofTaskState]
  omega

theorem Image.syscallStack_within (I : Image) : I.Within .syscallStack (I.addr .syscallStack) 8 :=
  ⟨le_refl _, le_refl _⟩

theorem Image.eqOff_write {bs : List UInt8} (h : I.Within x a bs.length) :
    Mem.EqOff (I.In x) m (m.write a bs) := by
  apply Mem.EqOff.write
  intro b hlow hhigh
  exact ⟨h.1.trans hlow, hhigh.trans_le h.2⟩

theorem Image.eqOff_write64 {v : Nat} (h : I.Within x a 8) :
    Mem.EqOff (I.In x) m (m.write64 a v) := by
  apply Image.eqOff_write
  rwa [Mem.length_leBytes]

/-- What is done to one static is not seen in another. -/
theorem Image.read_other (h : Mem.EqOff (I.In x) m m') (hxy : x ≠ y) (hb : I.Within y b n) :
    m'.read b n = m.read b n := by
  apply h.read
  intro i hi hin
  have hapart := I.apart x y hxy
  unfold Image.In at hin
  unfold Image.Within at hb
  omega

theorem Image.read64_other (h : Mem.EqOff (I.In x) m m') (hxy : x ≠ y) (hb : I.Within y b 8) :
    m'.read64 b = m.read64 b := by
  rw [Mem.read64, Mem.readLE, Image.read_other h hxy hb, Mem.read64, Mem.readLE]

theorem Image.read_elsewhere {bs : List UInt8} (h : I.Elsewhere a bs.length)
    (hb : I.Within y b n) : (m.write a bs).read b n = m.read b n := by
  apply Mem.read_write_disjoint
  have hy := h y
  unfold Image.Within at hb
  omega

theorem Image.read64_elsewhere {bs : List UInt8} (h : I.Elsewhere a bs.length)
    (hb : I.Within y b 8) : (m.write a bs).read64 b = m.read64 b := by
  rw [Mem.read64, Mem.readLE, Image.read_elsewhere h hb, Mem.read64, Mem.readLE]

end Places

/-! ## The IDT -/

section Idt

variable {I : Image} {m : Mem}

theorem setIdt_off (I : Image) (m : Mem) {id : Nat} (hid : id < 256) (a : Nat) :
    Mem.EqOff (I.In .idt) m (setIdt I m id a) :=
  Image.eqOff_write (I.gate_within hid 0 _ (le_refl _))

theorem setIdt_self (I : Image) (m : Mem) (id a : Nat) :
    (setIdt I m id a).read (I.gate id) sizeofInterruptDescriptor =
      (gateTo (UInt64.ofNat a)).bytes :=
  Mem.read_write_self m (I.gate id) _

theorem Image.gate_apart (I : Image) {i j : Nat} (h : i ≠ j) :
    I.gate i + sizeofInterruptDescriptor ≤ I.gate j ∨
      I.gate j + sizeofInterruptDescriptor ≤ I.gate i := by
  simp only [Image.gate, sizeofInterruptDescriptor]
  omega

theorem setIdt_other (I : Image) (m : Mem) {id n : Nat} (h : n ≠ id) (a : Nat) :
    (setIdt I m id a).read (I.gate n) sizeofInterruptDescriptor =
      m.read (I.gate n) sizeofInterruptDescriptor :=
  Mem.read_write_disjoint m (I.gate id) _ (I.gate_apart h)

/-- `__traps` after relocation. -/
def Image.Relocated (I : Image) (m : Mem) : Prop :=
  ∀ n < 256, m.read64 (I.trapSlot n) = I.kernelBase + I.stub n

/-- The descriptor that `set_idt` makes for the stub of a vector. -/
def Image.stubGate (I : Image) (n : Nat) : InterruptDescriptor :=
  gateTo (UInt64.ofNat (I.kernelBase + I.stub n))

/-- The loop after `k` gates. -/
theorem initIdt_loop (htraps : I.Relocated m) {k : Nat} (hk : k ≤ 256) :
    let m' := (List.range k).foldl (fun m i => setIdt I m i (m.read64 (I.trapSlot i))) m
    Mem.EqOff (I.In .idt) m m' ∧
      ∀ n < k, m'.read (I.gate n) sizeofInterruptDescriptor = (I.stubGate n).bytes := by
  induction k with
  | zero => exact ⟨Mem.EqOff.refl _ _, fun n hn => absurd hn (Nat.not_lt_zero n)⟩
  | succ k ih =>
    obtain ⟨hoff, hgates⟩ := ih (by omega)
    rw [List.range_succ, List.foldl_append, List.foldl_cons, List.foldl_nil]
    refine ⟨hoff.trans (setIdt_off I _ hk _), ?_⟩
    intro n hn
    have hslot : ((List.range k).foldl (fun m i => setIdt I m i (m.read64 (I.trapSlot i)))
        m).read64 (I.trapSlot k) = I.kernelBase + I.stub k := by
      rw [Image.read64_other hoff (by decide) (I.trapSlot_within hk), htraps k hk]
    rcases Nat.lt_succ_iff_lt_or_eq.mp hn with hlt | rfl
    · rw [setIdt_other I _ (by omega), hgates n hlt]
    · rw [setIdt_self, hslot]
      rfl

/-- The gates as `init` leaves them: a program may invoke `int3`, and the run of a
    program starts on the seventh stack. -/
def Image.finalGate (I : Image) (n : Nat) : InterruptDescriptor :=
  { I.stubGate n with
    ist := if n = 233 then 7 else 0
    options := if n = 3 then 0xee else 0x8e }

theorem finalGate_other {n : Nat} (h3 : n ≠ 3) (h233 : n ≠ 233) :
    I.finalGate n = I.stubGate n := by
  simp only [Image.finalGate, if_neg h3, if_neg h233]
  rfl

theorem stubGate_bytes_splice (I : Image) (n : Nat) :
    Splice.splice (I.stubGate n).bytes 5 [0xee] =
      { I.stubGate n with options := 0xee }.bytes ∧
    Splice.splice (I.stubGate n).bytes 4 [7] = { I.stubGate n with ist := 7 }.bytes :=
  ⟨rfl, rfl⟩

/-- One byte of a gate. -/
theorem write_gate_self (m : Mem) (id : Nat) {off : Nat} {v : UInt8}
    (hoff : off + 1 ≤ sizeofInterruptDescriptor) :
    (m.write (I.gate id + off) [v]).read (I.gate id) sizeofInterruptDescriptor =
      Splice.splice (m.read (I.gate id) sizeofInterruptDescriptor) off [v] :=
  Mem.read_write m (I.gate id) hoff

theorem write_gate_other (m : Mem) {id n off : Nat} {v : UInt8} (h : n ≠ id)
    (hoff : off + 1 ≤ sizeofInterruptDescriptor) :
    (m.write (I.gate id + off) [v]).read (I.gate n) sizeofInterruptDescriptor =
      m.read (I.gate n) sizeofInterruptDescriptor := by
  apply Mem.read_write_disjoint
  have hapart := I.gate_apart h
  rw [List.length_singleton]
  omega

theorem patchIdt_off (I : Image) (m : Mem) : Mem.EqOff (I.In .idt) m (patchIdt I m) :=
  (Image.eqOff_write (I.gate_within (by decide) 5 1 (by decide))).trans
    (Image.eqOff_write (I.gate_within (by decide) 4 1 (by decide)))

theorem patchIdt_gate {n : Nat}
    (hgates : ∀ n < 256, m.read (I.gate n) sizeofInterruptDescriptor = (I.stubGate n).bytes)
    (hn : n < 256) :
    (patchIdt I m).read (I.gate n) sizeofInterruptDescriptor = (I.finalGate n).bytes := by
  have hthree : m (I.gate 3 + 5) = 0x8e := Mem.apply_of_read (hgates 3 (by decide)) (by decide)
  have hnew : m (I.gate 3 + 5) ||| ((3 : UInt8) <<< 5) = 0xee := by
    rw [hthree]
    decide
  have hlast : TRAP_RUN_USER.toNat = 233 := rfl
  simp only [patchIdt, hnew, hlast]
  by_cases h3 : n = 3
  · subst h3
    rw [write_gate_other _ (by decide) (by decide), write_gate_self _ _ (by decide),
      hgates 3 (by decide), (stubGate_bytes_splice I 3).1]
    rfl
  · by_cases h233 : n = 233
    · subst h233
      rw [write_gate_self _ _ (by decide), write_gate_other _ (by decide) (by decide),
        hgates 233 (by decide), (stubGate_bytes_splice I 233).2]
      rfl
    · rw [write_gate_other _ h233 (by decide), write_gate_other _ h3 (by decide), hgates n hn,
        finalGate_other h3 h233]

end Idt

/-! ## The task-state segment and the GDT -/

section Tss

variable {I : Image} {m : Mem}

theorem Image.stackTop_lt (I : Image) {i : Nat} (hi : i < 8) : I.stackTop i < 2 ^ 64 := by
  have hbound := I.stack_bound
  simp only [Image.stackTop, STACK_SIZE] at hbound ⊢
  omega

/-- The stacks after `k` of the seven stores. -/
theorem initTaskState_loop (I : Image) (m : Mem) {k : Nat} (hk : k ≤ 7) :
    let m' := (List.range k).foldl
      (fun m i => m.write64 (I.istSlot (i + 1)) (I.stackTop (i + 1))) m
    Mem.EqOff (I.In .taskState) m m' ∧ m'.read64 (I.rspSlot 0) = m.read64 (I.rspSlot 0) ∧
      ∀ i, 1 ≤ i → i ≤ k → m'.read64 (I.istSlot i) = I.stackTop i := by
  induction k with
  | zero => exact ⟨Mem.EqOff.refl _ _, rfl, fun i h1 h0 => absurd h1 (by omega)⟩
  | succ k ih =>
    obtain ⟨hoff, hrsp, hist⟩ := ih (by omega)
    rw [List.range_succ, List.foldl_append, List.foldl_cons, List.foldl_nil]
    refine ⟨hoff.trans (Image.eqOff_write64 (I.istSlot_within (by omega))), ?_, ?_⟩
    · rw [Mem.read64_write64_disjoint _ _ _ (by simp only [Image.rspSlot, Image.istSlot]; omega),
        hrsp]
    · intro i h1 hi
      rcases Nat.lt_succ_iff_lt_or_eq.mp (Nat.lt_succ_of_le hi) with hlt | rfl
      · rw [Mem.read64_write64_disjoint _ _ _ (by simp only [Image.istSlot]; omega),
          hist i h1 (by omega)]
      · exact Mem.read64_write64_self _ _ (I.stackTop_lt (by omega))

theorem initTaskState_off (I : Image) (m : Mem) :
    Mem.EqOff (I.In .taskState) m (initTaskState I m) := by
  have hrsp : Mem.EqOff (I.In .taskState) m (m.write64 (I.rspSlot 0) (I.stackTop 0)) :=
    Image.eqOff_write64 (I.rspSlot_within (by decide))
  refine (hrsp.trans (initTaskState_loop I _ (le_refl 7)).1).trans (Image.eqOff_write ?_)
  simp only [Image.Within, Static.size, sizeofTaskState, Mem.length_leBytes]
  omega

theorem initTaskState_stacks (I : Image) (m : Mem) :
    (initTaskState I m).read64 (I.rspSlot 0) = I.stackTop 0 ∧
      ∀ i, 1 ≤ i → i ≤ 7 → (initTaskState I m).read64 (I.istSlot i) = I.stackTop i := by
  obtain ⟨-, hrsp, hist⟩ :=
    initTaskState_loop I (m.write64 (I.rspSlot 0) (I.stackTop 0)) (le_refl 7)
  unfold initTaskState
  constructor
  · rw [Mem.read64_write_disjoint _ _ _
      (by simp only [Image.rspSlot, Mem.length_leBytes]; omega), hrsp,
      Mem.read64_write64_self _ _ (I.stackTop_lt (by decide))]
  · intro i h1 h7
    rw [Mem.read64_write_disjoint _ _ _
      (by simp only [Image.istSlot, Mem.length_leBytes]; omega), hist i h1 h7]

/-- A field above the ones below it. -/
theorem or_field {i low : Nat} (h : low < 2 ^ i) (high : Nat) :
    low ||| 2 ^ i * high = 2 ^ i * high + low := by
  rw [Nat.or_comm, Nat.two_pow_add_eq_or_of_lt h]

/-- The fields of the TSS descriptor do not overlap. -/
theorem tssDescriptor_toNat (a : UInt64) :
    (tssDescriptor a).toNat =
      2 ^ 56 * (a.toNat / 2 ^ 24 % 2 ^ 8) + (2 ^ 53 * 1 + (2 ^ 47 * 1 + (2 ^ 40 * 9 +
        (2 ^ 16 * (a.toNat % 2 ^ 24) + 111)))) := by
  have hlow : ((a &&& 0xffffff) <<< 16).toNat = 2 ^ 16 * (a.toNat % 2 ^ 24) := by
    have hand : a.toNat &&& 0xffffff = a.toNat % 2 ^ 24 := Nat.and_two_pow_sub_one_eq_mod _ 24
    simp only [UInt64.toNat_shiftLeft, UInt64.toNat_and]
    show (a.toNat &&& 0xffffff) <<< 16 % 2 ^ 64 = _
    rw [hand, Nat.shiftLeft_eq]
    omega
  have hhigh : ((a >>> 24) <<< 56).toNat = 2 ^ 56 * (a.toNat / 2 ^ 24 % 2 ^ 8) := by
    simp only [UInt64.toNat_shiftLeft, UInt64.toNat_shiftRight]
    show (a.toNat >>> 24) <<< 56 % 2 ^ 64 = _
    rw [Nat.shiftLeft_eq, Nat.shiftRight_eq_div_pow]
    omega
  have hlimit : (UInt64.ofNat sizeofTaskState - (1 : UInt64)).toNat = 111 := rfl
  have htype : ((9 : UInt64) <<< 40).toNat = 2 ^ 40 * 9 := rfl
  have hdpl : ((0 : UInt64) <<< 45).toNat = 0 := rfl
  have hpresent : ((1 : UInt64) <<< 47).toNat = 2 ^ 47 * 1 := rfl
  have hlong : ((1 : UInt64) <<< 53).toNat = 2 ^ 53 * 1 := rfl
  simp only [tssDescriptor, UInt64.toNat_or, hlow, hhigh, hlimit, htype, hdpl, hpresent, hlong,
    Nat.or_zero]
  have hbase : 2 ^ 16 * (a.toNat % 2 ^ 24) + 111 < 2 ^ 40 := by omega
  rw [or_field (show 111 < 2 ^ 16 by decide), or_field hbase,
    or_field (show 2 ^ 40 * 9 + (2 ^ 16 * (a.toNat % 2 ^ 24) + 111) < 2 ^ 47 by omega),
    or_field (show 2 ^ 47 * 1 + (2 ^ 40 * 9 + (2 ^ 16 * (a.toNat % 2 ^ 24) + 111)) < 2 ^ 53 by
      omega),
    or_field (by omega)]

/-- **The processor finds the task state where it is.** -/
theorem systemBase_tssDescriptor (a : UInt64) :
    systemBase (tssDescriptor a).toNat (a >>> 32).toNat = a.toNat ∧
      systemLimit (tssDescriptor a).toNat = sizeofTaskState - 1 := by
  have hhi : (a >>> 32).toNat = a.toNat / 2 ^ 32 := by
    rw [UInt64.toNat_shiftRight, show (32 : UInt64).toNat % 64 = 32 from rfl,
      Nat.shiftRight_eq_div_pow]
  have ha := a.toNat_lt
  rw [tssDescriptor_toNat, hhi]
  simp only [systemBase, systemLimit, sizeofTaskState]
  constructor
  · omega
  · rw [if_neg (by omega)]
    omega

theorem descriptorOf_tssDescriptor (a : UInt64) :
    (descriptorOf (tssDescriptor a).toNat).type = AVAILABLE_TSS ∧
      (descriptorOf (tssDescriptor a).toNat).system = true ∧
      (descriptorOf (tssDescriptor a).toNat).present = true := by
  rw [tssDescriptor_toNat]
  simp only [descriptorOf, AVAILABLE_TSS, decide_eq_true_eq]
  omega

end Tss

end Trap

end JudgePenguin
