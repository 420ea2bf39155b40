/-
  JudgePenguin/X86Gates.lean
  ==========================
  **Descriptor tables of a 64-bit processor**: what it reads in memory when it
  delivers an interrupt.

  An interrupt takes its handler from a gate of the IDT, the segment of the handler
  from the GDT and the stack from the task-state segment, whose base and limit `ltr`
  has read once and the processor keeps.  A descriptor is decoded here as the
  processor does it, from the bytes at its address, so that a program that writes the
  tables can be compared with what the processor makes of them.  A fault on the way
  is `none`.
-/
import JudgePenguin.ByteMemory

namespace Mem

/-- A field of `k` bytes among bytes that are known. -/
theorem readLE_of_read {m : Mem} {a n : Nat} {bs : List UInt8} (h : m.read a n = bs) (off k : Nat)
    (hoff : off + k ≤ n) : m.readLE (a + off) k = leNat ((bs.drop off).take k) := by
  rw [← h, read_slice m a hoff, readLE]

/-- One byte of them. -/
theorem apply_of_read {m : Mem} {a n : Nat} {bs : List UInt8} (h : m.read a n = bs) {off : Nat}
    (hoff : off < n) : m (a + off) = bs.getD off 0 := by
  rw [← h, getD_read m a hoff]

end Mem

namespace X86

/-! ## Descriptors -/

/-- Base and limit of a table. -/
structure TableReg where
  base : Nat
  limit : Nat

/-- A gate of the IDT. -/
structure IdtGate where
  offset : Nat
  selector : Nat
  ist : Nat
  type : Nat
  dpl : Nat
  present : Bool

/-- The 16 bytes at `a` as a gate. -/
def idtGateAt (m : Mem) (a : Nat) : IdtGate :=
  { offset := m.readLE a 2 + 2 ^ 16 * m.readLE (a + 6) 2 + 2 ^ 32 * m.readLE (a + 8) 4
    selector := m.readLE (a + 2) 2
    ist := (m (a + 4)).toNat % 8
    type := (m (a + 5)).toNat % 16
    dpl := (m (a + 5)).toNat / 32 % 4
    present := (m (a + 5)).toNat / 128 = 1 }

def INTERRUPT_GATE : Nat := 14
def TRAP_GATE : Nat := 15

/-- A segment descriptor: `type` has bits 40 to 43 and `system` says that bit 44 is
    clear. -/
structure Descriptor where
  type : Nat
  system : Bool
  dpl : Nat
  present : Bool
  long : Bool
  big : Bool

/-- The descriptor in a word of the GDT. -/
def descriptorOf (w : Nat) : Descriptor :=
  { type := w / 2 ^ 40 % 16
    system := w / 2 ^ 44 % 2 = 0
    dpl := w / 2 ^ 45 % 4
    present := w / 2 ^ 47 % 2 = 1
    long := w / 2 ^ 53 % 2 = 1
    big := w / 2 ^ 54 % 2 = 1 }

/-- A present 64-bit code segment that runs at its own privilege level. -/
def Descriptor.Code64 (d : Descriptor) : Prop :=
  d.system = false ∧ d.type / 8 = 1 ∧ d.type / 4 % 2 = 0 ∧ d.present = true ∧ d.long = true ∧
    d.big = false

/-- A present writable data segment. -/
def Descriptor.Data (d : Descriptor) : Prop :=
  d.system = false ∧ d.type / 8 = 0 ∧ d.type / 2 % 2 = 1 ∧ d.present = true

instance (d : Descriptor) : Decidable d.Code64 := inferInstanceAs (Decidable (_ ∧ _))

instance (d : Descriptor) : Decidable d.Data := inferInstanceAs (Decidable (_ ∧ _))

/-- Base and limit in the two words of a system descriptor. -/
def systemBase (lo hi : Nat) : Nat :=
  lo / 2 ^ 16 % 2 ^ 24 + 2 ^ 24 * (lo / 2 ^ 56 % 2 ^ 8) + 2 ^ 32 * (hi % 2 ^ 32)

def systemLimit (lo : Nat) : Nat :=
  let limit := lo % 2 ^ 16 + 2 ^ 16 * (lo / 2 ^ 48 % 16)
  if lo / 2 ^ 55 % 2 = 1 then 2 ^ 12 * limit + (2 ^ 12 - 1) else limit

def AVAILABLE_TSS : Nat := 9

/-! ## Table registers -/

structure Tables where
  idtr : TableReg
  gdtr : TableReg
  /-- What `ltr` has read. -/
  tss : TableReg

/-- The word of the GDT that a selector without a table indicator selects. -/
def gdtWord (m : Mem) (t : Tables) (selector : Nat) : Option Nat :=
  if 8 ≤ selector ∧ selector / 4 % 2 = 0 ∧ selector / 8 * 8 + 7 ≤ t.gdtr.limit then
    some (m.read64 (t.gdtr.base + selector / 8 * 8))
  else none

/-- `ltr`: an available task is marked busy. -/
def ltr (m : Mem) (t : Tables) (selector : Nat) : Option (Mem × Tables) :=
  match gdtWord m t selector with
  | none => none
  | some lo =>
    let d := descriptorOf lo
    if selector / 8 * 8 + 15 ≤ t.gdtr.limit ∧ d.system = true ∧ d.type = AVAILABLE_TSS ∧
        d.present = true then
      let a := t.gdtr.base + selector / 8 * 8
      some (m.write64 a (lo + 2 ^ 41),
        { t with tss := ⟨systemBase lo (m.read64 (a + 8)), systemLimit lo⟩ })
    else none

/-! ## Delivery -/

/-- Whom the interrupt finds: `software` is an `int` instruction. -/
structure Interrupted where
  cpl : Nat
  rsp : Nat
  software : Bool

/-- Where its handler starts, before the first word is pushed. -/
structure Delivered where
  rip : Nat
  cs : Nat
  cpl : Nat
  rsp : Nat
  /-- Whether further interrupts are held off. -/
  masked : Bool
deriving DecidableEq

/-- The field of the task-state segment that has the new stack: one of the interrupt
    stack table, or that of the new privilege level if it is another one. -/
def stackField (ist dpl cpl : Nat) : Option Nat :=
  if ist ≠ 0 then some (28 + 8 * ist) else if dpl < cpl then some (4 + 8 * dpl) else none

def newStack (m : Mem) (t : Tables) (ist dpl : Nat) (c : Interrupted) : Option Nat :=
  match stackField ist dpl c.cpl with
  | none => some c.rsp
  | some off => if off + 7 ≤ t.tss.limit then some (m.read64 (t.tss.base + off)) else none

def Canonical (a : Nat) : Prop := a < 2 ^ 47 ∨ 2 ^ 64 - 2 ^ 47 ≤ a

instance (a : Nat) : Decidable (Canonical a) := inferInstanceAs (Decidable (_ ∨ _))

/-- A gate that can be used for the vector. -/
def IdtGate.Usable (g : IdtGate) (c : Interrupted) : Prop :=
  (g.type = INTERRUPT_GATE ∨ g.type = TRAP_GATE) ∧ g.present = true ∧
    (c.software = true → c.cpl ≤ g.dpl) ∧ Canonical g.offset

instance (g : IdtGate) (c : Interrupted) : Decidable (g.Usable c) :=
  inferInstanceAs (Decidable (_ ∧ _))

/-- Delivery of an interrupt.  The new stack is aligned to 16 bytes. -/
def deliver (m : Mem) (t : Tables) (n : Nat) (c : Interrupted) : Option Delivered :=
  let g := idtGateAt m (t.idtr.base + 16 * n)
  if 16 * n + 15 ≤ t.idtr.limit ∧ g.Usable c then
    match gdtWord m t g.selector with
    | none => none
    | some w =>
      let d := descriptorOf w
      if d.Code64 ∧ d.dpl ≤ c.cpl then
        (newStack m t g.ist d.dpl c).map fun rsp =>
          { rip := g.offset, cs := g.selector / 4 * 4 + d.dpl, cpl := d.dpl
            rsp := rsp - rsp % 16, masked := g.type = INTERRUPT_GATE }
      else none
  else none

section Delivery

variable {m : Mem} {t : Tables} {n w : Nat} {c : Interrupted}

/-- A software interrupt needs the privilege of the gate. -/
theorem deliver_refused (hsoft : c.software = true)
    (hdpl : (idtGateAt m (t.idtr.base + 16 * n)).dpl < c.cpl) : deliver m t n c = none := by
  have hnot : ¬ (16 * n + 15 ≤ t.idtr.limit ∧ (idtGateAt m (t.idtr.base + 16 * n)).Usable c) := by
    rintro ⟨-, -, -, hle, -⟩
    exact absurd (hle hsoft) (Nat.not_le.mpr hdpl)
  simp only [deliver, if_neg hnot]

/-- What is delivered when nothing faults. -/
theorem deliver_eq {rsp : Nat} (hlimit : 16 * n + 15 ≤ t.idtr.limit)
    (husable : (idtGateAt m (t.idtr.base + 16 * n)).Usable c)
    (hword : gdtWord m t (idtGateAt m (t.idtr.base + 16 * n)).selector = some w)
    (hcode : (descriptorOf w).Code64) (hdpl : (descriptorOf w).dpl ≤ c.cpl)
    (hstack : newStack m t (idtGateAt m (t.idtr.base + 16 * n)).ist (descriptorOf w).dpl c =
      some rsp) :
    deliver m t n c =
      some
        { rip := (idtGateAt m (t.idtr.base + 16 * n)).offset
          cs := (idtGateAt m (t.idtr.base + 16 * n)).selector / 4 * 4 + (descriptorOf w).dpl
          cpl := (descriptorOf w).dpl
          rsp := rsp - rsp % 16
          masked := (idtGateAt m (t.idtr.base + 16 * n)).type = INTERRUPT_GATE } := by
  simp only [deliver, if_pos (And.intro hlimit husable), hword, if_pos (And.intro hcode hdpl),
    hstack, Option.map_some]

end Delivery

/-- A stack of the interrupt stack table, whatever is interrupted. -/
theorem newStack_ist {m : Mem} {t : Tables} {ist dpl : Nat} {c : Interrupted} (hist : ist ≠ 0)
    (hlimit : 28 + 8 * ist + 7 ≤ t.tss.limit) :
    newStack m t ist dpl c = some (m.read64 (t.tss.base + (28 + 8 * ist))) := by
  simp only [newStack, stackField, if_pos hist, if_pos hlimit]

/-- The stack of the new privilege level. -/
theorem newStack_inner {m : Mem} {t : Tables} {dpl : Nat} {c : Interrupted} (hdpl : dpl < c.cpl)
    (hlimit : 4 + 8 * dpl + 7 ≤ t.tss.limit) :
    newStack m t 0 dpl c = some (m.read64 (t.tss.base + (4 + 8 * dpl))) := by
  simp only [newStack, stackField, ne_eq, not_true_eq_false, if_false, if_pos hdpl, if_pos hlimit]

theorem newStack_same {m : Mem} {t : Tables} {dpl : Nat} {c : Interrupted} (hdpl : ¬ dpl < c.cpl) :
    newStack m t 0 dpl c = some c.rsp := by
  simp only [newStack, stackField, ne_eq, not_true_eq_false, if_false, if_neg hdpl]

/-! ## `syscall` and `sysret` -/

/-- The selectors that `syscall` loads into `cs` and `ss`. -/
def syscallSelectors (star : UInt64) : Nat × Nat :=
  (star.toNat / 2 ^ 32 % 2 ^ 16 / 4 * 4, star.toNat / 2 ^ 32 % 2 ^ 16 + 8)

/-- Those that a 64-bit `sysret` loads. -/
def sysretSelectors (star : UInt64) : Nat × Nat :=
  ((star.toNat / 2 ^ 48 + 16) ||| 3, (star.toNat / 2 ^ 48 + 8) ||| 3)

/-- Selectors of a code and a stack segment for 64-bit code of a privilege level. -/
def Segments (m : Mem) (t : Tables) (level : Nat) (sel : Nat × Nat) : Prop :=
  ∃ code data, gdtWord m t sel.1 = some code ∧ gdtWord m t sel.2 = some data ∧
    (descriptorOf code).Code64 ∧ (descriptorOf code).dpl = level ∧
    (descriptorOf data).Data ∧ (descriptorOf data).dpl = level

end X86
