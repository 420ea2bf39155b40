/-
  JudgePenguin/Pic.lean
  =====================
  **The interrupt lines of the kernel** (`lib/pic.cpp`).

  The driver programs two chips and keeps the mask of their sixteen lines.  To the rest
  of the kernel the chips are one controller with sixteen lines, some of them enabled,
  in which line `i` has vector `32 + i` and the lines of the second chip come between 1
  and 3 in priority.  Every trace of the driver with its chips is one of that controller,
  from whatever state the firmware has left the chips in, as long as some line is enabled
  when `init` runs; with all lines disabled it leaves them all open.

  The first chip ends interrupts by itself, the second when it is told so.  The words for
  OCW3 turn the special mask mode on, which the comment beside them calls clearing it: a
  line that is disabled while it is in service then keeps no other line from it.
-/
import JudgePenguin.I8259
import JudgePenguin.Lts
import Mathlib.Data.Nat.Bitwise

namespace JudgePenguin

open I8259

namespace PIC

/-! ## `pic.cpp` -/

def IO_PIC1 : Nat := 0x20
def IO_PIC2 : Nat := 0xA0
def IRQ_SLAVE : Nat := 2
def IRQ_OFFSET : Nat := 32

/-- A write to a port of one of the chips. -/
def outb (port : Nat) (v : UInt8) (p : Pair) : Pair :=
  if port = IO_PIC1 then { p with master := p.master.command v }
  else if port = IO_PIC1 + 1 then { p with master := p.master.data v }
  else if port = IO_PIC2 then { p with slave := p.slave.command v }
  else if port = IO_PIC2 + 1 then { p with slave := p.slave.data v }
  else p

/-- Writes in order. -/
def outbs (ws : List (Nat × UInt8)) (p : Pair) : Pair := ws.foldl (fun p w => outb w.1 w.2 p) p

/-- The statics of the driver and the chips. -/
structure Pic where
  mask : UInt16
  didInit : Bool
  chips : Pair

/-- The initial value of `mask_8259A`. -/
def initialMask : UInt16 := (0xFFFF : UInt16) &&& ~~~((1 : UInt16) <<< 2)

/-- `set_mask_8259A`, without the message. -/
def setMask (mask : UInt16) (s : Pic) : Pic :=
  let s := { s with mask := mask }
  if ¬ s.didInit then s
  else
    { s with
      chips := outbs [(IO_PIC1 + 1, mask.toUInt8), (IO_PIC2 + 1, (mask >>> 8).toUInt8)] s.chips }

def eoi (s : Pic) : Pic := { s with chips := outbs [(IO_PIC1, 0x20), (IO_PIC2, 0x20)] s.chips }

/-- `1 << irq` as it meets the mask; an `int` allows shifts by less than 32 (`Shifts`). -/
def bit (irq : UInt8) : UInt16 := UInt16.ofNat (2 ^ irq.toNat)

def Shifts (irq : UInt8) : Prop := irq < 32

def enable (irq : UInt8) (s : Pic) : Pic := setMask (s.mask &&& ~~~(bit irq)) s

def disable (irq : UInt8) (s : Pic) : Pic := setMask (s.mask ||| bit irq) s

/-- What `init` sends before the masks. -/
def initWords : List (Nat × UInt8) :=
  [(IO_PIC1 + 1, 0xFF), (IO_PIC2 + 1, 0xFF),
    (IO_PIC1, 0x11), (IO_PIC1 + 1, UInt8.ofNat IRQ_OFFSET),
    (IO_PIC1 + 1, UInt8.ofNat (2 ^ IRQ_SLAVE)), (IO_PIC1 + 1, 0x3),
    (IO_PIC2, 0x11), (IO_PIC2 + 1, UInt8.ofNat (IRQ_OFFSET + 8)),
    (IO_PIC2 + 1, UInt8.ofNat IRQ_SLAVE), (IO_PIC2 + 1, 0x01),
    (IO_PIC1, 0x68), (IO_PIC1, 0x0a), (IO_PIC2, 0x68), (IO_PIC2, 0x0a)]

def init (s : Pic) : Pic :=
  let s := { s with didInit := true, chips := outbs initWords s.chips }
  if s.mask ≠ 0xFFFF then setMask s.mask s else s

/-! ## One controller with sixteen lines -/

/-- `serving` are the lines of the second chip that are in service. -/
structure Controller where
  enabled : Nat → Bool
  pending : Nat → Bool
  serving : Nat → Bool

namespace Controller

/-- Line `i` of the second chip waits for those in service before it. -/
def waits (c : Controller) (i : Nat) : Bool :=
  ((List.range 8).map (· + 8)).any fun j => c.serving j && c.enabled j && decide (j ≤ i)

def eligible (c : Controller) (i : Nat) : Bool :=
  c.pending i && c.enabled i && (decide (i < 8) || c.enabled IRQ_SLAVE && !c.waits i)

/-- The lines of devices by priority. -/
def byPriority : List Nat := [0, 1] ++ (List.range 8).map (· + 8) ++ [3, 4, 5, 6, 7]

/-- The line whose interrupt is next. -/
def next (c : Controller) : Option Nat := byPriority.find? c.eligible

/-- The vector that the processor gets: that of line 7 when there is no interrupt. -/
def vector (c : Controller) : Nat := IRQ_OFFSET + c.next.getD 7

def taken (c : Controller) : Controller :=
  match c.next with
  | none => c
  | some i =>
    { c with
      pending := Function.update c.pending i false
      serving := if i < 8 then c.serving else Function.update c.serving i true }

/-- The line in service that an end of interrupt is for. -/
def ended (c : Controller) : Option Nat :=
  ((List.range 8).map (· + 8)).find? fun j => c.serving j && c.enabled j

def eoi (c : Controller) : Controller :=
  match c.ended with
  | none => c
  | some j => { c with serving := Function.update c.serving j false }

end Controller

/-! ## Runs -/

/-- What happens to the lines. -/
inductive Event where
  | init
  | enable (irq : UInt8)
  | disable (irq : UInt8)
  | eoi
  /-- A device raises its line or lowers it. -/
  | line (irq : Nat) (b : Bool)
  /-- The processor takes an interrupt. -/
  | interrupt (vector : Nat)

/-- A line that a device can have. -/
def IsDevice (irq : Nat) : Prop := irq < 16 ∧ irq ≠ IRQ_SLAVE

inductive PicStep : Pic → Event → Pic → Prop
  | init {s : Pic} (hsome : s.mask ≠ 0xFFFF) : PicStep s .init (init s)
  | enable {s : Pic} {irq : UInt8} (hirq : Shifts irq) : PicStep s (.enable irq) (enable irq s)
  | disable {s : Pic} {irq : UInt8} (hirq : Shifts irq) : PicStep s (.disable irq) (disable irq s)
  | eoi {s : Pic} : PicStep s .eoi (eoi s)
  | line {s : Pic} {irq : Nat} (b : Bool) (hirq : IsDevice irq) :
    PicStep s (.line irq b) { s with chips := s.chips.setLine irq b }
  | interrupt {s : Pic} {v : Nat} (hv : s.chips.acknowledge.1 = some v) :
    PicStep s (.interrupt v) { s with chips := s.chips.acknowledge.2 }

/-- The driver after an `init` with some line enabled, on chips in any state. -/
def driver : Lts Pic Event where
  start s := ∃ s₀ : Pic, s₀.mask ≠ 0xFFFF ∧ s = init s₀
  step := PicStep

inductive ControllerStep : Controller → Event → Controller → Prop
  | init {c : Controller} :
    ControllerStep c .init { c with pending := fun _ => false, serving := fun _ => false }
  | enable {c : Controller} (irq : UInt8) :
    ControllerStep c (.enable irq) { c with enabled := Function.update c.enabled irq.toNat true }
  | disable {c : Controller} (irq : UInt8) :
    ControllerStep c (.disable irq) { c with enabled := Function.update c.enabled irq.toNat false }
  | eoi {c : Controller} : ControllerStep c .eoi c.eoi
  | line {c : Controller} {irq : Nat} (b : Bool) (hirq : IsDevice irq) :
    ControllerStep c (.line irq b) { c with pending := Function.update c.pending irq b }
  | interrupt {c : Controller} : ControllerStep c (.interrupt c.vector) c.taken

def controller : Lts Controller Event where
  start c := (∀ i, c.pending i = false) ∧ ∀ i, c.serving i = false
  step := ControllerStep

/-! ## Bits of the masks -/

section Bits

variable {mask : UInt16} {i : Nat}

theorem low_bit (mask : UInt16) (hi : i < 8) :
    mask.toUInt8.toBitVec.getLsbD i = mask.toBitVec.getLsbD i := by
  rw [UInt16.toBitVec_toUInt8, BitVec.getLsbD_setWidth, decide_eq_true hi, Bool.true_and]

theorem high_bit (mask : UInt16) (hi : i < 8) :
    (mask >>> 8).toUInt8.toBitVec.getLsbD i = mask.toBitVec.getLsbD (i + 8) := by
  have hshift : (mask >>> 8).toBitVec = mask.toBitVec >>> 8 := rfl
  rw [low_bit _ hi, hshift, BitVec.getLsbD_ushiftRight, Nat.add_comm]

theorem bit_get (irq : UInt8) (hi : i < 16) :
    (bit irq).toBitVec.getLsbD i = decide (irq.toNat = i) := by
  rw [bit, UInt16.toBitVec_ofNat', BitVec.getLsbD_ofNat, decide_eq_true hi, Bool.true_and,
    Nat.testBit_two_pow]

theorem enable_bit (mask : UInt16) (irq : UInt8) (hi : i < 16) :
    (mask &&& ~~~(bit irq)).toBitVec.getLsbD i =
      (mask.toBitVec.getLsbD i && !decide (irq.toNat = i)) := by
  rw [UInt16.toBitVec_and, BitVec.getLsbD_and, UInt16.toBitVec_not, BitVec.getLsbD_not,
    bit_get irq hi, decide_eq_true hi, Bool.true_and]

theorem disable_bit (mask : UInt16) (irq : UInt8) (hi : i < 16) :
    (mask ||| bit irq).toBitVec.getLsbD i =
      (mask.toBitVec.getLsbD i || decide (irq.toNat = i)) := by
  rw [UInt16.toBitVec_or, BitVec.getLsbD_or, bit_get irq hi]

end Bits

/-! ## The chips after `init` -/

/-- What `init` makes of the two chips. -/
def master : Chip :=
  { Chip.reset 0x11 with
    expects := .mask, base := 32, cascade := 4, autoEoi := true, mode86 := true
    specialMask := true }

def slave : Chip :=
  { Chip.reset 0x11 with
    expects := .mask, base := 40, cascade := 2, mode86 := true, specialMask := true }

/-- ICW1 forgets what was before. -/
theorem command_icw1 (c : Chip) : c.command 0x11 = Chip.reset 0x11 := if_pos (by decide)

theorem outbs_initWords (p : Pair) : outbs initWords p = ⟨master, slave⟩ := by
  have hmaster (c : Chip) : ((((((c.data 0xFF).command 0x11).data 32).data 4).data 3).command
      0x68).command 0x0a = master := by
    rw [command_icw1]
    rfl
  have hslave (c : Chip) : ((((((c.data 0xFF).command 0x11).data 40).data 2).data 1).command
      0x68).command 0x0a = slave := by
    rw [command_icw1]
    rfl
  rw [← hmaster p.master, ← hslave p.slave]
  rfl

/-- The driver and its chips once `init` has run. -/
structure Programmed (s : Pic) : Prop where
  didInit : s.didInit = true
  master : s.chips.master =
    { master with imr := s.mask.toUInt8, irr := s.chips.master.irr }
  slave : s.chips.slave =
    { slave with
      imr := (s.mask >>> 8).toUInt8, irr := s.chips.slave.irr, isr := s.chips.slave.isr }

/-- Both masks are written, and nothing else. -/
theorem setMask_programmed {s : Pic} (hinit : s.didInit = true) (mask : UInt16)
    (hm : s.chips.master.expects = .mask) (hs : s.chips.slave.expects = .mask) :
    setMask mask s =
      { s with
        mask := mask
        chips := ⟨{ s.chips.master with imr := mask.toUInt8 },
          { s.chips.slave with imr := (mask >>> 8).toUInt8 }⟩ } := by
  have hdata (c : Chip) (v : UInt8) (hc : c.expects = .mask) : c.data v = { c with imr := v } := by
    simp only [Chip.data, hc]
  have hnot : ¬ ¬ s.didInit = true := not_not.mpr hinit
  rw [setMask]
  simp only [if_neg hnot]
  rw [← hdata _ _ hm, ← hdata _ _ hs]
  rfl

theorem init_programmed {s : Pic} (hsome : s.mask ≠ 0xFFFF) :
    init s =
      ⟨s.mask, true, ⟨{ master with imr := s.mask.toUInt8 },
        { slave with imr := (s.mask >>> 8).toUInt8 }⟩⟩ := by
  simp only [init, if_pos hsome, outbs_initWords]
  exact setMask_programmed rfl s.mask rfl rfl

/-- With every line disabled `init` writes no mask, and the chips have none. -/
theorem init_all_disabled {s : Pic} (hnone : s.mask = 0xFFFF) (i : Nat) :
    (init s).chips.master.masked i = false ∧ (init s).chips.slave.masked i = false := by
  have hopen : (0 : UInt8).toBitVec.getLsbD i = false := by
    rw [UInt8.toBitVec_zero, BitVec.getLsbD_zero]
  simp only [init, if_neg (not_not.mpr hnone), outbs_initWords]
  exact ⟨hopen, hopen⟩

/-! ## The chips as one controller -/

/-- The controller that the driver and its chips are. -/
structure Represents (s : Pic) (c : Controller) : Prop where
  programmed : Programmed s
  enabled : ∀ i < 16, c.enabled i = !s.mask.toBitVec.getLsbD i
  first : ∀ i < 8, i ≠ IRQ_SLAVE → s.chips.master.irr i = c.pending i
  second : ∀ i < 8, s.chips.slave.irr i = c.pending (i + 8)
  serving : ∀ i < 8, s.chips.slave.isr i = c.serving (i + 8)

section Requests

variable {s : Pic} {c : Controller} {i j : Nat}

theorem Represents.master_masked (h : Represents s c) (hi : i < 8) :
    s.chips.master.masked i = !c.enabled i := by
  rw [h.enabled i (by omega), Bool.not_not, Chip.masked, h.programmed.master]
  exact low_bit _ hi

theorem Represents.slave_masked (h : Represents s c) (hi : i < 8) :
    s.chips.slave.masked i = !c.enabled (i + 8) := by
  rw [h.enabled (i + 8) (by omega), Bool.not_not, Chip.masked, h.programmed.slave]
  exact high_bit _ hi

/-- No line of the first chip is ever in service. -/
theorem Represents.master_eligible (h : Represents s c) (irr : Nat → Bool) (hi : i < 8) :
    s.chips.master.eligible irr i = (irr i && c.enabled i) := by
  have hnone : ((List.range 8).all fun j => !s.chips.master.blocks j i) = true := by
    rw [List.all_eq_true]
    intro j hj
    rw [Chip.blocks, h.programmed.master]
    rfl
  rw [Chip.eligible, hnone, h.master_masked hi, Bool.not_not, Bool.and_true]

theorem Represents.slave_counts (h : Represents s c) (hj : j < 8) :
    (s.chips.slave.isr j && !(s.chips.slave.specialMask && s.chips.slave.masked j)) =
      (c.serving (j + 8) && c.enabled (j + 8)) := by
  have hspecial : s.chips.slave.specialMask = true := by
    rw [h.programmed.slave]
    rfl
  rw [h.serving j hj, hspecial, h.slave_masked hj, Bool.true_and, Bool.not_not]

theorem Represents.slave_eligible (h : Represents s c) (hi : i < 8) :
    s.chips.slave.eligible s.chips.slave.irr i =
      (c.pending (i + 8) && c.enabled (i + 8) && !c.waits (i + 8)) := by
  have hwaits : ((List.range 8).all fun j => !s.chips.slave.blocks j i) = !c.waits (i + 8) := by
    rw [Controller.waits, List.any_map, List.not_any_eq_all_not]
    rw [Bool.eq_iff_iff, List.all_eq_true, List.all_eq_true]
    refine forall_congr' fun j => forall_congr' fun hj => ?_
    rw [Chip.blocks, h.slave_counts (List.mem_range.mp hj)]
    simp only [Function.comp_apply, Nat.add_le_add_iff_right]
  rw [Chip.eligible, h.slave_masked hi, h.second i hi, hwaits, Bool.not_not]

theorem find?_congr {α : Type} {p q : α → Bool} {l : List α} (h : ∀ a ∈ l, p a = q a) :
    l.find? p = l.find? q := by
  induction l with
  | nil => rfl
  | cons a l ih =>
    rw [List.find?_cons, List.find?_cons, h a List.mem_cons_self,
      ih fun b hb => h b (List.mem_cons_of_mem a hb)]

/-- The lines of the second chip, as the controller orders them. -/
theorem Represents.slave_request (h : Represents s c) (h2 : c.enabled IRQ_SLAVE = true) :
    ((List.range 8).map (· + 8)).find? c.eligible =
      (s.chips.slave.request s.chips.slave.irr).map (· + 8) := by
  rw [List.find?_map, Chip.request]
  congr 1
  apply find?_congr
  intro i hi
  have hlow : decide (i + 8 < 8) = false := decide_eq_false (by omega)
  rw [h.slave_eligible (List.mem_range.mp hi), Function.comp_apply, Controller.eligible, hlow, h2,
    Bool.false_or, Bool.true_and]

theorem slave_disabled (h2 : c.enabled IRQ_SLAVE = false) :
    ((List.range 8).map (· + 8)).find? c.eligible = none := by
  rw [List.find?_eq_none]
  intro i hi
  obtain ⟨j, -, rfl⟩ := List.mem_map.mp hi
  have hlow : decide (j + 8 < 8) = false := decide_eq_false (by omega)
  rw [Controller.eligible, hlow, h2]
  simp

/-- A line of the first chip that a device has. -/
theorem Represents.master_line (h : Represents s c) (hi : i < 8) (hne : i ≠ IRQ_SLAVE) :
    s.chips.master.eligible s.chips.lines i = c.eligible i := by
  have hline : s.chips.lines i = c.pending i := by
    rw [Pair.lines, if_neg (show i ≠ Pair.SLAVE_LINE from hne), h.first i hi hne]
  rw [h.master_eligible _ hi, hline, Controller.eligible, decide_eq_true hi, Bool.true_or,
    Bool.and_true]

/-- **The request of the pair is the next line of the controller**, through line 2 if it is
    one of the second chip. -/
theorem Represents.request (h : Represents s c) :
    s.chips.master.request s.chips.lines = c.next.map (fun i => if i < 8 then i else 2) ∧
      ∀ i, c.next = some i → ¬ i < 8 → s.chips.slave.request s.chips.slave.irr = some (i - 8) := by
  have hrange : List.range 8 = [0, 1] ++ ([2] ++ [3, 4, 5, 6, 7]) := rfl
  have horder : Controller.byPriority =
      [0, 1] ++ ((List.range 8).map (· + 8) ++ [3, 4, 5, 6, 7]) := rfl
  have hfirst : ∀ i ∈ [0, 1], i < 8 ∧ i ≠ IRQ_SLAVE := by decide
  have hlast : ∀ i ∈ [3, 4, 5, 6, 7], i < 8 ∧ i ≠ IRQ_SLAVE := by decide
  have hlow : [0, 1].find? (s.chips.master.eligible s.chips.lines) = [0, 1].find? c.eligible :=
    find?_congr fun i hi => h.master_line (hfirst i hi).1 (hfirst i hi).2
  have hhigh : [3, 4, 5, 6, 7].find? (s.chips.master.eligible s.chips.lines) =
      [3, 4, 5, 6, 7].find? c.eligible :=
    find?_congr fun i hi => h.master_line (hlast i hi).1 (hlast i hi).2
  have htwo : s.chips.master.eligible s.chips.lines 2 =
      ((s.chips.slave.request s.chips.slave.irr).isSome && c.enabled IRQ_SLAVE) :=
    h.master_eligible _ (by decide)
  rw [Chip.request, hrange, List.find?_append, List.find?_append, hlow, hhigh, Controller.next,
    horder, List.find?_append, List.find?_append, List.find?_singleton, htwo]
  cases h01 : [0, 1].find? c.eligible with
  | some i =>
    have hi := (hfirst i (List.mem_of_find?_eq_some h01)).1
    refine ⟨(congrArg some (if_pos hi)).symm, ?_⟩
    intro k hk hhigh
    obtain rfl : i = k := Option.some.inj hk
    exact absurd hi hhigh
  | none =>
    have hrest (l : Option Nat) (hl : l = [3, 4, 5, 6, 7].find? c.eligible) :
        l = l.map (fun i => if i < 8 then i else 2) ∧
          ∀ i, l = some i → ¬ i < 8 → s.chips.slave.request s.chips.slave.irr = some (i - 8) := by
      cases l with
      | none => exact ⟨rfl, fun i hi => by cases hi⟩
      | some i =>
        have hi := (hlast i (List.mem_of_find?_eq_some hl.symm)).1
        refine ⟨(congrArg some (if_pos hi)).symm, ?_⟩
        intro k hk hhigh
        obtain rfl : i = k := Option.some.inj hk
        exact absurd hi hhigh
    cases h2 : c.enabled IRQ_SLAVE with
    | false =>
      rw [slave_disabled h2, Bool.and_false]
      exact hrest _ rfl
    | true =>
      rw [h.slave_request h2]
      cases hslave : s.chips.slave.request s.chips.slave.irr with
      | none =>
        obtain ⟨hmap, hone⟩ := hrest _ rfl
        rw [hslave] at hone
        exact ⟨hmap, hone⟩
      | some j =>
        refine ⟨congrArg some (if_neg (show ¬ j + 8 < 8 by omega)).symm, ?_⟩
        intro i hi hhigh
        obtain rfl : j + 8 = i := Option.some.inj hi
        exact congrArg some (Nat.add_sub_cancel j 8).symm

end Requests

section Steps

variable {s : Pic} {c : Controller}

theorem Represents.setMask (h : Represents s c) {mask : UInt16} {enabled : Nat → Bool}
    (henabled : ∀ i < 16, enabled i = !mask.toBitVec.getLsbD i) :
    Represents (setMask mask s) { c with enabled := enabled } := by
  have hm : s.chips.master.expects = .mask := by
    rw [h.programmed.master]
    rfl
  have hs : s.chips.slave.expects = .mask := by
    rw [h.programmed.slave]
    rfl
  rw [setMask_programmed h.programmed.didInit mask hm hs]
  refine ⟨⟨h.programmed.didInit, ?_, ?_⟩, henabled, h.first, h.second, h.serving⟩
  · show { s.chips.master with imr := mask.toUInt8 } = _
    rw [h.programmed.master]
  · show { s.chips.slave with imr := (mask >>> 8).toUInt8 } = _
    rw [h.programmed.slave]

theorem Represents.enable (h : Represents s c) (irq : UInt8) :
    Represents (enable irq s) { c with enabled := Function.update c.enabled irq.toNat true } := by
  apply h.setMask
  intro i hi
  rw [enable_bit _ _ hi]
  by_cases heq : i = irq.toNat
  · subst heq
    rw [Function.update_self, decide_eq_true rfl, Bool.not_true, Bool.and_false, Bool.not_false]
  · rw [Function.update_of_ne heq, h.enabled i hi, decide_eq_false (Ne.symm heq), Bool.not_false,
      Bool.and_true]

theorem Represents.disable (h : Represents s c) (irq : UInt8) :
    Represents (disable irq s)
      { c with enabled := Function.update c.enabled irq.toNat false } := by
  apply h.setMask
  intro i hi
  rw [disable_bit _ _ hi]
  by_cases heq : i = irq.toNat
  · subst heq
    rw [Function.update_self, decide_eq_true rfl, Bool.or_true, Bool.not_true]
  · rw [Function.update_of_ne heq, h.enabled i hi, decide_eq_false (Ne.symm heq), Bool.or_false]

theorem represents_init {s : Pic} {c : Controller} (hsome : s.mask ≠ 0xFFFF)
    (henabled : ∀ i < 16, c.enabled i = !s.mask.toBitVec.getLsbD i) :
    Represents (init s) { c with pending := fun _ => false, serving := fun _ => false } := by
  rw [init_programmed hsome]
  exact ⟨⟨rfl, rfl, rfl⟩, henabled, fun _ _ _ => rfl, fun _ _ => rfl, fun _ _ => rfl⟩

/-- The line in service is the same for the second chip and for the controller. -/
theorem Represents.inService (h : Represents s c) :
    c.ended = s.chips.slave.inService.map (· + 8) := by
  rw [Controller.ended, List.find?_map, Chip.inService]
  congr 1
  apply find?_congr
  intro j hj
  exact (h.slave_counts (List.mem_range.mp hj)).symm

theorem Represents.eoi (h : Represents s c) : Represents (eoi s) c.eoi := by
  have hmaster : s.chips.master.command 0x20 = s.chips.master := by
    have hnone : s.chips.master.inService = none := by
      rw [h.programmed.master, Chip.inService, List.find?_eq_none]
      intro j hj
      exact Bool.false_ne_true
    show s.chips.master.endOfInterrupt = s.chips.master
    rw [Chip.endOfInterrupt, hnone]
  have hchips : (PIC.eoi s).chips = ⟨s.chips.master, s.chips.slave.endOfInterrupt⟩ := by
    conv_rhs => rw [← hmaster]
    rfl
  have hmask : (PIC.eoi s).mask = s.mask := rfl
  have hserved := h.inService
  cases hj : s.chips.slave.inService with
  | none =>
    rw [hj] at hserved
    have hsame : PIC.eoi s = s := by
      have hslave : s.chips.slave.endOfInterrupt = s.chips.slave := by
        rw [Chip.endOfInterrupt, hj]
      rw [hslave] at hchips
      show { s with chips := (PIC.eoi s).chips } = s
      rw [hchips]
    rw [hsame, Controller.eoi, hserved]
    exact h
  | some j =>
    rw [hj] at hserved
    have hslave : s.chips.slave.endOfInterrupt =
        { s.chips.slave with isr := Function.update s.chips.slave.isr j false } := by
      rw [Chip.endOfInterrupt, hj]
    rw [hslave] at hchips
    have hended : c.eoi = { c with serving := Function.update c.serving (j + 8) false } := by
      rw [Controller.eoi, hserved]
      rfl
    rw [hended]
    refine ⟨⟨h.programmed.didInit, ?_, ?_⟩, h.enabled, ?_, ?_, ?_⟩
    · rw [hchips, hmask]
      exact h.programmed.master
    · rw [hchips, hmask]
      exact congrArg (fun ch : Chip => { ch with isr := Function.update s.chips.slave.isr j false })
        h.programmed.slave
    · rw [hchips]
      exact h.first
    · rw [hchips]
      exact h.second
    · intro i hi
      rw [hchips]
      show Function.update s.chips.slave.isr j false i = Function.update c.serving (j + 8) false _
      by_cases heq : i = j
      · subst heq
        rw [Function.update_self, Function.update_self]
      · rw [Function.update_of_ne heq, Function.update_of_ne (by omega), h.serving i hi]

theorem Represents.line (h : Represents s c) {irq : Nat} (b : Bool) (hirq : IsDevice irq) :
    Represents { s with chips := s.chips.setLine irq b }
      { c with pending := Function.update c.pending irq b } := by
  obtain ⟨h16, h2⟩ := hirq
  by_cases hlow : irq < 8
  · have hset : s.chips.setLine irq b =
        { s.chips with master := s.chips.master.setRequest irq b } := if_pos hlow
    rw [hset]
    refine ⟨⟨h.programmed.didInit, ?_, h.programmed.slave⟩, h.enabled, ?_, ?_, h.serving⟩
    · exact congrArg (Chip.setRequest irq b) h.programmed.master
    · intro i hi hne
      show Function.update s.chips.master.irr irq b i = Function.update c.pending irq b i
      by_cases heq : i = irq
      · subst heq
        rw [Function.update_self, Function.update_self]
      · rw [Function.update_of_ne heq, Function.update_of_ne heq, h.first i hi hne]
    · intro i hi
      show s.chips.slave.irr i = Function.update c.pending irq b (i + 8)
      rw [Function.update_of_ne (by omega), h.second i hi]
  · have hset : s.chips.setLine irq b =
        { s.chips with slave := s.chips.slave.setRequest (irq - 8) b } := if_neg hlow
    rw [hset]
    refine ⟨⟨h.programmed.didInit, h.programmed.master, ?_⟩, h.enabled, ?_, ?_, h.serving⟩
    · exact congrArg (Chip.setRequest (irq - 8) b) h.programmed.slave
    · intro i hi hne
      show s.chips.master.irr i = Function.update c.pending irq b i
      rw [Function.update_of_ne (by omega), h.first i hi hne]
    · intro i hi
      show Function.update s.chips.slave.irr (irq - 8) b i = Function.update c.pending irq b (i + 8)
      by_cases heq : i = irq - 8
      · have hline : i + 8 = irq := by omega
        rw [← heq, hline, Function.update_self, Function.update_self]
      · rw [Function.update_of_ne heq, Function.update_of_ne (by omega), h.second i hi]

theorem next_device {i : Nat} (h : c.next = some i) : IsDevice i := by
  have hall : ∀ i ∈ Controller.byPriority, i < 16 ∧ i ≠ IRQ_SLAVE := by decide
  exact hall i (List.mem_of_find?_eq_some h)

/-- A line of the first chip. -/
theorem Represents.take_first (h : Represents s c) {i : Nat} (hnext : c.next = some i) (hi : i < 8) :
    s.chips.acknowledge =
      (some (IRQ_OFFSET + i), { s.chips with master := s.chips.master.acknowledge i }) := by
  have hne := (next_device hnext).2
  have hrequest : s.chips.master.request s.chips.lines = some i := by
    rw [h.request.1, hnext, Option.map_some, if_pos hi]
  have halone : s.chips.master.cascade.toBitVec.getLsbD i = false := by
    have hbits : ∀ i < 8, i ≠ IRQ_SLAVE → (4 : UInt8).toBitVec.getLsbD i = false := by decide
    rw [h.programmed.master]
    exact hbits i hi hne
  have hvector : s.chips.master.vector i = some (IRQ_OFFSET + i) := by
    rw [h.programmed.master]
    rfl
  have hcond : ¬ (s.chips.master.cascade.toBitVec.getLsbD i = true ∧
      s.chips.slave.cascade = UInt8.ofNat i) := by
    rw [halone]
    exact fun hc => Bool.false_ne_true hc.1
  rw [Pair.acknowledge, hrequest]
  simp only [if_neg hcond, hvector]

/-- A line of the second chip. -/
theorem Represents.take_second (h : Represents s c) {i : Nat} (hnext : c.next = some i)
    (hi : ¬ i < 8) :
    s.chips.acknowledge =
      (some (IRQ_OFFSET + i),
        ⟨s.chips.master.acknowledge 2, s.chips.slave.acknowledge (i - 8)⟩) := by
  have hrequest : s.chips.master.request s.chips.lines = some 2 := by
    rw [h.request.1, hnext, Option.map_some, if_neg hi]
  have hslave := h.request.2 i hnext hi
  have hcond : s.chips.master.cascade.toBitVec.getLsbD 2 = true ∧
      s.chips.slave.cascade = UInt8.ofNat 2 := by
    have hbit : (4 : UInt8).toBitVec.getLsbD 2 = true := by decide
    rw [h.programmed.master, h.programmed.slave]
    exact ⟨hbit, rfl⟩
  have hvector : s.chips.slave.vector (i - 8) = some (IRQ_OFFSET + i) := by
    rw [h.programmed.slave]
    show some (40 + (i - 8)) = some (32 + i)
    congr 1
    omega
  rw [Pair.acknowledge, hrequest]
  simp only [if_pos hcond, hslave, hvector]

theorem Represents.interrupt (h : Represents s c) {v : Nat} (hv : s.chips.acknowledge.1 = some v) :
    v = c.vector ∧ Represents { s with chips := s.chips.acknowledge.2 } c.taken := by
  cases hnext : c.next with
  | none =>
    have hrequest : s.chips.master.request s.chips.lines = none := by
      rw [h.request.1, hnext, Option.map_none]
    have hvector : s.chips.master.vector 7 = some (IRQ_OFFSET + 7) := by
      rw [h.programmed.master]
      rfl
    have hack : s.chips.acknowledge = (some (IRQ_OFFSET + 7), s.chips) := by
      rw [Pair.acknowledge, hrequest]
      simp only [hvector]
    rw [hack] at hv ⊢
    rw [Controller.vector, Controller.taken, hnext]
    exact ⟨(Option.some.inj hv).symm, h⟩
  | some i =>
    have h16 := (next_device hnext).1
    by_cases hi : i < 8
    · have hack := h.take_first hnext hi
      rw [hack] at hv ⊢
      have htaken : c.taken = { c with pending := Function.update c.pending i false } := by
        rw [Controller.taken, hnext]
        simp only [if_pos hi]
      rw [Controller.vector, hnext, htaken]
      refine ⟨(Option.some.inj hv).symm, ⟨h.programmed.didInit, ?_, h.programmed.slave⟩, h.enabled,
        ?_, ?_, h.serving⟩
      · exact congrArg (Chip.acknowledge i) h.programmed.master
      · intro j hj hne
        show Function.update s.chips.master.irr i false j = Function.update c.pending i false j
        by_cases heq : j = i
        · subst heq
          rw [Function.update_self, Function.update_self]
        · rw [Function.update_of_ne heq, Function.update_of_ne heq, h.first j hj hne]
      · intro j hj
        show s.chips.slave.irr j = Function.update c.pending i false (j + 8)
        rw [Function.update_of_ne (by omega), h.second j hj]
    · have hack := h.take_second hnext hi
      rw [hack] at hv ⊢
      have htaken : c.taken =
          { c with
            pending := Function.update c.pending i false
            serving := Function.update c.serving i true } := by
        rw [Controller.taken, hnext]
        simp only [if_neg hi]
      rw [Controller.vector, hnext, htaken]
      have hkeeps : s.chips.slave.autoEoi = false := by
        rw [h.programmed.slave]
        rfl
      have hisr : (s.chips.slave.acknowledge (i - 8)).isr =
          Function.update s.chips.slave.isr (i - 8) true := by
        rw [Chip.acknowledge, hkeeps]
        rfl
      -- a line of the second chip, on both sides
      have hupdate (f g : Nat → Bool) (b : Bool) (hfg : ∀ j < 8, f j = g (j + 8)) :
          ∀ j < 8, Function.update f (i - 8) b j = Function.update g i b (j + 8) := by
        intro j hj
        by_cases heq : j = i - 8
        · have hline : j + 8 = i := by omega
          rw [← heq, hline, Function.update_self, Function.update_self]
        · rw [Function.update_of_ne heq, Function.update_of_ne (by omega), hfg j hj]
      refine ⟨(Option.some.inj hv).symm, ⟨h.programmed.didInit, ?_, ?_⟩, h.enabled, ?_, ?_, ?_⟩
      · exact congrArg (Chip.acknowledge 2) h.programmed.master
      · exact congrArg (fun ch : Chip => { ch with
          irr := (s.chips.slave.acknowledge (i - 8)).irr
          isr := (s.chips.slave.acknowledge (i - 8)).isr }) h.programmed.slave
      · intro j hj hne
        show Function.update s.chips.master.irr 2 false j = Function.update c.pending i false j
        rw [Function.update_of_ne (show j ≠ 2 from hne), Function.update_of_ne (by omega),
          h.first j hj hne]
      · exact hupdate _ _ false h.second
      · intro j hj
        show (s.chips.slave.acknowledge (i - 8)).isr j = _
        rw [hisr]
        exact hupdate _ _ true h.serving j hj

end Steps

/-! ## The refinement -/

theorem simulation : Lts.Simulation driver controller Represents where
  start s := by
    rintro ⟨s₀, hsome, rfl⟩
    refine ⟨⟨fun i => !s₀.mask.toBitVec.getLsbD i, fun _ => false, fun _ => false⟩,
      ⟨fun _ => rfl, fun _ => rfl⟩, ?_⟩
    exact represents_init (c := ⟨fun i => !s₀.mask.toBitVec.getLsbD i, fun _ => false,
      fun _ => false⟩) hsome fun _ _ => rfl
  step s c e s' h hstep := by
    cases hstep with
    | init hsome => exact ⟨_, .init, represents_init hsome h.enabled⟩
    | enable => exact ⟨_, .enable _, h.enable _⟩
    | disable => exact ⟨_, .disable _, h.disable _⟩
    | eoi => exact ⟨_, .eoi, h.eoi⟩
    | line b hirq => exact ⟨_, .line b hirq, h.line b hirq⟩
    | interrupt hv =>
      obtain ⟨rfl, hR⟩ := h.interrupt hv
      exact ⟨_, .interrupt, hR⟩

/-- **The driver with its two chips is one controller with sixteen lines**, and at any time
    the chips mask exactly the lines that the driver has disabled. -/
theorem driver_refines {s s' : Pic} {es : List Event} (hstart : driver.start s)
    (hrun : driver.Run s es s') :
    controller.Trace es ∧
      ∀ i < 8, s'.chips.master.masked i = s'.mask.toBitVec.getLsbD i ∧
        s'.chips.slave.masked i = s'.mask.toBitVec.getLsbD (i + 8) := by
  obtain ⟨c₀, hc₀, hR⟩ := simulation.start s hstart
  obtain ⟨c, hcrun, hR'⟩ := simulation.run hrun hR
  refine ⟨⟨c₀, c, hc₀, hcrun⟩, fun i hi => ⟨?_, ?_⟩⟩
  · rw [hR'.master_masked hi, hR'.enabled i (by omega), Bool.not_not]
  · rw [hR'.slave_masked hi, hR'.enabled (i + 8) (by omega), Bool.not_not]

/-- Chips that the firmware has left in the middle of their programming. -/
def sampleStart : Pic :=
  ⟨initialMask, false, ⟨Chip.reset 0x13, { Chip.reset 0x11 with isr := fun _ => true }⟩⟩

/-- The disk has raised its line. -/
def sampleRaised : Pic :=
  let s := enable 14 (init sampleStart)
  { s with chips := s.chips.setLine 14 true }

theorem driver_refines_sample :
    controller.Trace [.enable 14, .line 14 true, .interrupt 46, .eoi] := by
  have hstart : driver.start (init sampleStart) := ⟨sampleStart, by decide, rfl⟩
  have hdisk : IsDevice 14 := ⟨by decide, by decide⟩
  have hvector : sampleRaised.chips.acknowledge.1 = some 46 := by decide +kernel
  have hraised : driver.Run (init sampleStart) [.enable 14, .line 14 true] sampleRaised :=
    .cons (.enable (by decide : (14 : UInt8) < 32)) (.cons (.line true hdisk) (.nil _))
  have hrest : driver.Run sampleRaised [.interrupt 46, .eoi] _ :=
    .cons (.interrupt hvector) (.cons .eoi (.nil _))
  exact (driver_refines hstart (hraised.append hrest)).1

end PIC

end JudgePenguin
