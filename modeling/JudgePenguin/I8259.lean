/-
  JudgePenguin/I8259.lean
  =======================
  **A pair of 8259A interrupt controllers**, as a program sees them through their ports.

  A chip takes the words that it is sent for what it expects: after ICW1 the next words
  at its second port are ICW2, ICW3 unless it works alone, and ICW4 if ICW1 has announced
  it; otherwise they are interrupt masks.  Of the requests that are not masked it passes
  on the one with the lowest number, if none of at least its priority is in service.
  The second chip of a pair asks for service through a line of the first.

  Not here are rotating priorities, the end of a named interrupt, polling, level
  triggering and the special fully nested mode.
-/
import Mathlib.Logic.Function.Basic

namespace I8259

/-! ## One chip -/

/-- What a word at the second port is taken for. -/
inductive Expects where
  | mask
  | icw2
  | icw3
  | icw4
deriving DecidableEq

structure Chip where
  expects : Expects
  single : Bool
  needsIcw4 : Bool
  base : UInt8
  /-- ICW3: the lines with a second chip, or the number of the line that it is on. -/
  cascade : UInt8
  autoEoi : Bool
  mode86 : Bool
  specialMask : Bool
  imr : UInt8
  irr : Nat → Bool
  isr : Nat → Bool

namespace Chip

def masked (c : Chip) (i : Nat) : Bool := c.imr.toBitVec.getLsbD i

/-- ICW1. -/
def reset (v : UInt8) : Chip :=
  { expects := .icw2
    single := v &&& 2 ≠ 0
    needsIcw4 := v &&& 1 ≠ 0
    base := 0
    cascade := 0
    autoEoi := false
    mode86 := false
    specialMask := false
    imr := 0
    irr := fun _ => false
    isr := fun _ => false }

/-- Whether line `j` in service keeps line `i` from it.  In the special mask mode a line
    that is masked keeps none. -/
def blocks (c : Chip) (j i : Nat) : Bool :=
  c.isr j && !(c.specialMask && c.masked j) && decide (j ≤ i)

/-- Whether line `i` may interrupt, when the lines of `irr` have requests. -/
def eligible (c : Chip) (irr : Nat → Bool) (i : Nat) : Bool :=
  irr i && !c.masked i && (List.range 8).all fun j => !c.blocks j i

/-- The request that is passed on. -/
def request (c : Chip) (irr : Nat → Bool) : Option Nat := (List.range 8).find? (c.eligible irr)

/-- The line in service of the highest priority. -/
def inService (c : Chip) : Option Nat :=
  (List.range 8).find? fun j => c.isr j && !(c.specialMask && c.masked j)

def endOfInterrupt (c : Chip) : Chip :=
  match c.inService with
  | some j => { c with isr := Function.update c.isr j false }
  | none => c

/-- A word at the first port. -/
def command (v : UInt8) (c : Chip) : Chip :=
  if v &&& 0x10 ≠ 0 then reset v
  else if v &&& 0x08 ≠ 0 then
    if v &&& 0x40 ≠ 0 then { c with specialMask := v &&& 0x20 ≠ 0 } else c
  else if v >>> 5 = 1 then c.endOfInterrupt
  else c

/-- A word at the second port. -/
def data (v : UInt8) (c : Chip) : Chip :=
  match c.expects with
  | .mask => { c with imr := v }
  | .icw2 =>
    { c with
      base := v &&& 0xf8
      expects := if c.single then (if c.needsIcw4 then .icw4 else .mask) else .icw3 }
  | .icw3 => { c with cascade := v, expects := if c.needsIcw4 then .icw4 else .mask }
  | .icw4 => { c with autoEoi := v &&& 2 ≠ 0, mode86 := v &&& 1 ≠ 0, expects := .mask }

/-- The processor takes the request of line `i`. -/
def acknowledge (i : Nat) (c : Chip) : Chip :=
  { c with
    irr := Function.update c.irr i false
    isr := if c.autoEoi then c.isr else Function.update c.isr i true }

def setRequest (i : Nat) (b : Bool) (c : Chip) : Chip :=
  { c with irr := Function.update c.irr i b }

/-- The vector of line `i`; a chip for another processor sends no vectors. -/
def vector (c : Chip) (i : Nat) : Option Nat := if c.mode86 then some (c.base.toNat + i) else none

end Chip

/-! ## Two chips -/

structure Pair where
  master : Chip
  slave : Chip

namespace Pair

/-- The line of the master that the slave is wired to. -/
def SLAVE_LINE : Nat := 2

/-- The lines of the master. -/
def lines (p : Pair) (i : Nat) : Bool :=
  if i = SLAVE_LINE then (p.slave.request p.slave.irr).isSome else p.master.irr i

/-- A device raises its line, or lowers it. -/
def setLine (i : Nat) (b : Bool) (p : Pair) : Pair :=
  if i < 8 then { p with master := p.master.setRequest i b }
  else { p with slave := p.slave.setRequest (i - 8) b }

/-- The processor asks for a vector.  When there is no request, the chip that is asked
    answers with its last line. -/
def acknowledge (p : Pair) : Option Nat × Pair :=
  match p.master.request p.lines with
  | none => (p.master.vector 7, p)
  | some i =>
    let master := p.master.acknowledge i
    if p.master.cascade.toBitVec.getLsbD i ∧ p.slave.cascade = UInt8.ofNat i then
      match p.slave.request p.slave.irr with
      | none => (p.slave.vector 7, { p with master := master })
      | some j => (p.slave.vector j, ⟨master, p.slave.acknowledge j⟩)
    else (p.master.vector i, { p with master := master })

end Pair

end I8259
