/-
  JudgePenguin/Uart.lean
  ======================
  **The transmitter of a serial port**, without a FIFO.

  A byte that is written to the port stands in the holding register until the
  transmitter takes it, which it does when it has sent the one before.  A byte that is
  written while another one is still there replaces it.  When the transmitter takes a
  byte is the environment's choice, and time is counted in accesses to ports, so that
  code that polls has a time of its own.

  What has been accepted is what went out followed by what still stands in the register:
  only a write into a full register changes more of it than its end.
-/
import Mathlib.Data.List.Basic

namespace Uart

/-- What the rest of the machine decides: at which times the transmitter is free, and
    the bits of the line status that have nothing to do with it. -/
structure Line where
  free : Nat → Bool
  status : Nat → UInt8

structure Transmitter where
  sent : List UInt8
  holding : Option UInt8
  time : Nat

/-- Bit 5 of the line status register: the holding register is empty. -/
def TXRDY : UInt8 := 0x20

namespace Transmitter

/-- What the port has taken and not lost, in order. -/
def accepted (t : Transmitter) : List UInt8 := t.sent ++ t.holding.toList

/-- One access to some port: a free transmitter takes the byte. -/
def access (l : Line) (t : Transmitter) : Transmitter :=
  if l.free t.time then ⟨t.sent ++ t.holding.toList, none, t.time + 1⟩
  else { t with time := t.time + 1 }

/-- Accesses that have nothing to do with the port. -/
def accesses (l : Line) : Nat → Transmitter → Transmitter
  | 0, t => t
  | n + 1, t => accesses l n (t.access l)

/-- A read of the line status. -/
def lineStatus (l : Line) (t : Transmitter) : UInt8 × Transmitter :=
  let t := t.access l
  (if t.holding = none then l.status t.time ||| TXRDY else l.status t.time &&& ~~~TXRDY, t)

/-- A write to the port. -/
def transmit (l : Line) (b : UInt8) (t : Transmitter) : Transmitter :=
  { t.access l with holding := some b }

section Accepted

variable {l : Line} {t : Transmitter} {b : UInt8}

@[simp] theorem access_time : (t.access l).time = t.time + 1 := by
  unfold access
  split <;> rfl

/-- Nothing is lost on the way to the line. -/
@[simp] theorem access_accepted : (t.access l).accepted = t.accepted := by
  unfold access
  split
  · exact List.append_nil _
  · rfl

theorem access_holding (h : t.holding = none) : (t.access l).holding = none := by
  unfold access
  split
  · rfl
  · exact h

/-- A full register is emptied at the next time the transmitter is free. -/
theorem access_free (h : l.free t.time = true) : (t.access l).holding = none := by
  rw [access, if_pos h]

@[simp] theorem accesses_time {n : Nat} : (accesses l n t).time = t.time + n := by
  induction n generalizing t with
  | zero => rfl
  | succ n ih =>
    rw [accesses, ih, access_time]
    omega

@[simp] theorem accesses_accepted {n : Nat} : (accesses l n t).accepted = t.accepted := by
  induction n generalizing t with
  | zero => rfl
  | succ n ih => rw [accesses, ih, access_accepted]

theorem accesses_holding {n : Nat} (h : t.holding = none) : (accesses l n t).holding = none := by
  induction n generalizing t with
  | zero => exact h
  | succ n ih => exact ih (access_holding h)

theorem accesses_free {n i : Nat} (hi : i < n) (h : l.free (t.time + i) = true) :
    (accesses l n t).holding = none := by
  induction n generalizing t i with
  | zero => exact absurd hi (Nat.not_lt_zero i)
  | succ n ih =>
    rw [accesses]
    cases i with
    | zero => exact accesses_holding (access_free h)
    | succ i =>
      apply ih (Nat.lt_of_succ_lt_succ hi)
      rw [access_time, Nat.add_right_comm]
      exact h

@[simp] theorem lineStatus_time : (t.lineStatus l).2.time = t.time + 1 := access_time

@[simp] theorem lineStatus_accepted : (t.lineStatus l).2.accepted = t.accepted := access_accepted

/-- What the bit says. -/
theorem txrdy_iff : (t.lineStatus l).1 &&& TXRDY ≠ 0 ↔ (t.lineStatus l).2.holding = none := by
  have hset (x : UInt8) : (x ||| TXRDY) &&& TXRDY ≠ 0 := by
    have hbit : (x ||| TXRDY) &&& TXRDY = TXRDY := by
      apply UInt8.toBitVec_inj.mp
      ext i hi
      simp only [UInt8.toBitVec_and, UInt8.toBitVec_or, BitVec.getElem_and, BitVec.getElem_or]
      cases TXRDY.toBitVec[i] <;> simp
    rw [hbit]
    decide
  have hclear (x : UInt8) : (x &&& ~~~TXRDY) &&& TXRDY = 0 := by
    rw [UInt8.and_assoc, UInt8.not_and_self, UInt8.and_zero]
  show (if (t.access l).holding = none then _ else _) &&& TXRDY ≠ 0 ↔ (t.access l).holding = none
  split
  · next h => exact ⟨fun _ => h, fun _ => hset _⟩
  · next h => exact ⟨fun hne => absurd (hclear _) hne, fun hnone => absurd hnone h⟩

@[simp] theorem transmit_time : (t.transmit l b).time = t.time + 1 := access_time

/-- A byte that finds the register empty comes after all the others. -/
theorem transmit_accepted (h : t.holding = none) :
    (t.transmit l b).accepted = t.accepted ++ [b] := by
  have hsent : (t.access l).sent = t.accepted := by
    have haccepted := access_accepted (l := l) (t := t)
    rwa [accepted, access_holding h, Option.toList_none, List.append_nil] at haccepted
  rw [accepted, transmit, hsent]
  rfl

/-- At the worst it replaces the one before. -/
theorem transmit_sublist : ((t.transmit l b).accepted).Sublist (t.accepted ++ [b]) := by
  have hsent : ((t.access l).sent).Sublist t.accepted := by
    rw [← access_accepted (l := l)]
    exact List.sublist_append_left _ _
  exact hsent.append (List.Sublist.refl [b])

end Accepted

end Transmitter

end Uart
