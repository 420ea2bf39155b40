/-
  JudgePenguin/X86Call.lean
  =========================
  **Calling a C function** — the System V convention as far as registers and the
  stack of `X86` go.

  A function is entered with a return address on top of the stack, six arguments in
  registers and the rest behind the return address.  When it returns it has taken the
  address off, six registers are as they were, and the words of the stack are, except
  those of its own arguments, which belong to it.  Nothing is said about the other
  registers.
-/
import JudgePenguin.X86
import Mathlib.Data.List.Nodup

namespace X86

/-- The registers that a function keeps. -/
def calleeSaved : List Reg := [.rbx, .rbp, .r12, .r13, .r14, .r15]

/-- The registers of the first arguments. -/
def argRegs : List Reg := [.rdi, .rsi, .rdx, .rcx, .r8, .r9]

/-- Argument `i` of a function that is being entered. -/
def Machine.arg (m : Machine) (i : Nat) : UInt64 :=
  match argRegs[i]? with
  | some r => m.get r
  | none => m.stack.above.getD (i - 5) 0

/-- `rsp` is where the convention wants it: aligned before the return address. -/
def Machine.Entered (m : Machine) : Prop := m.stack.above.length % 2 = 1

/-- From the entry of a function with `n` arguments on the stack to its return to `rip`. -/
structure Returned (n : Nat) (m : Machine) (rip : UInt64) (m' : Machine) : Prop where
  address : m.stack.above.head? = some rip
  saved : ∀ r ∈ calleeSaved, m'.get r = m.get r
  stack : ∃ ws : List UInt64, ws.length = n ∧ m'.stack.above = ws ++ m.stack.above.drop (n + 1)

theorem Returned.above {n : Nat} {m m' : Machine} {rip : UInt64} (h : Returned n m rip m') {ret : UInt64}
    {args rest : List UInt64} (hm : m.stack.above = ret :: (args ++ rest)) (hn : args.length = n) :
    ∃ ws : List UInt64, ws.length = n ∧ m'.stack.above = ws ++ rest := by
  obtain ⟨ws, hlen, hws⟩ := h.stack
  refine ⟨ws, hlen, ?_⟩
  rw [hws, hm, List.drop_succ_cons, List.drop_left' hn]

/-- `ret`: the address and the machine behind it. -/
def Machine.ret (m : Machine) : Option (UInt64 × Machine) :=
  m.stack.pop.map fun p => (p.1, { m with stack := p.2 })

theorem Machine.ret_above {m : Machine} {rip : UInt64} {rest : List UInt64}
    (h : m.stack.above = rip :: rest) :
    ∃ below, m.ret = some (rip, { m with stack := ⟨rest, below⟩ }) := by
  refine ⟨fun i => if i = 0 then rip else m.stack.below (i - 1), ?_⟩
  rw [Machine.ret, Stack.pop, h]
  rfl

/-- What the pops of distinct registers leave in each register. -/
theorem foldl_update_zip {rs : List Reg} {ws : List UInt64} (hnodup : rs.Nodup)
    (hlen : ws.length = rs.length) (f : Regs) :
    (∀ i (h : i < rs.length), ((rs.zip ws).foldl (fun f p => Function.update f p.1 p.2) f) rs[i] =
      ws[i]) ∧
    ∀ r, r ∉ rs → ((rs.zip ws).foldl (fun f p => Function.update f p.1 p.2) f) r = f r := by
  induction rs generalizing ws f with
  | nil => exact ⟨fun i h => absurd h (Nat.not_lt_zero _), fun _ _ => rfl⟩
  | cons r rs ih =>
    cases ws with
    | nil => cases hlen
    | cons w ws =>
      obtain ⟨hr, hnodup'⟩ := List.nodup_cons.mp hnodup
      obtain ⟨hin, hout⟩ := ih hnodup' (Nat.succ.inj hlen) (Function.update f r w)
      refine ⟨fun i h => ?_, fun q hq => ?_⟩
      · cases i with
        | zero => exact (hout r hr).trans (Function.update_self ..)
        | succ i => exact hin i (Nat.lt_of_succ_lt_succ h)
      · rw [List.mem_cons, not_or] at hq
        exact (hout q hq.2).trans (Function.update_of_ne hq.1 ..)

/-- **Saved registers come back.**  The words that pushes left on the stack, in the
    hands of code that left them there, are what the pops in the opposite order find. -/
theorem exec_restores {rs : List Reg} (hnodup : rs.Nodup) {f : Regs} {m : Machine}
    {rest : List UInt64} (hm : m.stack.above = (rs.map f).reverse ++ rest) :
    ∃ below regs, exec (rs.reverse.map .popq) m =
        some { m with regs := regs, stack := ⟨rest, below⟩ } ∧
      (∀ r ∈ rs, regs r = f r) ∧ ∀ r, r ∉ rs → regs r = m.regs r := by
  have hrev : (rs.map f).reverse = rs.reverse.map f := List.map_reverse.symm
  rw [hrev] at hm
  have hlen : (rs.reverse.map f).length = rs.reverse.length := List.length_map ..
  obtain ⟨below, h⟩ := exec_pops rs.reverse (rs.reverse.map f) m rest hm hlen
  obtain ⟨hin, hout⟩ := foldl_update_zip (List.nodup_reverse.mpr hnodup) hlen m.regs
  refine ⟨below, _, h, fun r hr => ?_, fun r hr => hout r (mt List.mem_reverse.mp hr)⟩
  obtain ⟨i, hi, rfl⟩ := List.getElem_of_mem (List.mem_reverse.mpr hr)
  rw [hin i hi, List.getElem_map]

end X86
