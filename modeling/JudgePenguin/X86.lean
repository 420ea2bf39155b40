/-
  JudgePenguin/X86.lean
  =====================
  **A subset of the x86-64 instructions that move registers over a stack**, as an
  interrupt entry or return sequence uses them.

  The stack is kept as the words at and above `rsp` together with the words below
  it, so that a push, a pop and an access at a displacement are what they are in
  memory and no address arithmetic is left: `-72(%rsp)` is the ninth word below.
  A stack ends at a 16-byte boundary, as the processor and the compiler lay it
  out, so the alignment of `rsp` is the parity of the number of words above it.

  A sequence of instructions is a list and `exec` runs it; a fault is `none`.  The
  arithmetic flags are not tracked.
-/
import Mathlib.Logic.Function.Basic
import Mathlib.Data.List.GetD
import Mathlib.Data.List.OfFn

namespace X86

/-! ## Registers -/

inductive Reg where
  | rax | rbx | rcx | rdx | rsi | rdi | rbp
  | r8 | r9 | r10 | r11 | r12 | r13 | r14 | r15
deriving DecidableEq

inductive Seg where
  | ss | ds | es | fs | gs
deriving DecidableEq

abbrev Regs := Reg → UInt64

/-- The 512 bytes that `fxsave` writes, as words. -/
abbrev FxState := Fin 64 → UInt64

namespace Flags

/-- Trap, interrupt, direction, nested task, resume and virtual-8086 flags. -/
def TF : UInt64 := 0x100
def IF : UInt64 := 0x200
def DF : UInt64 := 0x400
def NT : UInt64 := 0x4000
def RF : UInt64 := 0x10000
def VM : UInt64 := 0x20000

/-- What an interrupt gate clears. -/
def gateMask : UInt64 := TF ||| IF ||| NT ||| RF ||| VM

end Flags

/-! ## The stack -/

/-- The words from `rsp` up to the end of the stack, and those below `rsp` with
    the nearest first. -/
structure Stack where
  above : List UInt64
  below : Nat → UInt64

namespace Stack

variable {s : Stack} {v : UInt64}

def push (s : Stack) (v : UInt64) : Stack :=
  { above := v :: s.above, below := fun i => s.below (i + 1) }

/-- A popped word stays in memory, below the new `rsp`. -/
def pop (s : Stack) : Option (UInt64 × Stack) :=
  match s.above with
  | [] => none
  | v :: ws => some (v, { above := ws, below := fun i => if i = 0 then v else s.below (i - 1) })

/-- `rsp` goes down by `k` words over whatever is there. -/
def grow : Nat → Stack → Stack
  | 0, s => s
  | k + 1, s => grow k (s.push (s.below 0))

/-- `rsp` goes up by `k` words. -/
def shrink : Nat → Stack → Option Stack
  | 0, s => some s
  | k + 1, s => s.pop.bind fun p => shrink k p.2

/-- The word at a displacement from `rsp`, a multiple of 8. -/
def read (s : Stack) : Int → Option UInt64
  | .ofNat d => s.above[d / 8]?
  | .negSucc d => some (s.below (d / 8))

def write (s : Stack) (v : UInt64) : Int → Stack
  | .ofNat d => { s with above := s.above.set (d / 8) v }
  | .negSucc d => { s with below := Function.update s.below (d / 8) v }

/-- `rsp` is at a 16-byte boundary. -/
def Aligned (s : Stack) : Prop := s.above.length % 2 = 0

instance : Decidable s.Aligned := inferInstanceAs (Decidable (_ = _))

@[simp] theorem push_above (s : Stack) (v : UInt64) : (s.push v).above = v :: s.above := rfl

theorem length_grow (k : Nat) (s : Stack) : (grow k s).above.length = s.above.length + k := by
  induction k generalizing s with
  | zero => rfl
  | succ k ih =>
    rw [grow, ih, push_above, List.length_cons]
    omega

/-- What was above `rsp` is above what `grow` uncovers. -/
theorem drop_grow (k : Nat) (s : Stack) : (grow k s).above.drop k = s.above := by
  induction k generalizing s with
  | zero => rfl
  | succ k ih => rw [grow, ← List.drop_drop, ih, push_above, List.drop_one, List.tail_cons]

/-- The words that `grow` uncovers. -/
theorem getElem?_grow {k i : Nat} (s : Stack) (h : i < k) :
    (grow k s).above[i]? = some (s.below (k - 1 - i)) := by
  induction k generalizing s i with
  | zero => omega
  | succ k ih =>
    rcases Nat.lt_succ_iff_lt_or_eq.mp h with hlt | rfl
    · have hbelow : (s.push (s.below 0)).below (k - 1 - i) = s.below (k - 1 - i + 1) := rfl
      have hindex : k - 1 - i + 1 = k + 1 - 1 - i := by omega
      rw [grow, ih (s.push (s.below 0)) hlt, hbelow, hindex]
    · have hdrop := congrArg (fun ws => ws[0]?) (drop_grow i (s.push (s.below 0)))
      rw [List.getElem?_drop, Nat.add_zero] at hdrop
      rw [grow, hdrop, Nat.add_sub_cancel, Nat.sub_self]
      rfl

theorem grow_succ' (k : Nat) (s : Stack) :
    grow (k + 1) s = (grow k s).push ((grow k s).below 0) := by
  induction k generalizing s with
  | zero => rfl
  | succ k ih => rw [grow, ih, ← grow]

/-- Uncovering a popped word undoes the pop. -/
theorem push_of_pop {t : Stack} (h : s.pop = some (v, t)) : t.push (t.below 0) = s := by
  rw [pop] at h
  split at h
  · cases h
  · rename_i w ws hs
    cases h
    obtain ⟨above, below⟩ := s
    cases hs
    rfl

/-- Words are left in memory below `rsp` when it goes up over them, and going down
    again uncovers them. -/
theorem shrink_append {ws rest : List UInt64} (h : s.above = ws ++ rest) :
    ∃ t, shrink ws.length s = some t ∧ t.above = rest ∧ grow ws.length t = s := by
  induction ws generalizing s with
  | nil => exact ⟨s, rfl, h, rfl⟩
  | cons w ws ih =>
    have hpop : s.pop =
        some (w, ⟨ws ++ rest, fun i => if i = 0 then w else s.below (i - 1)⟩) := by
      rw [pop, h]
      rfl
    obtain ⟨t, ht, habove, hgrow⟩ :=
      ih (s := ⟨ws ++ rest, fun i => if i = 0 then w else s.below (i - 1)⟩) rfl
    refine ⟨t, ?_, habove, ?_⟩
    · rw [List.length_cons, shrink, hpop]
      exact ht
    · rw [List.length_cons, grow_succ', hgrow]
      exact push_of_pop hpop

end Stack

/-! ## The machine -/

structure Machine where
  regs : Regs
  /-- The value of `rsp` while it does not point into `stack`. -/
  rsp : UInt64
  stack : Stack
  rflags : UInt64
  segs : Seg → UInt16
  fsbase : UInt64
  gsbase : UInt64
  fx : FxState
  cr3 : UInt64
  /-- What `rdtsc` reads, and the `IA32_TSC_ADJUST` register. -/
  tsc : UInt64
  tscAdjust : UInt64

namespace Machine

def get (m : Machine) (r : Reg) : UInt64 := m.regs r

def set (m : Machine) (r : Reg) (v : UInt64) : Machine :=
  { m with regs := Function.update m.regs r v }

end Machine

inductive Instr where
  | pushq (r : Reg)
  | pushImm (v : UInt64)
  | popq (r : Reg)
  | movq (src dst : Reg)
  | movImm (v : UInt64) (dst : Reg)
  /-- `movq %src, d(%rsp)` and `movq d(%rsp), %dst`. -/
  | store (src : Reg) (d : Int)
  | load (d : Int) (dst : Reg)
  /-- `movq d(%rsp), %rsp`, and `rsp` set to the address of a stack elsewhere. -/
  | loadRsp (d : Int)
  | movStack (s : Stack)
  | addRsp (n : Nat)
  | subRsp (n : Nat)
  | shl (n : UInt64) (r : Reg)
  | orq (src dst : Reg)
  | xorq (src dst : Reg)
  | decq (r : Reg)
  | rdtsc
  | mfence
  | wbinvd
  | movFromCr3 (dst : Reg)
  | movToCr3 (src : Reg)
  | rdfsbase (r : Reg)
  | wrfsbase (r : Reg)
  | wrgsbase (r : Reg)
  | movToSeg (src : Reg) (dst : Seg)
  /-- `fxsave (%rsp)`, `fxrstor (%rsp)` and `fxrstor` of an image elsewhere. -/
  | fxsave
  | fxrstor
  | fxrstorFrom (image : FxState)
  | wrmsr

/-- `IA32_TIME_STAMP_COUNTER`, the only register that `wrmsr` knows here. -/
def IA32_TIME_STAMP_COUNTER : UInt64 := 16

/-- Setting the counter moves `IA32_TSC_ADJUST` by as much. -/
def wrmsrTsc (m : Machine) (v : UInt64) : Machine :=
  { m with tsc := v, tscAdjust := m.tscAdjust + (v - m.tsc) }

/-- `edx:eax`. -/
def edxEax (m : Machine) : UInt64 := m.get .rdx <<< 32 ||| (m.get .rax &&& 0xffffffff)

/-- One instruction.  `fxsave` and `fxrstor` need an aligned `rsp`. -/
def step (m : Machine) : Instr → Option Machine
  | .pushq r => some { m with stack := m.stack.push (m.get r) }
  | .pushImm v => some { m with stack := m.stack.push v }
  | .popq r => m.stack.pop.map fun p => { m.set r p.1 with stack := p.2 }
  | .movq src dst => some (m.set dst (m.get src))
  | .movImm v dst => some (m.set dst v)
  | .store src d => some { m with stack := m.stack.write (m.get src) d }
  | .load d dst => (m.stack.read d).map (m.set dst)
  | .loadRsp d => (m.stack.read d).map fun v => { m with rsp := v }
  | .movStack s => some { m with stack := s }
  | .addRsp n => (Stack.shrink (n / 8) m.stack).map fun s => { m with stack := s }
  | .subRsp n => some { m with stack := Stack.grow (n / 8) m.stack }
  | .shl n r => some (m.set r (m.get r <<< n))
  | .orq src dst => some (m.set dst (m.get dst ||| m.get src))
  | .xorq src dst => some (m.set dst (m.get dst ^^^ m.get src))
  | .decq r => some (m.set r (m.get r - 1))
  | .rdtsc => some ((m.set .rax (m.tsc &&& 0xffffffff)).set .rdx (m.tsc >>> 32))
  | .mfence => some m
  | .wbinvd => some m
  | .movFromCr3 dst => some (m.set dst m.cr3)
  | .movToCr3 src => some { m with cr3 := m.get src }
  | .rdfsbase r => some (m.set r m.fsbase)
  | .wrfsbase r => some { m with fsbase := m.get r }
  | .wrgsbase r => some { m with gsbase := m.get r }
  | .movToSeg src dst => some { m with segs := Function.update m.segs dst (m.get src).toUInt16 }
  | .fxsave =>
    if m.stack.Aligned then
      some { m with stack := { m.stack with above := List.ofFn m.fx ++ m.stack.above.drop 64 } }
    else none
  | .fxrstor =>
    if m.stack.Aligned then some { m with fx := fun i => m.stack.above.getD i 0 } else none
  | .fxrstorFrom image => some { m with fx := image }
  | .wrmsr =>
    if m.get .rcx = IA32_TIME_STAMP_COUNTER then some (wrmsrTsc m (edxEax m)) else none

/-- A straight sequence of instructions. -/
def exec : List Instr → Machine → Option Machine
  | [], m => some m
  | i :: is, m => (step m i).bind (exec is)

theorem exec_cons (i : Instr) (is : List Instr) (m : Machine) :
    exec (i :: is) m = (step m i).bind (exec is) := rfl

theorem exec_cons_of {i : Instr} {m n : Machine} (h : step m i = some n) (is : List Instr) :
    exec (i :: is) m = exec is n := by
  rw [exec_cons, h, Option.bind_some]

theorem exec_append (is js : List Instr) (m : Machine) :
    exec (is ++ js) m = (exec is m).bind (exec js) := by
  induction is generalizing m with
  | nil => rfl
  | cons i is ih =>
    rw [List.cons_append, exec_cons, exec_cons, Option.bind_assoc]
    exact congrArg _ (funext ih)

/-! ## Leaving and entering ring 0 -/

/-- What a program has in its registers between two instructions. -/
structure Context where
  regs : Regs
  rsp : UInt64
  rip : UInt64
  rflags : UInt64
  cs : UInt16
  segs : Seg → UInt16
  fsbase : UInt64
  gsbase : UInt64
  fx : FxState

/-- What an interrupt through a gate finds that is not in the interrupted context. -/
structure Gate where
  below : Nat → UInt64
  cr3 : UInt64
  tsc : UInt64
  tscAdjust : UInt64

/-- Delivery through an interrupt gate with a stack of its own: the words on the new
    stack, with the error code nearest if there is one, and the cleared flags. -/
def Context.interrupt (c : Context) (errorCode : Option UInt64) (g : Gate) : Machine :=
  { regs := c.regs
    rsp := c.rsp
    stack :=
      { above := errorCode.toList ++
          [c.rip, c.cs.toUInt64, c.rflags, c.rsp, (c.segs .ss).toUInt64]
        below := g.below }
    rflags := c.rflags &&& ~~~Flags.gateMask
    segs := if c.cs &&& 3 = 0 then c.segs else Function.update c.segs .ss 0
    fsbase := c.fsbase
    gsbase := c.gsbase
    fx := c.fx
    cr3 := g.cr3
    tsc := g.tsc
    tscAdjust := g.tscAdjust }

/-- `syscall`: no stack is switched, `rcx` and `r11` take `rip` and `rflags`, and the
    flags of `mask` are cleared.  A trap flag that is left set raises a debug
    exception before the handler's first instruction. -/
def Context.syscall (c : Context) (mask : UInt64) (g : Gate) : Option Machine :=
  if c.rflags &&& ~~~mask &&& Flags.TF = 0 then
    some
      { regs := Function.update (Function.update c.regs .rcx c.rip) .r11 c.rflags
        rsp := c.rsp
        stack := ⟨[], g.below⟩
        rflags := c.rflags &&& ~~~mask
        segs := c.segs
        fsbase := c.fsbase
        gsbase := c.gsbase
        fx := c.fx
        cr3 := g.cr3
        tsc := g.tsc
        tscAdjust := g.tscAdjust }
  else none

/-- `iretq`, which refuses to work in a nested task. -/
def Machine.iretq (m : Machine) : Option Context :=
  if m.rflags &&& Flags.NT = 0 then
    match m.stack.above with
    | rip :: cs :: rflags :: rsp :: ss :: _ =>
      some
        { regs := m.regs
          rsp := rsp
          rip := rip
          rflags := rflags
          cs := cs.toUInt16
          segs := Function.update m.segs .ss ss.toUInt16
          fsbase := m.fsbase
          gsbase := m.gsbase
          fx := m.fx }
    | _ => none
  else none

/-- The flags that `sysretq` takes from `r11`. -/
def SYSRET_FLAGS : UInt64 := 0x3c7fd7

/-- `sysretq` with the selector of `STAR[63:48]`. -/
def Machine.sysretq (m : Machine) (selector : UInt16) : Context :=
  { regs := m.regs
    rsp := m.rsp
    rip := m.get .rcx
    rflags := m.get .r11 &&& SYSRET_FLAGS ||| 2
    cs := (selector + 16) ||| 3
    segs := Function.update m.segs .ss ((selector + 8) ||| 3)
    fsbase := m.fsbase
    gsbase := m.gsbase
    fx := m.fx }

/-- An interrupt that comes back by `iretq` resumes what it interrupted. -/
theorem Machine.iretq_above {m : Machine} {rip rflags rsp : UInt64} {cs ss : UInt16}
    {above : List UInt64} (hnt : m.rflags &&& Flags.NT = 0)
    (hs : m.stack.above = rip :: cs.toUInt64 :: rflags :: rsp :: ss.toUInt64 :: above) :
    m.iretq = some
      { regs := m.regs, rsp := rsp, rip := rip, rflags := rflags, cs := cs,
        segs := Function.update m.segs .ss ss, fsbase := m.fsbase, gsbase := m.gsbase,
        fx := m.fx } := by
  rw [Machine.iretq, if_pos hnt, hs]
  simp only [UInt16.toUInt16_toUInt64]

/-- A gate leaves no nested task and no trap flag. -/
theorem Context.interrupt_nt (c : Context) (errorCode : Option UInt64) (g : Gate) :
    (c.interrupt errorCode g).rflags &&& Flags.NT = 0 := by
  have hmask : ~~~Flags.gateMask &&& Flags.NT = 0 := by decide
  rw [Context.interrupt, UInt64.and_assoc, hmask, UInt64.and_zero]

/-! ## Saving and restoring -/

/-- Pushing registers puts their values above what was there, the last on top. -/
theorem exec_pushes (rs : List Reg) (m : Machine) :
    ∃ below, exec (rs.map .pushq) m =
      some { m with stack := ⟨(rs.map m.regs).reverse ++ m.stack.above, below⟩ } := by
  induction rs generalizing m with
  | nil => exact ⟨m.stack.below, rfl⟩
  | cons r rs ih =>
    obtain ⟨below, h⟩ := ih { m with stack := m.stack.push (m.get r) }
    refine ⟨below, ?_⟩
    rw [List.map_cons, exec_cons, step, Option.bind_some, h, List.map_cons, List.reverse_cons,
      List.append_assoc]
    rfl

/-- Popping registers takes the words off the stack in order. -/
theorem exec_pops (rs : List Reg) (ws : List UInt64) (m : Machine) (above : List UInt64)
    (hm : m.stack.above = ws ++ above) (hlen : ws.length = rs.length) :
    ∃ below, exec (rs.map .popq) m =
      some { m with
        regs := (rs.zip ws).foldl (fun f p => Function.update f p.1 p.2) m.regs
        stack := ⟨above, below⟩ } := by
  induction rs generalizing m ws with
  | nil =>
    rw [List.length_nil, List.length_eq_zero_iff] at hlen
    subst hlen
    refine ⟨m.stack.below, ?_⟩
    rw [List.nil_append] at hm
    rw [← hm]
    rfl
  | cons r rs ih =>
    cases ws with
    | nil => simp at hlen
    | cons w ws =>
      obtain ⟨below, h⟩ := ih ws
        { m.set r w with
          stack := ⟨ws ++ above, fun i => if i = 0 then w else m.stack.below (i - 1)⟩ }
        rfl (Nat.succ.inj hlen)
      refine ⟨below, ?_⟩
      rw [List.map_cons, exec_cons, step, Stack.pop, hm]
      exact h

/-- `rdtsc` with the two instructions that join its halves in `rax`. -/
def stamp (tsc : UInt64) : UInt64 := (tsc &&& (0xffffffff : UInt64)) ||| (tsc >>> 32) <<< 32

theorem exec_stamp (m : Machine) (is : List Instr) :
    ∃ regs : Regs, exec (.rdtsc :: .shl 32 .rdx :: .orq .rdx .rax :: is) m =
        exec is { m with regs := regs } ∧
      regs .rax = stamp m.tsc ∧ ∀ r, r ≠ .rax → r ≠ .rdx → regs r = m.regs r := by
  refine ⟨_, rfl, rfl, ?_⟩
  intro r hrax hrdx
  simp [Machine.set, Function.update_of_ne hrax, Function.update_of_ne hrdx]

/-- Making room for the floating-point state and saving it there. -/
theorem exec_fxsave (m : Machine) :
    ∃ below, exec [.subRsp 512, .fxsave] m =
      if m.stack.Aligned then
        some { m with stack := ⟨List.ofFn m.fx ++ m.stack.above, below⟩ }
      else none := by
  refine ⟨(Stack.grow 64 m.stack).below, ?_⟩
  have haligned : (Stack.grow 64 m.stack).Aligned ↔ m.stack.Aligned := by
    rw [Stack.Aligned, Stack.Aligned, Stack.length_grow]
    omega
  rw [exec_cons_of rfl, exec_cons, step]
  dsimp only
  by_cases h : m.stack.Aligned
  · rw [if_pos h, if_pos (haligned.mpr h), Stack.drop_grow]
    rfl
  · rw [if_neg h, if_neg (mt haligned.mp h)]
    rfl

/-- Going up over words. -/
theorem step_addRsp {m : Machine} {ws rest : List UInt64} {n : Nat}
    (hs : m.stack.above = ws ++ rest) (hn : n / 8 = ws.length) :
    ∃ below, step m (.addRsp n) = some { m with stack := ⟨rest, below⟩ } := by
  obtain ⟨t, ht, rfl, -⟩ := Stack.shrink_append hs
  refine ⟨t.below, ?_⟩
  rw [step, hn, ht]
  rfl

/-- Restoring the floating-point state and going up over it. -/
theorem exec_fxrstor {m : Machine} {fx : FxState} {ws : List UInt64} (is : List Instr)
    (hs : m.stack.above = List.ofFn fx ++ ws) (haligned : m.stack.Aligned) :
    ∃ below, exec (.fxrstor :: .addRsp 512 :: is) m =
      exec is { m with fx := fx, stack := ⟨ws, below⟩ } := by
  have hfx : (fun i : Fin 64 => m.stack.above.getD i 0) = fx := by
    funext i
    have hi : (i : Nat) < (List.ofFn fx).length := by
      rw [List.length_ofFn]
      exact i.isLt
    rw [hs, List.getD_append _ _ _ _ hi, List.getD_eq_getElem _ _ hi, List.getElem_ofFn]
  have hfirst : step m .fxrstor = some { m with fx := fx } := by
    rw [step, if_pos haligned, hfx]
  have hlen : 512 / 8 = (List.ofFn fx).length := List.length_ofFn.symm
  obtain ⟨below, hsecond⟩ := step_addRsp (m := { m with fx := fx }) hs hlen
  exact ⟨below, (exec_cons_of hfirst _).trans (exec_cons_of hsecond _)⟩

end X86
