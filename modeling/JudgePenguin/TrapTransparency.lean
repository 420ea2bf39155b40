/-
  JudgePenguin/TrapTransparency.lean
  ==================================
  **Running a program is transparent to the kernel.**

  Each sequence of instructions has one lemma here that says what it leaves: the
  words `__trap_entry` and `__syscall_entry` make a frame of, the registers
  `trap_return` takes out of one.  The offsets occur in these lemmas only; what
  follows is about frames.
-/
import JudgePenguin.TrapEntry

namespace JudgePenguin

open X86

namespace Trap

/-! ## `__trap_entry` -/

/-- The words that `__trap_entry` pushes below `tf_num`. -/
def saved (m : Machine) : List UInt64 :=
  [m.fsbase, m.regs .rcx, m.regs .rbx, m.regs .rbp, m.regs .rsi, m.regs .rdi, m.regs .r8,
    m.regs .r9, m.regs .r10, m.regs .r11, m.regs .r12, m.regs .r13, m.regs .r14, m.regs .r15,
    stamp m.tsc, m.regs .rax, m.regs .rdx]

/-- The registers that `__trap_entry` pushes in a row. -/
def pushed : List Reg :=
  [.r15, .r14, .r13, .r12, .r11, .r10, .r9, .r8, .rdi, .rsi, .rbp, .rbx, .rcx]

theorem exec_trapEntry_pushes (m : Machine) :
    ∃ regs below, exec trapEntry m =
      exec [.subRsp 512, .fxsave]
        { m with regs := regs, stack := ⟨saved m ++ m.stack.above, below⟩ } := by
  obtain ⟨regs, hexec, hrax, hregs⟩ := exec_stamp
    { m with stack := (m.stack.push (m.get .rdx)).push (m.get .rax) }
    (.pushq .rax :: .mfence :: (pushed.map .pushq ++
      [.rdfsbase .rax, .pushq .rax, .subRsp 512, .fxsave]))
  obtain ⟨below, hpush⟩ := exec_pushes pushed { m with
    regs := regs, stack := ((m.stack.push (m.get .rdx)).push (m.get .rax)).push (regs .rax) }
  have hmap : pushed.map regs = pushed.map m.regs := by
    refine List.map_congr_left fun r hr => hregs r ?_ ?_
    · rintro rfl
      exact absurd hr (by decide)
    · rintro rfl
      exact absurd hr (by decide)
  refine ⟨Function.update regs .rax m.fsbase, fun i => below (i + 1), ?_⟩
  have hfirst : exec trapEntry m =
      exec (.rdtsc :: .shl 32 .rdx :: .orq .rdx .rax :: .pushq .rax :: .mfence ::
          (pushed.map .pushq ++ [.rdfsbase .rax, .pushq .rax, .subRsp 512, .fxsave]))
        { m with stack := (m.stack.push (m.get .rdx)).push (m.get .rax) } :=
    (exec_cons_of rfl _).trans (exec_cons_of rfl _)
  rw [hfirst, hexec, exec_cons_of rfl, exec_cons_of rfl, exec_append]
  dsimp only [Machine.get] at hpush ⊢
  rw [hpush, Option.bind_some, hmap, hrax, exec_cons_of rfl, exec_cons_of rfl]
  rfl

/-- `__trap_entry` makes a frame when the stubs have left an odd number of words and
    raises a fault otherwise, because `fxsave` needs an aligned `rsp`. -/
theorem exec_trapEntry (m : Machine) :
    ∃ regs below, exec trapEntry m =
      if m.stack.above.length % 2 = 1 then
        some { m with
          regs := regs
          stack := ⟨List.ofFn m.fx ++ (saved m ++ m.stack.above), below⟩ }
      else none := by
  obtain ⟨regs, below, hpushes⟩ := exec_trapEntry_pushes m
  obtain ⟨below', hfx⟩ := exec_fxsave
    { m with regs := regs, stack := ⟨saved m ++ m.stack.above, below⟩ }
  have hparity : Stack.Aligned ⟨saved m ++ m.stack.above, below⟩ ↔
      m.stack.above.length % 2 = 1 := by
    have hlen : (saved m).length = 17 := rfl
    rw [Stack.Aligned, List.length_append, hlen]
    omega
  refine ⟨regs, below', ?_⟩
  rw [hpushes, hfx]
  exact if_congr hparity rfl rfl

/-! ## `trap_return` -/

/-- The registers of a frame. -/
def PushRegs.toRegs (p : PushRegs) : Regs
  | .rax => p.rax
  | .rbx => p.rbx
  | .rcx => p.rcx
  | .rdx => p.rdx
  | .rsi => p.rsi
  | .rdi => p.rdi
  | .rbp => p.rbp
  | .r8 => p.r8
  | .r9 => p.r9
  | .r10 => p.r10
  | .r11 => p.r11
  | .r12 => p.r12
  | .r13 => p.r13
  | .r14 => p.r14
  | .r15 => p.r15

/-- The words of a frame that are popped in a row. -/
def PushRegs.row (p : PushRegs) : List UInt64 :=
  [p.rcx, p.rbx, p.rbp, p.rsi, p.rdi, p.r8, p.r9, p.r10, p.r11, p.r12, p.r13, p.r14, p.r15]

theorem Trapframe.length_words (tf : Trapframe) : tf.words.length = 88 := by
  rw [Trapframe.words, List.length_append, List.length_ofFn]
  rfl

theorem Trapframe.stack_aligned (tf : Trapframe) : tf.stack.Aligned := by
  rw [Stack.Aligned, Trapframe.stack, Trapframe.length_words]

/-- `trap_return` leaves what `iretq` takes on the stack and every register as the
    frame has it. -/
theorem exec_trapReturn (tf : Trapframe) (m : Machine) :
    ∃ n, exec (.movStack tf.stack :: trapReturn) m = some n ∧
      n.regs = tf.regs.toRegs ∧ n.fsbase = tf.fsbase ∧ n.fx = tf.fxstate ∧
      n.rflags = m.rflags ∧ n.segs = m.segs ∧ n.gsbase = m.gsbase ∧
      n.stack.above = [tf.rip, tf.cs, tf.rflags, tf.rsp, tf.ss] := by
  let m₁ : Machine := { m with stack := tf.stack }
  obtain ⟨below, hfx⟩ := exec_fxrstor (m := m₁) (.popq .rax :: .wrfsbase .rax ::
    (pushed.reverse.map .popq ++ [.popq .rax, .popq .rax, .popq .rdx, .addRsp 16])) rfl
    tf.stack_aligned
  let m₂ : Machine := { m₁ with
    regs := Function.update m.regs .rax tf.fsbase
    stack := ⟨tf.members.tail, fun i => if i = 0 then tf.fsbase else below (i - 1)⟩
    fsbase := tf.fsbase
    fx := tf.fxstate }
  obtain ⟨below', hpops⟩ := exec_pops pushed.reverse tf.regs.row m₂
    (tf.members.drop 14) rfl rfl
  have hfirst : exec (.movStack tf.stack :: trapReturn) m =
      exec (pushed.reverse.map .popq ++ [.popq .rax, .popq .rax, .popq .rdx, .addRsp 16]) m₂ :=
    (exec_cons_of rfl _).trans (hfx.trans ((exec_cons_of rfl _).trans (exec_cons_of rfl _)))
  rw [hfirst, exec_append, hpops, Option.bind_some]
  refine ⟨_, rfl, ?_, rfl, rfl, rfl, rfl, rfl, rfl⟩
  funext r
  cases r <;> rfl

/-- Returning through a frame, with selectors that are 16 bits wide as the processor
    pushed them. -/
theorem leaveByTrapReturn_eq (k : Kernel) {m : Machine} {tf : Trapframe} {cs ss : UInt16}
    (hnt : m.rflags &&& Flags.NT = 0) (hcs : tf.cs = cs.toUInt64) (hss : tf.ss = ss.toUInt64) :
    leaveByTrapReturn (k, m, .trapReturn tf) = some (k,
      { regs := tf.regs.toRegs, rsp := tf.rsp, rip := tf.rip, rflags := tf.rflags, cs := cs,
        segs := Function.update m.segs .ss ss, fsbase := tf.fsbase, gsbase := m.gsbase,
        fx := tf.fxstate }) := by
  obtain ⟨n, hexec, hregs, hfsbase, hfx, hrflags, hsegs, hgsbase, habove⟩ := exec_trapReturn tf m
  rw [hcs, hss] at habove
  rw [leaveByTrapReturn, hexec, Option.bind_some,
    Machine.iretq_above (hrflags ▸ hnt) habove, hregs, hfsbase, hfx, hsegs, hgsbase]
  rfl

/-- Whatever a frame holds, control goes where it says. -/
theorem leaveByTrapReturn_rip (k : Kernel) {m : Machine} (tf : Trapframe)
    (hnt : m.rflags &&& Flags.NT = 0) :
    ∃ d, leaveByTrapReturn (k, m, .trapReturn tf) = some (k, d) ∧ d.rip = tf.rip := by
  obtain ⟨n, hexec, -, -, -, hrflags, -, -, habove⟩ := exec_trapReturn tf m
  rw [leaveByTrapReturn, hexec, Option.bind_some, Machine.iretq, if_pos (hrflags ▸ hnt), habove]
  exact ⟨_, rfl, rfl⟩

/-- A nested task cannot be left by `iretq`. -/
theorem leaveByTrapReturn_nested (k : Kernel) {m : Machine} (tf : Trapframe)
    (hnt : m.rflags &&& Flags.NT ≠ 0) : leaveByTrapReturn (k, m, .trapReturn tf) = none := by
  obtain ⟨n, hexec, -, -, -, hrflags, -, -, -⟩ := exec_trapReturn tf m
  rw [leaveByTrapReturn, hexec, Option.bind_some, Machine.iretq, hrflags, if_neg hnt]
  rfl

/-! ## Copying a frame -/

theorem and_flag_of_mask {rflags mask flag : UInt64} (h : ~~~mask &&& flag = flag) :
    rflags &&& ~~~mask &&& flag = rflags &&& flag := by
  rw [UInt64.and_assoc, h]

section Copy

variable {rflags : UInt64}

theorem Trapframe.copyTo_clear (h : rflags &&& Flags.DF = 0) (tf dst : Trapframe) :
    tf.copyTo rflags dst = tf := if_pos h

theorem Trapframe.copyTo_rip (h : rflags &&& Flags.DF ≠ 0) (tf dst : Trapframe) :
    (tf.copyTo rflags dst).rip = dst.rip := by
  rw [Trapframe.copyTo, if_neg h]

theorem Kernel.copyPast_clear (h : rflags &&& Flags.DF = 0) (beneath : Kernel → Kernel)
    (k : Kernel) : k.copyPast rflags beneath = k := if_pos h

theorem Kernel.copyPast_set (h : rflags &&& Flags.DF ≠ 0) (beneath : Kernel → Kernel)
    (k : Kernel) : k.copyPast rflags beneath = { beneath k with tscAdjust := k.tscAdjust } :=
  if_neg h

/-- The register is not among the statics that a copy can overwrite. -/
theorem Kernel.copyPast_tscAdjust (rflags : UInt64) (beneath : Kernel → Kernel) (k : Kernel) :
    (k.copyPast rflags beneath).tscAdjust = k.tscAdjust := by
  rw [Kernel.copyPast]
  split
  · rfl
  · rfl

/-- Of the flags at the call only the direction flag matters. -/
theorem trapHandler_congr {rflags' : UInt64} (h : rflags &&& Flags.DF = rflags' &&& Flags.DF) :
    trapHandler rflags = trapHandler rflags' := by
  funext beneath tf cr2 k
  simp only [trapHandler, Trapframe.copyTo, Kernel.copyPast, h]

end Copy

/-! ## A trap -/

/-- The frame of a trap at time `tsc`. -/
def frameOf (n : UInt8) (errorCode : UInt64) (c : Context) (tsc : UInt64) : Trapframe :=
  { fxstate := c.fx
    fsbase := c.fsbase
    regs :=
      { rcx := c.regs .rcx, rbx := c.regs .rbx, rbp := c.regs .rbp, rsi := c.regs .rsi
        rdi := c.regs .rdi, r8 := c.regs .r8, r9 := c.regs .r9, r10 := c.regs .r10
        r11 := c.regs .r11, r12 := c.regs .r12, r13 := c.regs .r13, r14 := c.regs .r14
        r15 := c.regs .r15, tsc := stamp tsc, rax := c.regs .rax, rdx := c.regs .rdx }
    num := n.toUInt64
    errorcode := if TRAP_EC n then errorCode else 0
    rip := c.rip
    cs := c.cs.toUInt64
    rflags := c.rflags
    rsp := c.rsp
    ss := (c.segs .ss).toUInt64 }

/-- What is on the stack when `__trap_entry` starts. -/
theorem exec_stub (n : UInt8) (m : Machine) :
    ∃ below, exec (stub n) m =
      some { m with stack :=
        ⟨n.toUInt64 :: ((if TRAP_EC n then [] else [0]) ++ m.stack.above), below⟩ } := by
  cases h : TRAP_EC n with
  | true => exact ⟨fun i => m.stack.below (i + 1), by rw [stub, h]; rfl⟩
  | false => exact ⟨fun i => m.stack.below (i + 2), by rw [stub, h]; rfl⟩

section Delivery

variable {n : UInt8} (errorCode : UInt64) (c : Context) (a : Around) (k : Kernel)

/-- The words under `tf_num`: the error code that the processor pushed, or the stub,
    or neither, or both. -/
def delivered (n : UInt8) (errorCode : UInt64) (c : Context) : List UInt64 :=
  n.toUInt64 :: ((if TRAP_EC n then [] else [0]) ++
    ((if pushesErrorCode n then some errorCode else none).toList ++
      [c.rip, c.cs.toUInt64, c.rflags, c.rsp, (c.segs .ss).toUInt64]))

theorem length_delivered :
    (delivered n errorCode c).length % 2 = 1 ↔ TRAP_EC n = pushesErrorCode n := by
  cases hec : TRAP_EC n <;> cases hpush : pushesErrorCode n <;> simp [delivered, hec, hpush]

/-- The members of the frame above the saved registers. -/
theorem delivered_of_agree (h : TRAP_EC n = pushesErrorCode n) :
    delivered n errorCode c =
      [n.toUInt64, if TRAP_EC n then errorCode else 0, c.rip, c.cs.toUInt64, c.rflags, c.rsp,
        (c.segs .ss).toUInt64] := by
  rw [delivered, ← h]
  cases TRAP_EC n <;> rfl

/-- The machine after the processor's delivery. -/
def raised (n : UInt8) (errorCode : UInt64) (c : Context) (a : Around) (k : Kernel) : Machine :=
  c.interrupt (if pushesErrorCode n then some errorCode else none) (a.gate k)

theorem enterByTrap_delivered :
    ∃ regs below, enterByTrap n errorCode c a k =
      if TRAP_EC n = pushesErrorCode n then
        some (handle a k { raised n errorCode c a k with
          regs := regs
          stack := ⟨List.ofFn c.fx ++ (saved (raised n errorCode c a k) ++
            delivered n errorCode c), below⟩ })
      else none := by
  obtain ⟨below, hstub⟩ : ∃ below, exec (stub n) (raised n errorCode c a k) =
      some { raised n errorCode c a k with stack := ⟨delivered n errorCode c, below⟩ } :=
    exec_stub n (raised n errorCode c a k)
  obtain ⟨regs, below', hentry⟩ := exec_trapEntry
    { raised n errorCode c a k with stack := ⟨delivered n errorCode c, below⟩ }
  refine ⟨regs, below', ?_⟩
  rw [enterByTrap, ← raised, exec_append, hstub, Option.bind_some, hentry]
  dsimp only
  rw [if_congr (length_delivered errorCode c) rfl rfl]
  split
  · rfl
  · rfl

/-- Where the stub and the processor agree about the error code, the handler gets the
    frame of the interrupted context. -/
theorem enterByTrap_eq (h : TRAP_EC n = pushesErrorCode n) :
    ∃ m, m.rflags &&& Flags.NT = 0 ∧
      enterByTrap n errorCode c a k =
        let r := trapHandler c.rflags a.beneath (frameOf n errorCode c a.tsc) a.cr2 k
        some (r.1, m, r.2) := by
  obtain ⟨regs, below, henter⟩ := enterByTrap_delivered (n := n) errorCode c a k
  have hframe : Trapframe.ofMembers c.fx (saved (raised n errorCode c a k) ++
      [n.toUInt64, if TRAP_EC n then errorCode else 0, c.rip, c.cs.toUInt64, c.rflags, c.rsp,
        (c.segs .ss).toUInt64]) = frameOf n errorCode c a.tsc := rfl
  rw [if_pos h, delivered_of_agree errorCode c h, handle] at henter
  dsimp only at henter
  rw [Trapframe.ofWords_ofFn, hframe] at henter
  have hdf : (raised n errorCode c a k).rflags &&& Flags.DF = c.rflags &&& Flags.DF :=
    and_flag_of_mask (by decide)
  rw [trapHandler_congr hdf] at henter
  refine ⟨_, ?_, henter⟩
  exact c.interrupt_nt (if pushesErrorCode n then some errorCode else none) (a.gate k)

/-- Where they do not, the frame is not aligned. -/
theorem enterByTrap_unaligned (h : TRAP_EC n ≠ pushesErrorCode n) :
    enterByTrap n errorCode c a k = none := by
  obtain ⟨regs, below, henter⟩ := enterByTrap_delivered (n := n) errorCode c a k
  rw [henter, if_neg h]

end Delivery

/-! ## A system call -/

/-- `__syscall_entry` makes a frame from ring 3 with the number of the system calls and
    the two registers that `run_user_64` reads. -/
theorem exec_syscallEntry (m : Machine) (below : Nat → UInt64) :
    ∃ n, exec (syscallEntry ⟨[], below⟩) m = some n ∧ n.rflags = m.rflags ∧
      (Trapframe.ofWords n.stack.above).cs = 3 ∧
      (Trapframe.ofWords n.stack.above).num = 255 ∧
      (Trapframe.ofWords n.stack.above).regs.rax = m.regs .rax ∧
      (Trapframe.ofWords n.stack.above).regs.rdi = m.regs .rdi ∧
      (Trapframe.ofWords n.stack.above).regs.tsc = stamp m.tsc := by
  obtain ⟨regs, hexec, hrax, hregs⟩ := exec_stamp (m.set .r15 (m.get .rax))
    ((syscallEntry ⟨[], below⟩).drop 4)
  have hr15 : regs .r15 = m.regs .rax := hregs .r15 (by decide) (by decide)
  have hrdi : regs .rdi = m.regs .rdi := hregs .rdi (by decide) (by decide)
  have hfirst : exec (syscallEntry ⟨[], below⟩) m =
      exec ((syscallEntry ⟨[], below⟩).drop 4) { m.set .r15 (m.get .rax) with regs := regs } :=
    (exec_cons_of rfl _).trans hexec
  -- the words on the stack before the two moves of `rsp` that uncover stale ones
  let zero := regs .r11 ^^^ regs .r11
  let s : Stack := ⟨[regs .rax, regs .r15, zero, 255, zero, zero, 3, zero, zero, zero],
    Function.update (fun i => below (i + 10)) 8 (regs .rdi)⟩
  have hrest : exec ((syscallEntry ⟨[], below⟩).drop 4)
      { m.set .r15 (m.get .rax) with regs := regs } =
      some { m with
        regs := Function.update regs .r11 zero
        stack := Stack.grow 64 (Stack.grow 14 s) } := rfl
  have hframe : (Stack.grow 64 (Stack.grow 14 s)).above.drop 64 = (Stack.grow 14 s).above :=
    Stack.drop_grow 64 _
  refine ⟨_, hfirst.trans hrest, rfl, ?_, ?_, ?_, ?_, ?_⟩
  all_goals rw [Trapframe.ofWords, hframe]
  · rfl
  · rfl
  · exact hr15
  · exact hrdi
  · exact hrax

/-! ## The handler -/

theorem and_three_toUInt64 (cs : UInt16) : cs.toUInt64 &&& 3 = (cs &&& 3).toUInt64 :=
  (UInt16.toUInt64_and cs 3).symm

section Handler

variable {rflags : UInt64}

/-- The handler of `int 233` keeps the kernel's frame and goes on to the program. -/
theorem trapHandler_runUser (c : KernelContext) (rflags : UInt64) (beneath : Kernel → Kernel)
    (errorCode tsc cr2 : UInt64) (k : Kernel) :
    let tf := (frameOf TRAP_RUN_USER errorCode c.toContext tsc).setTsc (stamp tsc - k.tscAdjust)
    let k' := Kernel.copyPast rflags beneath { k with tscAdjust := 0 }
    trapHandler rflags beneath (frameOf TRAP_RUN_USER errorCode c.toContext tsc) cr2 k =
      ({ k' with tfRunUser := tf.copyTo rflags k.tfRunUser },
        .syscallReturnRecordTsc k'.tfToUser) := by
  have hcs : ¬ (frameOf TRAP_RUN_USER errorCode c.toContext tsc).cs &&& 3 ≠ 0 := by
    rw [frameOf, and_three_toUInt64, c.ring0]
    decide
  have htimer : ¬ TRAP_RUN_USER.toUInt64.toUInt32.toInt32 = TRAP_IRQ_TIMER := by decide
  exact (if_neg hcs).trans ((if_neg htimer).trans (if_pos rfl))

/-- The handler of a frame from ring 3 returns to the kernel with the number in `rax`. -/
theorem trapHandler_ring3 (rflags : UInt64) (beneath : Kernel → Kernel) {tf : Trapframe}
    (cr2 : UInt64) (k : Kernel) (h : tf.cs &&& 3 ≠ 0) :
    let kept := (tf.setTsc (tf.regs.tsc - k.tscAdjust)).copyTo rflags k.tfFromUser
    let k' := Kernel.copyPast rflags beneath { k with tscAdjust := 0 }
    let run := (k'.tfRunUser.setRax (extend tf.num.toUInt32.toInt32)).setTsc
      (kept.regs.tsc - k'.tfToUser.regs.tsc)
    trapHandler rflags beneath tf cr2 k =
      ({ k' with tfFromUser := kept, tfRunUser := run, epc := kept.rip, cr2 := cr2 },
        .trapReturn run) :=
  if_pos h

/-- With the direction flag clear it keeps the frame whole. -/
theorem trapHandler_forward (beneath : Kernel → Kernel) {tf : Trapframe} (cr2 : UInt64)
    (k : Kernel) (h : tf.cs &&& 3 ≠ 0) (hdf : rflags &&& Flags.DF = 0) :
    let run := (k.tfRunUser.setRax (extend tf.num.toUInt32.toInt32)).setTsc
      (tf.regs.tsc - k.tscAdjust - k.tfToUser.regs.tsc)
    trapHandler rflags beneath tf cr2 k =
      ({ k with
          tfFromUser := tf.setTsc (tf.regs.tsc - k.tscAdjust), tfRunUser := run, epc := tf.rip
          cr2 := cr2, tscAdjust := 0 },
        .trapReturn run) := by
  have hring3 := trapHandler_ring3 rflags beneath cr2 k h
  rw [Trapframe.copyTo_clear hdf, Kernel.copyPast_clear hdf] at hring3
  exact hring3

end Handler

/-! ## Starting the program -/

/-- The part of `syscall_return_record_tsc` after the row of pops: the time stamp goes
    into the frame, the counter is reset and `sysretq`'s registers are read. -/
theorem exec_syscallReturn_end (tf : Trapframe) {m : Machine}
    (hs : m.stack.above = tf.members.drop 14) :
    ∃ n, exec (syscallReturnRecordTsc.drop 25) m = some n ∧
      n.regs .rax = tf.regs.rax ∧ n.regs .rdx = tf.regs.rdx ∧ n.regs .rcx = tf.rip ∧
      n.regs .r11 = tf.rflags ∧
      (∀ r, r ∉ [.rax, .rdx, .rcx, .r11] → n.regs r = m.regs r) ∧
      n.rsp = tf.rsp ∧ n.fsbase = m.fsbase ∧ n.gsbase = m.gsbase ∧ n.fx = m.fx ∧
      n.segs = m.segs ∧ n.tsc = 0 ∧ n.stack.below 2 = stamp m.tsc := by
  obtain ⟨regs₀, rsp, ⟨above, below⟩, rflags, segs, fsbase, gsbase, fx, cr3, tsc, tscAdjust⟩ := m
  cases hs
  let m₀ : Machine :=
    { regs := regs₀, rsp := rsp, stack := ⟨tf.members.drop 14, below⟩, rflags := rflags
      segs := segs, fsbase := fsbase, gsbase := gsbase, fx := fx, cr3 := cr3, tsc := tsc
      tscAdjust := tscAdjust }
  obtain ⟨regs, hstamp, hrax, hregs⟩ := exec_stamp (m₀.set .rax cr3)
    (syscallReturnRecordTsc.drop 32)
  have hfirst : exec (syscallReturnRecordTsc.drop 25) m₀ =
      exec (.rdtsc :: .shl 32 .rdx :: .orq .rdx .rax :: syscallReturnRecordTsc.drop 32)
        (m₀.set .rax cr3) :=
    (exec_cons_of rfl _).trans ((exec_cons_of rfl _).trans
      ((exec_cons_of rfl _).trans (exec_cons_of rfl _)))
  refine ⟨_, hfirst.trans (hstamp.trans rfl), rfl, rfl, rfl, rfl, fun r hr => ?_,
    rfl, rfl, rfl, rfl, rfl, ?_, hrax⟩
  · simp only [List.mem_cons, List.not_mem_nil, or_false, not_or] at hr
    obtain ⟨hrax, hrdx, hrcx, hr11⟩ := hr
    simp only [Machine.set, Function.update_of_ne hrax, Function.update_of_ne hrdx,
      Function.update_of_ne hrcx, Function.update_of_ne hr11, wrmsrTsc]
    rw [hregs r hrax hrdx]
    exact Function.update_of_ne hrax _ _
  · have hzero (u v : UInt64) : (u ^^^ u) <<< 32 ||| ((v ^^^ v) &&& 0xffffffff) = 0 := by
      rw [UInt64.xor_self, UInt64.xor_self]
      decide
    exact hzero (regs .rdx) (regs .rax)

/-- The offset of the time stamp in a frame. -/
theorem Trapframe.ofWords_tsc (ws : List UInt64) :
    (Trapframe.ofWords ws).regs.tsc = ws[78]?.getD 0 := by
  have htsc : (Trapframe.ofWords ws).regs.tsc = (ws.drop 64).getD 14 0 := rfl
  rw [htsc, List.getD_eq_getElem?_getD, List.getElem?_drop]

/-- `syscall_return_record_tsc` goes through, and what the program then finds is in the
    frame and nowhere else. -/
theorem exec_syscallReturn (tf : Trapframe) (m : Machine) :
    ∃ n, exec (.movStack tf.stack :: syscallReturnRecordTsc) m = some n ∧
      n.regs = Function.update (Function.update tf.regs.toRegs .rcx tf.rip) .r11 tf.rflags ∧
      n.rsp = tf.rsp ∧ n.fsbase = tf.fsbase ∧ n.gsbase = 0 ∧ n.fx = initFxState ∧
      n.segs = (fun _ => 0) ∧ n.tsc = 0 ∧
      (Trapframe.ofWords (Stack.grow 81 n.stack).above).regs.tsc = stamp m.tsc := by
  have hwords : tf.words = List.ofFn tf.fxstate ++ tf.members := rfl
  have hlen : 512 / 8 = (List.ofFn tf.fxstate).length := List.length_ofFn.symm
  obtain ⟨below, hadd⟩ := step_addRsp (m := { m with stack := tf.stack, fx := initFxState })
    hwords hlen
  obtain ⟨m₁, hsegs, habove, hsegs₁, hfsbase, hgsbase, hfx, htsc⟩ :
      ∃ m₁, exec ((syscallReturnRecordTsc.drop 2).take 10)
          { m with stack := ⟨tf.members, below⟩, fx := initFxState } = some m₁ ∧
        m₁.stack.above = tf.regs.row ++ tf.members.drop 14 ∧
        m₁.segs = (fun _ => 0) ∧ m₁.fsbase = tf.fsbase ∧
        m₁.gsbase = tf.fsbase ^^^ tf.fsbase ∧ m₁.fx = initFxState ∧ m₁.tsc = m.tsc := by
    refine ⟨_, rfl, rfl, ?_, rfl, rfl, rfl, rfl⟩
    funext r
    cases r <;> rfl
  obtain ⟨below', hpops⟩ := exec_pops pushed.reverse tf.regs.row m₁ (tf.members.drop 14) habove rfl
  obtain ⟨n, hend, hrax, hrdx, hrcx, hr11, hother, hrsp, hfs, hgs, hfx', hseg', hzero, hstamp⟩ :=
    exec_syscallReturn_end tf
      (m := { m₁ with
        regs := (pushed.reverse.zip tf.regs.row).foldl (fun f p => Function.update f p.1 p.2) m₁.regs
        stack := ⟨tf.members.drop 14, below'⟩ }) rfl
  refine ⟨n, ?_, ?_, hrsp, hfs.trans hfsbase, ?_, hfx'.trans hfx, hseg'.trans hsegs₁, hzero, ?_⟩
  · have hstart : exec (.movStack tf.stack :: syscallReturnRecordTsc) m =
        exec ((syscallReturnRecordTsc.drop 2).take 10 ++
          (pushed.reverse.map .popq ++ syscallReturnRecordTsc.drop 25))
          { m with stack := ⟨tf.members, below⟩, fx := initFxState } :=
      (exec_cons_of rfl _).trans ((exec_cons_of rfl _).trans (exec_cons_of hadd _))
    rw [hstart, exec_append, hsegs, Option.bind_some, exec_append, hpops, Option.bind_some, hend]
  · funext r
    cases r
    · exact hrax
    · exact hother .rbx (by decide)
    · exact hrcx
    · exact hrdx
    · exact hother .rsi (by decide)
    · exact hother .rdi (by decide)
    · exact hother .rbp (by decide)
    · exact hother .r8 (by decide)
    · exact hother .r9 (by decide)
    · exact hother .r10 (by decide)
    · exact hr11
    · exact hother .r12 (by decide)
    · exact hother .r13 (by decide)
    · exact hother .r14 (by decide)
    · exact hother .r15 (by decide)
  · rw [hgs]
    exact hgsbase.trans UInt64.xor_self
  · rw [Trapframe.ofWords_tsc, Stack.getElem?_grow n.stack (by decide), Option.getD_some, hstamp, ← htsc]

/-- What a program that starts at `entry` finds in its registers. -/
def programStart (rflags entry rsp : UInt64) : Context :=
  { regs := Function.update (Function.update (fun _ => 0) .rcx entry) .r11
      (makeTrapframe rflags entry rsp).rflags
    rsp := rsp
    rip := entry
    rflags := (makeTrapframe rflags entry rsp).rflags &&& SYSRET_FLAGS ||| 2
    cs := (STAR_USER + 16) ||| 3
    segs := Function.update (fun _ => 0) .ss ((STAR_USER + 8) ||| 3)
    fsbase := 0
    gsbase := 0
    fx := initFxState }

section Run

variable (entry rsp : UInt64) (c : KernelContext) (k : Kernel) (a b : Around) (e : UserEnd)
  (returnCode : Int32)

/-- `int 233` starts the program, and the kernel's own registers are kept in
    `tf_run_user`.  Where the kernel has the direction flag clear, nothing of it is in
    the program's registers. -/
theorem startUser_eq :
    ∃ k' d tsc, startUser entry rsp c a k = some (k', d) ∧
      k'.tfRunUser =
        ((frameOf TRAP_RUN_USER 0 c.toContext a.tsc).setTsc tsc).copyTo c.rflags k.tfRunUser ∧
      (c.rflags &&& Flags.DF = 0 → d = programStart c.rflags entry rsp) := by
  let k₀ : Kernel := { k with tfToUser := makeTrapframe c.rflags entry rsp }
  have hagree : TRAP_EC TRAP_RUN_USER = pushesErrorCode TRAP_RUN_USER := by decide
  obtain ⟨m, -, henter⟩ := enterByTrap_eq 0 c.toContext a k₀ hagree
  rw [trapHandler_runUser c c.rflags a.beneath 0 a.tsc a.cr2 k₀] at henter
  let k₁ := Kernel.copyPast c.rflags a.beneath { k₀ with tscAdjust := 0 }
  obtain ⟨n, hexec, hregs, hrsp, hfsbase, hgsbase, hfx, hsegs, -, -⟩ :=
    exec_syscallReturn k₁.tfToUser { m with segs := fun s => if s = .ss then m.segs s else 0 }
  rw [startUser, henter, Option.bind_some, leaveBySyscallReturn, hexec, Option.map_some]
  refine ⟨_, _, _, rfl, rfl, fun hdf => ?_⟩
  have hto : k₁.tfToUser = makeTrapframe c.rflags entry rsp := by
    rw [show k₁ = { k₀ with tscAdjust := 0 } from Kernel.copyPast_clear hdf _ _]
  have hzero : (makeTrapframe c.rflags entry rsp).regs.toRegs = fun _ => 0 := by
    funext r
    cases r <;> rfl
  rw [hto, hzero] at hregs
  rw [hto] at hrsp hfsbase
  rw [Machine.sysretq, Machine.get, Machine.get, hregs, hrsp, hfsbase, hgsbase, hfx, hsegs]
  rfl

end Run

/-! ## Back in the kernel -/

def UserEnd.num : UserEnd → UInt8
  | .trap n _ _ _ => n
  | .syscall _ => TRAP_SYSCALL

def UserEnd.context : UserEnd → UserContext
  | .trap _ _ _ c => c
  | .syscall c => c

/-- The stub of the trap and the processor agree about the error code; a `syscall` is
    executed with neither the trap flag nor the nested-task flag. -/
def UserEnd.Caught : UserEnd → Prop
  | .trap n _ _ _ => TRAP_EC n = pushesErrorCode n
  | .syscall c => c.rflags &&& Flags.TF = 0 ∧ c.rflags &&& Flags.NT = 0

/-- The program ends with the direction flag clear as well. -/
structure UserEnd.Handled (e : UserEnd) : Prop where
  caught : e.Caught
  forward : e.context.rflags &&& Flags.DF = 0

/-- The kernel goes on in `d` as it was in `c`, `rax` apart. -/
structure SameKernel (c : KernelContext) (d : Context) : Prop where
  rip : d.rip = c.rip
  rsp : d.rsp = c.rsp
  rflags : d.rflags = c.rflags
  cs : d.cs = c.cs
  ss : d.segs .ss = c.segs .ss
  fsbase : d.fsbase = c.fsbase
  fx : d.fx = c.fx
  regs : ∀ r, r ≠ .rax → d.regs r = c.regs r

/-- What `run_user_64` should report for the way the program ended. -/
def UserEnd.Reported (x : Exported) : UserEnd → Prop
  | .trap n _ _ _ => x = ⟨n, 0⟩
  | .syscall c =>
    if (c.regs .rax).toUInt32 = 60 then x = ⟨255, (c.regs .rdi).toUInt32.toInt32⟩
    else if (c.regs .rax).toUInt32 = SYS_tkill then x.trapNum = 253
    else x = ⟨254, 0⟩

/-- A vector goes through `int num` and back into a register unchanged. -/
theorem extend_toUInt8 (n : UInt8) : (extend n.toUInt64.toUInt32.toInt32).toUInt8 = n := by
  have hall : ∀ k < 256, (extend (UInt8.ofNat k).toUInt64.toUInt32.toInt32).toUInt8 =
      UInt8.ofNat k := by decide +kernel
  have h := hall n.toNat (UInt8.toNat_lt n)
  rwa [UInt8.ofNat_toNat] at h

/-- What the handler gets at an end of a program whose `rdtsc` reads `tsc`. -/
structure UserEnd.Frame (e : UserEnd) (tsc : UInt64) (tf : Trapframe) : Prop where
  ring3 : tf.cs &&& 3 ≠ 0
  num : tf.num = e.num.toUInt64
  rax : tf.regs.rax = e.context.regs .rax
  rdi : tf.regs.rdi = e.context.regs .rdi
  tsc : tf.regs.tsc = stamp tsc

section Back

variable (b : Around) (k : Kernel)

theorem enterBySyscall_eq {u : Context} (htf : u.rflags &&& Flags.TF = 0) :
    ∃ m tf, m.rflags = u.rflags &&& ~~~SFMASK ∧ tf.cs = 3 ∧ tf.num = 255 ∧
      tf.regs.rax = u.regs .rax ∧ tf.regs.rdi = u.regs .rdi ∧ tf.regs.tsc = stamp b.tsc ∧
      enterBySyscall u b k =
        let r := trapHandler u.rflags b.beneath tf b.cr2 k
        some (r.1, m, r.2) := by
  have hmask : u.rflags &&& ~~~SFMASK &&& Flags.TF = 0 :=
    (and_flag_of_mask (by decide)).trans htf
  obtain ⟨m, hexec, hrflags, hcs, hnum, hrax, hrdi, htsc⟩ := exec_syscallEntry
    { regs := Function.update (Function.update u.regs .rcx u.rip) .r11 u.rflags
      rsp := u.rsp, stack := ⟨[], b.below⟩, rflags := u.rflags &&& ~~~SFMASK, segs := u.segs
      fsbase := u.fsbase, gsbase := u.gsbase, fx := u.fx, cr3 := b.cr3, tsc := b.tsc
      tscAdjust := k.tscAdjust } b.below
  have hdf : m.rflags &&& Flags.DF = u.rflags &&& Flags.DF := by
    rw [hrflags]
    exact and_flag_of_mask (by decide)
  refine ⟨(handle b k m).2.1, Trapframe.ofWords m.stack.above, hrflags, hcs, hnum, hrax, hrdi,
    htsc, ?_⟩
  rw [enterBySyscall, Context.syscall, if_pos hmask, Option.bind_some, ← trapHandler_congr hdf]
  exact congrArg (Option.map (handle b k)) hexec

/-- An end that is caught: the handler gets a frame of the program, and the kernel goes on
    by the frame that it chooses. -/
theorem endUser_caught {e : UserEnd} (h : e.Caught) :
    ∃ m tf, m.rflags &&& Flags.NT = 0 ∧ e.Frame b.tsc tf ∧
      endUser b k e =
        let r := trapHandler e.context.rflags b.beneath tf b.cr2 k
        leaveByTrapReturn (r.1, m, r.2) := by
  cases e with
  | trap n hn errorCode u =>
    obtain ⟨m, hnt, henter⟩ := enterByTrap_eq errorCode u.toContext b k h
    have hcs : (frameOf n errorCode u.toContext b.tsc).cs &&& 3 ≠ 0 := by
      rw [frameOf, and_three_toUInt64, u.ring3]
      decide
    refine ⟨m, frameOf n errorCode u.toContext b.tsc, hnt, ⟨hcs, rfl, rfl, rfl, rfl⟩, ?_⟩
    rw [endUser, henter, Option.bind_some]
    rfl
  | syscall u =>
    obtain ⟨htf, hnt⟩ := h
    obtain ⟨m, tf, hrflags, hcs, hnum, hrax, hrdi, htsc, henter⟩ := enterBySyscall_eq b k htf
    have hring3 : tf.cs &&& 3 ≠ 0 := by
      rw [hcs]
      decide
    refine ⟨m, tf, ?_, ⟨hring3, hnum, hrax, hrdi, htsc⟩, ?_⟩
    · rw [hrflags, and_flag_of_mask (by decide), hnt]
    · rw [endUser, henter, Option.bind_some]
      rfl

/-- An end that is not caught does not come back to the kernel: the frame is not aligned,
    with the trap flag the debug exception comes in the kernel, and with the nested-task
    flag the `iretq` of `trap_return` is refused. -/
theorem endUser_uncaught {e : UserEnd} (h : ¬ e.Caught) : endUser b k e = none := by
  cases e with
  | trap n hn errorCode u => rw [endUser, enterByTrap_unaligned errorCode u.toContext b k h]; rfl
  | syscall u =>
    by_cases htf : u.rflags &&& Flags.TF = 0
    · obtain ⟨m, tf, hrflags, hcs, -, -, -, -, henter⟩ := enterBySyscall_eq b k htf
      have hring3 : tf.cs &&& 3 ≠ 0 := by
        rw [hcs]
        decide
      have hexit := congrArg Prod.snd (trapHandler_ring3 u.rflags b.beneath b.cr2 k hring3)
      have hset : m.rflags &&& Flags.NT ≠ 0 := by
        rw [hrflags, and_flag_of_mask (by decide)]
        exact fun hnt => h ⟨htf, hnt⟩
      rw [endUser, henter, Option.bind_some, hexit]
      exact leaveByTrapReturn_nested _ _ hset
    · have hmask : ¬ u.rflags &&& ~~~SFMASK &&& Flags.TF = 0 := by
        rwa [and_flag_of_mask (by decide)]
      rw [endUser, enterBySyscall, Context.syscall, if_neg hmask]
      rfl

/-- An end that is caught comes back with the counter running again, to where `tf_run_user`
    says after the copy. -/
theorem endUser_returns {e : UserEnd} (h : e.Caught) :
    ∃ k' d, endUser b k e = some (k', d) ∧ k'.tscAdjust = 0 ∧
      d.rip = (Kernel.copyPast e.context.rflags b.beneath
        { k with tscAdjust := 0 }).tfRunUser.rip := by
  obtain ⟨m, tf, hnt, hframe, hend⟩ := endUser_caught b k h
  have hhandler := trapHandler_ring3 e.context.rflags b.beneath b.cr2 k hframe.ring3
  dsimp only at hend hhandler
  rw [hhandler] at hend
  obtain ⟨d, hleave, hrip⟩ := leaveByTrapReturn_rip _ _ hnt
  exact ⟨_, d, hend.trans hleave, Kernel.copyPast_tscAdjust _ _ _, hrip⟩

/-- The time from the stamp in `tf_to_user` to the reading of `b` is left in
    `tf_run_user`. -/
def Stamped (b : Around) (k k' : Kernel) : Prop :=
  k'.tfRunUser.regs.tsc = stamp b.tsc - k.tscAdjust - k.tfToUser.regs.tsc

/-- An end that is handled: what the program left is kept, and the kernel goes on by its
    own frame. -/
theorem endUser_handled {e : UserEnd} (h : e.Handled) :
    ∃ m k', m.rflags &&& Flags.NT = 0 ∧
      k'.tfRunUser = (k.tfRunUser.setRax (extend e.num.toUInt64.toUInt32.toInt32)).setTsc
        (stamp b.tsc - k.tscAdjust - k.tfToUser.regs.tsc) ∧
      k'.tfFromUser.regs.rax = e.context.regs .rax ∧
      k'.tfFromUser.regs.rdi = e.context.regs .rdi ∧
      endUser b k e = leaveByTrapReturn (k', m, .trapReturn k'.tfRunUser) := by
  obtain ⟨m, tf, hnt, hframe, hend⟩ := endUser_caught b k h.caught
  have hhandler := trapHandler_forward b.beneath b.cr2 k hframe.ring3 h.forward
  rw [hframe.num, hframe.tsc] at hhandler
  dsimp only at hend hhandler
  rw [hhandler] at hend
  exact ⟨m, _, hnt, rfl, hframe.rax, hframe.rdi, hend⟩

theorem endUser_stamped {e : UserEnd} (h : e.Handled) :
    ∃ k' d, endUser b k e = some (k', d) ∧ Stamped b k k' := by
  obtain ⟨m, k', hnt, hrun, -, -, hend⟩ := endUser_handled b k h
  obtain ⟨d, hleave, -⟩ := leaveByTrapReturn_rip k' k'.tfRunUser hnt
  refine ⟨k', d, hend.trans hleave, ?_⟩
  rw [Stamped, hrun]
  rfl

end Back

/-- Leaving by the kernel's frame. -/
theorem leave_runUser {c : KernelContext} {tf : Trapframe} {t₀ t₁ : UInt64} {m : Machine}
    (k : Kernel) (v t : UInt64) (htf : tf = (frameOf TRAP_RUN_USER 0 c.toContext t₀).setTsc t₁)
    (hnt : m.rflags &&& Flags.NT = 0) :
    ∃ d, leaveByTrapReturn (k, m, .trapReturn ((tf.setRax v).setTsc t)) = some (k, d) ∧
      SameKernel c d ∧ d.regs .rax = v := by
  rw [htf]
  have hcs : ((((frameOf TRAP_RUN_USER 0 c.toContext t₀).setTsc t₁).setRax v).setTsc t).cs =
      c.cs.toUInt64 := rfl
  have hss : ((((frameOf TRAP_RUN_USER 0 c.toContext t₀).setTsc t₁).setRax v).setTsc t).ss =
      (c.segs .ss).toUInt64 := rfl
  rw [leaveByTrapReturn_eq k hnt hcs hss]
  refine ⟨_, rfl, ⟨rfl, rfl, rfl, rfl, rfl, rfl, rfl, fun r hr => ?_⟩, rfl⟩
  cases r
  · exact absurd rfl hr
  all_goals rfl

/-! ## The whole run -/

/-- Control is back after the `int`, the kernel has what it had, `al` is the number and
    `run_user_64` reports what it should. -/
def Transparent (c : KernelContext) (e : UserEnd) (r : Option Return) : Prop :=
  ∃ t, r = some t ∧ SameKernel c t.context ∧ (t.context.regs .rax).toUInt8 = e.num ∧
    e.Reported t.exported

/-- What is left by the program is reported as it should be. -/
theorem exported_reported (e : UserEnd) (returnCode : Int32) :
    e.Reported (exportReturnCode e.num (e.context.regs .rax) (e.context.regs .rdi) returnCode) := by
  cases e with
  | trap n hn errorCode c => exact if_neg hn
  | syscall c =>
    have hne : (60 : UInt32) ≠ SYS_tkill := by decide
    rw [UserEnd.Reported, UserEnd.num, UserEnd.context, exportReturnCode, if_pos rfl]
    by_cases hexit : (c.regs .rax).toUInt32 = 60
    · rw [if_pos hexit, hexit, if_neg hne]
      exact if_neg (not_not_intro rfl)
    · rw [if_neg hexit]
      by_cases hkill : (c.regs .rax).toUInt32 = SYS_tkill
      · rw [if_pos hkill, if_pos hkill]
        rfl
      · rw [if_neg hkill, if_neg hkill]
        exact if_pos hexit

/-- Back by the kernel's own frame, with everything. -/
theorem endUser_same {c : KernelContext} {k : Kernel} {t₀ t₁ : UInt64} (b : Around) {e : UserEnd}
    (returnCode : Int32) (h : e.Handled)
    (hk : k.tfRunUser = (frameOf TRAP_RUN_USER 0 c.toContext t₀).setTsc t₁) :
    ∃ k' d, endUser b k e = some (k', d) ∧ SameKernel c d ∧ (d.regs .rax).toUInt8 = e.num ∧
      e.Reported (exportReturnCode (d.regs .rax).toUInt8 k'.tfFromUser.regs.rax
        k'.tfFromUser.regs.rdi returnCode) := by
  obtain ⟨m, k', hnt, hrun, hrax, hrdi, hend⟩ := endUser_handled b k h
  obtain ⟨d, hleave, hsame, hd⟩ := leave_runUser k'
    (extend e.num.toUInt64.toUInt32.toInt32) (stamp b.tsc - k.tscAdjust - k.tfToUser.regs.tsc) hk hnt
  have hnum : (d.regs .rax).toUInt8 = e.num := by rw [hd, extend_toUInt8]
  refine ⟨k', d, ?_, hsame, hnum, ?_⟩
  · rw [hend, hrun]
    exact hleave
  · rw [hnum, hrax, hrdi]
    exact exported_reported e returnCode

section Transparency

variable (entry rsp : UInt64) {c : KernelContext} (k : Kernel) (a b : Around) {e : UserEnd}
  (returnCode : Int32)

theorem transparent_of_handled (hc : c.rflags &&& Flags.DF = 0) (h : e.Handled) :
    Transparent c e (runUser64 entry rsp c k a b e returnCode) := by
  obtain ⟨k', d, tsc, hstart, hk, -⟩ := startUser_eq entry rsp c k a
  rw [Trapframe.copyTo_clear hc] at hk
  obtain ⟨k'', d', hend, hsame, hrax, hreported⟩ := endUser_same b returnCode h hk
  rw [runUser64, hstart, Option.bind_some]
  exact ⟨_, congrArg _ hend, hsame, hrax, hreported⟩

theorem not_transparent (h : ¬ e.Caught) :
    ¬ Transparent c e (runUser64 entry rsp c k a b e returnCode) := by
  rintro ⟨t, ht, -, -, -⟩
  obtain ⟨started, -, hended⟩ := Option.bind_eq_some_iff.mp ht
  rw [endUser_uncaught b started.1 h] at hended
  cases hended

end Transparency

/-- The kernel at rest, and a program with given flags. -/
def idleKernel : KernelContext :=
  { regs := fun _ => 0, rsp := 0x401ffff0, rip := 0x40001000, rflags := 2, cs := GDT_KERNEL_CS
    segs := fun _ => 0, fsbase := 0, gsbase := 0, fx := fun _ => 0, ring0 := by decide }

def programWith (rflags : UInt64) : UserContext :=
  { regs := fun _ => 60, rsp := 0x800000, rip := 0x400000, rflags := rflags
    cs := GDT_USER_CS ||| 3, segs := fun _ => 0, fsbase := 0, gsbase := 0, fx := fun _ => 0
    ring3 := by decide }

def idleFrame : Trapframe := makeTrapframe 2 0x400000 0x800000

def idleStatics : Kernel := ⟨idleFrame, idleFrame, idleFrame, 0, 0, 0⟩

def quiet : Around := ⟨fun _ => 0, 0x40000000, 0, 0, id, fun _ => 0, fun _ => 0⟩

/-- Statics with another place to go on in `tf_run_user`. -/
def staleStatics (rip : UInt64) : Kernel :=
  { idleStatics with tfRunUser := { idleFrame with rip := rip } }

/-- A layout in which the words below `tf_keptuser` are those of `tf_run_user`. -/
def overRunUser : Around :=
  { quiet with
    beneath := fun k => { k with tfRunUser := { k.tfRunUser with rip := k.tfRunUser.rip + 1 } } }

theorem add_one_ne (x : UInt64) : x + 1 ≠ x := by
  intro h
  have hone : (1 : UInt64) = 0 := by
    rw [← UInt64.add_sub_cancel (a := 1) (b := x), UInt64.add_comm, h, UInt64.sub_self]
  exact absurd hone (by decide)

/-- Where control comes back to. -/
theorem runUser64_rip (entry rsp : UInt64) (c : KernelContext) (k : Kernel) (a b : Around)
    {e : UserEnd} (returnCode : Int32) (h : e.Caught) :
    ∃ (t : Return) (k' : Kernel) (t₀ t₁ : UInt64),
      runUser64 entry rsp c k a b e returnCode = some t ∧
      k'.tfRunUser = ((frameOf TRAP_RUN_USER 0 c.toContext t₀).setTsc t₁).copyTo c.rflags
        k.tfRunUser ∧
      t.context.rip = (Kernel.copyPast e.context.rflags b.beneath
        { k' with tscAdjust := 0 }).tfRunUser.rip := by
  obtain ⟨k', d, tsc, hstart, hk, -⟩ := startUser_eq entry rsp c k a
  obtain ⟨k'', d', hend, -, hrip⟩ := endUser_returns b k' h
  rw [runUser64, hstart, Option.bind_some]
  exact ⟨_, k', a.tsc, tsc, congrArg _ hend, hk, hrip⟩

/-- A kernel with the direction flag set does not get its frame into `tf_run_user`. -/
theorem kernel_forward {c : KernelContext} {e : UserEnd} (h : e.Caught)
    (hall : ∀ k, Transparent c e (runUser64 0 0 c k quiet quiet e 0)) :
    c.rflags &&& Flags.DF = 0 := by
  by_contra hdf
  obtain ⟨t, k', t₀, t₁, ht, hk, hrip⟩ :=
    runUser64_rip 0 0 c (staleStatics (c.rip + 1)) quiet quiet 0 h
  obtain ⟨t', ht', hsame, -⟩ := hall (staleStatics (c.rip + 1))
  have hkept : (Kernel.copyPast e.context.rflags quiet.beneath
      { k' with tscAdjust := 0 }).tfRunUser.rip = k'.tfRunUser.rip := by
    rw [Kernel.copyPast]
    split
    · rfl
    · rfl
  rw [hkept, hk, Trapframe.copyTo_rip hdf] at hrip
  rw [ht, Option.some.injEq] at ht'
  rw [← ht'] at hsame
  exact add_one_ne c.rip (hrip.symm.trans hsame.rip)

/-- A program that ends with it set has the statics below `tf_keptuser` overwritten. -/
theorem program_forward {c : KernelContext} {e : UserEnd} (h : e.Caught)
    (hc : c.rflags &&& Flags.DF = 0)
    (hall : ∀ b, Transparent c e (runUser64 0 0 c idleStatics quiet b e 0)) :
    e.context.rflags &&& Flags.DF = 0 := by
  by_contra hdf
  obtain ⟨t, k', t₀, t₁, ht, hk, hrip⟩ := runUser64_rip 0 0 c idleStatics quiet overRunUser 0 h
  obtain ⟨t', ht', hsame, -⟩ := hall overRunUser
  rw [Trapframe.copyTo_clear hc] at hk
  have hmoved : t.context.rip = k'.tfRunUser.rip + 1 := by
    rw [hrip, Kernel.copyPast_set hdf]
    rfl
  have hback : t.context.rip = c.rip := by
    rw [ht, Option.some.injEq] at ht'
    rw [ht']
    exact hsame.rip
  rw [hk, hback] at hmoved
  exact add_one_ne c.rip hmoved.symm

/-- The exact condition under which running a program is transparent, whatever the statics
    are and wherever they lie.  With both direction flags clear it is exact for each run. -/
theorem runUser64_transparent_iff (c : KernelContext) (e : UserEnd) :
    ((∀ entry rsp k a b returnCode,
        Transparent c e (runUser64 entry rsp c k a b e returnCode)) ↔
      c.rflags &&& Flags.DF = 0 ∧ e.Handled) ∧
    ∀ entry rsp k a b returnCode,
      c.rflags &&& Flags.DF = 0 → e.context.rflags &&& Flags.DF = 0 →
        (Transparent c e (runUser64 entry rsp c k a b e returnCode) ↔ e.Handled) := by
  have hcaught {entry rsp k a b returnCode}
      (ht : Transparent c e (runUser64 entry rsp c k a b e returnCode)) : e.Caught :=
    not_not.mp fun h => not_transparent entry rsp k a b returnCode h ht
  refine ⟨⟨fun hall => ?_, fun ⟨hc, h⟩ entry rsp k a b returnCode => ?_⟩, ?_⟩
  · have h := hcaught (hall 0 0 idleStatics quiet quiet 0)
    have hc := kernel_forward h fun k => hall 0 0 k quiet quiet 0
    exact ⟨hc, h, program_forward h hc fun b => hall 0 0 idleStatics quiet b 0⟩
  · exact transparent_of_handled entry rsp k a b returnCode hc h
  · intro entry rsp k a b returnCode hc he
    exact ⟨fun ht => ⟨hcaught ht, he⟩, transparent_of_handled entry rsp k a b returnCode hc⟩

/-- A program that sets the alignment-check flag and reads a word at an odd address
    raises vector 17, for which the processor pushes an error code and the stub another
    word; one that sets the nested-task flag and calls `exit` raises the fault in
    `trap_return`; one that sets the direction flag and calls `exit(60)` is reported by
    the `rax` of an earlier frame. -/
theorem alignment_check_reboots :
    ¬ Transparent idleKernel (.trap 17 (by decide) 0 (programWith 0x40202))
        (runUser64 0x400000 0x800000 idleKernel idleStatics quiet quiet
          (.trap 17 (by decide) 0 (programWith 0x40202)) 0) ∧
      ¬ Transparent idleKernel (.syscall (programWith 0x4202))
        (runUser64 0x400000 0x800000 idleKernel idleStatics quiet quiet
          (.syscall (programWith 0x4202)) 0) ∧
      ¬ Transparent idleKernel (.syscall (programWith 0x602))
        (runUser64 0x400000 0x800000 idleKernel idleStatics quiet quiet
          (.syscall (programWith 0x602)) 0) := by
  refine ⟨not_transparent _ _ _ _ _ _ ?_, not_transparent _ _ _ _ _ _ ?_, ?_⟩
  · rw [UserEnd.Caught]
    decide
  · rw [UserEnd.Caught]
    decide
  · obtain ⟨t, ht, hexported⟩ : ∃ t, runUser64 0x400000 0x800000 idleKernel idleStatics quiet quiet
        (.syscall (programWith 0x602)) 0 = some t ∧ t.exported = ⟨254, 0⟩ := ⟨_, rfl, rfl⟩
    rintro ⟨t', ht', -, -, hreported⟩
    rw [ht, Option.some.injEq] at ht'
    rw [← ht', hexported] at hreported
    have hexit : (⟨254, 0⟩ : Exported) = ⟨255, 60⟩ := hreported
    cases hexit

end Trap

end JudgePenguin
