/-
  JudgePenguin/TrapEntry.lean
  ===========================
  **Entering and leaving a user program** (`kern/trap_entry.S`, `kern/trap.cpp`).

  The kernel starts a program by interrupting itself: `int 233` saves the kernel's
  registers in a frame on the interrupt stack, the handler copies the frame aside
  and returns to the program instead, and the trap or the `syscall` that ends the
  program makes a frame of its own, after which the handler returns from the first
  one.  Each sequence of instructions is a list in the order of the source, and a
  frame is what C reads at `rsp`.

  A fault inside a sequence is a trap from ring 0, which the last branch of
  `trap_handler` answers with a reboot; it is `none` here.

  Nothing on the way to `trap_handler` clears the direction flag, and the compiler
  copies a frame with `rep movsq`.
-/
import JudgePenguin.ElfRun
import JudgePenguin.X86

namespace JudgePenguin

open X86

namespace Trap

/-! ## Frames -/

structure PushRegs where
  rcx : UInt64
  rbx : UInt64
  rbp : UInt64
  rsi : UInt64
  rdi : UInt64
  r8 : UInt64
  r9 : UInt64
  r10 : UInt64
  r11 : UInt64
  r12 : UInt64
  r13 : UInt64
  r14 : UInt64
  r15 : UInt64
  tsc : UInt64
  rax : UInt64
  rdx : UInt64

structure Trapframe where
  fxstate : FxState
  fsbase : UInt64
  regs : PushRegs
  num : UInt64
  errorcode : UInt64
  rip : UInt64
  cs : UInt64
  rflags : UInt64
  rsp : UInt64
  ss : UInt64

/-- The members after `fxstate`, as the structure lays them out. -/
def Trapframe.members (tf : Trapframe) : List UInt64 :=
  [tf.fsbase, tf.regs.rcx, tf.regs.rbx, tf.regs.rbp, tf.regs.rsi, tf.regs.rdi, tf.regs.r8,
    tf.regs.r9, tf.regs.r10, tf.regs.r11, tf.regs.r12, tf.regs.r13, tf.regs.r14, tf.regs.r15,
    tf.regs.tsc, tf.regs.rax, tf.regs.rdx, tf.num, tf.errorcode, tf.rip, tf.cs, tf.rflags,
    tf.rsp, tf.ss]

def Trapframe.words (tf : Trapframe) : List UInt64 := List.ofFn tf.fxstate ++ tf.members

/-- The members at the words after the first 64. -/
def Trapframe.ofMembers (fxstate : FxState) (ws : List UInt64) : Trapframe :=
  { fxstate := fxstate
    fsbase := ws.getD 0 0
    regs :=
      { rcx := ws.getD 1 0, rbx := ws.getD 2 0, rbp := ws.getD 3 0, rsi := ws.getD 4 0
        rdi := ws.getD 5 0, r8 := ws.getD 6 0, r9 := ws.getD 7 0, r10 := ws.getD 8 0
        r11 := ws.getD 9 0, r12 := ws.getD 10 0, r13 := ws.getD 11 0, r14 := ws.getD 12 0
        r15 := ws.getD 13 0, tsc := ws.getD 14 0, rax := ws.getD 15 0, rdx := ws.getD 16 0 }
    num := ws.getD 17 0
    errorcode := ws.getD 18 0
    rip := ws.getD 19 0
    cs := ws.getD 20 0
    rflags := ws.getD 21 0
    rsp := ws.getD 22 0
    ss := ws.getD 23 0 }

/-- The frame that a pointer to these words points to. -/
def Trapframe.ofWords (ws : List UInt64) : Trapframe :=
  Trapframe.ofMembers (fun i => ws.getD i 0) (ws.drop 64)

/-- The stack that starts at a frame.  What lies below a static frame is never read. -/
def Trapframe.stack (tf : Trapframe) : Stack := ⟨tf.words, fun _ => 0⟩

def Trapframe.setTsc (tf : Trapframe) (tsc : UInt64) : Trapframe :=
  { tf with regs := { tf.regs with tsc := tsc } }

def Trapframe.setRax (tf : Trapframe) (rax : UInt64) : Trapframe :=
  { tf with regs := { tf.regs with rax := rax } }

theorem Trapframe.ofWords_ofFn (fx : FxState) (ws : List UInt64) :
    Trapframe.ofWords (List.ofFn fx ++ ws) = Trapframe.ofMembers fx ws := by
  have hdrop : (List.ofFn fx ++ ws).drop 64 = ws := List.drop_left' List.length_ofFn
  have hfx : (fun i : Fin 64 => (List.ofFn fx ++ ws).getD i 0) = fx := by
    funext i
    have hi : (i : Nat) < (List.ofFn fx).length := by
      rw [List.length_ofFn]
      exact i.isLt
    rw [List.getD_append _ _ _ _ hi, List.getD_eq_getElem _ _ hi, List.getElem_ofFn]
  rw [Trapframe.ofWords, hdrop, hfx]

/-! ## The sequences of `trap_entry.S` -/

/-- `trap_return` up to its `iretq`, without the `movq %rdi, %rsp`. -/
def trapReturn : List Instr :=
  [.fxrstor, .addRsp 512,
    .popq .rax, .wrfsbase .rax,
    .popq .rcx, .popq .rbx, .popq .rbp, .popq .rsi, .popq .rdi, .popq .r8, .popq .r9,
    .popq .r10, .popq .r11, .popq .r12, .popq .r13, .popq .r14, .popq .r15,
    -- skip tsc
    .popq .rax,
    .popq .rax, .popq .rdx,
    .addRsp 16]

/-- `__trap_entry`. -/
def trapEntry : List Instr :=
  [.pushq .rdx, .pushq .rax,
    .rdtsc, .shl 32 .rdx, .orq .rdx .rax, .pushq .rax, .mfence,
    .pushq .r15, .pushq .r14, .pushq .r13, .pushq .r12, .pushq .r11, .pushq .r10, .pushq .r9,
    .pushq .r8, .pushq .rdi, .pushq .rsi, .pushq .rbp, .pushq .rbx, .pushq .rcx,
    .rdfsbase .rax, .pushq .rax,
    .subRsp 512, .fxsave]

/-- `__syscall_entry`, where `stack` is that of `__syscall_stack`. -/
def syscallEntry (stack : Stack) : List Instr :=
  [.movq .rax .r15,
    .rdtsc, .shl 32 .rdx, .orq .rdx .rax, .mfence,
    .movStack stack,
    .xorq .r11 .r11,
    .pushq .r11, .pushq .r11, .pushq .r11,
    .pushImm 3,
    .pushq .r11, .pushq .r11,
    .pushImm 255,
    .pushq .r11,
    .pushq .r15,
    .pushq .rax,
    .store .rdi (-72),
    .subRsp 112,
    .subRsp 512]

/-- `__init_fx_state`, which nothing writes. -/
def initFxState : FxState := fun _ => 0

/-- `syscall_return_record_tsc` up to its `sysretq`, without the `movq %rdi, %rsp`. -/
def syscallReturnRecordTsc : List Instr :=
  [.fxrstorFrom initFxState, .addRsp 512,
    .movImm 0 .rax,
    .movToSeg .rax .ss, .movToSeg .rax .ds, .movToSeg .rax .es, .movToSeg .rax .fs,
    .movToSeg .rax .gs,
    .popq .rax, .wrfsbase .rax,
    .xorq .rax .rax, .wrgsbase .rax,
    .popq .rcx, .popq .rbx, .popq .rbp, .popq .rsi, .popq .rdi, .popq .r8, .popq .r9,
    .popq .r10, .popq .r11, .popq .r12, .popq .r13, .popq .r14, .popq .r15,
    .wbinvd, .movFromCr3 .rax, .movToCr3 .rax, .mfence,
    .rdtsc, .shl 32 .rdx, .orq .rdx .rax, .store .rax 0, .popq .rax,
    .xorq .rax .rax, .xorq .rdx .rdx, .movImm 16 .rcx, .wrmsr,
    .popq .rax, .popq .rdx,
    .load 16 .rcx, .load 32 .r11, .loadRsp 40]

/-- The vectors of `TRAP_EC`; the other stubs are `TRAP_NOEC`. -/
def TRAP_EC (n : UInt8) : Bool := n ∈ [8, 10, 11, 12, 13, 14, 15]

/-- `__trap_n`.  That of the timer does the same once its count has run out and goes
    back to the program before. -/
def stub (n : UInt8) : List Instr :=
  if TRAP_EC n then [.pushImm n.toUInt64] else [.pushImm 0, .pushImm n.toUInt64]

/-- The exceptions for which the processor pushes an error code. -/
def pushesErrorCode (n : UInt8) : Bool := n ∈ [8, 10, 11, 12, 13, 14, 17, 21, 29, 30]

/-! ## `trap.cpp` -/

def GDT_KERNEL_CS : UInt16 := 8
def GDT_USER32_CS : UInt16 := 24
def GDT_USER_SS : UInt16 := 32
def GDT_USER_CS : UInt16 := 40
def TRAP_IRQ_TIMER : Int32 := 32
def TRAP_RUN_USER : UInt8 := 233

/-- What `init` writes to `MSR_SFMASK` and to bits 48 to 63 of `MSR_STAR`. -/
def SFMASK : UInt64 := 0x200
def STAR_USER : UInt16 := GDT_USER32_CS

/-- The statics of `trap.cpp` that the handlers use. -/
structure Kernel where
  tfRunUser : Trapframe
  tfFromUser : Trapframe
  tfToUser : Trapframe
  epc : UInt64
  cr2 : UInt64
  tscAdjust : UInt64

/-- `*dst = *tf` with these flags, as it is in `dst`: with the direction flag set the
    copy goes down from the first word, and no other word of `dst` is written. -/
def Trapframe.copyTo (rflags : UInt64) (tf dst : Trapframe) : Trapframe :=
  if rflags &&& Flags.DF = 0 then tf
  else { dst with fxstate := Function.update dst.fxstate 0 (tf.fxstate 0) }

/-- The same copy as it is in the other statics, where `beneath` is what the words
    below `dst` come to hold; the linker decides which statics they are. -/
def Kernel.copyPast (rflags : UInt64) (beneath : Kernel → Kernel) (k : Kernel) : Kernel :=
  if rflags &&& Flags.DF = 0 then k else { beneath k with tscAdjust := k.tscAdjust }

/-- How `trap_handler` leaves. -/
inductive Exit where
  | trapReturn (tf : Trapframe)
  | syscallReturnRecordTsc (tf : Trapframe)
  | reboot

/-- `(uint64_t)num` for an `int`. -/
def extend (num : Int32) : UInt64 := num.toInt64.toUInt64

/-- `trap_handler` called with these flags.  The logging and the reload of `cr3` change
    nothing here. -/
def trapHandler (rflags : UInt64) (beneath : Kernel → Kernel) (tf : Trapframe) (cr2 : UInt64)
    (k : Kernel) : Kernel × Exit :=
  let tf := tf.setTsc (tf.regs.tsc - k.tscAdjust)
  let k := { k with tscAdjust := 0 }
  let num : Int32 := tf.num.toUInt32.toInt32
  if tf.cs &&& 3 ≠ 0 then
    let k := { k.copyPast rflags beneath with tfFromUser := tf.copyTo rflags k.tfFromUser }
    let run := (k.tfRunUser.setRax (extend num)).setTsc
      (k.tfFromUser.regs.tsc - k.tfToUser.regs.tsc)
    ({ k with tfRunUser := run, epc := k.tfFromUser.rip, cr2 := cr2 }, .trapReturn run)
  else if num = TRAP_IRQ_TIMER then
    (k, .trapReturn { tf with rflags := tf.rflags &&& ~~~0x200 })
  else if num = TRAP_RUN_USER.toUInt32.toInt32 then
    let k := { k.copyPast rflags beneath with tfRunUser := tf.copyTo rflags k.tfRunUser }
    (k, .syscallReturnRecordTsc k.tfToUser)
  else (k, .reboot)

/-- `make_trapframe`, where `rflags` is what `read_rflags` reads. -/
def makeTrapframe (rflags rip rsp : UInt64) : Trapframe :=
  { fxstate := fun _ => 0
    fsbase := 0
    regs := ⟨0, 0, 0, 0, 0, 0, 0, 0, 0, 0, 0, 0, 0, 0, 0, 0⟩
    num := 0
    errorcode := 0
    rip := rip
    cs := (GDT_USER_CS ||| 3).toUInt64
    rflags := rflags &&& ~~~0x8d5 ||| 0x200
    rsp := rsp
    ss := (GDT_USER_SS ||| 3).toUInt64 }

/-! ## One invocation of the handler -/

/-- What an invocation finds around it: the stale words of its stack, the time, `cr2`,
    what a copy that goes down leaves of the statics, and what the C code leaves in the
    registers before it goes on to a return sequence. -/
structure Around where
  below : Nat → UInt64
  cr3 : UInt64
  tsc : UInt64
  cr2 : UInt64
  beneath : Kernel → Kernel
  scratchRegs : Regs
  scratchFx : FxState

def Around.gate (a : Around) (k : Kernel) : Gate := ⟨a.below, a.cr3, a.tsc, k.tscAdjust⟩

/-- The call of `trap_handler` on the frame at `rsp`, and the state in which its
    return sequence starts. -/
def handle (a : Around) (k : Kernel) (m : Machine) : Kernel × Machine × Exit :=
  let r := trapHandler m.rflags a.beneath (Trapframe.ofWords m.stack.above) a.cr2 k
  (r.1, { m with regs := a.scratchRegs, fx := a.scratchFx, tscAdjust := r.1.tscAdjust }, r.2)

/-- A trap: the processor's delivery, the stub and `__trap_entry`. -/
def enterByTrap (n : UInt8) (errorCode : UInt64) (c : Context) (a : Around) (k : Kernel) :
    Option (Kernel × Machine × Exit) :=
  (exec (stub n ++ trapEntry)
    (c.interrupt (if pushesErrorCode n then some errorCode else none) (a.gate k))).map (handle a k)

def enterBySyscall (c : Context) (a : Around) (k : Kernel) : Option (Kernel × Machine × Exit) :=
  (c.syscall SFMASK (a.gate k)).bind fun m =>
    (exec (syscallEntry ⟨[], a.below⟩) m).map (handle a k)

/-- `trap_return`. -/
def leaveByTrapReturn : Kernel × Machine × Exit → Option (Kernel × Context)
  | (k, m, .trapReturn tf) =>
    (exec (.movStack tf.stack :: trapReturn) m).bind fun m => m.iretq.map fun c => (k, c)
  | _ => none

/-- `syscall_return_record_tsc`.  The branch that calls it has cleared the data
    segments, and the frame it reads gets the time stamp. -/
def leaveBySyscallReturn : Kernel × Machine × Exit → Option (Kernel × Context)
  | (k, m, .syscallReturnRecordTsc tf) =>
    (exec (.movStack tf.stack :: syscallReturnRecordTsc)
      { m with segs := fun s => if s = .ss then m.segs s else 0 }).map fun m =>
        ({ k with
            tfToUser := Trapframe.ofWords (Stack.grow 81 m.stack).above, tscAdjust := m.tscAdjust },
          m.sysretq STAR_USER)
  | _ => none

/-! ## `run_user_64` -/

/-- The kernel runs in ring 0. -/
structure KernelContext extends Context where
  ring0 : cs &&& 3 = 0

/-- The program runs in ring 3. -/
structure UserContext extends Context where
  ring3 : cs &&& 3 = 3

/-- What ends the run of a program: a trap through `__trap_entry`, the vector of the
    system calls apart, or a `syscall` instruction. -/
inductive UserEnd where
  | trap (n : UInt8) (other : n ≠ TRAP_SYSCALL) (errorCode : UInt64) (c : UserContext)
  | syscall (c : UserContext)

/-- What `run_user_64` comes back with. -/
structure Return where
  context : Context
  kernel : Kernel
  tsc : UInt64
  exported : Exported

/-- `int 233` in the kernel: the program that starts. -/
def startUser (entry rsp : UInt64) (c : KernelContext) (a : Around) (k : Kernel) :
    Option (Kernel × Context) :=
  (enterByTrap TRAP_RUN_USER 0 c.toContext a
    { k with tfToUser := makeTrapframe c.rflags entry rsp }).bind leaveBySyscallReturn

/-- The end of the program: back in the kernel. -/
def endUser (a : Around) (k : Kernel) : UserEnd → Option (Kernel × Context)
  | .trap n _ errorCode c => (enterByTrap n errorCode c.toContext a k).bind leaveByTrapReturn
  | .syscall c => (enterBySyscall c.toContext a k).bind leaveByTrapReturn

/-- `run_user_64` for a kernel that runs in `c` at the `int`.  Between the two
    invocations nothing but the program runs, and it has no access to the statics. -/
def runUser64 (entry rsp : UInt64) (c : KernelContext) (k : Kernel) (a b : Around) (e : UserEnd)
    (returnCode : Int32) : Option Return :=
  (startUser entry rsp c a k).bind fun started =>
    (endUser b started.1 e).map fun ended =>
      { context := ended.2
        kernel := ended.1
        tsc := ended.1.tfRunUser.regs.tsc
        exported := exportReturnCode (ended.2.regs .rax).toUInt8 ended.1.tfFromUser.regs.rax
          ended.1.tfFromUser.regs.rdi returnCode }

end Trap

end JudgePenguin
