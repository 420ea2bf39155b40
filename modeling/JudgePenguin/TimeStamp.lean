/-
  JudgePenguin/TimeStamp.lean
  ===========================
  **The time that `run_user_64` reports** (`kern/trap_entry.S`, `kern/trap.cpp`).

  The sequences are those of a run without time; here every instruction has a time
  of its own, and the counter's adjustment goes through the statics of the kernel.
  An ending is the ending of the model without time at the moment of its `rdtsc`
  (`endUserAt_eq`), so that only the return to the program has to be gone through
  again, where the counter is read and then set.
-/
import JudgePenguin.TrapTransparency
import JudgePenguin.X86Clock

namespace JudgePenguin

open X86

namespace Trap

/-- The free-running counter at each instruction of a sequence. -/
abbrev Times := Nat → UInt64

/-! ## The timer -/

def TRAP_TIMER : UInt8 := 32

/-- `__trap_32` up to its jump, where `cnt` is `__lapic_timer_cnt`. -/
def trap32 (cnt : UInt64) : List Instr := [.pushq .rax, .movImm cnt .rax, .decq .rax]

/-- What follows while the count goes on, up to the `iretq`; `lapic` is the address of
    the local APIC. -/
def trap32Return (lapic : UInt64) : List Instr := [.movImm lapic .rax, .popq .rax]

/-- `__trap_n` up to `__trap_entry`, and that of the timer with its count run out. -/
def trapStub (n : UInt8) : List Instr :=
  if n = TRAP_TIMER then trap32 1 ++ .popq .rax :: stub n else stub n

/-- A timer interrupt of a program that does not end it. -/
structure Tick where
  times : Times
  cnt : UInt64
  counting : cnt - 1 ≠ 0
  lapic : UInt64
  context : UserContext
  around : Around

def timerTick (t : Tick) (k : Kernel) : Option (Kernel × Context) :=
  (execTimed t.times (trap32 t.cnt ++ trap32Return t.lapic)
    (t.context.interrupt none (t.around.gate k))).bind fun m =>
      m.iretq.map fun c => ({ k with tscAdjust := m.tscAdjust }, c)

/-! ## The handler at given times -/

def enterByTrapAt (P : Times) (n : UInt8) (errorCode : UInt64) (c : Context) (a : Around)
    (k : Kernel) : Option (Kernel × Machine × Exit) :=
  (execTimed P (trapStub n ++ trapEntry)
    (c.interrupt (if pushesErrorCode n then some errorCode else none) (a.gate k))).map (handle a k)

def enterBySyscallAt (P : Times) (c : Context) (a : Around) (k : Kernel) :
    Option (Kernel × Machine × Exit) :=
  (c.syscall SFMASK (a.gate k)).bind fun m =>
    (execTimed P (syscallEntry ⟨[], a.below⟩) m).map (handle a k)

def leaveBySyscallReturnAt (P : Times) : Kernel × Machine × Exit → Option (Kernel × Context)
  | (k, m, .syscallReturnRecordTsc tf) =>
    (execTimed P (.movStack tf.stack :: syscallReturnRecordTsc)
      { m with segs := fun s => if s = .ss then m.segs s else 0 }).map fun m =>
        ({ k with
            tfToUser := Trapframe.ofWords (Stack.grow 81 m.stack).above, tscAdjust := m.tscAdjust },
          m.sysretq STAR_USER)
  | _ => none

/-- A call of `run_user_64`, with the times of its three sequences that use the clock
    and the timer interrupts in between. -/
structure UserCall where
  entry : UInt64
  rsp : UInt64
  context : KernelContext
  start : Around
  finish : Around
  enterTimes : Times
  returnTimes : Times
  ticks : List Tick
  endTimes : Times
  ending : UserEnd
  returnCode : Int32

def startUserAt (u : UserCall) (k : Kernel) : Option (Kernel × Context) :=
  (enterByTrapAt u.enterTimes TRAP_RUN_USER 0 u.context.toContext u.start
    { k with tfToUser := makeTrapframe u.context.rflags u.entry u.rsp }).bind
      (leaveBySyscallReturnAt u.returnTimes)

def endUserAt (P : Times) (b : Around) (k : Kernel) : UserEnd → Option (Kernel × Context)
  | .trap n _ errorCode c => (enterByTrapAt P n errorCode c.toContext b k).bind leaveByTrapReturn
  | .syscall c => (enterBySyscallAt P c.toContext b k).bind leaveByTrapReturn

/-- The timer interrupts of a run; the program goes on after each. -/
def runTicks (ticks : List Tick) (k : Kernel) : Option Kernel :=
  ticks.foldlM (fun k t => (timerTick t k).map Prod.fst) k

/-- `run_user_64`. -/
def runUser64At (u : UserCall) (k : Kernel) : Option Return :=
  (startUserAt u k).bind fun started =>
    (runTicks u.ticks started.1).bind fun k =>
      (endUserAt u.endTimes u.finish k u.ending).map fun ended =>
        { context := ended.2
          kernel := ended.1
          tsc := ended.1.tfRunUser.regs.tsc
          exported := exportReturnCode (ended.2.regs .rax).toUInt8 ended.1.tfFromUser.regs.rax
            ended.1.tfFromUser.regs.rdi u.returnCode }

/-- One call after another, and what each reports. -/
def runCalls : List UserCall → Kernel → Option (Kernel × List UInt64)
  | [], k => some (k, [])
  | u :: us, k =>
    (runUser64At u k).bind fun r =>
      (runCalls us r.kernel).map fun s => (s.1, r.tsc :: s.2)

/-- The instructions of an ending up to its `rdtsc`. -/
def UserEnd.entryIndex : UserEnd → Nat
  | .trap n _ _ _ => stampIndex (trapStub n ++ trapEntry)
  | .syscall _ => stampIndex (syscallEntry ⟨[], fun _ => 0⟩)

/-- The counter at the `rdtsc` of the ending entry less the counter at that of
    `syscall_return_record_tsc`; the frame is loaded by an instruction of its own. -/
def UserCall.elapsed (u : UserCall) : UInt64 :=
  u.endTimes u.ending.entryIndex - u.returnTimes (1 + stampIndex syscallReturnRecordTsc)

/-! ## The timer comes back -/

theorem quiet_trap32 (cnt lapic : UInt64) :
    ∀ i ∈ trap32 cnt ++ trap32Return lapic, i.isQuiet = true := by
  simp [trap32, trap32Return, Instr.isQuiet]

/-- `rax` is put back. -/
theorem exec_trap32 (cnt lapic : UInt64) (m : Machine) :
    ∃ below, exec (trap32 cnt ++ trap32Return lapic) m =
      some { m with stack := ⟨m.stack.above, below⟩ } := by
  let regs := Function.update (Function.update (Function.update m.regs .rax cnt) .rax (cnt - 1)) .rax
    lapic
  obtain ⟨below, hexec⟩ : ∃ below, exec (trap32 cnt ++ trap32Return lapic) m =
      some { m with
        regs := Function.update regs .rax (m.regs .rax)
        stack := ⟨m.stack.above, below⟩ } := ⟨_, rfl⟩
  have hregs : Function.update regs .rax (m.regs .rax) = m.regs := by
    simp only [regs, Function.update_idem, Function.update_eq_self]
  rw [hregs] at hexec
  exact ⟨below, hexec⟩

/-- A timer interrupt that does not end the program changes nothing. -/
theorem timerTick_eq (t : Tick) (k : Kernel) : timerTick t k = some (k, t.context.toContext) := by
  let c := t.context.toContext
  let m := c.interrupt none (t.around.gate k)
  obtain ⟨x, htimed⟩ := execTimed_quiet (quiet_trap32 t.cnt t.lapic) t.times m
  obtain ⟨below, hexec⟩ := exec_trap32 t.cnt t.lapic m
  obtain ⟨n, hn⟩ : ∃ n,
      ({ m with stack := ⟨m.stack.above, below⟩ } : Machine).setClock x m.tscAdjust = n := ⟨_, rfl⟩
  have hnt : n.rflags &&& Flags.NT = 0 := by
    rw [← hn]
    exact c.interrupt_nt none (t.around.gate k)
  have habove : n.stack.above =
      c.rip :: c.cs.toUInt64 :: c.rflags :: c.rsp :: (c.segs .ss).toUInt64 :: [] := by
    rw [← hn]
    rfl
  have hring3 : ¬ c.cs &&& 3 = 0 := by
    rw [t.context.ring3]
    decide
  have hsegs : Function.update n.segs .ss (c.segs .ss) = c.segs := by
    have hcleared : n.segs = Function.update c.segs .ss 0 := by
      rw [← hn]
      exact if_neg hring3
    rw [hcleared, Function.update_idem, Function.update_eq_self]
  have hadjust : n.tscAdjust = k.tscAdjust := by
    rw [← hn]
    rfl
  have hregs : n.regs = c.regs ∧ n.fsbase = c.fsbase ∧ n.gsbase = c.gsbase ∧ n.fx = c.fx := by
    rw [← hn]
    exact ⟨rfl, rfl, rfl, rfl⟩
  rw [timerTick, htimed, hexec, Option.map_some, Option.bind_some, hn,
    Machine.iretq_above hnt habove, hsegs, hadjust, hregs.1, hregs.2.1, hregs.2.2.1, hregs.2.2.2]
  rfl

theorem runTicks_eq (ticks : List Tick) (k : Kernel) : runTicks ticks k = some k := by
  induction ticks with
  | nil => rfl
  | cons t ts ih =>
    rw [runTicks, List.foldlM_cons, timerTick_eq]
    exact ih

/-! ## An ending at its time -/

/-- A reading that no later instruction uses. -/
def atReading (x : UInt64) (r : Kernel × Machine × Exit) : Kernel × Machine × Exit :=
  (r.1, r.2.1.setClock x r.2.1.tscAdjust, r.2.2)

theorem leaveByTrapReturn_atReading (x : UInt64) (r : Kernel × Machine × Exit) :
    leaveByTrapReturn (atReading x r) = leaveByTrapReturn r := by
  obtain ⟨k, m, exit⟩ := r
  cases exit with
  | trapReturn tf =>
    have hquiet : ∀ i ∈ Instr.movStack tf.stack :: trapReturn, i.isQuiet = true := by
      simp [trapReturn, Instr.isQuiet]
    rw [atReading, leaveByTrapReturn, leaveByTrapReturn, exec_quiet hquiet, Option.bind_map]
    rfl
  | syscallReturnRecordTsc tf => rfl
  | reboot => rfl

/-- What the timer does before it goes on like the others. -/
theorem exec_trapStub (n : UInt8) (m : Machine) :
    ∃ below, exec (trapStub n) m = exec (stub n) { m with stack := ⟨m.stack.above, below⟩ } := by
  by_cases h : n = TRAP_TIMER
  · let regs := Function.update (Function.update m.regs .rax 1) .rax (1 - 1)
    have hregs : Function.update regs .rax (m.regs .rax) = m.regs := by
      simp only [regs, Function.update_idem, Function.update_eq_self]
    obtain ⟨below, hexec⟩ : ∃ below, exec (trap32 1 ++ .popq .rax :: stub n) m =
        exec (stub n) { m with
          regs := Function.update regs .rax (m.regs .rax)
          stack := ⟨m.stack.above, below⟩ } := ⟨_, rfl⟩
    rw [hregs] at hexec
    exact ⟨below, by rw [trapStub, if_pos h, hexec]⟩
  · exact ⟨m.stack.below, by rw [trapStub, if_neg h]⟩

theorem quiet_stub (n : UInt8) : ∀ i ∈ stub n, i.isQuiet = true := by
  cases h : TRAP_EC n <;> simp [stub, h, Instr.isQuiet]

theorem quiet_trapStub (n : UInt8) : ∀ i ∈ trapStub n, i.isQuiet = true := by
  intro i hi
  rw [trapStub] at hi
  split_ifs at hi
  · rw [List.mem_append, List.mem_cons] at hi
    rcases hi with hi | rfl | hi
    · exact quiet_trap32 1 0 i (List.mem_append_left _ hi)
    · rfl
    · exact quiet_stub n i hi
  · exact quiet_stub n i hi

section Ending

variable (P : Times) (n : UInt8) (errorCode : UInt64) (c : Context) (a : Around) (k : Kernel)

/-- A trap is a trap at the time of its `rdtsc`. -/
theorem enterByTrapAt_eq :
    ∃ below x, enterByTrapAt P n errorCode c a k =
      (enterByTrap n errorCode c
        { a with below := below, tsc := P (stampIndex (trapStub n ++ trapEntry)) + k.tscAdjust }
        k).map (atReading x) := by
  have hsplit : trapStub n ++ trapEntry =
      (trapStub n ++ [.pushq .rdx, .pushq .rax]) ++ .rdtsc :: trapEntry.drop 3 := by
    rw [List.append_assoc]
    rfl
  have hbefore : ∀ i ∈ trapStub n ++ [.pushq .rdx, .pushq .rax], i.isQuiet = true := by
    intro i hi
    rw [List.mem_append] at hi
    rcases hi with hi | hi
    · exact quiet_trapStub n i hi
    · simp only [List.mem_cons, List.not_mem_nil, or_false] at hi
      rcases hi with rfl | rfl
      · rfl
      · rfl
  have hafter : ∀ i ∈ trapEntry.drop 3, i.isQuiet = true := by
    simp [trapEntry, Instr.isQuiet]
  let ec := if pushesErrorCode n then some errorCode else none
  obtain ⟨x, htimed⟩ := execTimed_stamp hbefore hafter P (c.interrupt ec (a.gate k))
  have hindex : stampIndex
        ((trapStub n ++ [Instr.pushq .rdx, .pushq .rax]) ++ .rdtsc :: trapEntry.drop 3) =
      (trapStub n ++ [Instr.pushq .rdx, .pushq .rax]).length := stampIndex_append hbefore
  rw [← hindex, ← hsplit] at htimed
  generalize P (stampIndex (trapStub n ++ trapEntry)) = p at htimed ⊢
  obtain ⟨below, hstub⟩ := exec_trapStub n ((c.interrupt ec (a.gate k)).atTime p)
  refine ⟨below, x, ?_⟩
  rw [enterByTrapAt, htimed, exec_append, hstub, ← exec_append, Option.map_map, enterByTrap,
    Option.map_map]
  rfl

theorem enterBySyscallAt_eq :
    ∃ x, enterBySyscallAt P c a k =
      (enterBySyscall c { a with tsc := P 1 + k.tscAdjust } k).map (atReading x) := by
  have hafter : ∀ i ∈ (syscallEntry ⟨[], a.below⟩).drop 2, i.isQuiet = true := by
    simp [syscallEntry, Instr.isQuiet]
  have hbefore : ∀ i ∈ [Instr.movq .rax .r15], i.isQuiet = true := by
    simp [Instr.isQuiet]
  by_cases hflags : c.rflags &&& ~~~SFMASK &&& Flags.TF = 0
  · obtain ⟨m, hm⟩ : ∃ m, c.syscall SFMASK (a.gate k) = some m ∧
        c.syscall SFMASK (({ a with tsc := P 1 + k.tscAdjust } : Around).gate k) =
          some (m.atTime (P 1)) := by
      rw [Context.syscall, Context.syscall, if_pos hflags, if_pos hflags]
      exact ⟨_, rfl, rfl⟩
    obtain ⟨x, htimed⟩ := execTimed_stamp hbefore hafter P m
    have hsplit : syscallEntry ⟨[], a.below⟩ =
        [.movq .rax .r15] ++ .rdtsc :: (syscallEntry ⟨[], a.below⟩).drop 2 := rfl
    rw [← hsplit] at htimed
    refine ⟨x, ?_⟩
    rw [enterBySyscallAt, hm.1, Option.bind_some, htimed, enterBySyscall, hm.2, Option.bind_some,
      Option.map_map, Option.map_map]
    rfl
  · refine ⟨0, ?_⟩
    rw [enterBySyscallAt, enterBySyscall, Context.syscall, Context.syscall, if_neg hflags,
      if_neg hflags]
    rfl

end Ending

/-- The end of a program is the end at the time of the `rdtsc` of its entry. -/
theorem endUserAt_eq (P : Times) (b : Around) (k : Kernel) (e : UserEnd) :
    ∃ below, endUserAt P b k e =
      endUser { b with below := below, tsc := P e.entryIndex + k.tscAdjust } k e := by
  cases e with
  | trap n hn errorCode c =>
    obtain ⟨below, x, henter⟩ := enterByTrapAt_eq P n errorCode c.toContext b k
    refine ⟨below, ?_⟩
    rw [endUserAt, henter, Option.bind_map, endUser]
    exact congrArg _ (funext fun r => leaveByTrapReturn_atReading x r)
  | syscall c =>
    obtain ⟨x, henter⟩ := enterBySyscallAt_eq P c.toContext b k
    refine ⟨b.below, ?_⟩
    rw [endUserAt, henter, Option.bind_map, endUser]
    exact congrArg _ (funext fun r => leaveByTrapReturn_atReading x r)

/-! ## The start -/

/-- The handler's adjustment is in the register when it leaves. -/
theorem enterByTrap_tscAdjust {n : UInt8} {errorCode : UInt64} {c : Context} {a : Around}
    {k : Kernel} {r : Kernel × Machine × Exit} (h : enterByTrap n errorCode c a k = some r) :
    r.2.1.tscAdjust = r.1.tscAdjust := by
  obtain ⟨m, -, rfl⟩ := Option.map_eq_some_iff.mp h
  rfl

/-- The return to the program puts the time of its `rdtsc` into the frame. -/
theorem leaveBySyscallReturnAt_eq (P : Times) (k : Kernel) {m : Machine} (tf : Trapframe)
    (hadjust : m.tscAdjust = 0) :
    ∃ (k' : Kernel) (d : Context),
      leaveBySyscallReturnAt P (k, m, .syscallReturnRecordTsc tf) = some (k', d) ∧
      k'.tfRunUser = k.tfRunUser ∧
      k'.tfToUser.regs.tsc = P (1 + stampIndex syscallReturnRecordTsc) := by
  have hsplit : Instr.movStack tf.stack :: syscallReturnRecordTsc =
      ((.movStack tf.stack :: syscallReturnRecordTsc.take 29) ++
        .rdtsc :: (syscallReturnRecordTsc.drop 30).take 7) ++
        .wrmsr :: syscallReturnRecordTsc.drop 38 := rfl
  have hb : ∀ i ∈ Instr.movStack tf.stack :: syscallReturnRecordTsc.take 29, i.isQuiet = true := by
    simp [syscallReturnRecordTsc, Instr.isQuiet]
  have hm : ∀ i ∈ (syscallReturnRecordTsc.drop 30).take 7, i.isQuiet = true := by
    simp [syscallReturnRecordTsc, Instr.isQuiet]
  have ha : ∀ i ∈ syscallReturnRecordTsc.drop 38, i.isQuiet = true := by
    simp [syscallReturnRecordTsc, Instr.isQuiet]
  let m₀ : Machine := { m with segs := fun s => if s = .ss then m.segs s else 0 }
  obtain ⟨x, htimed⟩ := execTimed_reset hb hm ha P m₀
  have hindex : (Instr.movStack tf.stack :: syscallReturnRecordTsc.take 29).length =
      1 + stampIndex syscallReturnRecordTsc := rfl
  rw [← hsplit, hindex] at htimed
  generalize P (1 + stampIndex syscallReturnRecordTsc) = p at htimed ⊢
  obtain ⟨n, hexec, -, -, -, -, -, -, -, hstamp⟩ := exec_syscallReturn tf (m₀.atTime p)
  have hreading : (m₀.atTime p).tsc = p := by
    have hsum : p + m.tscAdjust = p := by rw [hadjust, UInt64.add_zero]
    exact hsum
  rw [hreading, stamp_eq] at hstamp
  rw [hexec, Option.map_some] at htimed
  let left := n.setClock x
    (n.tsc - P (.movStack tf.stack :: syscallReturnRecordTsc.take 29 ++
      .rdtsc :: (syscallReturnRecordTsc.drop 30).take 7).length)
  refine ⟨{ k with
    tfToUser := Trapframe.ofWords (Stack.grow 81 n.stack).above, tscAdjust := left.tscAdjust },
    left.sysretq STAR_USER, ?_, rfl, hstamp⟩
  rw [leaveBySyscallReturnAt, htimed, Option.map_some]
  rfl

/-- The time of the return to the program is recorded. -/
theorem startUserAt_eq (u : UserCall) (k : Kernel) :
    ∃ k' d, startUserAt u k = some (k', d) ∧
      k'.tfToUser.regs.tsc = u.returnTimes (1 + stampIndex syscallReturnRecordTsc) := by
  let k₀ : Kernel := { k with tfToUser := makeTrapframe u.context.rflags u.entry u.rsp }
  have hagree : TRAP_EC TRAP_RUN_USER = pushesErrorCode TRAP_RUN_USER := by decide
  obtain ⟨below, x, htimed⟩ :=
    enterByTrapAt_eq u.enterTimes TRAP_RUN_USER 0 u.context.toContext u.start k₀
  generalize u.enterTimes (stampIndex (trapStub TRAP_RUN_USER ++ trapEntry)) + k₀.tscAdjust = t at htimed
  let a : Around := { u.start with below := below, tsc := t }
  obtain ⟨m, -, henter⟩ := enterByTrap_eq 0 u.context.toContext a k₀ hagree
  rw [trapHandler_runUser u.context u.context.rflags a.beneath 0 a.tsc a.cr2 k₀] at henter
  have hadjust := enterByTrap_tscAdjust henter
  dsimp only at henter hadjust
  rw [Kernel.copyPast_tscAdjust] at hadjust
  obtain ⟨k', d, hleave, -, hto⟩ := leaveBySyscallReturnAt_eq u.returnTimes _
    (m := m.setClock x m.tscAdjust) _ hadjust
  refine ⟨k', d, ?_, hto⟩
  rw [startUserAt, htimed, henter, Option.map_some, Option.bind_some]
  exact hleave

/-! ## Every run -/

section Call

variable (u : UserCall) (k : Kernel)

/-- A call is over where its end comes back to the kernel. -/
theorem runUser64At_of_end {P : Kernel → Prop}
    (hend : ∀ k₁ : Kernel,
      k₁.tfToUser.regs.tsc = u.returnTimes (1 + stampIndex syscallReturnRecordTsc) →
      ∀ below, ∃ k₂ d, endUser
          { u.finish with below := below, tsc := u.endTimes u.ending.entryIndex + k₁.tscAdjust } k₁
          u.ending = some (k₂, d) ∧ P k₂) :
    ∃ r, runUser64At u k = some r ∧ r.tsc = r.kernel.tfRunUser.regs.tsc ∧ P r.kernel := by
  obtain ⟨k₁, d₁, hstart, hto⟩ := startUserAt_eq u k
  obtain ⟨below, hat⟩ := endUserAt_eq u.endTimes u.finish k₁ u.ending
  obtain ⟨k₂, d₂, hended, hp⟩ := hend k₁ hto below
  refine ⟨⟨d₂, k₂, k₂.tfRunUser.regs.tsc, exportReturnCode (d₂.regs .rax).toUInt8
    k₂.tfFromUser.regs.rax k₂.tfFromUser.regs.rdi u.returnCode⟩, ?_, rfl, hp⟩
  rw [runUser64At, hstart, Option.bind_some, runTicks_eq, Option.bind_some, hat, hended]
  rfl

/-- A run that comes back to the kernel leaves no adjustment. -/
theorem runUser64At_tscAdjust (h : u.ending.Caught) :
    ∃ r, runUser64At u k = some r ∧ r.kernel.tscAdjust = 0 := by
  obtain ⟨r, hr, -, hadjust⟩ :=
    runUser64At_of_end u k (P := fun k₂ => k₂.tscAdjust = 0) fun k₁ _ below => by
      obtain ⟨k₂, d, hend, hadjust, -⟩ := endUser_returns { u.finish with
        below := below, tsc := u.endTimes u.ending.entryIndex + k₁.tscAdjust } k₁ h
      exact ⟨k₂, d, hend, hadjust⟩
  exact ⟨r, hr, hadjust⟩

/-- A run whose end is handled reports the time that passed since it started, whatever the
    adjustment was before. -/
theorem runUser64At_tsc (h : u.ending.Handled) :
    ∃ r, runUser64At u k = some r ∧ r.tsc = u.elapsed := by
  obtain ⟨r, hr, htsc, helapsed⟩ :=
    runUser64At_of_end u k (P := fun k₂ => k₂.tfRunUser.regs.tsc = u.elapsed)
      fun k₁ hto below => by
        obtain ⟨k₂, d, hend, hstamped⟩ := endUser_stamped { u.finish with
          below := below, tsc := u.endTimes u.ending.entryIndex + k₁.tscAdjust } k₁ h
        rw [Stamped, stamp_eq, hto, UInt64.add_sub_cancel] at hstamped
        exact ⟨k₂, d, hend, hstamped⟩
  exact ⟨r, hr, htsc.trans helapsed⟩

end Call

/-- **The reported time is exact** where every end is handled.  Whatever the adjustment was
    at first, each call of a sequence reports the counter at the `rdtsc` of the entry that
    ended its program less the counter at the `rdtsc` of `syscall_return_record_tsc`. -/
theorem runCalls_tsc (us : List UserCall) (k : Kernel) (h : ∀ u ∈ us, u.ending.Handled) :
    ∃ k', runCalls us k = some (k', us.map UserCall.elapsed) := by
  induction us generalizing k with
  | nil => exact ⟨k, rfl⟩
  | cons u us ih =>
    obtain ⟨r, hr, htsc⟩ := runUser64At_tsc u k (h u (List.mem_cons_self ..))
    obtain ⟨k', hrest⟩ := ih r.kernel fun v hv => h v (List.mem_cons_of_mem u hv)
    refine ⟨k', ?_⟩
    rw [runCalls, hr, Option.bind_some, hrest, Option.map_some, List.map_cons, htsc]

/-- A program that starts at 1000, is interrupted by the timer and calls `exit` with the
    given flags.  `tf_to_user` lies below `tf_from_user`. -/
def exitCall (rflags : UInt64) : UserCall :=
  { entry := 0x400000, rsp := 0x800000, context := idleKernel, start := quiet
    finish := { quiet with beneath := fun k => { k with tfToUser := idleFrame } }
    enterTimes := fun j => 900 + j.toUInt64, returnTimes := fun j => 1000 + j.toUInt64
    ticks := [⟨fun j => 2000 + j.toUInt64, 5, by decide, 0xfee00000, programWith rflags, quiet⟩]
    endTimes := fun j => 3000 + j.toUInt64, ending := .syscall (programWith rflags)
    returnCode := 0 }

theorem runCalls_tsc_sample :
    ∃ k', runCalls [exitCall 0x202, exitCall 0x202] { idleStatics with tscAdjust := 77 } =
      some (k', [1971, 1971]) :=
  runCalls_tsc [exitCall 0x202, exitCall 0x202] { idleStatics with tscAdjust := 77 } (by
    intro u hu
    have hu : u = exitCall 0x202 := by
      rcases List.mem_cons.mp hu with rfl | hu
      · rfl
      · exact List.mem_singleton.mp hu
    rw [hu]
    exact ⟨⟨by decide, by decide⟩, by decide⟩)

/-- With the direction flag set the stamp of the end is not in `tf_from_user`, and that of
    the start is overwritten: the program that took 1971 is reported with 0. -/
theorem direction_flag_time :
    ¬ ∀ (us : List UserCall) (k : Kernel), (∀ u ∈ us, u.ending.Caught) →
      ∃ k', runCalls us k = some (k', us.map UserCall.elapsed) := by
  intro h
  obtain ⟨k', hall⟩ := h [exitCall 0x602] idleStatics (by
    intro u hu
    rw [List.mem_singleton.mp hu]
    exact ⟨by decide, by decide⟩)
  obtain ⟨k'', hrun⟩ : ∃ k'', runCalls [exitCall 0x602] idleStatics = some (k'', [0]) := ⟨_, rfl⟩
  rw [hrun, Option.some.injEq, Prod.mk.injEq] at hall
  exact absurd hall.2 (by decide)

end Trap

end JudgePenguin
