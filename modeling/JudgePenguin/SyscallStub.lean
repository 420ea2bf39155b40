/-
  JudgePenguin/SyscallStub.lean
  =============================
  **System calls without an instruction** (`user_lib/duck64_syscall.S`).

  The C library of a user program calls `__duck64__syscall` where it would execute
  `syscall`, with its arguments in the registers of the kernel's convention.  The
  stub makes a C call of it and hides from the caller that a C function has run: only
  `rax`, `rcx` and `r11` change, as with the instruction (`stub_convention`).

  `program` is `machine` with registers: it makes its calls through the stub, and its
  runs are runs of the process (`program_refines`).

  What the model keeps and what it does not:

    * the compiled handler is a parameter, of which only what the calling convention
      and its C source promise is used (`Compiled`);
    * the words of the stack are kept apart from the rest of the memory.
-/
import JudgePenguin.ProcessIO
import JudgePenguin.X86Call

namespace JudgePenguin

open X86

namespace UserLib

/-! ## The stub -/

/-- What `__duck64__syscall` saves. -/
def stubSaved : List Reg := [.rdx, .rsi, .rdi, .r8, .r9, .r10]

/-- Up to the first instruction of the handler, where `back` is the address after the
    `call`. -/
def stubEntry (back : UInt64) : List Instr :=
  [.pushq .rdx, .pushq .rsi, .pushq .rdi, .pushq .r8, .pushq .r9, .pushq .r10,
    .pushq .rax,
    .movq .r10 .rcx,
    .pushImm back]

/-- From there up to the `ret`. -/
def stubReturn : List Instr :=
  [.popq .r11,
    .popq .r10, .popq .r9, .popq .r8, .popq .rdi, .popq .rsi, .popq .rdx]

/-- How a C function ends: it returns to `rip`, or executes the instruction `syscall`
    and does not come back. -/
inductive Finish where
  | returned (rip : UInt64) (m : X86.Machine)
  | left (m : X86.Machine)

/-- Code: the machine at its entry and the memory, and both when it has ended. -/
abbrev Code := X86.Machine → Mem → Finish → Mem → Prop

/-- `call __duck64__syscall`, from behind the `call` on. -/
inductive StubCall (code : Code) (m : X86.Machine) (mem : Mem) : Finish → Mem → Prop
  | returned {back rip : UInt64} {m1 m2 m3 m' : X86.Machine} {mem' : Mem}
    (hentry : exec (stubEntry back) m = some m1) (hcode : code m1 mem (.returned back m2) mem')
    (hreturn : exec stubReturn m2 = some m3) (hret : m3.ret = some (rip, m')) :
    StubCall code m mem (.returned rip m') mem'
  | left {back : UInt64} {m1 m' : X86.Machine} {mem' : Mem}
    (hentry : exec (stubEntry back) m = some m1) (hcode : code m1 mem (.left m') mem') :
    StubCall code m mem (.left m') mem'

/-- The arguments of the handler, at its entry. -/
def handlerArgs (m : X86.Machine) : Args := ⟨m.arg 0, m.arg 1, m.arg 2, m.arg 6⟩

/-- **The compiled handler**: entered with `rsp` as the convention has it, it does what
    its source says and keeps to the convention. -/
structure Compiled (E : Env) (code : Code) : Prop where
  returned : ∀ m mem rip m' mem', m.Entered → code m mem (.returned rip m') mem' →
    Returned 1 m rip m' ∧ ∃ ch r fsbase,
      duck64SyscallHandler E.x E.getauxval ch (handlerArgs m) mem = .returns r fsbase ∧
      (m'.get .rax).toNat = r.ret ∧ mem' = r.mem ∧ m'.fsbase = fsbase.getD m.fsbase
  left : ∀ m mem m' mem', m.Entered → code m mem (.left m') mem' → ∃ ch,
    duck64SyscallHandler E.x E.getauxval ch (handlerArgs m) mem =
      .syscall (m'.get .rax) (m'.get .rdi) mem'

/-- The arguments of a system call: the number in `rax`, the rest in `rdi`, `rsi`, `rdx`. -/
def syscallArgs (m : X86.Machine) : Args := ⟨m.get .rdi, m.get .rsi, m.get .rdx, m.get .rax⟩

section Stub

variable {E : Env} {code : Code} {m m' : X86.Machine} {mem mem' : Mem} {rip : UInt64}

/-- The handler finds its arguments, and `rsp` as aligned as the caller's. -/
theorem exec_stubEntry (back : UInt64) (m : X86.Machine) :
    ∃ m1, exec (stubEntry back) m = some m1 ∧ handlerArgs m1 = syscallArgs m ∧
      m1.stack.above =
        back :: ([m.get .rax] ++ ((stubSaved.map m.regs).reverse ++ m.stack.above)) ∧
      (m.Entered → m1.Entered) ∧ m1.fsbase = m.fsbase ∧ ∀ r ∈ calleeSaved, m1.get r = m.get r := by
  have hentered {ws : List UInt64} (hlen : ws.length % 2 = 1) :
      (back :: ([m.get .rax] ++ ((stubSaved.map m.regs).reverse ++ ws))).length % 2 = 1 := by
    simp only [List.length_cons, List.length_append, List.length_reverse, List.length_map,
      List.length_nil]
    have hsaved : stubSaved.length = 6 := rfl
    omega
  refine ⟨_, rfl, rfl, rfl, hentered, rfl, fun r hr => ?_⟩
  have hne : r ≠ .rcx := by
    rintro rfl
    exact absurd hr (by decide)
  exact Function.update_of_ne hne ..

/-- What the handler leaves on the stack is popped into the registers it came from. -/
theorem exec_stubReturn {m2 : X86.Machine} {w : UInt64} {f : Regs} {rest : List UInt64}
    (hm : m2.stack.above = w :: ((stubSaved.map f).reverse ++ rest)) :
    ∃ below regs, exec stubReturn m2 = some { m2 with regs := regs, stack := ⟨rest, below⟩ } ∧
      (∀ r ∈ stubSaved, regs r = f r) ∧ ∀ r, r ∉ stubSaved → r ≠ .r11 → regs r = m2.get r := by
  have hpop : step m2 (.popq .r11) = some { m2.set .r11 w with
      stack := ⟨(stubSaved.map f).reverse ++ rest,
        fun i => if i = 0 then w else m2.stack.below (i - 1)⟩ } := by
    rw [step, Stack.pop, hm]
    rfl
  have hnodup : stubSaved.Nodup := by decide
  obtain ⟨below, regs, hexec, hin, hout⟩ := exec_restores hnodup
    (m := { m2.set .r11 w with
      stack := ⟨(stubSaved.map f).reverse ++ rest,
        fun i => if i = 0 then w else m2.stack.below (i - 1)⟩ }) rfl
  refine ⟨below, regs, (exec_cons_of hpop _).trans hexec, hin, fun r hr hne => ?_⟩
  exact (hout r hr).trans (Function.update_of_ne hne ..)

/-- What a caller sees of a call that comes back. -/
structure Convention (E : Env) (m : X86.Machine) (mem : Mem) (rip : UInt64) (m' : X86.Machine)
    (mem' : Mem) : Prop where
  handled : ∃ ch r fsbase,
    duck64SyscallHandler E.x E.getauxval ch (syscallArgs m) mem = .returns r fsbase ∧
    (m'.get .rax).toNat = r.ret ∧ mem' = r.mem ∧ m'.fsbase = fsbase.getD m.fsbase
  kept : ∀ r, r ≠ .rax → r ≠ .rcx → r ≠ .r11 → m'.get r = m.get r
  stack : m.stack.above = rip :: m'.stack.above

/-- **The stub keeps the convention of `syscall`**: the handler is called with the
    number and the arguments, its result is in `rax`, and every other register but
    `rcx` and `r11` is as it was. -/
theorem stub_convention (hcode : Compiled E code) (hentered : m.Entered)
    (hcall : StubCall code m mem (.returned rip m') mem') : Convention E m mem rip m' mem' := by
  cases hcall with
  | @returned back _ m1 m2 m3 _ _ hentry hrun hreturn hret =>
    obtain ⟨n1, hn1, hargs, hstack, hentered1, hfs, hsaved⟩ := exec_stubEntry back m
    cases hn1.symm.trans hentry
    obtain ⟨hreturned, ch, r, fsbase, hhandler, hrax, hmem, hfsbase⟩ :=
      hcode.returned m1 mem back m2 mem' (hentered1 hentered) hrun
    obtain ⟨ws, hlen, habove⟩ := hreturned.above hstack rfl
    obtain ⟨w, rfl⟩ := List.length_eq_one_iff.mp hlen
    obtain ⟨below, regs, hexec, hin, hout⟩ := exec_stubReturn habove
    cases hexec.symm.trans hreturn
    obtain ⟨ret, rest, hrest⟩ : ∃ ret rest, m.stack.above = ret :: rest := by
      refine List.exists_cons_of_ne_nil fun hnil => ?_
      rw [X86.Machine.Entered, hnil] at hentered
      cases hentered
    have habove3 : ({ m2 with regs := regs, stack := ⟨m.stack.above, below⟩ } :
        X86.Machine).stack.above = ret :: rest := hrest
    obtain ⟨below', hret'⟩ := X86.Machine.ret_above habove3
    cases hret'.symm.trans hret
    refine ⟨⟨ch, r, fsbase, hargs ▸ hhandler, ?_, hmem, ?_⟩, fun q hrax' hrcx hr11 => ?_, hrest⟩
    · exact (congrArg UInt64.toNat (hout .rax (by decide) (by decide))).trans hrax
    · rw [← hfs]
      exact hfsbase
    · by_cases hq : q ∈ stubSaved
      · exact hin q hq
      · have hcallee : q ∈ calleeSaved := by
          have hall : ∀ q, q = .rax ∨ q = .rcx ∨ q = .r11 ∨ q ∈ stubSaved ∨ q ∈ calleeSaved := by
            intro q
            cases q <;> decide
          rcases hall q with h | h | h | h | h
          · exact absurd h hrax'
          · exact absurd h hrcx
          · exact absurd h hr11
          · exact absurd h hq
          · exact h
        calc regs q = m2.get q := hout q hq hr11
          _ = m1.get q := hreturned.saved q hcallee
          _ = m.get q := hsaved q hcallee

/-- A call that does not come back. -/
theorem stub_left (hcode : Compiled E code) (hentered : m.Entered)
    (hcall : StubCall code m mem (.left m') mem') : ∃ ch,
      duck64SyscallHandler E.x E.getauxval ch (syscallArgs m) mem =
        .syscall (m'.get .rax) (m'.get .rdi) mem' := by
  cases hcall with
  | @left back m1 _ _ hentry hrun =>
    obtain ⟨n1, hn1, hargs, -, hentered1, -⟩ := exec_stubEntry back m
    cases hn1.symm.trans hentry
    rw [← hargs]
    exact hcode.left m1 mem m' mem' (hentered1 hentered) hrun

end Stub

/-! ## A program with registers -/

structure Program where
  cpu : X86.Machine
  mem : Mem
  running : Bool

/-- The `fs` base after a call that was asked to set it. -/
def observedFs (a : Args) (m' : X86.Machine) : Option UInt64 :=
  if sysOf a.n = some .archPrctl ∧ asInt a.a1 = ARCH_SET_FS then some m'.fsbase else none

/-- Steps of a program that was linked with `code` as its handler. -/
inductive ProgramStep (E : Env) (code : Code) : Program → IoEvent → Program → Prop
  | compute {m m' : X86.Machine} {mem mem' : Mem} (h : E.Leaves mem mem') :
    ProgramStep E code ⟨m, mem, true⟩ .compute ⟨m', mem', true⟩
  | returns {m m' : X86.Machine} {mem mem' : Mem} {rip : UInt64} (hentered : m.Entered)
    (hallowed : Allowed E (syscallArgs m) mem (sysOf (m.get .rax)))
    (hcall : StubCall code m mem (.returned rip m') mem') :
    ProgramStep E code ⟨m, mem, true⟩
      (seen (syscallArgs m) mem ⟨(m'.get .rax).toNat, [], mem'⟩ (observedFs (syscallArgs m) m')
        (sysOf (m.get .rax)))
      ⟨m', mem', true⟩
  | ends {m m' : X86.Machine} {mem mem' : Mem} {returnCode : Int32} (hentered : m.Entered)
    (hcall : StubCall code m mem (.left m') mem') :
    ProgramStep E code ⟨m, mem, true⟩
      (seenEnd (syscallArgs m)
        (Trap.exportReturnCode Trap.TRAP_SYSCALL (m'.get .rax) (m'.get .rdi) returnCode)
        (sysOf (m.get .rax)))
      ⟨m', mem', false⟩

/-- A program that the loader has set up, with anything in its registers. -/
def program (E : Env) (code : Code) : Lts Program IoEvent where
  start p := InfoSet E p.mem ∧ p.mem E.x.inited = 0 ∧ p.running = true
  step := ProgramStep E code

section Program

variable {E : Env} {code : Code}

/-- The bytes that were copied for a call are not seen but in memory. -/
theorem seen_copied (a : Args) (m : Mem) (r : Reply) (bs : List UInt8) (fsbase : Option UInt64)
    (s : Option Sys) : seen a m ⟨r.ret, bs, r.mem⟩ fsbase s = seen a m r fsbase s := by
  cases s with
  | none => rfl
  | some s =>
    cases s with
    | core s => cases s <;> rfl
    | _ => rfl

/-- Only `arch_prctl` sets the base. -/
theorem handler_fsbase {ch : Chance} {a : Args} {m : Mem} {r : Reply} {fsbase : Option UInt64}
    (h : duck64SyscallHandler E.x E.getauxval ch a m = .returns r fsbase) :
    fsbase = if sysOf a.n = some .archPrctl ∧ asInt a.a1 = ARCH_SET_FS then some a.a2 else none := by
  cases hs : sysOf a.n with
  | none =>
    simp only [duck64SyscallHandler, hs] at h
    cases h
    rfl
  | some s =>
    simp only [duck64SyscallHandler, hs] at h
    cases s with
    | archPrctl =>
      rw [perform, duckArchPrctl] at h
      split_ifs at h with hset
      · cases h
        rw [if_pos ⟨rfl, hset⟩]
      · cases h
        rw [if_neg fun hcon => hset hcon.2]
    | exit => cases h
    | exitGroup => cases h
    | tkill => cases h
    | tgkill => cases h
    | _ =>
      cases h
      refine (if_neg ?_).symm
      rintro ⟨hcon, -⟩
      cases hcon

/-- Without its registers, a program is a machine. -/
theorem program_machine (hcode : Compiled E code) :
    Lts.Simulation (program E code) (machine E) fun p s => s = ⟨p.mem, p.running⟩ where
  start p hp := ⟨⟨p.mem, p.running⟩, hp, rfl⟩
  step p s e p' := by
    rintro rfl hstep
    cases hstep with
    | compute hleaves => exact ⟨_, .compute hleaves, rfl⟩
    | @returns m m' mem mem' rip hentered hallowed hcall =>
      obtain ⟨⟨ch, r, fsbase, hhandler, hrax, hmem, hfs⟩, -, -⟩ :=
        stub_convention hcode hentered hcall
      have hobserved : observedFs (syscallArgs m) m' = fsbase := by
        have hset := handler_fsbase hhandler
        rw [observedFs, hset]
        split_ifs with hcond
        · rw [hset, if_pos hcond] at hfs
          rw [hfs, Option.getD_some]
        · rfl
      rw [hobserved, hrax, hmem, seen_copied]
      exact ⟨_, .returns hallowed hhandler, rfl⟩
    | ends hentered hcall =>
      obtain ⟨ch, hhandler⟩ := stub_left hcode hentered hcall
      exact ⟨_, .ends hhandler, rfl⟩

/-- **A program for JudgeDuck is a process**, down to the registers: with any handler
    that was compiled right, what is seen of a run, with any calls in any order, could
    have been seen of `process`. -/
theorem program_refines (h : E.Sound) (hcode : Compiled E code) {es : List IoEvent}
    (hes : (program E code).Trace es) : (process E).Trace es :=
  ((program_machine hcode).comp (simulation h)).trace hes

end Program

/-! ## The program of the examples -/

/-- A handler that touches no more than it has to. -/
def sampleCode : Code := fun m mem fin mem' =>
  match duck64SyscallHandler sampleEnv.x sampleEnv.getauxval ⟨0, 0⟩ (handlerArgs m) mem with
  | .returns r fsbase => mem' = r.mem ∧ ∃ rip w rest m', m.stack.above = rip :: w :: rest ∧
      m' = { m.set .rax (UInt64.ofNat r.ret) with
        stack := ⟨w :: rest, m.stack.below⟩, fsbase := fsbase.getD m.fsbase } ∧
      (m'.get .rax).toNat = r.ret ∧ fin = .returned rip m'
  | .syscall rax rdi m1 => mem' = m1 ∧ fin = .left ((m.set .rdi rdi).set .rax rax)

theorem sampleCode_compiled : Compiled sampleEnv sampleCode := by
  constructor
  · intro m mem rip m' mem' _ hcode
    rw [sampleCode] at hcode
    split at hcode
    · rename_i r fsbase hhandler
      obtain ⟨hmem, rip', w, rest, m1, habove, hm1, hrax, hfin⟩ := hcode
      cases hfin
      refine ⟨⟨?_, fun q hq => ?_, [w], rfl, ?_⟩, _, r, fsbase, hhandler, hrax, hmem, ?_⟩
      · rw [habove]
        rfl
      · have hne : q ≠ .rax := by
          rintro rfl
          exact absurd hq (by decide)
        rw [hm1]
        exact Function.update_of_ne hne ..
      · rw [hm1, habove]
        rfl
      · rw [hm1]
    · cases hcode.2
  · intro m mem m' mem' _ hcode
    rw [sampleCode] at hcode
    split at hcode
    · obtain ⟨_, _, _, _, _, _, _, _, hfin⟩ := hcode
      cases hfin
    · rename_i rax rdi m1 hhandler
      obtain ⟨rfl, hfin⟩ := hcode
      cases hfin
      exact ⟨_, hhandler⟩

/-- A machine behind `call __duck64__syscall`, about to ask for its process id. -/
def sampleCpu : X86.Machine :=
  { regs := fun r => if r = .rax then 39 else 7
    rsp := 0
    stack := ⟨[0x401000], fun _ => 0⟩
    rflags := 2
    segs := fun _ => 0
    fsbase := 0
    gsbase := 0
    fx := fun _ => 0
    cr3 := 0
    tsc := 0
    tscAdjust := 0 }

theorem sampleCpu_call : ∃ m', StubCall sampleCode sampleCpu sampleMem (.returned 0x401000 m')
    (ensureInit sampleEnv.x sampleEnv.getauxval sampleMem) := by
  have hnumber : sysOf 39 = some .getpid := sysOf_eq_some.mpr rfl
  have hcode (m : X86.Machine) (hargs : handlerArgs m = ⟨7, 7, 7, 39⟩) {rip w : UInt64}
      {rest : List UInt64} (habove : m.stack.above = rip :: w :: rest) :
      sampleCode m sampleMem (.returned rip { m.set .rax 1234 with
        stack := ⟨w :: rest, m.stack.below⟩ })
        (ensureInit sampleEnv.x sampleEnv.getauxval sampleMem) := by
    have hhandler : duck64SyscallHandler sampleEnv.x sampleEnv.getauxval ⟨0, 0⟩ (handlerArgs m)
        sampleMem = .returns ⟨1234, [], ensureInit sampleEnv.x sampleEnv.getauxval sampleMem⟩
          none := by
      simp only [duck64SyscallHandler, hargs, hnumber]
      rfl
    rw [sampleCode, hhandler]
    exact ⟨rfl, rip, w, rest, _, habove, rfl, rfl, rfl⟩
  exact ⟨_, @StubCall.returned _ _ _ 0 _ _ _ _ _ _ rfl (hcode _ rfl rfl) rfl rfl⟩

theorem stub_convention_sample : ∃ m' mem',
    Convention sampleEnv sampleCpu sampleMem 0x401000 m' mem' := by
  obtain ⟨m', hcall⟩ := sampleCpu_call
  exact ⟨m', _, stub_convention sampleCode_compiled rfl hcall⟩

theorem program_refines_sample : ∃ e, (process sampleEnv).Trace [e] := by
  obtain ⟨m', hcall⟩ := sampleCpu_call
  have hnumber : sysOf (sampleCpu.get .rax) = some .getpid := sysOf_eq_some.mpr rfl
  have hallowed : Allowed sampleEnv (syscallArgs sampleCpu) sampleMem (sysOf (sampleCpu.get .rax)) := by
    rw [hnumber]
    exact trivial
  exact ⟨_, program_refines sampleEnv_sound sampleCode_compiled
    ⟨⟨sampleCpu, sampleMem, true⟩, _, ⟨sampleMem_infoSet, sampleMem_fresh.inited, rfl⟩,
      .cons (.returns rfl hallowed hcall) (.nil _)⟩⟩

end UserLib

end JudgePenguin
