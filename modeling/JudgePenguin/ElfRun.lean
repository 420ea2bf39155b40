/-
  JudgePenguin/ElfRun.lean
  ========================
  **Running a loaded program** (`lib/elf.cpp`, `ELF::run`; `kern/trap.cpp`, the end
  of `run_user_64`; `inc/timer.hpp`).

  What happens between the `int` that starts the program and the next kernel
  instruction is given as a `UserRun`: the trap number, the registers the handler
  saved, the elapsed time stamps and the user memory the program leaves.  What the
  local `RunResult` holds before anything is assigned to it is given as well
  (`Garbage`), for the members that are not assigned on every path.
-/
import JudgePenguin.Elf

namespace JudgePenguin

open Words

/-! ## Time -/

/-- The frequencies that `Timer::init` sets. -/
structure Timer where
  tscFreq : UInt64
  clkFreq : UInt64
  tscPos : tscFreq ≠ 0
  clkPos : clkFreq ≠ 0

/-- Ticks of a clock of `freq` Hz in nanoseconds. -/
def ticksToNs (freq ticks : UInt64) : UInt64 :=
  ticks / freq * 1000000000 + ticks % freq * 1000000000 / freq

def Timer.tscToNs (t : Timer) (tsc : UInt64) : UInt64 := ticksToNs t.tscFreq tsc
def Timer.clkToNs (t : Timer) (clk : UInt64) : UInt64 := ticksToNs t.clkFreq clk

/-! ## The end of `run_user_64` -/

namespace Trap

def TRAP_ABORT : UInt8 := 253
def TRAP_INVALID_SYSCALL : UInt8 := 254
def TRAP_SYSCALL : UInt8 := 255
def SYS_tkill : UInt32 := 200
def DUCK_sys_exit : UInt32 := 60

/-- `trap_num` and `return_code` of `run_user_64`. -/
structure Exported where
  trapNum : UInt8
  returnCode : Int32
deriving DecidableEq

/-- The branches after the `int`: `trapNum` is what it left in `al`, `rax` and
    `rdi` are those of `tf_from_user`, and `returnCode` is the value that the
    caller's variable has so far.  An abort does not set it. -/
def exportReturnCode (trapNum : UInt8) (rax rdi : UInt64) (returnCode : Int32) : Exported :=
  if trapNum = TRAP_SYSCALL then
    if rax.toUInt32 = SYS_tkill then ⟨TRAP_ABORT, returnCode⟩
    else if rax.toUInt32 ≠ DUCK_sys_exit then ⟨TRAP_INVALID_SYSCALL, 0⟩
    else ⟨trapNum, Int32.ofBitVec rdi.toUInt32.toBitVec⟩
  else ⟨trapNum, 0⟩

end Trap

namespace ELF

/-! ## The run -/

/-- How the run of a program ends: `tf_from_user`'s `rax` and `rdi`, the time stamp
    difference, the two registers kept for debugging, and the memory. -/
structure UserRun where
  trapNum : UInt8
  rax : UInt64
  rdi : UInt64
  tsc : UInt64
  epc : UInt64
  cr2 : UInt64
  umem : Mem

/-- The bytes of the stack slot of `RunResult` in the members that `ELF::run` does
    not assign, or not on every path. -/
structure Garbage where
  countInst : UInt64
  clkThread : UInt64
  clkRefTsc : UInt64
  returnCode : Int32

structure RunResult where
  countInst : UInt64
  clkThread : UInt64
  clkRefTsc : UInt64
  timeTsc : UInt64
  timeNs : UInt64
  timeNsRefTsc : UInt64
  timeNsReal : UInt64
  memoryBytes : UInt64
  memoryKb : UInt64
  memoryKbAccessed : UInt64
  trapNum : UInt8
  returnCode : Int32
  trapEpc : UInt64
  trapCr2 : UInt64
  stdoutPtr : Nat
  stdoutSize : UInt64
  stderrPtr : Nat
  stderrSize : UInt64
  OBPtr : Nat

/-- Where `stdout_size` and `stderr_size` stand in a `DuckInfo_t`. -/
def STDOUT_SIZE_OFFSET : Nat := 40
def STDERR_SIZE_OFFSET : Nat := 64

/-- `ELF::run`.  The performance counters are not read, the page counts are
    placeholders, and the sizes come from the program's own `DuckInfo`. -/
def run (t : Timer) (app : App) (g : Garbage) (u : UserRun) : RunResult :=
  let exported := Trap.exportReturnCode u.trapNum u.rax u.rdi g.returnCode
  { countInst := g.countInst
    clkThread := g.clkThread
    clkRefTsc := g.clkRefTsc
    timeTsc := u.tsc
    timeNs := t.clkToNs g.clkThread
    timeNsRefTsc := t.tscToNs g.clkRefTsc
    timeNsReal := t.tscToNs u.tsc
    memoryBytes := 4096 * 233
    memoryKb := 4096 * 233 / 1024
    memoryKbAccessed := 4096 * 0 / 1024
    trapNum := exported.trapNum
    returnCode := exported.returnCode
    trapEpc := u.epc
    trapCr2 := u.cr2
    stdoutPtr := app.duckinfoOrig.stdoutPtr
    stdoutSize := UInt64.ofNat
      (min app.duckinfoOrig.stdoutLimit (u.umem.read64 (app.duckinfoPtr + STDOUT_SIZE_OFFSET)))
    stderrPtr := app.duckinfoOrig.stderrPtr
    stderrSize := UInt64.ofNat
      (min app.duckinfoOrig.stderrLimit (u.umem.read64 (app.duckinfoPtr + STDERR_SIZE_OFFSET)))
    OBPtr := app.duckinfoOrig.OBPtr }

/-- The program cannot report more than it was allowed to write. -/
theorem run_stdoutSize (t : Timer) (app : App) (g : Garbage) (u : UserRun) :
    (run t app g u).stdoutSize.toNat =
      min app.duckinfoOrig.stdoutLimit (u.umem.read64 (app.duckinfoPtr + STDOUT_SIZE_OFFSET)) := by
  have hlt := Mem.read64_lt u.umem (app.duckinfoPtr + STDOUT_SIZE_OFFSET)
  exact UInt64.toNat_ofNat_of_lt' (Nat.lt_of_le_of_lt (Nat.min_le_right _ _) hlt)

theorem run_stderrSize (t : Timer) (app : App) (g : Garbage) (u : UserRun) :
    (run t app g u).stderrSize.toNat =
      min app.duckinfoOrig.stderrLimit (u.umem.read64 (app.duckinfoPtr + STDERR_SIZE_OFFSET)) := by
  have hlt := Mem.read64_lt u.umem (app.duckinfoPtr + STDERR_SIZE_OFFSET)
  exact UInt64.toNat_ofNat_of_lt' (Nat.lt_of_le_of_lt (Nat.min_le_right _ _) hlt)

end ELF

end JudgePenguin
