/-
  JudgePenguin/UserSyscalls.lean
  ==============================
  **Every system call of the library** — the whole switch of
  `__duck64__syscall_handler`, by number.

  `UserLib` has the calls that read, write, tell the time and hand out memory.  The
  others are here: the two that leave the program with the instruction `syscall`
  (`duck_exit`, `duck_tkill_abort`), those that fill a structure of the program
  (`duck_fstat`, `duck_uname`, `duck_readlink`), `duck_arch_prctl`, and the ones that
  answer with a constant.

  What the model keeps and what it does not:

    * `strlen` looks at no more bytes than there are addresses;
    * what `rdi` holds when the library aborts is whatever the compiler left there.
-/
import JudgePenguin.UserRuns

namespace JudgePenguin

open Words

namespace UserLib

/-! ## Strings -/

/-- `strncpy_safe`: the string, cut to `n - 1` bytes, and zeros up to `n`. -/
def strncpySafe (m : Mem) (dest : Nat) (src : List UInt8) (n : Nat) : Mem :=
  if 0 < n then m.write dest (src.take (n - 1) ++ List.replicate (n - (src.take (n - 1)).length) 0)
  else m

/-- The characters of a literal. -/
def cString (s : String) : List UInt8 := s.toList.map fun c => UInt8.ofNat c.toNat

def strlenFrom (m : Mem) : Nat → Nat → Nat
  | 0, _ => 0
  | fuel + 1, p => if m p = 0 then 0 else 1 + strlenFrom m fuel (p + 1)

def strlen (m : Mem) (p : Nat) : Nat := strlenFrom m (2 ^ 64) p

/-! ## Calls that fill a structure -/

def SIZEOF_STAT : Nat := 144

/-- `S_IFREG | 0664`. -/
def REGULAR_MODE : Nat := 0x8000 + 0o664

/-- The four members of a `struct stat` that are set. -/
def fillStat (m : Mem) (st size : Nat) : Mem :=
  let m := m.write (st + 24) (Mem.leBytes 4 REGULAR_MODE)
  let m := m.write64 (st + 48) size
  let m := m.write64 (st + 56) 4096
  m.write64 (st + 64) (wrap64 (size + 4095) / 4096)

def duckFstat (x : Statics) (fd : Int) (st : Nat) (m : Mem) : Reply :=
  let m := m.fill st SIZEOF_STAT 0
  if fd = 0 then
    let stdinSize := m.read64 (m.read64 x.duckinfo + 16)
    ⟨0, [], fillStat m st stdinSize⟩
  else if fd = 1 then
    let stdoutSize := m.read64 (m.read64 x.duckinfo + 40)
    ⟨0, [], fillStat m st stdoutSize⟩
  else ⟨2 ^ 64 - 1, [], m⟩

/-- `sizeof(buf->sysname)`, which all members share. -/
def UTSNAME_LENGTH : Nat := 65

def duckUname (buf : Nat) (m : Mem) : Reply :=
  let m := strncpySafe m buf (cString "JudgeDuck") UTSNAME_LENGTH
  let m := strncpySafe m (buf + 65) (cString "duck") UTSNAME_LENGTH
  let m := strncpySafe m (buf + 130) (cString "5.11.0") UTSNAME_LENGTH
  let m := strncpySafe m (buf + 195) (cString "duck-20210901") UTSNAME_LENGTH
  let m := strncpySafe m (buf + 260) (cString "x86_64") UTSNAME_LENGTH
  ⟨0, [], m⟩

/-- `path` is not looked up; a negative `bufsiz` is a huge size. -/
def duckReadlink (path buf : Nat) (bufsiz : UInt64) (m : Mem) : Reply :=
  let m := strncpySafe m buf (cString "/tmp/main.exe") (intAsSize bufsiz)
  ⟨strlen m path, [], m⟩

/-! ## The handler -/

/-- The system calls that the switch knows. -/
inductive Sys where
  | core (s : Syscall)
  | exit
  | exitGroup
  | archPrctl
  | ioctl
  | fstat
  | rtSigprocmask
  | rtSigaction
  | sigaltstack
  | setTidAddress
  | tkill
  | mprotect
  | munmap
  | poll
  | uname
  | readlink
  | getpid
  | gettid
  | tgkill
deriving DecidableEq

/-- The numbers of `sys/syscall.h`. -/
def sysNumber : Sys → Nat
  | .core .read => 0
  | .core .write => 1
  | .fstat => 5
  | .poll => 7
  | .core .mmap => 9
  | .mprotect => 10
  | .munmap => 11
  | .core .brk => 12
  | .rtSigaction => 13
  | .rtSigprocmask => 14
  | .ioctl => 16
  | .core .readv => 19
  | .core .writev => 20
  | .getpid => 39
  | .exit => 60
  | .uname => 63
  | .readlink => 89
  | .sigaltstack => 131
  | .archPrctl => 158
  | .gettid => 186
  | .tkill => 200
  | .setTidAddress => 218
  | .core .clockGettime => 228
  | .exitGroup => 231
  | .tgkill => 234

/-- The labels of the switch. -/
def allSys : List Sys :=
  [.core .brk, .core .clockGettime, .core .read, .core .readv, .core .write, .core .writev, .exit,
    .exitGroup, .archPrctl, .ioctl, .fstat, .core .mmap, .rtSigprocmask, .rtSigaction, .sigaltstack,
    .setTidAddress, .tkill, .mprotect, .munmap, .poll, .uname, .readlink, .getpid, .gettid, .tgkill]

/-- The case that the switch jumps to. -/
def sysOf (n : UInt64) : Option Sys := allSys.find? fun s => sysNumber s = n.toNat

/-- The arguments that the handler looks at, with its last one, the number. -/
structure Args where
  a1 : UInt64
  a2 : UInt64
  a3 : UInt64
  n : UInt64

/-- What only the run decides: the time stamp, and `rdi` at an abort. -/
structure Chance where
  tsc : UInt64
  rdi : UInt64

def ARCH_SET_FS : Int := 0x1002

/-- What a call comes to: a return, with the new `fs` base if it is set, or the
    instruction `syscall` with these registers. -/
inductive Outcome where
  | returns (reply : Reply) (fsbase : Option UInt64)
  | syscall (rax rdi : UInt64) (mem : Mem)

/-- A call that answers with a constant. -/
def constant (ret : Nat) (m : Mem) : Outcome := .returns ⟨ret, [], m⟩ none

/-- `duck_exit`; `edi` gets an `int`. -/
def duckExit (code : UInt64) (m : Mem) : Outcome := .syscall 60 (code.toUInt32.toUInt64) m

/-- `duck_tkill_abort`; the signal goes to `rdx`. -/
def duckTkillAbort (ch : Chance) (m : Mem) : Outcome := .syscall 200 ch.rdi m

def duckArchPrctl (code : Int) (addr : UInt64) (m : Mem) : Outcome :=
  if code = ARCH_SET_FS then .returns ⟨0, [], m⟩ (some addr)
  else .returns ⟨2 ^ 64 - 1, [], m⟩ none

/-- The cases of the switch. -/
def perform (x : Statics) (ch : Chance) (a : Args) (m : Mem) : Sys → Outcome
  | .core s => .returns (dispatch x ⟨s, a.a1, a.a2, a.a3, ch.tsc⟩ m) none
  | .exit => duckExit a.a1 m
  | .exitGroup => duckExit a.a1 m
  | .archPrctl => duckArchPrctl (asInt a.a1) a.a2 m
  | .ioctl => constant 0 m
  | .fstat => .returns (duckFstat x (asInt a.a1) a.a2.toNat m) none
  | .rtSigprocmask => constant 0 m
  | .rtSigaction => constant 0 m
  | .sigaltstack => constant 0 m
  | .setTidAddress => constant 12345 m
  | .tkill => duckTkillAbort ch m
  | .mprotect => constant 0 m
  | .munmap => constant 0 m
  | .poll => constant 0 m
  | .uname => .returns (duckUname a.a1.toNat m) none
  | .readlink => .returns (duckReadlink a.a1.toNat a.a2.toNat a.a3 m) none
  | .getpid => constant 1234 m
  | .gettid => constant 1234 m
  | .tgkill => duckTkillAbort ch m

/-- The whole handler. -/
def duck64SyscallHandler (x : Statics) (getauxval : Nat → Nat) (ch : Chance) (a : Args) (m : Mem) :
    Outcome :=
  let m := ensureInit x getauxval m
  match sysOf a.n with
  | some s => perform x ch a m s
  | none => constant (2 ^ 64 - 1) m

/-! ## Numbers -/

/-- No two labels are the same, as the compiler makes sure. -/
theorem sysNumber_injective {s s' : Sys} (h : sysNumber s = sysNumber s') : s = s' := by
  have hs : ∀ s, s ∈ allSys := by
    intro s
    cases s with
    | core s => cases s <;> decide
    | _ => decide
  have hall : ∀ s ∈ allSys, ∀ s' ∈ allSys, sysNumber s = sysNumber s' → s = s' := by decide
  exact hall s (hs s) s' (hs s') h

theorem sysOf_eq_some {n : UInt64} {s : Sys} : sysOf n = some s ↔ sysNumber s = n.toNat := by
  constructor
  · intro h
    exact of_decide_eq_true (List.find?_some (p := fun s => decide (sysNumber s = n.toNat)) h)
  · intro h
    have hs : s ∈ allSys := by
      cases s with
      | core s => cases s <;> decide
      | _ => decide
    cases hfind : sysOf n with
    | none => exact absurd (decide_eq_true h) (List.find?_eq_none.mp hfind s hs)
    | some s' =>
      have hs' : sysNumber s' = n.toNat :=
        of_decide_eq_true (List.find?_some (p := fun s => decide (sysNumber s = n.toNat)) hfind)
      rw [sysNumber_injective (hs'.trans h.symm)]

/-- The calls of `UserLib` are cases of the whole handler. -/
theorem handler_core (x : Statics) (getauxval : Nat → Nat) (ch : Chance) (a : Args) (m : Mem)
    {s : Syscall} (h : sysNumber (.core s) = a.n.toNat) :
    duck64SyscallHandler x getauxval ch a m =
      .returns (syscallHandler x getauxval ⟨s, a.a1, a.a2, a.a3, ch.tsc⟩ m) none := by
  simp only [duck64SyscallHandler, sysOf_eq_some.mpr h, perform]
  rfl

/-! ## Strings that are copied -/

/-- Exactly the `n` bytes of the destination are written. -/
theorem strncpySafe_other (m : Mem) {dest n a : Nat} (src : List UInt8)
    (h : a < dest ∨ dest + n ≤ a) : strncpySafe m dest src n a = m a := by
  unfold strncpySafe
  split
  · refine Mem.write_outside _ _ _ ?_
    rw [List.length_append, List.length_replicate]
    have hle : (src.take (n - 1)).length ≤ n - 1 := List.length_take_le _ _
    omega
  · rfl

end UserLib

end JudgePenguin
