/-
  JudgePenguin/UserLib.lean
  =========================
  **The library in the user program** (`user_lib/duck64_syscall_handler.cpp`).

  A program for JudgeDuck does its input and output by calling
  `__duck64__syscall_handler`, which copies between the program's buffers and the
  regions named by `DuckInfo`.  The library runs in the program: its static
  variables stand in user memory, where the linker put them (`Statics`), and they
  hold whatever the memory held until `init` sets them.

  What the model keeps and what it does not:

    * `getauxval` is the C library's, given as a function;
    * a `memcpy` reads all its bytes before it writes, and an access is never a
      fault;
    * the bytes that the `memcpy` calls of a system call move are part of its reply;
    * of the system calls, those that read, write, tell the time and hand out memory
      are here;
    * `tsc` of a call is what `rdtsc` reads if the call executes it.
-/
import JudgePenguin.ElfRun

namespace JudgePenguin

open Words

namespace UserLib

/-! ## Casts -/

/-- `(int) a`. -/
def asInt (a : UInt64) : Int :=
  if a.toNat % 2 ^ 32 < 2 ^ 31 then (a.toNat % 2 ^ 32 : Nat) else (a.toNat % 2 ^ 32 : Nat) - 2 ^ 32

/-- `(int) a` handed on as a `size_t`. -/
def intAsSize (a : UInt64) : Nat :=
  if a.toNat % 2 ^ 32 < 2 ^ 31 then a.toNat % 2 ^ 32 else a.toNat % 2 ^ 32 + (2 ^ 64 - 2 ^ 32)

/-! ## Static variables -/

/-- The addresses of the static variables, and of `_end`. -/
structure Statics where
  inited : Nat
  duckinfo : Nat
  stdoutMaxSize : Nat
  stderrMaxSize : Nat
  stdinCurrPos : Nat
  tscFrequency : Nat
  heapBrk : Nat
  mmapP : Nat
  mmapPool : Nat
  endAddr : Nat

/-- `sizeof(__mmap_pool)`. -/
def MMAP_POOL_SIZE : Nat := 10240 * 1024

/-- What the caller finds in `rax`, the bytes that were copied for it, and the memory
    afterwards. -/
structure Reply where
  ret : Nat
  copied : List UInt8
  mem : Mem

/-- `init`.  The offsets are those of `DuckInfo_t`. -/
def init (x : Statics) (getauxval : Nat → Nat) (m : Mem) : Mem :=
  let m := m.write x.inited [1]
  let m := m.write64 x.duckinfo (getauxval ELF.AT_DUCK)
  let m := m.write64 x.stdinCurrPos 0
  let m := m.write64 x.stdoutMaxSize (m.read64 (m.read64 x.duckinfo + 32))
  let m := m.write64 (m.read64 x.duckinfo + 40) 0
  let m := m.write64 x.stderrMaxSize (m.read64 (m.read64 x.duckinfo + 56))
  let m := m.write64 (m.read64 x.duckinfo + 64) 0
  let pageSize := getauxval ELF.AT_PAGESZ
  let m := m.write64 x.heapBrk (wrap64 (wrap64 (x.endAddr + pageSize - 1) / pageSize * pageSize))
  m.write64 x.tscFrequency (m.read64 (m.read64 x.duckinfo + 104))

/-! ## Time -/

def CLOCK_PROCESS_CPUTIME_ID : Int := 2

/-- `duck_clock_get_time`; `tp` points to `tv_sec` and `tv_nsec`. -/
def duckClockGetTime (x : Statics) (tsc : UInt64) (clkId : Int) (tp : Nat) (m : Mem) : Reply :=
  if clkId = CLOCK_PROCESS_CPUTIME_ID then
    let t := tsc.toNat
    let sec := t / m.read64 x.tscFrequency
    let nsec := wrap64 (t % m.read64 x.tscFrequency * 1000000000) / m.read64 x.tscFrequency
    ⟨0, [], (m.write64 tp sec).write64 (tp + 8) nsec⟩
  else ⟨2 ^ 64 - 1, [], m⟩

/-! ## Reading and writing -/

def duckRead (x : Statics) (fd : Int) (buf len : Nat) (m : Mem) : Reply :=
  if fd = 0 then
    let info := m.read64 x.duckinfo
    let availableLen := sub64 (m.read64 (info + 16)) (m.read64 x.stdinCurrPos)
    let actualLen := min len availableLen
    let bytes := m.read (wrap64 (m.read64 (info + 8) + m.read64 x.stdinCurrPos)) actualLen
    let m := m.write buf bytes
    ⟨actualLen, bytes, m.write64 x.stdinCurrPos (wrap64 (m.read64 x.stdinCurrPos + actualLen))⟩
  else ⟨0, [], m⟩

/-- The two branches of `duck_write`: the maximum is in the static variable at
    `maxSize`, pointer and size in the members at `ptrOff` and `sizeOff`. -/
def writeTo (x : Statics) (maxSize ptrOff sizeOff buf len : Nat) (m : Mem) : Reply :=
  let info := m.read64 x.duckinfo
  let availableLen := sub64 (m.read64 maxSize) (m.read64 (info + sizeOff))
  let actualLen := min len availableLen
  let bytes := m.read buf actualLen
  let m := m.write (wrap64 (m.read64 (info + ptrOff) + m.read64 (info + sizeOff))) bytes
  let info := m.read64 x.duckinfo
  -- output is silently truncated
  ⟨len, bytes, m.write64 (info + sizeOff) (wrap64 (m.read64 (info + sizeOff) + actualLen))⟩

def duckWrite (x : Statics) (fd : Int) (buf len : Nat) (m : Mem) : Reply :=
  if fd = 1 then writeTo x x.stdoutMaxSize 24 40 buf len m
  else if fd = 2 then writeTo x x.stderrMaxSize 48 64 buf len m
  else ⟨0, [], m⟩

/-- The loop of `duck_readv` and `duck_writev` over the elements from `iov` on, of
    which `n` are left; `acc` is the reply so far. -/
def vectored (op : Nat → Nat → Mem → Reply) : Nat → Nat → Reply → Reply
  | 0, _, acc => acc
  | n + 1, iov, acc =>
    let r := op (acc.mem.read64 iov) (acc.mem.read64 (iov + 8)) acc.mem
    let iovLen := r.mem.read64 (iov + 8)
    let ret := if r.ret ≤ iovLen then wrap64 (acc.ret + r.ret) else acc.ret
    let acc' : Reply := ⟨ret, acc.copied ++ r.copied, r.mem⟩
    if r.ret ≠ iovLen then acc' else vectored op n (iov + 16) acc'

def duckReadv (x : Statics) (fd : Int) (iov : Nat) (cnt : Int) (m : Mem) : Reply :=
  vectored (duckRead x fd) cnt.toNat iov ⟨0, [], m⟩

def duckWritev (x : Statics) (fd : Int) (iov : Nat) (cnt : Int) (m : Mem) : Reply :=
  vectored (duckWrite x fd) cnt.toNat iov ⟨0, [], m⟩

/-! ## Handing out memory -/

def duckBrk (x : Statics) (addr : Nat) (m : Mem) : Reply :=
  if addr = 0 then ⟨m.read64 x.heapBrk, [], m⟩
  else
    let m := if addr > m.read64 x.heapBrk then m.write64 x.heapBrk addr else m
    ⟨m.read64 x.heapBrk, [], m⟩

/-- `(size + 4095u) & -4096ul`. -/
def mmapSize (size : Nat) : Nat := floorTo (wrap64 (size + 4095)) 4096

def duckMmapTemp (x : Statics) (size : Nat) (m : Mem) : Reply :=
  let size := mmapSize size
  let p := m.read64 x.mmapP
  ⟨p, [], m.write64 x.mmapP (wrap64 (p + size))⟩

/-! ## The handler -/

inductive Syscall where
  | brk
  | clockGettime
  | read
  | readv
  | write
  | writev
  | mmap
deriving DecidableEq

/-- A system call with its first three arguments. -/
structure Call where
  number : Syscall
  a1 : UInt64
  a2 : UInt64
  a3 : UInt64
  tsc : UInt64

/-- `if (!inited) init();` -/
def ensureInit (x : Statics) (getauxval : Nat → Nat) (m : Mem) : Mem :=
  if m x.inited = 0 then init x getauxval m else m

/-- The cases of the switch. -/
def dispatch (x : Statics) (c : Call) (m : Mem) : Reply :=
  match c.number with
  | .brk => duckBrk x c.a1.toNat m
  | .clockGettime => duckClockGetTime x c.tsc (asInt c.a1) c.a2.toNat m
  | .read => duckRead x (asInt c.a1) c.a2.toNat (intAsSize c.a3) m
  | .readv => duckReadv x (asInt c.a1) c.a2.toNat (asInt c.a3) m
  | .write => duckWrite x (asInt c.a1) c.a2.toNat c.a3.toNat m
  | .writev => duckWritev x (asInt c.a1) c.a2.toNat (asInt c.a3) m
  | .mmap => duckMmapTemp x c.a2.toNat m

/-- `__duck64__syscall_handler`. -/
def syscallHandler (x : Statics) (getauxval : Nat → Nat) (c : Call) (m : Mem) : Reply :=
  dispatch x c (ensureInit x getauxval m)

/-! ## What the library owns -/

/-- The areas of memory that the library relies on. -/
inductive Slot where
  | inited
  | duckinfo
  | stdoutMaxSize
  | stderrMaxSize
  | stdinCurrPos
  | tscFrequency
  | heapBrk
  | mmapP
  | info
  | stdin
  | stdout
  | stderr
deriving DecidableEq

/-- A program with the library: where the statics are, what `getauxval` finds, and
    where the regions lie that `DuckInfo` names. -/
structure Env where
  x : Statics
  getauxval : Nat → Nat
  stdinPtr : Nat
  stdinSize : Nat
  stdoutPtr : Nat
  stdoutMax : Nat
  stderrPtr : Nat
  stderrMax : Nat

namespace Env

variable (E : Env)

/-- The address of `DuckInfo`. -/
def info : Nat := E.getauxval ELF.AT_DUCK

def start : Slot → Nat
  | .inited => E.x.inited
  | .duckinfo => E.x.duckinfo
  | .stdoutMaxSize => E.x.stdoutMaxSize
  | .stderrMaxSize => E.x.stderrMaxSize
  | .stdinCurrPos => E.x.stdinCurrPos
  | .tscFrequency => E.x.tscFrequency
  | .heapBrk => E.x.heapBrk
  | .mmapP => E.x.mmapP
  | .info => E.info
  | .stdin => E.stdinPtr
  | .stdout => E.stdoutPtr
  | .stderr => E.stderrPtr

def size : Slot → Nat
  | .inited => 1
  | .info => ELF.DUCKINFO_SIZE
  | .stdin => E.stdinSize
  | .stdout => E.stdoutMax
  | .stderr => E.stderrMax
  | _ => 8

def Owned (a : Nat) : Prop := ∃ s, E.start s ≤ a ∧ a < E.start s + E.size s

/-- An address in a variable of the library, outside the three streams. -/
def Variable (a : Nat) : Prop :=
  ∃ s, (s ≠ .stdin ∧ s ≠ .stdout ∧ s ≠ .stderr) ∧ E.start s ≤ a ∧ a < E.start s + E.size s

/-- The areas do not overlap, and addresses in them do not wrap. -/
structure Sound : Prop where
  apart : ∀ s s', s ≠ s' → E.start s + E.size s ≤ E.start s' ∨ E.start s' + E.size s' ≤ E.start s
  inside : ∀ s, E.start s + E.size s ≤ 2 ^ 64

/-- What the program does on its own leaves the areas alone. -/
def Leaves (m m' : Mem) : Prop := ∀ a, E.Owned a → m' a = m a

section Areas

variable {E : Env} {m m' : Mem} {s s' : Slot} {a b n : Nat} {bs : List UInt8}

theorem Sound.disjoint (h : E.Sound) (hne : s ≠ s') :
    E.start s + E.size s ≤ E.start s' ∨ E.start s' + E.size s' ≤ E.start s := h.apart s s' hne

theorem Variable.owned (h : E.Variable a) : E.Owned a := by
  obtain ⟨s, -, hlow, hhigh⟩ := h
  exact ⟨s, hlow, hhigh⟩

theorem owned_of_area (h1 : E.start s ≤ a) (h2 : a < E.start s + E.size s) : E.Owned a :=
  ⟨s, h1, h2⟩

theorem Leaves.trans {m'' : Mem} (h : E.Leaves m m') (h' : E.Leaves m' m'') : E.Leaves m m'' :=
  fun a ha => (h' a ha).trans (h a ha)

/-- A word of an area that was left alone. -/
theorem Leaves.read64 (h : E.Leaves m m') (h1 : E.start s ≤ a) (h2 : a + 8 ≤ E.start s + E.size s) :
    m'.read64 a = m.read64 a :=
  Mem.read64_congr fun i hi => h (a + i) (owned_of_area (s := s) (by omega) (by omega))

theorem Leaves.read (h : E.Leaves m m') (h1 : E.start s ≤ a) (h2 : a + n ≤ E.start s + E.size s) :
    m'.read a n = m.read a n :=
  Mem.read_congr fun i hi => h (a + i) (owned_of_area (s := s) (by omega) (by omega))

/-- A store outside all areas. -/
theorem leaves_write (h : ∀ i < bs.length, ¬ E.Owned (a + i)) : E.Leaves m (m.write a bs) := by
  intro y hy
  apply Mem.write_outside
  by_contra hcon
  have hsplit : a + (y - a) = y := by omega
  exact h (y - a) (by omega) (hsplit.symm ▸ hy)

/-- A store into one area leaves the words of another. -/
theorem Sound.read64_write (h : E.Sound) (hne : s ≠ s') (ha : E.start s ≤ a)
    (ha' : a + bs.length ≤ E.start s + E.size s) (hb : E.start s' ≤ b)
    (hb' : b + 8 ≤ E.start s' + E.size s') : (m.write a bs).read64 b = m.read64 b := by
  apply Mem.read64_write_disjoint
  have hdis := h.disjoint hne
  omega

theorem Sound.read_write (h : E.Sound) (hne : s ≠ s') (ha : E.start s ≤ a)
    (ha' : a + bs.length ≤ E.start s + E.size s) (hb : E.start s' ≤ b)
    (hb' : b + n ≤ E.start s' + E.size s') : (m.write a bs).read b n = m.read b n := by
  apply Mem.read_write_disjoint
  have hdis := h.disjoint hne
  omega

end Areas

end Env

end UserLib

end JudgePenguin
