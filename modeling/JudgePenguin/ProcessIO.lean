/-
  JudgePenguin/ProcessIO.lean
  ===========================
  **What a program for JudgeDuck sees**: a process with an input, two outputs that
  are cut at their limits, a heap and an exit code.

  `process` says it without a word about memory; a state is a `Lib`.  `machine` is
  the program with the library in its memory: it computes, leaving the library's
  areas alone, and makes any system call at any time (`duck64SyscallHandler`), as
  long as the memory that it passes is its own.  `machine_refines` takes every run
  of the machine, in whatever order the calls come, to a run of the process; so the
  streams come out as if no other call had been made (`streams_of_run`).
-/
import JudgePenguin.Lts
import JudgePenguin.UserSyscalls
import JudgePenguin.StdinDelivery
import JudgePenguin.OutputDelivery

namespace JudgePenguin

open Words

namespace UserLib

/-! ## Events -/

/-- The members of a `struct stat` that a program finds set. -/
structure StatInfo where
  mode : Nat
  size : Nat
  blksize : Nat
  blocks : Nat
deriving DecidableEq

/-- A call with what the program sees of it. -/
inductive IoEvent where
  | compute
  | read (asked : Nat) (got : List UInt8) (ret : Nat)
  | write (s : Stream) (bytes : List UInt8) (ret : Nat)
  | noStream (ret : Nat)
  | brk (addr ret : Nat)
  | mmap (size ret : Nat)
  | clock (clkId : Int) (ret : Nat)
  | stat (fd : Int) (ret : Nat) (info : StatInfo)
  | prctl (code : Int) (addr : UInt64) (ret : Nat) (fsbase : Option UInt64)
  | uname (ret : Nat)
  | readlink
  | constant (s : Option Sys) (ret : Nat)
  | exit (code : Int) (status : Trap.Exported)
  | abort (status : Trap.Exported)

/-! ## The process -/

/-- The calls that do nothing, with their answers. -/
def constantRet : Option Sys → Option Nat
  | some .ioctl => some 0
  | some .rtSigprocmask => some 0
  | some .rtSigaction => some 0
  | some .sigaltstack => some 0
  | some .setTidAddress => some 12345
  | some .mprotect => some 0
  | some .munmap => some 0
  | some .poll => some 0
  | some .getpid => some 1234
  | some .gettid => some 1234
  | none => some (2 ^ 64 - 1)
  | _ => none

/-- A regular file of `size` bytes. -/
def regularFile (size : Nat) : StatInfo := ⟨REGULAR_MODE, size, 4096, wrap64 (size + 4095) / 4096⟩

/-- What `fstat` says of standard input and standard output; it knows no others. -/
def Lib.stat (L : Lib) (fd : Int) : Nat × StatInfo :=
  if fd = 0 then (0, regularFile L.stdin.length)
  else if fd = 1 then (0, regularFile L.out.length)
  else (2 ^ 64 - 1, ⟨0, 0, 0, 0⟩)

/-- A process that is running, or has ended. -/
inductive Process where
  | running (L : Lib)
  | ended (L : Lib)

def Process.lib : Process → Lib
  | .running L => L
  | .ended L => L

/-- **The process.**  Output is cut at `max`. -/
inductive IoStep (max : Stream → Nat) : Process → IoEvent → Process → Prop
  | compute {L : Lib} : IoStep max (.running L) .compute (.running L)
  | read {L : Lib} {asked : Nat} {got : List UInt8} (hgot : got = (L.stdin.drop L.pos).take asked) :
    IoStep max (.running L) (.read asked got got.length) (.running { L with pos := L.pos + got.length })
  | write {L : Lib} {s : Stream} {bytes : List UInt8} :
    IoStep max (.running L) (.write s bytes bytes.length)
      (.running (L.keep s ((L.kept s ++ bytes).take (max s))))
  | noStream {L : Lib} : IoStep max (.running L) (.noStream 0) (.running L)
  | brk {L : Lib} {addr : Nat} : IoStep max (.running L) (.brk addr (Nat.max L.brk addr))
      (.running { L with brk := Nat.max L.brk addr })
  | mmap {L : Lib} {size : Nat} : IoStep max (.running L) (.mmap size L.mmapP)
      (.running { L with mmapP := wrap64 (L.mmapP + mmapSize size) })
  | clock {L : Lib} {clkId : Int} : IoStep max (.running L)
      (.clock clkId (if clkId = CLOCK_PROCESS_CPUTIME_ID then 0 else 2 ^ 64 - 1)) (.running L)
  | stat {L : Lib} {fd : Int} :
    IoStep max (.running L) (.stat fd (L.stat fd).1 (L.stat fd).2) (.running L)
  | setFs {L : Lib} {addr : UInt64} :
    IoStep max (.running L) (.prctl ARCH_SET_FS addr 0 (some addr)) (.running L)
  | prctl {L : Lib} {code : Int} {addr : UInt64} (h : code ≠ ARCH_SET_FS) :
    IoStep max (.running L) (.prctl code addr (2 ^ 64 - 1) none) (.running L)
  | uname {L : Lib} : IoStep max (.running L) (.uname 0) (.running L)
  | readlink {L : Lib} : IoStep max (.running L) .readlink (.running L)
  | constant {L : Lib} {s : Option Sys} {ret : Nat} (h : constantRet s = some ret) :
    IoStep max (.running L) (.constant s ret) (.running L)
  | exit {L : Lib} {code : Int} {status : Trap.Exported} (htrap : status.trapNum = Trap.TRAP_SYSCALL)
    (hcode : status.returnCode.toInt = code) : IoStep max (.running L) (.exit code status) (.ended L)
  | abort {L : Lib} {status : Trap.Exported} (htrap : status.trapNum = Trap.TRAP_ABORT) :
    IoStep max (.running L) (.abort status) (.ended L)

/-- The process of a program that the loader has set up: nothing read, nothing written. -/
def process (E : Env) : Lts Process IoEvent where
  start p := ∃ stdin mmapP, stdin.length = E.stdinSize ∧
    p = .running ⟨stdin, 0, [], [], E.heapStart, mmapP⟩
  step := IoStep fun s => E.size s.slot

/-! ## The machine -/

/-- The program in memory, and whether it is still running. -/
structure Machine where
  mem : Mem
  running : Bool

/-- The memory that a call names. -/
def Args.pieces (a : Args) (s : Syscall) (m : Mem) : List (Nat × Nat) :=
  Call.pieces ⟨s, a.a1, a.a2, a.a3, 0⟩ m

/-- The stream of a file descriptor. -/
def streamOf (fd : Int) : Option Stream :=
  if fd = 1 then some .stdout else if fd = 2 then some .stderr else none

/-- Memory of the program. -/
def Env.OwnsNot (E : Env) (a n : Nat) : Prop := ∀ i < n, ¬ E.Owned (a + i)

/-- What the library relies on: the memory that a call fills is memory of the program,
    vectors and what they name are not changed under way, and the clock has a
    frequency. -/
def Allowed (E : Env) (a : Args) (m : Mem) : Option Sys → Prop
  | some (.core .read) => asInt a.a1 = 0 →
    E.OwnsNot a.a2.toNat (min (intAsSize a.a3) (E.remaining m))
  | some (.core .readv) => asInt a.a1 = 0 → a.a3.toNat < 2 ^ 31 ∧
    IntoProgram E a.a2.toNat a.a3.toNat (E.remaining m) (a.pieces .readv m) ∧
    (shares (E.remaining m) (a.pieces .readv m)).Pairwise
      fun p q => p.1 + p.2 ≤ q.1 ∨ q.1 + q.2 ≤ p.1
  | some (.core .write) => ∀ s, streamOf (asInt a.a1) = some s →
    FromProgram E s (E.sizeOf m s) a.a2.toNat 0 (a.pieces .write m)
  | some (.core .writev) => ∀ s, streamOf (asInt a.a1) = some s → a.a3.toNat < 2 ^ 31 ∧
    total (a.pieces .writev m) < 2 ^ 64 ∧
    FromProgram E s (E.sizeOf m s) a.a2.toNat a.a3.toNat (a.pieces .writev m)
  | some (.core .clockGettime) => asInt a.a1 = CLOCK_PROCESS_CPUTIME_ID →
    E.OwnsNot a.a2.toNat 16 ∧ 0 < E.cell (ensureInit E.x E.getauxval m) .tscFrequency
  | some .fstat => E.OwnsNot a.a2.toNat SIZEOF_STAT
  | some .uname => E.OwnsNot a.a1.toNat (5 * UTSNAME_LENGTH)
  | some .readlink => E.OwnsNot a.a2.toNat (intAsSize a.a3)
  | _ => True

/-- The structure that `fstat` filled. -/
def statOf (m : Mem) (st : Nat) : StatInfo :=
  ⟨m.readLE (st + 24) 4, m.read64 (st + 48), m.read64 (st + 56), m.read64 (st + 64)⟩

/-- What the program sees of a call that returned: `m` is the memory before it. -/
def seen (a : Args) (m : Mem) (r : Reply) (fsbase : Option UInt64) : Option Sys → IoEvent
  | some (.core .read) =>
    if asInt a.a1 = 0 then .read (intAsSize a.a3) (r.mem.read a.a2.toNat r.ret) r.ret
    else .noStream r.ret
  | some (.core .readv) =>
    if asInt a.a1 = 0 then
      .read (total (a.pieces .readv m)) (gathered r.mem (shares r.ret (a.pieces .readv m))) r.ret
    else .noStream r.ret
  | some (.core .write) =>
    (streamOf (asInt a.a1)).elim (.noStream r.ret) fun s =>
      .write s (gathered m (a.pieces .write m)) r.ret
  | some (.core .writev) =>
    (streamOf (asInt a.a1)).elim (.noStream r.ret) fun s =>
      .write s (gathered m (a.pieces .writev m)) r.ret
  | some (.core .brk) => .brk a.a1.toNat r.ret
  | some (.core .mmap) => .mmap a.a2.toNat r.ret
  | some (.core .clockGettime) => .clock (asInt a.a1) r.ret
  | some .fstat => .stat (asInt a.a1) r.ret (statOf r.mem a.a2.toNat)
  | some .archPrctl => .prctl (asInt a.a1) a.a2 r.ret fsbase
  | some .uname => .uname r.ret
  | some .readlink => .readlink
  | s => .constant s r.ret

/-- What is seen of a call that did not return. -/
def seenEnd (a : Args) (status : Trap.Exported) : Option Sys → IoEvent
  | some .exit => .exit (asInt a.a1) status
  | some .exitGroup => .exit (asInt a.a1) status
  | _ => .abort status

inductive MachineStep (E : Env) : Machine → IoEvent → Machine → Prop
  | compute {m m' : Mem} (h : E.Leaves m m') : MachineStep E ⟨m, true⟩ .compute ⟨m', true⟩
  | returns {m : Mem} {ch : Chance} {a : Args} {r : Reply} {fsbase : Option UInt64}
    (hallowed : Allowed E a m (sysOf a.n))
    (hcall : duck64SyscallHandler E.x E.getauxval ch a m = .returns r fsbase) :
    MachineStep E ⟨m, true⟩ (seen a m r fsbase (sysOf a.n)) ⟨r.mem, true⟩
  | ends {m m' : Mem} {ch : Chance} {a : Args} {rax rdi : UInt64} {returnCode : Int32}
    (hcall : duck64SyscallHandler E.x E.getauxval ch a m = .syscall rax rdi m') :
    MachineStep E ⟨m, true⟩
      (seenEnd a (Trap.exportReturnCode Trap.TRAP_SYSCALL rax rdi returnCode) (sysOf a.n))
      ⟨m', false⟩

/-- A program that the loader has set up. -/
def machine (E : Env) : Lts Machine IoEvent where
  start s := InfoSet E s.mem ∧ s.mem E.x.inited = 0 ∧ s.running = true
  step := MachineStep E

/-! ## Every call is a step -/

/-- The process answers the program with `e`, and the memory holds its next state. -/
def Served (E : Env) (L : Lib) (e : IoEvent) (m : Mem) : Prop :=
  ∃ L', IoStep (fun s => E.size s.slot) (.running L) e (.running L') ∧ Current E m L' ∧
    L'.pos ≤ E.stdinSize

section Calls

variable {E : Env} {m : Mem} {L : Lib} {ch : Chance} {a : Args}

/-- A call that changes nothing. -/
theorem Current.served (hm : Current E m L) (hpos : L.pos ≤ E.stdinSize) {e : IoEvent}
    (hstep : IoStep (fun s => E.size s.slot) (.running L) e (.running L)) : Served E L e m :=
  ⟨L, hstep, hm, hpos⟩

/-- The loop over a vector with an operation that does nothing. -/
theorem vectored_idle {op : Nat → Nat → Mem → Reply} (hop : ∀ b l m, op b l m = ⟨0, [], m⟩)
    (n iov : Nat) (acc : Reply) (hacc : acc.ret = 0) :
    (vectored op n iov acc).ret = 0 ∧ (vectored op n iov acc).mem = acc.mem := by
  induction n generalizing iov acc with
  | zero => exact ⟨hacc, rfl⟩
  | succ n ih =>
    rw [vectored, hop]
    have hret : wrap64 (acc.ret + 0) = 0 := by rw [hacc]; rfl
    dsimp only
    rw [if_pos (Nat.zero_le _), hret]
    split_ifs
    · exact ⟨rfl, rfl⟩
    · exact ih (iov + 16) ⟨0, acc.copied ++ [], acc.mem⟩ rfl

/-- The time stamp is not part of what a call names. -/
theorem Args.pieces_eq (a : Args) (tsc : UInt64) (s : Syscall) (m : Mem) :
    a.pieces s m = Call.pieces ⟨s, a.a1, a.a2, a.a3, tsc⟩ m := by
  simp only [Args.pieces, Call.pieces]

/-! ### Reading -/

/-- No element gets more than all of them together. -/
theorem shares_min (rem : Nat) (ps : List (Nat × Nat)) :
    shares (min (total ps) rem) ps = shares rem ps := by
  induction ps generalizing rem with
  | nil => rfl
  | cons p ps ih =>
    have hfirst : min p.2 (min (p.2 + total ps) rem) = min p.2 rem := by omega
    have hrest : min (p.2 + total ps) rem - p.2 = min (total ps) (rem - p.2) := by omega
    rw [total_cons, shares, shares, hfirst, hrest, ih]

theorem Holds.served_read (h : E.Sound) (hm : Holds E m L) (hpos : L.pos ≤ E.stdinSize)
    (hallowed : Allowed E a m (some (.core .read))) :
    let r := Entry.reply E ⟨⟨.read, a.a1, a.a2, a.a3, ch.tsc⟩, m⟩
    Served E L (seen a m r none (some (.core .read))) r.mem := by
  intro r
  have hcur := hm.ensureInit h
  have hr : r = duckRead E.x (asInt a.a1) a.a2.toNat (intAsSize a.a3)
    (UserLib.ensureInit E.x E.getauxval m) := rfl
  rw [seen]
  by_cases hfd : asInt a.a1 = 0
  · rw [if_pos hfd]
    rw [hfd] at hr
    have hinto := hallowed hfd
    rw [hm.remaining h] at hinto
    obtain ⟨hret, hcopied⟩ := hcur.duckRead_ret h hpos a.a2.toNat (intAsSize a.a3)
    obtain ⟨hnext, hstored, -⟩ := hcur.duckRead_mem h hpos hinto
    rw [← hr] at hret hcopied hnext hstored
    have hgot : r.mem.read a.a2.toNat r.ret = (L.stdin.drop L.pos).take (intAsSize a.a3) := by
      rw [hstored, hcopied, hret, ← hcur.length_stdin, ← List.length_drop, ← List.take_eq_take_min]
    have hstep := @IoStep.read (fun s => E.size s.slot) L _ _ hgot
    rw [Mem.length_read] at hstep
    have hle : L.pos + r.ret ≤ E.stdinSize := by omega
    exact ⟨_, hstep, hnext, hle⟩
  · have hidle : r = ⟨0, [], UserLib.ensureInit E.x E.getauxval m⟩ := by
      rw [hr, duckRead, if_neg hfd]
    rw [if_neg hfd, hidle]
    exact hcur.served hpos .noStream

theorem Holds.served_readv (h : E.Sound) (hm : Holds E m L) (hpos : L.pos ≤ E.stdinSize)
    (hallowed : Allowed E a m (some (.core .readv))) :
    let r := Entry.reply E ⟨⟨.readv, a.a1, a.a2, a.a3, ch.tsc⟩, m⟩
    Served E L (seen a m r none (some (.core .readv))) r.mem := by
  intro r
  have hcur := hm.ensureInit h
  rw [seen]
  by_cases hfd : asInt a.a1 = 0
  · rw [if_pos hfd]
    obtain ⟨hcount, hinto, hpair⟩ := hallowed hfd
    have hcall : ReadCall E ⟨.readv, a.a1, a.a2, a.a3, ch.tsc⟩ m :=
      ⟨Or.inr rfl, hfd, (fun hnum => nomatch hnum), fun _ => hcount, fun _ => hinto⟩
    obtain ⟨hexact, hnext⟩ := hm.read_step h hpos hcall fun hnum => nomatch hnum
    obtain ⟨ps, hps⟩ : ∃ ps, a.pieces .readv m = ps := ⟨_, rfl⟩
    have hlen := hcur.length_stdin
    have hret : r.ret = min (total ps) (E.stdinSize - L.pos) := by
      rw [← hps, ← hlen]
      exact hexact.ret
    have hshares : shares r.ret ps = shares (E.stdinSize - L.pos) ps := by
      rw [hret, shares_min]
    have hgot : gathered r.mem (shares r.ret ps) = (L.stdin.drop L.pos).take (total ps) := by
      rw [hm.remaining h, hps] at hpair
      have hstored := hexact.stored
      rw [hlen] at hstored
      have hsame : Call.pieces ⟨.readv, a.a1, a.a2, a.a3, ch.tsc⟩ m = ps := hps
      dsimp only at hstored
      rw [hsame] at hstored
      rw [hshares]
      refine (hstored hpair).trans (hexact.copied.trans ?_)
      have hret' : (Entry.reply E ⟨⟨.readv, a.a1, a.a2, a.a3, ch.tsc⟩, m⟩).ret =
        min (total ps) (E.stdinSize - L.pos) := hret
      rw [hret', ← hlen, ← List.length_drop, ← List.take_eq_take_min]
    rw [hps]
    have hstep := @IoStep.read (fun s => E.size s.slot) L _ _ hgot
    have hgotLen : (gathered r.mem (shares r.ret ps)).length = r.ret := by
      rw [hgot, List.length_take, List.length_drop, hlen, hret]
    rw [hgotLen] at hstep
    have hle : L.pos + r.ret ≤ E.stdinSize := by omega
    exact ⟨_, hstep, hnext, hle⟩
  · have hnothing (b l : Nat) (m : Mem) : duckRead E.x (asInt a.a1) b l m = ⟨0, [], m⟩ := by
      rw [duckRead, if_neg hfd]
    have hidle := vectored_idle hnothing (asInt a.a3).toNat a.a2.toNat
      ⟨0, [], UserLib.ensureInit E.x E.getauxval m⟩ rfl
    have hret : r.ret = 0 := hidle.1
    have hmem : r.mem = UserLib.ensureInit E.x E.getauxval m := hidle.2
    rw [if_neg hfd, hret, hmem]
    exact hcur.served hpos .noStream

/-! ### Writing -/

theorem streamOf_eq_some {fd : Int} {s : Stream} (h : streamOf fd = some s) : fd = s.fd := by
  rw [streamOf] at h
  split_ifs at h with h1 h2
  · cases h
    exact h1
  · cases h
    exact h2

theorem duckWrite_of_none (x : Statics) {fd : Int} (h : streamOf fd = none) (buf len : Nat) (m : Mem) :
    duckWrite x fd buf len m = ⟨0, [], m⟩ := by
  rw [streamOf] at h
  split_ifs at h with h1 h2
  rw [duckWrite, if_neg h1, if_neg h2]

/-- A write to one of the streams. -/
theorem Holds.served_write {s : Stream} {c : Call} (h : E.Sound) (hm : Holds E m L)
    (hpos : L.pos ≤ E.stdinSize) (hc : WriteCall E s c m) :
    Served E L (.write s (gathered m (c.pieces m)) (Entry.reply E ⟨c, m⟩).ret)
      (Entry.reply E ⟨c, m⟩).mem := by
  obtain ⟨hret, hnext, -⟩ := hm.write_step h hc
  have hlen (ps : List (Nat × Nat)) : (gathered m ps).length = total ps := by
    induction ps with
    | nil => rfl
    | cons p ps ih => rw [gathered_cons, List.length_append, Mem.length_read, total_cons, ih]
  have hasked : (Entry.reply E ⟨c, m⟩).ret = (gathered m (c.pieces m)).length := by
    rw [hret, hlen]
    rfl
  rw [hasked]
  refine ⟨_, .write, hnext, ?_⟩
  cases s <;> exact hpos

theorem Holds.served_writes (h : E.Sound) (hm : Holds E m L) (hpos : L.pos ≤ E.stdinSize)
    {number : Syscall} (hnum : number = .write ∨ number = .writev)
    (hallowed : Allowed E a m (some (.core number))) :
    let r := Entry.reply E ⟨⟨number, a.a1, a.a2, a.a3, ch.tsc⟩, m⟩
    Served E L (seen a m r none (some (.core number))) r.mem := by
  intro r
  have hcur := hm.ensureInit h
  have hidle (hnone : streamOf (asInt a.a1) = none) :
      r.ret = 0 ∧ r.mem = UserLib.ensureInit E.x E.getauxval m := by
    rcases hnum with rfl | rfl
    · have hr : r = ⟨0, [], UserLib.ensureInit E.x E.getauxval m⟩ :=
        duckWrite_of_none E.x hnone a.a2.toNat a.a3.toNat _
      rw [hr]
      exact ⟨rfl, rfl⟩
    · exact vectored_idle (duckWrite_of_none E.x hnone) (asInt a.a3).toNat a.a2.toNat _ rfl
  have hseen : seen a m r none (some (.core number)) =
      (streamOf (asInt a.a1)).elim (.noStream r.ret) fun s =>
        .write s (gathered m (a.pieces number m)) r.ret := by
    rcases hnum with rfl | rfl
    · rfl
    · rfl
  rw [hseen]
  cases hs : streamOf (asInt a.a1) with
  | none =>
    obtain ⟨hret, hmem⟩ := hidle hs
    rw [Option.elim_none, hret, hmem]
    exact hcur.served hpos .noStream
  | some s =>
    have hfd := streamOf_eq_some hs
    have hcall : WriteCall E s ⟨number, a.a1, a.a2, a.a3, ch.tsc⟩ m := by
      rcases hnum with rfl | rfl
      · have htotal : total (a.pieces .write m) = a.a3.toNat := total_singleton _
        exact ⟨.inl rfl, hfd, (fun hnum => nomatch hnum), htotal.trans_lt a.a3.toNat_lt,
          hallowed s hs⟩
      · obtain ⟨hcount, htotal, hfrom⟩ := hallowed s hs
        exact ⟨.inr rfl, hfd, fun _ => hcount, htotal, hfrom⟩
    rw [Option.elim_some, a.pieces_eq ch.tsc number m]
    exact hm.served_write h hpos hcall

/-! ### Memory -/

theorem Current.served_brk (h : E.Sound) (hm : Current E m L) (hpos : L.pos ≤ E.stdinSize) {addr : Nat}
    (haddr : addr < 2 ^ 64) :
    let r := UserLib.duckBrk E.x addr m
    Served E L (.brk addr r.ret) r.mem := by
  intro r
  obtain ⟨hret, hnext⟩ := hm.duckBrk h haddr
  have hr : r.ret = Nat.max L.brk addr := hret
  rw [hr]
  exact ⟨_, .brk, hnext, hpos⟩

theorem Current.served_mmap (h : E.Sound) (hm : Current E m L) (hpos : L.pos ≤ E.stdinSize)
    (size : Nat) :
    let r := UserLib.duckMmapTemp E.x size m
    Served E L (.mmap size r.ret) r.mem := by
  intro r
  obtain ⟨hret, hnext⟩ := hm.duckMmapTemp h size
  have hr : r.ret = L.mmapP := hret
  rw [hr]
  exact ⟨_, .mmap, hnext, hpos⟩

/-! ### Structures of the program -/

/-- A change within memory of the program. -/
theorem Env.OwnsNot.leaves {m' : Mem} {p n : Nat} (h : E.OwnsNot p n)
    (hout : ∀ x, x < p ∨ p + n ≤ x → m' x = m x) : E.Leaves m m' := by
  intro x hx
  refine hout x ?_
  by_contra hcon
  have hsplit : p + (x - p) = x := by omega
  exact h (x - p) (by omega) (hsplit.symm ▸ hx)

theorem fillStat_other (m : Mem) {st size x : Nat} (h : x < st ∨ st + SIZEOF_STAT ≤ x) :
    fillStat m st size x = m x := by
  have hsize : SIZEOF_STAT = 144 := rfl
  rw [fillStat, Mem.write64_outside _ _ _ (by omega), Mem.write64_outside _ _ _ (by omega),
    Mem.write64_outside _ _ _ (by omega)]
  exact Mem.write_outside _ _ _ (by rw [Mem.length_leBytes]; omega)

theorem statOf_fillStat (m : Mem) (st : Nat) {size : Nat} (h : size < 2 ^ 64) :
    statOf (fillStat m st size) st = regularFile size := by
  have hmode : REGULAR_MODE % 256 ^ 4 = REGULAR_MODE := by decide
  have hblocks : wrap64 (size + 4095) / 4096 < 2 ^ 64 :=
    Nat.lt_of_le_of_lt (Nat.div_le_self _ _) (wrap64_lt _)
  have hread : (m.write (st + 24) (Mem.leBytes 4 REGULAR_MODE)).read (st + 24) 4 =
      Mem.leBytes 4 REGULAR_MODE := by
    have hself := Mem.read_write_self m (st + 24) (Mem.leBytes 4 REGULAR_MODE)
    rwa [Mem.length_leBytes] at hself
  simp only [statOf, fillStat, regularFile, StatInfo.mk.injEq]
  refine ⟨?_, ?_, ?_, ?_⟩
  · rw [Mem.readLE, Mem.read_write64_disjoint _ _ _ (by omega),
      Mem.read_write64_disjoint _ _ _ (by omega), Mem.read_write64_disjoint _ _ _ (by omega), hread,
      Mem.leNat_leBytes, hmode]
  · rw [Mem.read64_write64_disjoint _ _ _ (by omega), Mem.read64_write64_disjoint _ _ _ (by omega),
      Mem.read64_write64_self _ _ h]
  · rw [Mem.read64_write64_disjoint _ _ _ (by omega), Mem.read64_write64_self _ _ (by decide)]
  · exact Mem.read64_write64_self _ _ hblocks

theorem readLE_zero {m : Mem} {p n : Nat} (h : ∀ i < n, m (p + i) = 0) : m.readLE p n = 0 := by
  have hread : m.read p n = List.replicate n 0 := by
    refine List.eq_replicate_iff.mpr ⟨Mem.length_read _ _ _, fun b hb => ?_⟩
    obtain ⟨i, hi, rfl⟩ := List.mem_map.mp hb
    exact h i (List.mem_range.mp hi)
  rw [Mem.readLE, hread, Mem.leNat_replicate_zero]

/-- A structure that was only cleared. -/
theorem statOf_fill (m : Mem) (st : Nat) : statOf (m.fill st SIZEOF_STAT 0) st = ⟨0, 0, 0, 0⟩ := by
  have hsize : SIZEOF_STAT = 144 := rfl
  have hmode : (m.fill st SIZEOF_STAT 0).readLE (st + 24) 4 = 0 :=
    readLE_zero fun i hi => Mem.fill_inside m 0 (by omega) (by omega)
  rw [statOf, hmode, Mem.read64_fill_zero m (by omega) (by omega),
    Mem.read64_fill_zero m (by omega) (by omega), Mem.read64_fill_zero m (by omega) (by omega)]

theorem Current.served_fstat (hm : Current E m L) (hpos : L.pos ≤ E.stdinSize) {fd : Int} {st : Nat}
    (hown : E.OwnsNot st SIZEOF_STAT) :
    let r := duckFstat E.x fd st m
    Served E L (.stat fd r.ret (statOf r.mem st)) r.mem := by
  intro r
  have hsizeLt : E.stdinSize < 2 ^ 64 := by
    rw [← hm.cells (.field .stdinSize) _ rfl]
    exact Env.cell_lt E m _
  have houtLt : L.out.length < 2 ^ 64 := Nat.lt_of_le_of_lt hm.outLe (hm.max_lt .stdout)
  have hcleared : Current E (m.fill st SIZEOF_STAT 0) L :=
    hm.leaves (hown.leaves fun x hx => Mem.fill_outside m 0 hx)
  have hfilled (size : Nat) : Current E (fillStat (m.fill st SIZEOF_STAT 0) st size) L :=
    hcleared.leaves (hown.leaves fun x hx => fillStat_other _ hx)
  have hinfo : (m.fill st SIZEOF_STAT 0).read64 E.x.duckinfo = E.info :=
    hcleared.cells .duckinfo _ rfl
  have hin : (m.fill st SIZEOF_STAT 0).read64 (E.info + 16) = E.stdinSize :=
    hcleared.cells (.field .stdinSize) _ rfl
  have hout : (m.fill st SIZEOF_STAT 0).read64 (E.info + 40) = L.out.length :=
    hcleared.cells (.field .stdoutSize) _ rfl
  have hstep := @IoStep.stat (fun s => E.size s.slot) L fd
  have hr : r = duckFstat E.x fd st m := rfl
  rw [duckFstat] at hr
  dsimp only at hr
  rw [hinfo, hin, hout] at hr
  by_cases h0 : fd = 0
  · rw [if_pos h0] at hr
    rw [Lib.stat, if_pos h0, hm.length_stdin] at hstep
    rw [hr, statOf_fillStat _ _ hsizeLt]
    exact (hfilled _).served hpos hstep
  · rw [if_neg h0] at hr
    rw [Lib.stat, if_neg h0] at hstep
    by_cases h1 : fd = 1
    · rw [if_pos h1] at hr hstep
      rw [hr, statOf_fillStat _ _ houtLt]
      exact (hfilled _).served hpos hstep
    · rw [if_neg h1] at hr hstep
      rw [hr, statOf_fill]
      exact hcleared.served hpos hstep

theorem Current.served_clock (hm : Current E m L) (hpos : L.pos ≤ E.stdinSize) {tsc : UInt64}
    {clkId : Int} {tp : Nat} (hown : clkId = CLOCK_PROCESS_CPUTIME_ID → E.OwnsNot tp 16) :
    let r := duckClockGetTime E.x tsc clkId tp m
    Served E L (.clock clkId r.ret) r.mem := by
  intro r
  have hstep := @IoStep.clock (fun s => E.size s.slot) L clkId
  have hr : r = duckClockGetTime E.x tsc clkId tp m := rfl
  rw [duckClockGetTime] at hr
  by_cases hclk : clkId = CLOCK_PROCESS_CPUTIME_ID
  · rw [if_pos hclk] at hr hstep
    have hleaves : E.Leaves m r.mem := by
      refine (hown hclk).leaves fun x hx => ?_
      rw [hr]
      dsimp only
      rw [Mem.write64_outside _ _ _ (by omega), Mem.write64_outside _ _ _ (by omega)]
    have hret : r.ret = 0 := by rw [hr]
    rw [hret]
    exact (hm.leaves hleaves).served hpos hstep
  · rw [if_neg hclk] at hr hstep
    rw [hr]
    exact hm.served hpos hstep

theorem duckUname_other (m : Mem) {buf x : Nat} (h : x < buf ∨ buf + 5 * UTSNAME_LENGTH ≤ x) :
    (duckUname buf m).mem x = m x := by
  have hlen : UTSNAME_LENGTH = 65 := rfl
  simp only [duckUname]
  rw [strncpySafe_other _ _ (by omega), strncpySafe_other _ _ (by omega),
    strncpySafe_other _ _ (by omega), strncpySafe_other _ _ (by omega),
    strncpySafe_other _ _ (by omega)]

/-! ### The switch -/

/-- The calls that return. -/
theorem Holds.served (h : E.Sound) (hm : Holds E m L) (hpos : L.pos ≤ E.stdinSize) {s : Sys}
    {r : Reply} {fsbase : Option UInt64} (hallowed : Allowed E a m (some s))
    (hcall : perform E.x ch a (UserLib.ensureInit E.x E.getauxval m) s = .returns r fsbase) :
    Served E L (seen a m r fsbase (some s)) r.mem := by
  have hcur := hm.ensureInit h
  have hconstant {ret : Nat} (hret : constantRet (some s) = some ret) :
      Served E L (.constant (some s) ret) (UserLib.ensureInit E.x E.getauxval m) :=
    hcur.served hpos (.constant hret)
  cases s with
  | core s =>
    cases hcall
    cases s with
    | brk => exact hcur.served_brk h hpos a.a1.toNat_lt
    | clockGettime => exact hcur.served_clock hpos fun hclk => (hallowed hclk).1
    | read => exact hm.served_read h hpos hallowed
    | readv => exact hm.served_readv h hpos hallowed
    | write => exact hm.served_writes h hpos (.inl rfl) hallowed
    | writev => exact hm.served_writes h hpos (.inr rfl) hallowed
    | mmap => exact hcur.served_mmap h hpos a.a2.toNat
  | archPrctl =>
    rw [perform, duckArchPrctl] at hcall
    split_ifs at hcall with hset
    · cases hcall
      rw [seen, hset]
      exact hcur.served hpos .setFs
    · cases hcall
      exact hcur.served hpos (.prctl hset)
  | fstat =>
    cases hcall
    exact hcur.served_fstat hpos hallowed
  | uname =>
    cases hcall
    have hown : E.OwnsNot a.a1.toNat (5 * UTSNAME_LENGTH) := hallowed
    exact (hcur.leaves (hown.leaves fun x hx => duckUname_other _ hx)).served hpos .uname
  | readlink =>
    cases hcall
    have hown : E.OwnsNot a.a2.toNat (intAsSize a.a3) := hallowed
    exact (hcur.leaves (hown.leaves fun x hx => strncpySafe_other _ _ hx)).served hpos .readlink
  | exit => cases hcall
  | exitGroup => cases hcall
  | tkill => cases hcall
  | tgkill => cases hcall
  | _ =>
    cases hcall
    exact hconstant rfl

/-- The code that `Trap` makes of `rdi` is the `int` that the program passed. -/
theorem ofBitVec_toInt (code : UInt64) :
    (Int32.ofBitVec (code.toUInt32.toUInt64).toUInt32.toBitVec).toInt = asInt code := by
  have hsame : (code.toUInt32.toUInt64).toUInt32 = code.toUInt32 := UInt32.toUInt32_toUInt64 _
  have hnat : code.toUInt32.toBitVec.toNat = code.toNat % 2 ^ 32 := by
    rw [UInt32.toNat_toBitVec, UInt64.toNat_toUInt32]
  rw [hsame, asInt]
  show code.toUInt32.toBitVec.toInt = _
  rw [BitVec.toInt_eq_toNat_cond, hnat]
  split_ifs <;> omega

/-- The calls that do not. -/
theorem Holds.served_end (h : E.Sound) (hm : Holds E m L) {s : Sys} {rax rdi : UInt64} {m' : Mem}
    (hcall : perform E.x ch a (UserLib.ensureInit E.x E.getauxval m) s = .syscall rax rdi m') :
    (∀ returnCode : Int32, IoStep (fun s => E.size s.slot) (.running L)
      (seenEnd a (Trap.exportReturnCode Trap.TRAP_SYSCALL rax rdi returnCode) (some s)) (.ended L)) ∧
      Current E m' L := by
  have hcur := hm.ensureInit h
  have hexit (returnCode : Int32) :
      Trap.exportReturnCode Trap.TRAP_SYSCALL 60 a.a1.toUInt32.toUInt64 returnCode =
        ⟨Trap.TRAP_SYSCALL, Int32.ofBitVec (a.a1.toUInt32.toUInt64).toUInt32.toBitVec⟩ := by
    rw [Trap.exportReturnCode, if_pos rfl, if_neg (by decide), if_neg (by decide)]
  have habort (rdi : UInt64) (returnCode : Int32) :
      Trap.exportReturnCode Trap.TRAP_SYSCALL 200 rdi returnCode =
        ⟨Trap.TRAP_ABORT, returnCode⟩ := by
    rw [Trap.exportReturnCode, if_pos rfl, if_pos (by decide)]
  cases s with
  | exit =>
    cases hcall
    refine ⟨fun returnCode => ?_, hcur⟩
    rw [hexit]
    exact .exit rfl (ofBitVec_toInt _)
  | exitGroup =>
    cases hcall
    refine ⟨fun returnCode => ?_, hcur⟩
    rw [hexit]
    exact .exit rfl (ofBitVec_toInt _)
  | tkill =>
    cases hcall
    refine ⟨fun returnCode => ?_, hcur⟩
    rw [habort]
    exact .abort rfl
  | tgkill =>
    cases hcall
    refine ⟨fun returnCode => ?_, hcur⟩
    rw [habort]
    exact .abort rfl
  | archPrctl =>
    rw [perform, duckArchPrctl] at hcall
    split_ifs at hcall
  | _ => cases hcall

/-- A call that does not come back leaves the state as it was. -/
theorem Holds.handler_end (h : E.Sound) (hm : Holds E m L) {rax rdi : UInt64} {m' : Mem}
    (hcall : duck64SyscallHandler E.x E.getauxval ch a m = .syscall rax rdi m') :
    (∀ returnCode : Int32, IoStep (fun s => E.size s.slot) (.running L)
      (seenEnd a (Trap.exportReturnCode Trap.TRAP_SYSCALL rax rdi returnCode) (sysOf a.n))
      (.ended L)) ∧ Current E m' L := by
  cases hs : sysOf a.n with
  | some s =>
    simp only [duck64SyscallHandler, hs] at hcall
    exact hm.served_end h hcall
  | none =>
    simp only [duck64SyscallHandler, hs] at hcall
    cases hcall

end Calls

/-! ## The machine is a process -/

/-- The memory of a machine holds the state of the process, and `DuckInfo` the sizes of
    its outputs, `init` having been called or not. -/
inductive Represents (E : Env) : Machine → Process → Prop
  | running {m : Mem} {L : Lib} (hm : Holds E m L) (hpos : L.pos ≤ E.stdinSize)
    (hsize : ∀ s : Stream, E.cell m (.field s.sizeField) = (L.kept s).length) :
    Represents E ⟨m, true⟩ (.running L)
  | ended {m : Mem} {L : Lib} (hm : Current E m L) (hpos : L.pos ≤ E.stdinSize) :
    Represents E ⟨m, false⟩ (.ended L)

section Refinement

variable {E : Env}

theorem InfoSet.fresh {m : Mem} (hm : InfoSet E m) (hinited : m E.x.inited = 0) : Fresh E m :=
  ⟨hinited, hm.stdinPtr, hm.stdinSize, hm.ptr .stdout, hm.limit .stdout, hm.ptr .stderr,
    hm.limit .stderr⟩

theorem Fresh.infoSet {m : Mem} (hm : Fresh E m)
    (hsize : ∀ s : Stream, E.cell m (.field s.sizeField) = 0) : InfoSet E m := by
  refine ⟨hm.stdinPtr, hm.stdinSize, fun s => ?_, fun s => ?_, hsize⟩
  · cases s
    · exact hm.stdoutPtr
    · exact hm.stderrPtr
  · cases s
    · exact hm.stdoutLimit
    · exact hm.stderrLimit

theorem represents_start {s : Machine} (hs : (machine E).start s) :
    Represents E s (.running (E.initial s.mem)) := by
  obtain ⟨m, running⟩ := s
  obtain ⟨hinfo, hinited, rfl⟩ := hs
  refine .running (.inr ⟨hinfo.fresh hinited, rfl⟩) (Nat.zero_le _) fun s => ?_
  cases s
  · exact hinfo.size .stdout
  · exact hinfo.size .stderr

theorem Represents.step (h : E.Sound) {s s' : Machine} {p : Process} {e : IoEvent}
    (hp : Represents E s p) (hstep : MachineStep E s e s') :
    ∃ p', IoStep (fun s => E.size s.slot) p e p' ∧ Represents E s' p' := by
  cases hstep with
  | compute hleaves =>
    cases hp with
    | running hm hpos hsize =>
      exact ⟨_, .compute, .running (hm.leaves hleaves) hpos fun s =>
        (hleaves.cell _).trans (hsize s)⟩
  | @returns m ch a r fsbase hallowed hcall =>
    cases hp with
    | @running _ L hm hpos hsize =>
      have hserved : Served E L (seen a m r fsbase (sysOf a.n)) r.mem := by
        cases hs : sysOf a.n with
        | some s =>
          rw [hs] at hallowed
          simp only [duck64SyscallHandler, hs] at hcall
          exact hm.served h hpos hallowed hcall
        | none =>
          simp only [duck64SyscallHandler, hs] at hcall
          cases hcall
          exact (hm.ensureInit h).served hpos (.constant rfl)
      obtain ⟨L', hstep, hm', hpos'⟩ := hserved
      exact ⟨_, hstep, .running (.inl hm') hpos' hm'.size⟩
  | @ends m m' ch a rax rdi returnCode hcall =>
    cases hp with
    | running hm hpos hsize =>
      obtain ⟨hstep, hm'⟩ := hm.handler_end h hcall
      exact ⟨_, hstep returnCode, .ended hm' hpos⟩

/-- What is kept is in the regions, and `DuckInfo` has its size. -/
theorem Represents.kept {s : Machine} {p : Process} (hp : Represents E s p) (t : Stream) :
    E.cell s.mem (.field t.sizeField) = (p.lib.kept t).length ∧
      s.mem.read (E.start t.slot) (p.lib.kept t).length = p.lib.kept t := by
  cases hp with
  | running hm hpos hsize =>
    refine ⟨hsize t, ?_⟩
    rcases hm with hm | ⟨-, rfl⟩
    · exact hm.kept t
    · cases t <;> rfl
  | ended hm hpos => exact ⟨hm.size t, hm.kept t⟩

theorem simulation (h : E.Sound) : Lts.Simulation (machine E) (process E) (Represents E) where
  start _ hs := ⟨_, ⟨_, _, Mem.length_read _ _ _, rfl⟩, represents_start hs⟩
  step _ _ _ _ hp hstep := hp.step h hstep

/-- **The library makes a process of the program.**  What is seen of a run, with any
    calls in any order, could have been seen of `process`. -/
theorem machine_refines (h : E.Sound) {es : List IoEvent} (hes : (machine E).Trace es) :
    (process E).Trace es := (simulation h).trace hes

end Refinement

/-! ## Streams -/

/-- What a call delivers from standard input. -/
def IoEvent.got : IoEvent → List UInt8
  | .read _ bs _ => bs
  | _ => []

/-- What a call writes to `s`. -/
def IoEvent.put (s : Stream) : IoEvent → List UInt8
  | .write t bs _ => if t = s then bs else []
  | _ => []

def input (es : List IoEvent) : List UInt8 := es.flatMap IoEvent.got

def output (s : Stream) (es : List IoEvent) : List UInt8 := es.flatMap (IoEvent.put s)

/-- The state of a process that has seen `es`. -/
structure Flowed (max : Stream → Nat) (stdin : List UInt8) (es : List IoEvent) (L : Lib) : Prop where
  source : L.stdin = stdin
  posLe : L.pos ≤ stdin.length
  input : input es = stdin.take L.pos
  kept : ∀ s, L.kept s = (output s es).take (max s)

section Flow

variable {max : Stream → Nat} {stdin : List UInt8} {es : List IoEvent} {L L' : Lib}

theorem input_append (es : List IoEvent) (e : IoEvent) : input (es ++ [e]) = input es ++ e.got := by
  rw [input, List.flatMap_append, List.flatMap_singleton]
  rfl

theorem output_append (s : Stream) (es : List IoEvent) (e : IoEvent) :
    output s (es ++ [e]) = output s es ++ e.put s := by
  rw [output, List.flatMap_append, List.flatMap_singleton]
  rfl

/-- An event that is neither a read nor a write to a stream. -/
theorem Flowed.quiet (h : Flowed max stdin es L) {e : IoEvent} (hgot : e.got = [])
    (hput : ∀ s, e.put s = []) (hstdin : L'.stdin = L.stdin) (hpos : L'.pos = L.pos)
    (hkept : ∀ s, L'.kept s = L.kept s) : Flowed max stdin (es ++ [e]) L' := by
  refine ⟨hstdin.trans h.source, hpos.symm ▸ h.posLe, ?_, fun s => ?_⟩
  · rw [input_append, hgot, List.append_nil, hpos]
    exact h.input
  · rw [output_append, hput, List.append_nil, hkept]
    exact h.kept s

theorem Flowed.step (h : Flowed max stdin es L) {p : Process} {e : IoEvent}
    (hstep : IoStep max (.running L) e p) : Flowed max stdin (es ++ [e]) p.lib := by
  cases hstep with
  | @read _ asked got hgot =>
    rw [h.source] at hgot
    have hlen : got.length ≤ stdin.length - L.pos := by
      rw [hgot, List.length_take, List.length_drop]
      exact Nat.min_le_right _ _
    have htake : got = (stdin.drop L.pos).take got.length := by
      have hself := List.take_length (l := got)
      rw [hgot, List.length_take, ← List.take_eq_take_min]
    have hposLe := h.posLe
    refine ⟨h.source, ?_, ?_, fun s => ?_⟩
    · dsimp only [Process.lib]
      omega
    · rw [input_append, h.input]
      dsimp only [Process.lib, IoEvent.got]
      rw [List.take_add, ← htake]
    · rw [output_append]
      exact (h.kept s).trans (congrArg (List.take (max s)) (List.append_nil _).symm)
  | @write _ s bytes =>
    refine ⟨(Lib.keep_stdin ..).trans h.source, ?_, ?_, fun t => ?_⟩
    · have hpos : (L.keep s ((L.kept s ++ bytes).take (max s))).pos = L.pos := by cases s <;> rfl
      dsimp only [Process.lib]
      rw [hpos]
      exact h.posLe
    · have hpos : (L.keep s ((L.kept s ++ bytes).take (max s))).pos = L.pos := by cases s <;> rfl
      rw [input_append]
      dsimp only [Process.lib, IoEvent.got]
      rw [hpos, List.append_nil]
      exact h.input
    · rw [output_append]
      dsimp only [Process.lib, IoEvent.put]
      by_cases hts : t = s
      · subst hts
        rw [Lib.kept_keep_self, if_pos rfl, h.kept, take_take_append]
      · rw [Lib.kept_keep_of_ne L hts, if_neg fun heq => hts heq.symm, List.append_nil]
        exact h.kept t
  | brk => exact h.quiet rfl (fun _ => rfl) rfl rfl fun s => by cases s <;> rfl
  | mmap => exact h.quiet rfl (fun _ => rfl) rfl rfl fun s => by cases s <;> rfl
  | _ => exact h.quiet rfl (fun _ => rfl) rfl rfl fun _ => rfl

/-- Nothing happens after the end. -/
theorem Flowed.process_step {e : IoEvent} {p p' : Process} (h : Flowed max stdin es p.lib)
    (hstep : IoStep max p e p') : Flowed max stdin (es ++ [e]) p'.lib := by
  cases p with
  | running L => exact h.step hstep
  | ended L => cases hstep

end Flow

/-- The state that a run from the start has come to. -/
theorem run_flowed {E : Env} (h : E.Sound) {s0 s : Machine} {es : List IoEvent}
    (hstart : (machine E).start s0) (hrun : (machine E).Run s0 es s) :
    ∃ p, Represents E s p ∧ Flowed (fun s => E.size s.slot) (E.stdinOf s0.mem) es p.lib := by
  obtain ⟨p, hprocess, hp⟩ := (simulation h).run hrun (represents_start hstart)
  have hempty : Flowed (fun s => E.size s.slot) (E.stdinOf s0.mem) [] (E.initial s0.mem) :=
    ⟨rfl, Nat.zero_le _, rfl, fun t => by cases t <;> exact List.take_nil.symm⟩
  have hflow : Flowed (fun s => E.size s.slot) (E.stdinOf s0.mem) ([] ++ es) p.lib :=
    hprocess.history (H := fun es p => Flowed _ _ es p.lib)
      (fun es p e p' hflow hstep => hflow.process_step hstep) hempty
  exact ⟨p, hp, hflow⟩

theorem Flowed.input_le {max : Stream → Nat} {stdin : List UInt8} {es : List IoEvent} {L : Lib}
    (h : Flowed max stdin es L) : UserLib.input es <+: stdin := by
  rw [h.input]
  exact List.take_prefix _ _

/-- What is in the regions is what was written, up to the limits. -/
theorem Represents.outputs {E : Env} {s : Machine} {p : Process} {stdin : List UInt8}
    {es : List IoEvent} (hp : Represents E s p)
    (h : Flowed (fun s => E.size s.slot) stdin es p.lib) (t : Stream) :
    E.cell s.mem (.field t.sizeField) = min (E.size t.slot) (output t es).length ∧
      s.mem.read (E.start t.slot) (min (E.size t.slot) (output t es).length) =
        (output t es).take (E.size t.slot) := by
  have hlen : (p.lib.kept t).length = min (E.size t.slot) (output t es).length := by
    rw [h.kept t, List.length_take]
  obtain ⟨hsize, hread⟩ := hp.kept t
  refine ⟨hsize.trans hlen, ?_⟩
  rw [← hlen, hread]
  exact h.kept t

/-- What a run has read, and what the judge would collect. -/
structure Streams (E : Env) (m₀ : Mem) (es : List IoEvent) (m : Mem) : Prop where
  input : input es <+: E.stdinOf m₀
  size : ∀ t : Stream, E.cell m (.field t.sizeField) = min (E.size t.slot) (output t es).length
  bytes : ∀ t : Stream, m.read (E.start t.slot) (min (E.size t.slot) (output t es).length) =
    (output t es).take (E.size t.slot)

/-- **The streams of a run**, at any time and whatever else was called in between, by
    single calls or by vectors: what was read is the beginning of the input, and each
    region has what was written, cut at the limit. -/
theorem streams_of_run {E : Env} (h : E.Sound) {s0 s : Machine} {es : List IoEvent}
    (hstart : (machine E).start s0) (hrun : (machine E).Run s0 es s) :
    Streams E s0.mem es s.mem := by
  obtain ⟨p, hp, hflow⟩ := run_flowed h hstart hrun
  exact ⟨hflow.input_le, fun t => (hp.outputs hflow t).1, fun t => (hp.outputs hflow t).2⟩

/-! ## The program of the examples -/

def exitArgs (code : UInt64) : Args := ⟨code, 0, 0, 60⟩

/-- `readv` with the vector of `inputMem`, `write` of what its first element got and
    `writev` of both. -/
def readvArgs : Args := ⟨0, 0x1200000, 2, 19⟩

def writeArgs : Args := ⟨1, 0x1100100, 3, 1⟩

def writevArgs : Args := ⟨2, 0x1200000, 2, 20⟩

def coreReply (s : Syscall) (a : Args) (m : Mem) : Reply :=
  Entry.reply sampleEnv ⟨⟨s, a.a1, a.a2, a.a3, 0⟩, m⟩

/-- The memory after the first call, and after the second. -/
def readMem : Mem := (coreReply .readv readvArgs inputMem).mem

def wroteMem : Mem := (coreReply .write writeArgs readMem).mem

theorem core_step {a : Args} {s : Syscall} (m : Mem) (hs : sysNumber (.core s) = a.n.toNat)
    (hallowed : Allowed sampleEnv a m (some (.core s))) :
    MachineStep sampleEnv ⟨m, true⟩ (seen a m (coreReply s a m) none (some (.core s)))
      ⟨(coreReply s a m).mem, true⟩ := by
  have hsys : sysOf a.n = some (.core s) := sysOf_eq_some.mpr hs
  have hcall := handler_core sampleEnv.x sampleEnv.getauxval ⟨0, 0⟩ a m hs
  have hstep := MachineStep.returns (E := sampleEnv) (hsys.symm ▸ hallowed) hcall
  rw [hsys] at hstep
  exact hstep

theorem exit_step (code : UInt64) (m : Mem) :
    MachineStep sampleEnv ⟨m, true⟩ (seenEnd (exitArgs code)
        (Trap.exportReturnCode Trap.TRAP_SYSCALL 60 code.toUInt32.toUInt64 0) (some .exit))
      ⟨ensureInit sampleEnv.x sampleEnv.getauxval m, false⟩ := by
  have hsys : sysOf (exitArgs code).n = some .exit := sysOf_eq_some.mpr rfl
  have hcall : duck64SyscallHandler sampleEnv.x sampleEnv.getauxval ⟨0, 0⟩ (exitArgs code) m =
      .syscall 60 code.toUInt32.toUInt64 (ensureInit sampleEnv.x sampleEnv.getauxval m) := by
    simp only [duck64SyscallHandler, hsys]
    rfl
  have hstep := @MachineStep.ends sampleEnv _ _ _ _ _ _ 0 hcall
  rw [hsys] at hstep
  exact hstep

theorem readvArgs_allowed : Allowed sampleEnv readvArgs inputMem (some (.core .readv)) := by
  have hpieces : readvArgs.pieces .readv inputMem = iovecs inputMem 0x1200000 2 := rfl
  refine fun _ => ⟨by decide, readvCall_allowed.vector rfl, ?_⟩
  rw [hpieces, inputMem_shares]
  decide

/-- What is copied is memory of the program. -/
theorem sampleEnv_fromProgram {s : Stream} {kept iov n : Nat} {ps : List (Nat × Nat)}
    (hvector : 0x1000000 ≤ iov ∧ iov + 16 * n ≤ 0x2000000)
    (hps : ∀ p ∈ ps, 0x1000000 ≤ p.1 ∧ p.1 + p.2 ≤ 0x2000000) :
    FromProgram sampleEnv s kept iov n ps := by
  have hprogram {a : Nat} (hlow : 0x1000000 ≤ a) (hhigh : a < 0x2000000) :
      ¬ sampleEnv.Changed s kept a := by
    rintro (hvar | ⟨hstart, hend⟩)
    · exact sampleEnv_program hlow hhigh hvar.owned
    · exact sampleEnv_program hlow hhigh (Env.owned_of_area (Nat.le_of_add_right_le hstart) hend)
  refine ⟨fun a hlow hhigh => hprogram (by omega) (by omega), fun p hp i hi => ?_⟩
  obtain ⟨q, hq, haddr, hle⟩ := exists_of_mem_shares hp
  have hin := hps q hq
  exact hprogram (by omega) (by omega)

theorem writeArgs_allowed : Allowed sampleEnv writeArgs readMem (some (.core .write)) := by
  have hpieces : writeArgs.pieces .write readMem = [(0x1100100, 3)] := rfl
  intro s _
  rw [hpieces]
  exact sampleEnv_fromProgram (by decide) (by decide)

theorem writevArgs_allowed : Allowed sampleEnv writevArgs wroteMem (some (.core .writev)) := by
  have hpieces : writevArgs.pieces .writev wroteMem = [(0x1100100, 3), (0x1100200, 4)] := by
    decide +kernel
  intro s _
  rw [hpieces]
  exact ⟨by decide, by decide, sampleEnv_fromProgram (by decide) (by decide)⟩

/-- What the program sees of the three calls, and of `exit(0)` after them. -/
def sampleEvents : List IoEvent :=
  [seen readvArgs inputMem (coreReply .readv readvArgs inputMem) none (some (.core .readv)),
    seen writeArgs readMem (coreReply .write writeArgs readMem) none (some (.core .write)),
    seen writevArgs wroteMem (coreReply .writev writevArgs wroteMem) none (some (.core .writev)),
    seenEnd (exitArgs 0) (Trap.exportReturnCode Trap.TRAP_SYSCALL 60 0 0) (some .exit)]

theorem sample_run : ∃ m, (machine sampleEnv).Run ⟨inputMem, true⟩ sampleEvents ⟨m, false⟩ :=
  ⟨_, .cons (core_step inputMem rfl readvArgs_allowed)
    (.cons (core_step readMem rfl writeArgs_allowed)
      (.cons (core_step wroteMem rfl writevArgs_allowed) (.cons (exit_step 0 _) (.nil _))))⟩

theorem sampleMem_infoSet : InfoSet sampleEnv sampleMem := by
  refine sampleMem_fresh.infoSet fun s => ?_
  cases s <;> decide +kernel

theorem inputMem_start : (machine sampleEnv).start ⟨inputMem, true⟩ := by
  refine ⟨inputMem_fresh.infoSet fun s => ?_, inputMem_fresh.inited, rfl⟩
  cases s <;> decide +kernel

theorem machine_refines_sample : (process sampleEnv).Trace sampleEvents := by
  obtain ⟨m, hrun⟩ := sample_run
  exact machine_refines sampleEnv_sound ⟨_, _, inputMem_start, hrun⟩

theorem streams_of_run_sample : input sampleEvents = [1, 2, 3, 4, 5, 6, 7] ∧
    output .stdout sampleEvents = [1, 2, 3] ∧ output .stderr sampleEvents = [1, 2, 3, 4, 5, 6, 7] ∧
    ∃ m, Streams sampleEnv inputMem sampleEvents m := by
  obtain ⟨m, hrun⟩ := sample_run
  exact ⟨by decide +kernel, by decide +kernel, by decide +kernel, m,
    streams_of_run sampleEnv_sound inputMem_start hrun⟩

end UserLib

end JudgePenguin
