/-
  JudgePenguin/KernelConsole.lean
  ===============================
  **What the kernel prints** (`kern/duck64_syscall_handler.cpp`, `lib/serial.cpp`).

  The C library of the kernel makes its system calls by calling a handler of its own,
  which sends the output to the serial port byte by byte, hands out a heap of 256 KiB
  and leaves the kernel for good at `SYS_exit`.

  `putc` looks at the line status at most 12800 times before it writes the byte,
  whether or not the port is ready.  Hence two results: with a transmitter that is free
  now and then the kernel is a console, which shows what was written in the order of the
  calls, and with any transmitter what goes out is some of that, in order, and the kernel
  does not hang.

    * the memory is that of the kernel; `heap_brk` is a variable that nothing else
      stores to;
    * `Serial::init` is never called, so that the port is as the firmware left it.
-/
import JudgePenguin.Lts
import JudgePenguin.Uart
import JudgePenguin.UserSyscalls

namespace JudgePenguin

open Words Uart

namespace KernelLib

open UserLib (Args asInt SIZEOF_STAT ARCH_SET_FS)

/-! ## `serial.cpp` -/

/-- Four reads of port `0x84`. -/
def delay (l : Line) (t : Transmitter) : Transmitter := t.accesses l 4

/-- The loop of `putc` with `n` attempts left. -/
def waitReady (l : Line) : Nat → Transmitter → Transmitter
  | 0, t => t
  | n + 1, t =>
    let r := t.lineStatus l
    if r.1 &&& TXRDY ≠ 0 then r.2 else waitReady l n (delay l r.2)

def POLLS : Nat := 12800

/-- `putc`; `outb` takes the low byte. -/
def putc (l : Line) (c : Int32) (t : Transmitter) : Transmitter :=
  (waitReady l POLLS t).transmit l c.toUInt32.toUInt8

/-- `write_buf`; a `char` is signed. -/
def writeBuf (l : Line) (s : List UInt8) (t : Transmitter) : Transmitter :=
  s.foldl (fun t b => putc l b.toInt8.toInt32 t) t

/-! ## The handler -/

def KERNEL_HEAP_SIZE : Nat := 256 * 2 ^ 10

/-- The kernel between two calls: its memory, the port, `heap_brk`, the base of `fs`, and
    the code with which it has been left. -/
structure Kernel where
  mem : Mem
  port : Transmitter
  heapBrk : Nat
  fsbase : UInt64
  exited : Option Int32

/-- What a call comes to: `duck_exit` does not return. -/
inductive Reply where
  | returns (v : Nat)
  | exits (code : Int32)
deriving DecidableEq

def duckWrite (l : Line) (fd : Int) (buf len : Nat) (k : Kernel) : Nat × Kernel :=
  if fd ≠ 1 ∧ fd ≠ 2 then (0, k)
  else (len, { k with port := writeBuf l (k.mem.read buf len) k.port })

/-- The loop of `duck_writev` over the `n` elements from `iov` on; `ret` is the sum so
    far. -/
def writevFrom (l : Line) (fd : Int) : Nat → Nat → Nat → Kernel → Nat × Kernel
  | 0, _, ret, k => (ret, k)
  | n + 1, iov, ret, k =>
    let len := k.mem.read64 (iov + 8)
    let r := duckWrite l fd (k.mem.read64 iov) len k
    let ret := if r.1 ≤ len then wrap64 (ret + r.1) else ret
    if r.1 ≠ len then (ret, r.2) else writevFrom l fd n (iov + 16) ret r.2

def duckWritev (l : Line) (fd : Int) (iov : Nat) (cnt : Int) (k : Kernel) : Nat × Kernel :=
  writevFrom l fd cnt.toNat iov 0 k

/-- `S_IFREG | 0644`. -/
def REGULAR_MODE : Nat := 0x8000 + 0o644

/-- The four members of a `struct stat` that are set. -/
def fillStat (m : Mem) (st size : Nat) : Mem :=
  let m := m.write (st + 24) (Mem.leBytes 4 REGULAR_MODE)
  let m := m.write64 (st + 48) size
  let m := m.write64 (st + 56) 4096
  m.write64 (st + 64) ((size + 4095) / 4096)

def duckFstat (fd : Int) (st : Nat) (k : Kernel) : Nat × Kernel :=
  let m := k.mem.fill st SIZEOF_STAT 0
  if fd = 0 then (0, { k with mem := fillStat m st 0 })
  else if fd = 1 then (0, { k with mem := fillStat m st 4096 })
  else (2 ^ 64 - 1, { k with mem := m })

/-- `duck_brk`, where the array `heap` has the address `heap`. -/
def duckBrk (heap addr : Nat) (k : Kernel) : Nat × Kernel :=
  let k := if k.heapBrk = 0 then { k with heapBrk := heap } else k
  if addr = 0 then (k.heapBrk, k)
  else
    let k := if addr > k.heapBrk ∧ addr ≤ heap + KERNEL_HEAP_SIZE then { k with heapBrk := addr }
      else k
    (k.heapBrk, k)

def duckArchPrctl (code : Int) (addr : UInt64) (k : Kernel) : Nat × Kernel :=
  if code = ARCH_SET_FS then (0, { k with fsbase := addr }) else (2 ^ 64 - 1, k)

/-- The cases of the switch. -/
inductive Sys where
  | brk
  | archPrctl
  | write
  | writev
  | ioctl
  | fstat
  | exit
deriving DecidableEq

def sysNumber : Sys → Nat
  | .write => 1
  | .fstat => 5
  | .brk => 12
  | .ioctl => 16
  | .writev => 20
  | .exit => 60
  | .archPrctl => 158

def allSys : List Sys := [.brk, .archPrctl, .write, .writev, .ioctl, .fstat, .exit]

def sysOf (n : UInt64) : Option Sys := allSys.find? fun s => sysNumber s = n.toNat

/-- A call that comes back. -/
def returning (r : Nat × Kernel) : Reply × Kernel := (.returns r.1, r.2)

/-- `__duck64__syscall_handler`. -/
def syscallHandler (l : Line) (heap : Nat) (a : Args) (k : Kernel) : Reply × Kernel :=
  match sysOf a.n with
  | some .brk => returning (duckBrk heap a.a1.toNat k)
  | some .archPrctl => returning (duckArchPrctl (asInt a.a1) a.a2 k)
  | some .write => returning (duckWrite l (asInt a.a1) a.a2.toNat a.a3.toNat k)
  | some .writev => returning (duckWritev l (asInt a.a1) a.a2.toNat (asInt a.a3) k)
  | some .ioctl => returning (0, k)
  | some .fstat => returning (duckFstat (asInt a.a1) a.a2.toNat k)
  | some .exit =>
    (.exits a.a1.toUInt32.toInt32, { k with exited := some a.a1.toUInt32.toInt32 })
  | none => returning (2 ^ 64 - 1, k)

/-! ## The kernel as a console -/

/-- What a call asks of the console: the bytes are those in its buffers. -/
inductive Request where
  | print (fd : Int) (bytes : List UInt8)
  | printAll (fd : Int) (bufs : List (List UInt8))
  | grow (addr : Nat)
  | exit (code : Int32)
  /-- A call that answers at once. -/
  | answer (v : Nat)

/-- The buffers of an array of `struct iovec`. -/
def iovBuffers (m : Mem) (iov : Nat) : Nat → List (List UInt8)
  | 0 => []
  | n + 1 => m.read (m.read64 iov) (m.read64 (iov + 8)) :: iovBuffers m (iov + 16) n

def request (a : Args) (m : Mem) : Request :=
  match sysOf a.n with
  | some .brk => .grow a.a1.toNat
  | some .archPrctl => .answer (if asInt a.a1 = ARCH_SET_FS then 0 else 2 ^ 64 - 1)
  | some .write => .print (asInt a.a1) (m.read a.a2.toNat a.a3.toNat)
  | some .writev => .printAll (asInt a.a1) (iovBuffers m a.a2.toNat (asInt a.a3).toNat)
  | some .ioctl => .answer 0
  | some .fstat => .answer (if asInt a.a1 = 0 ∨ asInt a.a1 = 1 then 0 else 2 ^ 64 - 1)
  | some .exit => .exit a.a1.toUInt32.toInt32
  | none => .answer (2 ^ 64 - 1)

/-- Standard output and standard error. -/
def Printed (fd : Int) : Prop := fd = 1 ∨ fd = 2

instance (fd : Int) : Decidable (Printed fd) := inferInstanceAs (Decidable (_ ∨ _))

/-- What a request shows. -/
def Request.shown : Request → List UInt8
  | .print fd bytes => if Printed fd then bytes else []
  | .printAll fd bufs => if Printed fd then bufs.flatten else []
  | _ => []

/-- A console: what it shows, the end of the heap, and whether it has been left. -/
structure Console where
  shown : List UInt8
  brk : Nat
  exited : Option Int32

/-- The end of the heap after a request for one. -/
def grown (heap brk addr : Nat) : Nat :=
  if brk < addr ∧ addr ≤ heap + KERNEL_HEAP_SIZE then addr else brk

/-- What a console answers. -/
def Console.reply (heap : Nat) (c : Console) : Request → Reply
  | .print fd bytes => .returns (if Printed fd then bytes.length else 0)
  | .printAll fd bufs => .returns (if Printed fd then wrap64 bufs.flatten.length else 0)
  | .grow addr => .returns (grown heap c.brk addr)
  | .exit code => .exits code
  | .answer v => .returns v

def Console.after (heap : Nat) (c : Console) (r : Request) : Console :=
  { shown := c.shown ++ r.shown
    brk := match r with
      | .grow addr => grown heap c.brk addr
      | _ => c.brk
    exited := match r with
      | .exit code => some code
      | _ => c.exited }

/-- What is seen of a run: the requests with their answers.  Between two calls other code
    stores to the memory, and time passes. -/
inductive Event where
  | call (r : Request) (answer : Reply)
  | other

def Event.shown : Event → List UInt8
  | .call r _ => r.shown
  | .other => []

/-- The output of a run. -/
def shown (es : List Event) : List UInt8 := es.flatMap Event.shown

inductive ConsoleStep (heap : Nat) : Console → Event → Console → Prop
  | call {c : Console} (r : Request) (hlive : c.exited = none) :
    ConsoleStep heap c (.call r (c.reply heap r)) (c.after heap r)
  | other {c : Console} : ConsoleStep heap c .other c

def console (heap : Nat) : Lts Console Event where
  start c := c = ⟨[], heap, none⟩
  step := ConsoleStep heap

inductive KernelStep (l : Line) (heap : Nat) : Kernel → Event → Kernel → Prop
  | call {k : Kernel} (a : Args) (hlive : k.exited = none) :
    KernelStep l heap k (.call (request a k.mem) (syscallHandler l heap a k).1)
      (syscallHandler l heap a k).2
  | store {k : Kernel} (m : Mem) : KernelStep l heap k .other { k with mem := m }
  | access {k : Kernel} : KernelStep l heap k .other { k with port := k.port.access l }

/-- The kernel starts with an unused heap and an idle port, and stays in its first run. -/
def kernel (l : Line) (heap : Nat) : Lts Kernel Event where
  start k := k.port.sent = [] ∧ k.port.holding = none ∧ k.heapBrk = 0 ∧ k.exited = none
  step := KernelStep l heap

/-! ## What is printed reaches the port -/

/-- A transmitter that is free at least once while `putc` waits. -/
def Timely (l : Line) : Prop := ∀ t, ∃ i < 5 * POLLS - 4, l.free (t + i) = true

/-- From `t` to `t'` the bytes `bs` were printed: nothing else has appeared, they took no
    more than their time, and with a timely transmitter they are all there. -/
structure Prints (l : Line) (t : Transmitter) (bs : List UInt8) (t' : Transmitter) : Prop where
  sublist : t'.accepted.Sublist (t.accepted ++ bs)
  time : t'.time ≤ t.time + (5 * POLLS + 1) * bs.length
  complete : Timely l → t'.accepted = t.accepted ++ bs

section Prints

variable {l : Line} {t t' t'' : Transmitter} {bs cs : List UInt8}

theorem Prints.refl (l : Line) (t : Transmitter) : Prints l t [] t where
  sublist := by rw [List.append_nil]
  time := by rw [List.length_nil, Nat.mul_zero, Nat.add_zero]
  complete _ := (List.append_nil _).symm

theorem Prints.trans (h : Prints l t bs t') (h' : Prints l t' cs t'') :
    Prints l t (bs ++ cs) t'' where
  sublist := by
    rw [← List.append_assoc]
    exact h'.sublist.trans (h.sublist.append (List.Sublist.refl cs))
  time := by
    have hfirst := h.time
    have hsecond := h'.time
    rw [List.length_append, Nat.mul_add]
    omega
  complete hl := by rw [h'.complete hl, h.complete hl, List.append_assoc]

/-- A port that is idle stays so. -/
theorem waitReady_holding (n : Nat) (h : t.holding = none) : (waitReady l n t).holding = none := by
  cases n with
  | zero => exact h
  | succ n =>
    have hready : (t.lineStatus l).2.holding = none := Transmitter.access_holding h
    simp only [waitReady, if_pos (Transmitter.txrdy_iff.mpr hready)]
    exact hready

/-- The loop ends with a ready port if the transmitter is free before the last look. -/
theorem waitReady_ready {n i : Nat} (hi : i < 5 * n - 4) (hfree : l.free (t.time + i) = true) :
    (waitReady l n t).holding = none := by
  induction n generalizing t i with
  | zero => omega
  | succ n ih =>
    simp only [waitReady]
    split
    · next hbit => exact Transmitter.txrdy_iff.mp hbit
    · next hbit =>
      have hfull : (t.lineStatus l).2.holding ≠ none := mt Transmitter.txrdy_iff.mpr hbit
      have htime : (t.lineStatus l).2.time = t.time + 1 := Transmitter.lineStatus_time
      rcases Nat.lt_or_ge i 5 with hsoon | hlate
      · -- the look itself found the register full, so it is emptied while the loop waits
        have hpos : i ≠ 0 := by
          rintro rfl
          exact hfull (Transmitter.access_free hfree)
        apply waitReady_holding
        apply Transmitter.accesses_free (i := i - 1) (by omega)
        rw [htime, Nat.add_assoc, Nat.add_sub_cancel' (by omega)]
        exact hfree
      · apply ih (i := i - 5) (by omega)
        rw [delay, Transmitter.accesses_time, htime]
        rw [show t.time + 1 + 4 + (i - 5) = t.time + i by omega]
        exact hfree

theorem waitReady_accepted (n : Nat) : (waitReady l n t).accepted = t.accepted := by
  induction n generalizing t with
  | zero => rfl
  | succ n ih =>
    simp only [waitReady]
    split
    · exact Transmitter.lineStatus_accepted
    · rw [ih, delay, Transmitter.accesses_accepted, Transmitter.lineStatus_accepted]

theorem waitReady_time (n : Nat) : (waitReady l n t).time ≤ t.time + 5 * n := by
  induction n generalizing t with
  | zero => exact le_refl _
  | succ n ih =>
    simp only [waitReady]
    split
    · rw [Transmitter.lineStatus_time]
      omega
    · have hrest := ih (t := delay l (t.lineStatus l).2)
      rw [delay, Transmitter.accesses_time, Transmitter.lineStatus_time] at hrest
      exact hrest.trans (by omega)

/-- A `char` that has been extended is cut again. -/
theorem putc_byte (b : UInt8) : b.toInt8.toInt32.toUInt32.toUInt8 = b := by
  apply UInt8.toBitVec_inj.mp
  ext i hi
  have hi' : i < 32 := by omega
  simp [BitVec.getElem_signExtend, hi, hi']

theorem putc_prints (l : Line) (t : Transmitter) (b : UInt8) :
    Prints l t [b] (putc l b.toInt8.toInt32 t) := by
  rw [putc, putc_byte]
  constructor
  · have hlast := Transmitter.transmit_sublist (l := l) (t := waitReady l POLLS t) (b := b)
    rwa [waitReady_accepted] at hlast
  · have hwait := waitReady_time (l := l) (t := t) POLLS
    rw [Transmitter.transmit_time, List.length_singleton]
    omega
  · intro hl
    obtain ⟨i, hi, hfree⟩ := hl t.time
    rw [Transmitter.transmit_accepted (waitReady_ready hi hfree), waitReady_accepted]

theorem writeBuf_prints (l : Line) (s : List UInt8) (t : Transmitter) :
    Prints l t s (writeBuf l s t) := by
  induction s generalizing t with
  | nil => exact Prints.refl l t
  | cons b s ih => exact (putc_prints l t b).trans (ih _)

end Prints

/-! ## One call -/

section Calls

variable {l : Line} {heap : Nat} {k : Kernel}

/-- What a call does to the port and to what belongs to the console, apart from the
    heap. -/
structure Does (l : Line) (k : Kernel) (bs : List UInt8) (k' : Kernel) : Prop where
  prints : Prints l k.port bs k'.port
  heapBrk : k'.heapBrk = k.heapBrk
  mem : k'.mem = k.mem
  exited : k'.exited = k.exited

theorem Does.refl (l : Line) (k : Kernel) : Does l k [] k := ⟨Prints.refl l _, rfl, rfl, rfl⟩

theorem Does.trans {k' k'' : Kernel} {bs cs : List UInt8} (h : Does l k bs k')
    (h' : Does l k' cs k'') : Does l k (bs ++ cs) k'' :=
  ⟨h.prints.trans h'.prints, h'.heapBrk.trans h.heapBrk, h'.mem.trans h.mem,
    h'.exited.trans h.exited⟩

theorem duckWrite_spec (l : Line) (fd : Int) (buf len : Nat) (k : Kernel) :
    (duckWrite l fd buf len k).1 = (if Printed fd then len else 0) ∧
      Does l k (if Printed fd then k.mem.read buf len else []) (duckWrite l fd buf len k).2 := by
  unfold duckWrite
  by_cases hfd : Printed fd
  · have hnot : ¬ (fd ≠ 1 ∧ fd ≠ 2) := by
      rintro ⟨h1, h2⟩
      exact hfd.elim h1 h2
    rw [if_neg hnot, if_pos hfd, if_pos hfd]
    exact ⟨rfl, writeBuf_prints l _ k.port, rfl, rfl, rfl⟩
  · have hne : fd ≠ 1 ∧ fd ≠ 2 := ⟨fun h => hfd (Or.inl h), fun h => hfd (Or.inr h)⟩
    rw [if_pos hne, if_neg hfd, if_neg hfd]
    exact ⟨rfl, Does.refl l k⟩

/-- All buffers are printed, or none. -/
theorem writevFrom_spec (l : Line) (fd : Int) (n iov ret : Nat) (hret : ret < 2 ^ 64)
    (k : Kernel) :
    (writevFrom l fd n iov ret k).1 =
        (if Printed fd then wrap64 (ret + (iovBuffers k.mem iov n).flatten.length) else ret) ∧
      Does l k (if Printed fd then (iovBuffers k.mem iov n).flatten else [])
        (writevFrom l fd n iov ret k).2 := by
  induction n generalizing iov ret k with
  | zero =>
    have hflat : (iovBuffers k.mem iov 0).flatten = [] := rfl
    rw [hflat, ite_self]
    refine ⟨?_, Does.refl l k⟩
    split
    · exact (wrap64_of_lt hret).symm
    · rfl
  | succ n ih =>
    obtain ⟨hlen, hdoes⟩ :=
      duckWrite_spec l fd (k.mem.read64 iov) (k.mem.read64 (iov + 8)) k
    simp only [writevFrom]
    by_cases hfd : Printed fd
    · rw [if_pos hfd] at hlen hdoes ⊢
      rw [hlen, if_pos (le_refl _), if_neg (not_not.mpr rfl)]
      obtain ⟨hret', hrest⟩ := ih (iov + 16) (wrap64 (ret + k.mem.read64 (iov + 8)))
        (wrap64_lt _) (duckWrite l fd (k.mem.read64 iov) (k.mem.read64 (iov + 8)) k).2
      rw [if_pos hfd, hdoes.mem] at hret' hrest
      rw [if_pos hfd]
      constructor
      · rw [hret', iovBuffers, List.flatten_cons, List.length_append, Mem.length_read]
        simp only [wrap64]
        omega
      · exact hdoes.trans hrest
    · rw [if_neg hfd] at hlen hdoes ⊢
      have hsum : wrap64 (ret + 0) = ret := wrap64_of_lt hret
      rw [hlen, if_pos (Nat.zero_le _), hsum, if_neg hfd]
      split
      · exact ⟨rfl, hdoes⟩
      · obtain ⟨hret', hrest⟩ := ih (iov + 16) ret hret
          (duckWrite l fd (k.mem.read64 iov) (k.mem.read64 (iov + 8)) k).2
        rw [if_neg hfd] at hret' hrest
        exact ⟨hret', hdoes.trans hrest⟩

/-- The end of the heap as a call finds it. -/
def Kernel.brk (heap : Nat) (k : Kernel) : Nat := if k.heapBrk = 0 then heap else k.heapBrk

theorem duckBrk_spec (heap addr : Nat) (k : Kernel) :
    (duckBrk heap addr k).1 = grown heap (k.brk heap) addr ∧
      (duckBrk heap addr k).2.brk heap = grown heap (k.brk heap) addr ∧
      (duckBrk heap addr k).2.port = k.port ∧ (duckBrk heap addr k).2.exited = k.exited := by
  have hinit : (if k.heapBrk = 0 then { k with heapBrk := heap } else k) =
      { k with heapBrk := k.brk heap } := by
    unfold Kernel.brk
    split <;> rfl
  have hbrk : Kernel.brk heap { k with heapBrk := k.brk heap } = k.brk heap := by
    show (if k.brk heap = 0 then heap else k.brk heap) = k.brk heap
    split
    · next hzero =>
      unfold Kernel.brk at hzero ⊢
      split
      · rfl
      · next hne => exact absurd ((if_neg hne).symm.trans hzero) hne
    · rfl
  simp only [duckBrk, hinit]
  by_cases hzero : addr = 0
  · have hsame : grown heap (k.brk heap) addr = k.brk heap := by
      rw [grown, if_neg (by omega)]
    rw [if_pos hzero, hsame]
    exact ⟨rfl, hbrk, rfl, rfl⟩
  · rw [if_neg hzero]
    by_cases hgrow : addr > k.brk heap ∧ addr ≤ heap + KERNEL_HEAP_SIZE
    · rw [if_pos hgrow, grown, if_pos hgrow]
      refine ⟨rfl, ?_, rfl, rfl⟩
      show (if addr = 0 then heap else addr) = addr
      exact if_neg hzero
    · rw [if_neg hgrow, grown, if_neg hgrow]
      exact ⟨rfl, hbrk, rfl, rfl⟩

/-- The console that a kernel is, when it has shown `out`. -/
def Kernel.console (heap : Nat) (out : List UInt8) (k : Kernel) : Console :=
  ⟨out, k.brk heap, k.exited⟩

/-- **A call does what is asked of the console.** -/
theorem syscallHandler_spec (l : Line) (heap : Nat) (a : Args) (k : Kernel) (out : List UInt8) :
    (syscallHandler l heap a k).1 = (k.console heap out).reply heap (request a k.mem) ∧
      Prints l k.port (request a k.mem).shown (syscallHandler l heap a k).2.port ∧
      (syscallHandler l heap a k).2.console heap (out ++ (request a k.mem).shown) =
        (k.console heap out).after heap (request a k.mem) := by
  have hquiet (k' : Kernel) (h : k'.heapBrk = k.heapBrk) : k'.brk heap = k.brk heap := by
    unfold Kernel.brk
    rw [h]
  unfold syscallHandler request
  split
  · -- `brk`
    obtain ⟨hret, hbrk, hport, hexited⟩ := duckBrk_spec heap a.a1.toNat k
    refine ⟨congrArg Reply.returns hret, ?_, ?_⟩
    · show Prints l k.port [] (duckBrk heap a.a1.toNat k).2.port
      rw [hport]
      exact Prints.refl l k.port
    · show Console.mk _ _ _ = Console.mk _ _ _
      rw [show (returning (duckBrk heap a.a1.toNat k)).2 = (duckBrk heap a.a1.toNat k).2 from rfl,
        hbrk, hexited]
      rfl
  · -- `arch_prctl`
    unfold duckArchPrctl
    split
    · exact ⟨rfl, Prints.refl l k.port, rfl⟩
    · exact ⟨rfl, Prints.refl l k.port, rfl⟩
  · -- `write`
    obtain ⟨hret, hdoes⟩ := duckWrite_spec l (asInt a.a1) a.a2.toNat a.a3.toNat k
    refine ⟨?_, hdoes.prints, ?_⟩
    · refine congrArg Reply.returns (hret.trans ?_)
      rw [Mem.length_read]
    · show Console.mk _ (Kernel.brk heap (duckWrite _ _ _ _ _).2) (duckWrite _ _ _ _ _).2.exited =
        Console.mk _ _ _
      rw [hquiet _ hdoes.heapBrk, hdoes.exited]
      rfl
  · -- `writev`
    obtain ⟨hret, hdoes⟩ :=
      writevFrom_spec l (asInt a.a1) (asInt a.a3).toNat a.a2.toNat 0 (by decide) k
    rw [Nat.zero_add] at hret
    refine ⟨congrArg Reply.returns hret, hdoes.prints, ?_⟩
    show Console.mk _ (Kernel.brk heap (writevFrom _ _ _ _ _ _).2)
      (writevFrom _ _ _ _ _ _).2.exited = Console.mk _ _ _
    rw [hquiet _ hdoes.heapBrk, hdoes.exited]
    rfl
  · -- `ioctl`
    exact ⟨rfl, Prints.refl l k.port, rfl⟩
  · -- `fstat`
    unfold duckFstat
    by_cases h0 : asInt a.a1 = 0
    · rw [if_pos h0, if_pos (Or.inl h0)]
      exact ⟨rfl, Prints.refl l k.port, rfl⟩
    · by_cases h1 : asInt a.a1 = 1
      · rw [if_neg h0, if_pos h1, if_pos (Or.inr h1)]
        exact ⟨rfl, Prints.refl l k.port, rfl⟩
      · rw [if_neg h0, if_neg h1, if_neg (not_or.mpr ⟨h0, h1⟩)]
        exact ⟨rfl, Prints.refl l k.port, rfl⟩
  · -- `exit`
    exact ⟨rfl, Prints.refl l k.port, rfl⟩
  · exact ⟨rfl, Prints.refl l k.port, rfl⟩

end Calls

/-! ## Runs -/

section Runs

variable {l : Line} {heap : Nat} {k k₀ : Kernel} {c : Console} {es : List Event}

/-- A console shows what was asked of it. -/
theorem console_shown {c₀ : Console} (h : (console heap).Run c₀ es c) :
    c.shown = c₀.shown ++ shown es := by
  induction h with
  | nil c => exact (List.append_nil _).symm
  | @cons c c1 c2 e es hstep hrest ih =>
    have hshown : shown (e :: es) = e.shown ++ shown es := List.flatMap_cons ..
    rw [ih, hshown, ← List.append_assoc]
    cases hstep with
    | call r hlive => rfl
    | other => rw [Event.shown, List.append_nil]

/-- The heap of a console stays in its array. -/
theorem console_heap (heap : Nat) : (console heap).Inductive fun c =>
    heap ≤ c.brk ∧ c.brk ≤ heap + KERNEL_HEAP_SIZE where
  start c := by
    rintro rfl
    exact ⟨le_refl _, Nat.le_add_right _ _⟩
  step c e c' := by
    rintro ⟨hlow, hhigh⟩ hstep
    cases hstep with
    | other => exact ⟨hlow, hhigh⟩
    | call r hlive =>
      cases r with
      | grow addr =>
        show heap ≤ grown heap c.brk addr ∧ grown heap c.brk addr ≤ heap + KERNEL_HEAP_SIZE
        unfold grown
        split
        · next hgrow => exact ⟨hlow.trans (Nat.le_of_lt hgrow.1), hgrow.2⟩
        · exact ⟨hlow, hhigh⟩
      | print fd bytes => exact ⟨hlow, hhigh⟩
      | printAll fd bufs => exact ⟨hlow, hhigh⟩
      | exit code => exact ⟨hlow, hhigh⟩
      | answer v => exact ⟨hlow, hhigh⟩

/-- The console of a run, whatever the transmitter does. -/
theorem kernel_simulation (l : Line) (heap : Nat) :
    Lts.Simulation (kernel l heap) (console heap) fun k c =>
      c.brk = k.brk heap ∧ c.exited = k.exited where
  start k := by
    rintro ⟨-, -, hbrk, hexited⟩
    refine ⟨_, rfl, ?_, hexited.symm⟩
    rw [Kernel.brk, if_pos hbrk]
  step k c e k' := by
    rintro ⟨hbrk, hexited⟩ hstep
    cases hstep with
    | store m => exact ⟨c, .other, hbrk, hexited⟩
    | access => exact ⟨c, .other, hbrk, hexited⟩
    | call a hlive =>
      have hc : k.console heap c.shown = c := by
        rw [Kernel.console, ← hbrk, ← hexited]
      obtain ⟨hreply, -, hafter⟩ := syscallHandler_spec l heap a k c.shown
      rw [hc] at hreply hafter
      rw [hreply]
      refine ⟨_, .call (request a k.mem) (hexited.trans hlive), ?_⟩
      rw [← hafter]
      exact ⟨rfl, rfl⟩

/-- How long a run has waited outside of calls. -/
def waited (es : List Event) : Nat :=
  (es.map fun e => match e with
    | .call _ _ => 0
    | .other => 1).sum

/-- What one event does to the port. -/
theorem kernel_prints {e : Event} {k' : Kernel} (h : (kernel l heap).step k e k') :
    k'.port.accepted.Sublist (k.port.accepted ++ e.shown) ∧
      k'.port.time ≤ k.port.time + (5 * POLLS + 1) * e.shown.length + waited [e] ∧
      (Timely l → k'.port.accepted = k.port.accepted ++ e.shown) := by
  cases h with
  | call a hlive =>
    obtain ⟨-, hprints, -⟩ := syscallHandler_spec l heap a k []
    exact ⟨hprints.sublist, hprints.time, hprints.complete⟩
  | store m =>
    refine ⟨?_, Nat.le_add_right _ _, fun _ => (List.append_nil _).symm⟩
    exact List.sublist_append_left _ _
  | access =>
    refine ⟨?_, ?_, fun _ => ?_⟩
    · rw [Transmitter.access_accepted]
      exact List.sublist_append_left _ _
    · rw [Transmitter.access_time]
      exact le_refl _
    · rw [Transmitter.access_accepted]
      exact (List.append_nil _).symm

/-- What a run does to the port. -/
theorem run_prints (h : (kernel l heap).Run k₀ es k) :
    k.port.accepted.Sublist (k₀.port.accepted ++ shown es) ∧
      k.port.time ≤ k₀.port.time + (5 * POLLS + 1) * (shown es).length + waited es ∧
      (Timely l → k.port.accepted = k₀.port.accepted ++ shown es) := by
  induction h with
  | nil k =>
    refine ⟨List.sublist_append_left _ _, Nat.le_add_right _ _, fun _ => ?_⟩
    exact (List.append_nil _).symm
  | @cons k k1 k2 e es hstep hrest ih =>
    obtain ⟨hsub, htime, hcomplete⟩ := ih
    obtain ⟨hsub1, htime1, hcomplete1⟩ := kernel_prints hstep
    have hshown : shown (e :: es) = e.shown ++ shown es := List.flatMap_cons ..
    have hwaited : waited (e :: es) = waited [e] + waited es := by
      simp only [waited, List.map_cons, List.map_nil, List.sum_cons, List.sum_nil, Nat.add_zero]
    rw [hshown, hwaited, ← List.append_assoc]
    refine ⟨hsub.trans (hsub1.append (List.Sublist.refl _)), ?_, ?_⟩
    · rw [List.length_append, Nat.mul_add]
      omega
    · intro hl
      rw [hcomplete hl, hcomplete1 hl]

theorem start_accepted (h : (kernel l heap).start k) : k.port.accepted = [] := by
  obtain ⟨hsent, hholding, -, -⟩ := h
  rw [Transmitter.accepted, hsent, hholding]
  rfl

/-- The console that the kernel is at the end of a run. -/
theorem console_of_run (hstart : (kernel l heap).start k₀) (h : (kernel l heap).Run k₀ es k) :
    ∃ c, (console heap).Run ⟨[], heap, none⟩ es c ∧ c.shown = shown es ∧ c.brk = k.brk heap ∧
      c.exited = k.exited := by
  obtain ⟨c₀, rfl, hR⟩ := (kernel_simulation l heap).start k₀ hstart
  obtain ⟨c, hrun, hbrk, hexited⟩ := (kernel_simulation l heap).run h hR
  exact ⟨c, hrun, console_shown hrun, hbrk, hexited⟩

/-- **With a timely transmitter the kernel is a console**: every answer is one of the
    console, and the line has all of what it shows, but for one byte that may still be on
    its way. -/
theorem kernel_is_console (hl : Timely l) (hstart : (kernel l heap).start k₀)
    (h : (kernel l heap).Run k₀ es k) :
    ∃ c, (console heap).Run ⟨[], heap, none⟩ es c ∧ c.exited = k.exited ∧
      c.shown = k.port.sent ++ k.port.holding.toList := by
  obtain ⟨c, hrun, hshown, -, hexited⟩ := console_of_run hstart h
  have hall := (run_prints h).2.2 hl
  rw [start_accepted hstart, List.nil_append, ← hshown] at hall
  exact ⟨c, hrun, hexited, hall.symm⟩

/-- **With any transmitter** the answers are those of a console, the line has some of what
    was written, in order, a byte costs at most 64001 accesses to ports, and the heap stays
    in its array. -/
theorem kernel_with_any_line (hstart : (kernel l heap).start k₀)
    (h : (kernel l heap).Run k₀ es k) :
    ∃ c, (console heap).Run ⟨[], heap, none⟩ es c ∧
      (k.port.sent ++ k.port.holding.toList).Sublist c.shown ∧
      k.port.time ≤ k₀.port.time + 64001 * c.shown.length + waited es ∧
      heap ≤ k.brk heap ∧ k.brk heap ≤ heap + KERNEL_HEAP_SIZE := by
  obtain ⟨c, hrun, hshown, hbrk, -⟩ := console_of_run hstart h
  obtain ⟨hsub, htime, -⟩ := run_prints h
  rw [start_accepted hstart, List.nil_append, ← hshown] at hsub
  rw [← hshown] at htime
  obtain ⟨hlow, hhigh⟩ := (console_heap heap).reachable ⟨_, es, rfl, hrun⟩
  rw [hbrk] at hlow hhigh
  exact ⟨c, hrun, hsub, htime, hlow, hhigh⟩

end Runs

/-! ## Two characters -/

/-- A transmitter that is free every fourth access. -/
def sampleLine : Line := ⟨fun t => t % 4 = 0, fun _ => 0x41⟩

theorem sampleLine_timely : Timely sampleLine := by
  intro t
  refine ⟨3 - (t + 3) % 4, ?_, ?_⟩
  · unfold POLLS
    omega
  · refine decide_eq_true ?_
    omega

/-- The kernel with the string `Hi` at `0x100`. -/
def sampleKernel : Kernel :=
  ⟨fun x => if x = 0x100 then 72 else if x = 0x101 then 105 else 0, ⟨[], none, 0⟩, 0, 0, none⟩

/-- `write(1, "Hi", 2)`. -/
def sampleArgs : Args := ⟨1, 0x100, 2, 1⟩

theorem sample_started : (kernel sampleLine 0x5000).start sampleKernel := ⟨rfl, rfl, rfl, rfl⟩

theorem sample_run : (kernel sampleLine 0x5000).Run sampleKernel
    [.call (.print 1 [72, 105]) (.returns 2)]
    (syscallHandler sampleLine 0x5000 sampleArgs sampleKernel).2 :=
  .cons (.call sampleArgs rfl) (.nil _)

theorem kernel_is_console_sample : ∃ c, (console 0x5000).Run ⟨[], 0x5000, none⟩
    [.call (.print 1 [72, 105]) (.returns 2)] c ∧ c.shown = [72, 105] := by
  obtain ⟨c, hrun, -, hshown⟩ := kernel_is_console sampleLine_timely sample_started sample_run
  exact ⟨c, hrun, hshown⟩

theorem kernel_with_any_line_sample : ∃ c, (console 0x5000).Run ⟨[], 0x5000, none⟩
    [.call (.print 1 [72, 105]) (.returns 2)] c ∧ [72, 105].Sublist c.shown := by
  obtain ⟨c, hrun, hsub, -⟩ := kernel_with_any_line sample_started sample_run
  exact ⟨c, hrun, hsub⟩

end KernelLib

end JudgePenguin
