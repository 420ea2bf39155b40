/-
  JudgePenguin/Elf.lean
  =====================
  **The ELF loader** (`lib/elf.cpp`, `ELF::load` and `load_elf64`).

  The loader validates the headers, lays out seven regions behind the program's
  memory, copies the segments and the inputs into user memory and builds the
  initial stack.  All its address arithmetic is modulo `2 ^ 64`.

  What the model keeps and what it does not:

    * `file` is the memory that the caller's pointers (`buf`, `stdin_ptr`, `IB_ptr`,
      `OB_ptr`) point into; the loader only reads it;
    * a read of `buf` at an index that is not below `len` is `stray`, an exit
      through one of the checks is `rejected`;
    * user memory is written only after the last check; the stores are returned in
      program order, so that the memory after the call is `umem.apply writes`;
    * `rsp` only moves down from `load_vaddr_break`, which is at least `0x400000`,
      so its subtractions are exact;
    * the commented-out calls (page flags, clearing) are not there; reloading `cr3`
      changes nothing that the model has.
-/
import JudgePenguin.ByteMemory
import JudgePenguin.Memory
import JudgePenguin.Guarded

namespace JudgePenguin

open Words Guarded

namespace ELF

/-! ## Inputs and results -/

/-- `buf` and `len`, with the memory that `buf` points into. -/
structure ElfFile where
  mem : Mem
  buf : Nat
  len : UInt32

structure AppConfig where
  memoryHardLimit : UInt64
  stdinPtr : Nat
  stdinSize : UInt64
  stdoutMaxSize : UInt64
  stderrMaxSize : UInt64
  IBPtr : Nat
  IBSize : UInt64
  OBPtr : Nat
  OBSize : UInt64
  OBNeedClear : Bool

/-- `ABI::DuckInfo_t`, fourteen packed words. -/
structure DuckInfo where
  abiVersion : Nat
  stdinPtr : Nat
  stdinSize : Nat
  stdoutPtr : Nat
  stdoutLimit : Nat
  stdoutSize : Nat
  stderrPtr : Nat
  stderrLimit : Nat
  stderrSize : Nat
  IBPtr : Nat
  IBLimit : Nat
  OBPtr : Nat
  OBLimit : Nat
  tscFrequency : Nat
deriving DecidableEq, Repr

def DuckInfo.words (d : DuckInfo) : List Nat :=
  [d.abiVersion, d.stdinPtr, d.stdinSize, d.stdoutPtr, d.stdoutLimit, d.stdoutSize, d.stderrPtr,
    d.stderrLimit, d.stderrSize, d.IBPtr, d.IBLimit, d.OBPtr, d.OBLimit, d.tscFrequency]

def DuckInfo.bytes (d : DuckInfo) : List UInt8 := d.words.flatMap (Mem.leBytes 8)

def DUCKINFO_SIZE : Nat := 112

/-- `ELF::App`; `duckinfo32_ptr` is null for a 64-bit program. -/
structure App where
  entry : Nat
  rsp : Nat
  startAddr : Nat
  breakAddr : Nat
  specialRegionStartAddr : Nat
  specialRegionBreakAddr : Nat
  stdinStartAddr : Nat
  stdinBreakAddr : Nat
  duckinfoOrig : DuckInfo
  duckinfoPtr : Nat

/-! ## Reading the file -/

/-- A little-endian field of `n` bytes at index `off` of `buf`. -/
def ElfFile.field (f : ElfFile) (off n : Nat) : Except Stop Nat :=
  access (off + n ≤ f.len.toNat) (f.mem.readLE (f.buf + off) n)

/-- The `n` bytes at index `off` of `buf`. -/
def ElfFile.bytes (f : ElfFile) (off n : Nat) : Except Stop (List UInt8) :=
  access (off + n ≤ f.len.toNat) (f.mem.read (f.buf + off) n)

/-- Leave unless the field has the value `v`. -/
def ElfFile.expect (f : ElfFile) (off n v : Nat) : Except Stop Unit := do
  let x ← f.field off n
  rejectIf (x ≠ v)

def EHDR64_SIZE : Nat := 64
def EHDR32_SIZE : Nat := 52
def PHDR_SIZE : Nat := 56
def EI_CLASS : Nat := 4
def EI_DATA : Nat := 5
def EI_VERSION : Nat := 6
def EI_OSABI : Nat := 7
def ELFCLASS64 : Nat := 2
def ELFDATA2LSB : Nat := 1
def EV_CURRENT : Nat := 1
def ELFOSABI_SYSV : Nat := 0
def ELFOSABI_LINUX : Nat := 3
def ET_EXEC : Nat := 2
def EM_X86_64 : Nat := 62
def PT_LOAD : Nat := 1

/-- The fields of the ELF header that are used later. -/
structure Ehdr where
  entry : Nat
  phoff : Nat
  phentsize : Nat
  phnum : Nat

/-- The header checks of `load_elf64`. -/
def readEhdr (f : ElfFile) : Except Stop Ehdr := do
  rejectIf (f.len.toNat < EHDR64_SIZE)
  f.expect 0 1 0x7f
  f.expect 1 1 0x45
  f.expect 2 1 0x4c
  f.expect 3 1 0x46
  f.expect EI_CLASS 1 ELFCLASS64
  f.expect EI_DATA 1 ELFDATA2LSB
  f.expect EI_VERSION 1 EV_CURRENT
  let osabi ← f.field EI_OSABI 1
  rejectIf (osabi ≠ ELFOSABI_SYSV ∧ osabi ≠ ELFOSABI_LINUX)
  f.expect 16 2 ET_EXEC
  f.expect 18 2 EM_X86_64
  f.expect 20 4 EV_CURRENT
  let entry ← f.field 24 8
  let phoff ← f.field 32 8
  let phentsize ← f.field 54 2
  let phnum ← f.field 56 2
  rejectIf (phoff ≥ f.len.toNat)
  rejectIf (phentsize ≥ f.len.toNat)
  rejectIf (phnum ≥ f.len.toNat)
  return ⟨entry, phoff, phentsize, phnum⟩

/-- The index of program header `i`. -/
def Ehdr.phdrOff (h : Ehdr) (i : Nat) : Nat := wrap64 (h.phoff + wrap64 (i * h.phentsize))

/-- One pass of the first loop over the program headers: check header `i` and
    widen the range of addresses. -/
def scanPhdr (f : ElfFile) (h : Ehdr) (range : Nat × Nat) (i : Nat) : Except Stop (Nat × Nat) := do
  let off := h.phdrOff i
  rejectIf (wrap64 (off + PHDR_SIZE) > f.len.toNat)
  let type ← f.field off 4
  if type ≠ PT_LOAD then return range
  else
    let offset ← f.field (off + 8) 8
    let vaddr ← f.field (off + 16) 8
    let filesz ← f.field (off + 32) 8
    let memsz ← f.field (off + 40) 8
    let align ← f.field (off + 48) 8
    rejectIf (filesz ≠ 0 ∧ (offset > f.len.toNat ∨ wrap64 (offset + filesz) > f.len.toNat))
    rejectIf (align ≠ PAGE_SIZE ∧ align ≠ HUGE_PAGE_SIZE)
    rejectIf (memsz < filesz)
    rejectIf (wrap64 (vaddr + memsz) < vaddr)
    return (min range.1 vaddr, max range.2 (wrap64 (vaddr + memsz)))

/-- `min_vaddr` and `max_vaddr` after the loop. -/
def scanPhdrs (f : ElfFile) (h : Ehdr) : Except Stop (Nat × Nat) :=
  (List.range h.phnum).foldlM (scanPhdr f h) (2 ^ 64 - 1, 0)

/-! ## The layout -/

/-- A region of user memory: its `load_vaddr` and its `load_break`. -/
structure Region where
  vaddr : Nat
  brk : Nat
deriving DecidableEq, Repr

/-- Append `allocSize` bytes to the special region. -/
def allocate (curr allocSize : Nat) : Except Stop Region := do
  let brk := wrap64 (curr + allocSize)
  rejectIf (brk < curr)
  return ⟨curr, brk⟩

/-- Append a region for `size` bytes. -/
def allocateFor (curr size : Nat) : Except Stop Region := do
  let allocSize := roundUp size PAGE_SIZE
  rejectIf (allocSize < size)
  allocate curr allocSize

structure Layout where
  loadVaddrBreak : Nat
  stdin : Region
  stdout : Region
  stderr : Region
  IB : Region
  OB : Region
  elfImage : Region
  randomBytes : Region

def LOAD_VADDR_START : Nat := 0x400000

/-- The checks of `load_elf64` after the scan, and the addresses they fix. -/
def layOut (b : MemoryBreaks) (config : AppConfig) (range : Nat × Nat) : Except Stop Layout := do
  let minVaddr := roundDown range.1 PAGE_SIZE
  let maxVaddr := roundUp range.2 PAGE_SIZE
  rejectIf (minVaddr < b.kernelBreak)
  rejectIf (maxVaddr ≤ minVaddr ∨ maxVaddr > b.vaddrBreak)
  let memoryLimit := roundUp config.memoryHardLimit.toNat PAGE_SIZE
  let memoryNeeded := maxVaddr - minVaddr
  rejectIf (memoryLimit < memoryNeeded)
  rejectIf (memoryLimit < wrap64 (memoryNeeded + PAGE_SIZE))
  rejectIf (minVaddr ≠ LOAD_VADDR_START)
  let loadVaddrBreak := wrap64 (LOAD_VADDR_START + memoryLimit)
  rejectIf (loadVaddrBreak < LOAD_VADDR_START)
  rejectIf (loadVaddrBreak > b.vaddrBreak)
  let stdin ← allocateFor loadVaddrBreak config.stdinSize.toNat
  let stdout ← allocateFor stdin.brk config.stdoutMaxSize.toNat
  let stderr ← allocateFor stdout.brk config.stderrMaxSize.toNat
  let IB ← allocateFor stderr.brk config.IBSize.toNat
  let OB ← allocateFor IB.brk config.OBSize.toNat
  let elfImage ← allocate OB.brk PAGE_SIZE
  let randomBytes ← allocate elfImage.brk PAGE_SIZE
  rejectIf (randomBytes.brk < loadVaddrBreak)
  rejectIf (randomBytes.brk > b.vaddrBreak)
  return ⟨loadVaddrBreak, stdin, stdout, stderr, IB, OB, elfImage, randomBytes⟩

/-! ## Copying -/

/-- One pass of the second loop: the store that loads segment `i`. -/
def loadSegment (f : ElfFile) (h : Ehdr) (ws : List Mem.Write) (i : Nat) :
    Except Stop (List Mem.Write) := do
  let off := h.phdrOff i
  let type ← f.field off 4
  if type ≠ PT_LOAD then return ws
  else
    let offset ← f.field (off + 8) 8
    let vaddr ← f.field (off + 16) 8
    let filesz ← f.field (off + 32) 8
    if filesz = 0 then return ws
    else
      let content ← f.bytes offset filesz
      return ws ++ [⟨vaddr, content⟩]

def loadSegments (f : ElfFile) (h : Ehdr) : Except Stop (List Mem.Write) :=
  (List.range h.phnum).foldlM (loadSegment f h) []

/-- The stores of stdin, IB and OB. -/
def inputWrites (f : ElfFile) (config : AppConfig) (l : Layout) : List Mem.Write :=
  [⟨l.stdin.vaddr, f.mem.read config.stdinPtr config.stdinSize.toNat⟩,
    ⟨l.IB.vaddr, f.mem.read config.IBPtr config.IBSize.toNat⟩] ++
  if config.OBNeedClear then []
  else [⟨l.OB.vaddr, f.mem.read config.OBPtr config.OBSize.toNat⟩]

/-- The two words of `AT_RANDOM`. -/
def randomWrites (l : Layout) : List Mem.Write :=
  [⟨l.randomBytes.vaddr, Mem.leBytes 8 0xf44c01c8⟩,
    ⟨l.randomBytes.vaddr + 8, Mem.leBytes 8 0x22b64652⟩]

/-! ## The initial stack -/

def ABI_VERSION : Nat := 40
def AT_PHDR : Nat := 3
def AT_PHENT : Nat := 4
def AT_PHNUM : Nat := 5
def AT_PAGESZ : Nat := 6
def AT_BASE : Nat := 7
def AT_ENTRY : Nat := 9
def AT_UID : Nat := 11
def AT_EUID : Nat := 12
def AT_GID : Nat := 13
def AT_EGID : Nat := 14
def AT_HWCAP : Nat := 16
def AT_SECURE : Nat := 23
def AT_RANDOM : Nat := 25
def AT_DUCK : Nat := 0x6b637564

def duckInfo (config : AppConfig) (l : Layout) (tscFreq : UInt64) : DuckInfo where
  abiVersion := ABI_VERSION
  stdinPtr := l.stdin.vaddr
  stdinSize := config.stdinSize.toNat
  stdoutPtr := l.stdout.vaddr
  stdoutLimit := config.stdoutMaxSize.toNat
  stdoutSize := 0
  stderrPtr := l.stderr.vaddr
  stderrLimit := config.stderrMaxSize.toNat
  stderrSize := 0
  IBPtr := l.IB.vaddr
  IBLimit := config.IBSize.toNat
  OBPtr := l.OB.vaddr
  OBLimit := config.OBSize.toNat
  tscFrequency := tscFreq.toNat

/-- The arguments of the `pushq` calls, in program order. -/
def pushedWords (h : Ehdr) (l : Layout) (duckinfoPtr : Nat) : List Nat :=
  [0, PAGE_SIZE, AT_PAGESZ, duckinfoPtr, AT_DUCK, l.elfImage.vaddr, AT_BASE,
    wrap64 (l.elfImage.vaddr + h.phoff), AT_PHDR, h.entry, AT_ENTRY, h.phentsize, AT_PHENT,
    h.phnum, AT_PHNUM, 0xbfebfbff, AT_HWCAP, 0x2, AT_HWCAP, 1000, AT_UID, 1000, AT_EUID,
    1000, AT_GID, 1000, AT_EGID, 0, AT_SECURE, l.randomBytes.vaddr, AT_RANDOM, 0, 0, 0]

/-- `pushq` for each word: the stores and the final `rsp`. -/
def pushAll : Nat → List Nat → List Mem.Write × Nat
  | rsp, [] => ([], rsp)
  | rsp, v :: vs =>
    let rest := pushAll (rsp - 8) vs
    (⟨rsp - 8, Mem.leBytes 8 v⟩ :: rest.1, rest.2)

structure Stack where
  writes : List Mem.Write
  rsp : Nat
  duckinfoPtr : Nat

/-- The stack below `load_vaddr_break`; `umem` is the user memory so far, which the
    realignment reads. -/
def buildStack (umem : Mem) (h : Ehdr) (l : Layout) (info : DuckInfo) : Stack :=
  let duckinfoPtr := l.loadVaddrBreak - DUCKINFO_SIZE
  let pushes := pushAll duckinfoPtr (pushedWords h l duckinfoPtr)
  let writes := ⟨duckinfoPtr, info.bytes⟩ :: pushes.1
  let rsp := pushes.2
  if rsp % 16 ≠ 0 then
    let newRsp := roundDown rsp 16
    ⟨writes ++ [⟨newRsp, (umem.apply writes).read rsp (duckinfoPtr - rsp)⟩], newRsp, duckinfoPtr⟩
  else ⟨writes, rsp, duckinfoPtr⟩

/-- One pass of the third loop; the calls that would use the flags are commented
    out in the source. -/
def checkFlags (f : ElfFile) (h : Ehdr) (_ : Unit) (i : Nat) : Except Stop Unit := do
  let off := h.phdrOff i
  let type ← f.field off 4
  if type ≠ PT_LOAD then return ()
  else
    let _flags ← f.field (off + 4) 4
    return ()

/-! ## The loader -/

structure Loaded where
  app : App
  writes : List Mem.Write

def mkApp (h : Ehdr) (l : Layout) (info : DuckInfo) (stack : Stack) : App where
  entry := h.entry
  rsp := stack.rsp
  startAddr := LOAD_VADDR_START
  breakAddr := l.loadVaddrBreak
  specialRegionStartAddr := l.loadVaddrBreak
  specialRegionBreakAddr := l.randomBytes.brk
  stdinStartAddr := l.stdin.vaddr
  stdinBreakAddr := l.stdin.brk
  duckinfoOrig := info
  duckinfoPtr := stack.duckinfoPtr

/-- The part of `load_elf64` after the last check. -/
def install (f : ElfFile) (config : AppConfig) (tscFreq : UInt64) (umem : Mem) (h : Ehdr)
    (l : Layout) : Except Stop Loaded := do
  let segments ← loadSegments f h
  let image ← f.bytes 0 (min f.len.toNat PAGE_SIZE)
  let data := segments ++ inputWrites f config l ++ [⟨l.elfImage.vaddr, image⟩] ++ randomWrites l
  let info := duckInfo config l tscFreq
  let stack := buildStack (umem.apply data) h l info
  (List.range h.phnum).foldlM (checkFlags f h) ()
  return ⟨mkApp h l info stack, data ++ stack.writes⟩

def loadElf64 (f : ElfFile) (config : AppConfig) (tscFreq : UInt64) (b : MemoryBreaks)
    (umem : Mem) : Except Stop Loaded := do
  let h ← readEhdr f
  let range ← scanPhdrs f h
  let l ← layOut b config range
  install f config tscFreq umem h l

/-- `ELF::load`: `ok` is a return of true with the filled-in `app`, `rejected` a
    return of false. -/
def load (f : ElfFile) (config : AppConfig) (tscFreq : UInt64) (b : MemoryBreaks) (umem : Mem) :
    Except Stop Loaded := do
  rejectIf (f.len.toNat < EHDR32_SIZE)
  let eiClass ← f.field EI_CLASS 1
  if eiClass = ELFCLASS64 then loadElf64 f config tscFreq b umem
  else .error .rejected

/-- User memory after the call. -/
def memAfter (umem : Mem) : Except Stop Loaded → Mem
  | .ok loaded => umem.apply loaded.writes
  | .error _ => umem

end ELF

end JudgePenguin
