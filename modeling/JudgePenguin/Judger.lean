/-
  JudgePenguin/Judger.lean
  ========================
  **The judger** (`kern/judger.cpp`): a buffer that clients fill and read, two
  object caches beside it, and `judge`, which runs a program on parts of the
  buffer.

  What the model keeps and what it does not:

    * offsets, lengths and all members of a request are `UInt64`, so their sums and
      products wrap as the compiled ones do;
    * the buffer is the range of `mem` from `buffer`; a buffer operation returns the
      addresses it reads and the stores it makes, in order;
    * the caches have memory of their own (`DuckCache`), and so has the user
      program (`umem`): a buffer operation that leaves the buffer has therefore no
      meaning in later calls, and `none` is a cache operation without one;
    * `now` is a reading of `Timer::tsc_since_epoch()`;
    * the statics `stdout_size` and `stderr_size` are set by `clear_judge_result`
      and read by nothing, so they are left out, and so is logging.
-/
import JudgePenguin.DuckCache
import JudgePenguin.ElfRun

namespace JudgePenguin

open Words

/-! ## Requests and results -/

structure BufferDesc where
  off : UInt64
  len : UInt64
deriving DecidableEq

structure JudgeRequest where
  seqNum : UInt64
  timeLimitNs : UInt64
  memoryHardLimitKb : UInt64
  ELF : BufferDesc
  stdin : BufferDesc
  stdout : BufferDesc
  stderr : BufferDesc
  IB : BufferDesc
  OB : BufferDesc
  OBNeedClear : UInt64

/-- The six descriptors, in the order of `judge`. -/
def JudgeRequest.buffers (req : JudgeRequest) : List BufferDesc :=
  [req.ELF, req.stdin, req.stdout, req.stderr, req.IB, req.OB]

inductive JudgeError where
  | notJudged
  | canNotLoadElf
  | invalidTimeLimit
deriving DecidableEq

/-- The texts of `JudgeResult::error`. -/
def JudgeError.text : JudgeError → String
  | .notJudged => "Not Judged"
  | .canNotLoadElf => "Can't load ELF"
  | .invalidTimeLimit => "Invalid time limit"

/-- A text says which error it is of. -/
theorem JudgeError.text_injective {e e' : JudgeError} (h : e.text = e'.text) : e = e' := by
  cases e <;> cases e' <;> first | rfl | exact absurd h (by decide)

/-- `error` is null when the program was run. -/
structure JudgeResult where
  error : Option JudgeError
  countInst : UInt64
  clkThread : UInt64
  clkRefTsc : UInt64
  timeNs : UInt64
  timeNsRefTsc : UInt64
  timeNsReal : UInt64
  timeTsc : UInt64
  memoryKb : UInt64
  memoryKbAccessed : UInt64
  stdoutSize : UInt64
  stderrSize : UInt64
  returnCode : Int32
  trapNum : UInt8
  trapEpc : UInt64
  trapCr2 : UInt64
  isRE : Bool
  isTLE : Bool
deriving DecidableEq

/-- All members zero, and the placeholder text. -/
def JudgeResult.notJudged : JudgeResult :=
  ⟨some .notJudged, 0, 0, 0, 0, 0, 0, 0, 0, 0, 0, 0, 0, 0, 0, 0, false, false⟩

/-! ## The judger -/

structure Judger where
  breaks : MemoryBreaks
  buffer : Nat
  bufferSize : UInt64
  /-- The buffer was allocated in user space. -/
  inside : buffer + bufferSize.toNat ≤ 2 ^ 47
  mem : Mem
  umem : Mem
  elfCache : DuckCache
  dataCache : DuckCache
  nJudges : UInt64
  totalTimeNs : UInt64
  judgeSeqNum : UInt64
  judgeResult : JudgeResult
  judgeResultCleared : Bool

namespace Judger

def INITIAL_BUFFER_SIZE : UInt64 := 3072 * 1048576
def INITIAL_BUFFER_SIZE_SMALL : UInt64 := 512 * 1048576
def ELF_CACHE_N : Nat := 1000
def ELF_CACHE_SIZE : UInt64 := 256 * 1048576
def DATA_CACHE_N : Nat := 100000
def DATA_CACHE_SIZE : UInt64 := 8192 * 1048576
def DATA_CACHE_SIZE_SMALL : UInt64 := 256 * 1048576
def MAX_TIME_LIMIT_NS : UInt64 := 500000000000

/-- The sequence number of the cleared state, `-1ul`. -/
def CLEARED_SEQ_NUM : UInt64 := 0xffffffffffffffff

def clearJudgeResult (j : Judger) : Judger :=
  if j.judgeResultCleared then j
  else { j with
    judgeResultCleared := true
    judgeSeqNum := CLEARED_SEQ_NUM
    judgeResult := .notJudged }

/-- What the caches, the memory and the user memory held before `init`. -/
structure Raw where
  elfCache : DuckCache
  dataCache : DuckCache
  mem : Mem
  umem : Mem

/-- The region of the buffer and the breaks after it was taken. -/
structure BufferRegion where
  addr : Nat
  size : UInt64
  inside : addr + size.toNat ≤ 2 ^ 47
  breaks : MemoryBreaks

theorem inside_of_allocate {b : MemoryBreaks} {size : UInt64} {region : Nat × MemoryBreaks}
    (h : allocateVirtualMemory b size.toNat = some region)
    (hround : size.toNat ≤ roundUp size.toNat HUGE_PAGE_SIZE) :
    region.1 + size.toNat ≤ 2 ^ 47 := by
  obtain ⟨-, -, htop⟩ := allocateVirtualMemory_spec h
  have hlower := b.lower
  omega

def bufferSizeFor (useSmall : Bool) : UInt64 :=
  if useSmall then INITIAL_BUFFER_SIZE_SMALL else INITIAL_BUFFER_SIZE

def dataCacheSizeFor (useSmall : Bool) : UInt64 :=
  if useSmall then DATA_CACHE_SIZE_SMALL else DATA_CACHE_SIZE

theorem bufferSizeFor_le (useSmall : Bool) : (bufferSizeFor useSmall).toNat ≤
    roundUp (bufferSizeFor useSmall).toNat HUGE_PAGE_SIZE := by
  cases useSmall <;> decide

def takeBuffer (b : MemoryBreaks) (size : UInt64)
    (hround : size.toNat ≤ roundUp size.toNat HUGE_PAGE_SIZE) : Option BufferRegion :=
  (allocateVirtualMemory b size.toNat).attach.map fun region =>
    ⟨region.1.1, size, inside_of_allocate (Option.mem_def.mp region.2) hround, region.1.2⟩

def allocateBuffer (b : MemoryBreaks) (useSmall : Bool) : Option BufferRegion :=
  takeBuffer b (bufferSizeFor useSmall) (bufferSizeFor_le useSmall)

/-- A cache that is ready, and the breaks after it was taken. -/
structure CacheRegion where
  cache : DuckCache
  breaks : MemoryBreaks

/-- A cache that cannot be set up is a reboot. -/
def cacheReady : DuckCache.InitOutcome → Option CacheRegion
  | .ok breaks cache => some ⟨cache, breaks⟩
  | _ => none

/-- The total that `init` asks for, with slack for user programs. -/
def TOTAL_SIZE : UInt64 := INITIAL_BUFFER_SIZE + ELF_CACHE_SIZE + DATA_CACHE_SIZE + 3072 * 1048576

/-- The statics once the three regions are there. -/
def start (raw : Raw) (region : BufferRegion) (elf data : CacheRegion) : Judger where
  breaks := data.breaks
  buffer := region.addr
  bufferSize := region.size
  inside := region.inside
  mem := raw.mem.fill region.addr region.size.toNat 0
  umem := raw.umem
  elfCache := elf.cache
  dataCache := data.cache
  nJudges := 0
  totalTimeNs := 0
  judgeSeqNum := CLEARED_SEQ_NUM
  judgeResult := .notJudged
  judgeResultCleared := true

/-- `Judger::init`; `none` is a reboot. -/
def init (b : MemoryBreaks) (raw : Raw) : Option Judger :=
  let useSmall := !canAllocateVirtualMemory b TOTAL_SIZE.toNat
  (allocateBuffer b useSmall).bind fun region =>
    (cacheReady (DuckCache.init region.breaks raw.elfCache ELF_CACHE_N ELF_CACHE_SIZE.toNat)).bind
      fun elf =>
        (cacheReady (DuckCache.init elf.breaks raw.dataCache DATA_CACHE_N
          (dataCacheSizeFor useSmall).toNat)).map fun data => start raw region elf data

/-! ## Statistics -/

structure JudgeStatistics where
  nJudges : UInt64
  totalTimeNs : UInt64
deriving DecidableEq

def getStatistics (j : Judger) : JudgeStatistics := ⟨j.nJudges, j.totalTimeNs⟩

def queryBufferSize (j : Judger) : UInt64 := j.bufferSize

/-! ## Buffer operations -/

/-- The range test of every buffer operation, and `is_valid_buffer`. -/
def inRange (j : Judger) (off len : UInt64) : Bool :=
  decide (off < j.bufferSize) && decide (len ≤ j.bufferSize - off)

/-- The address `buffer + off`. -/
def addr (j : Judger) (off : UInt64) : Nat := wrap64 (j.buffer + off.toNat)

/-- What an operation hands back through its reference parameters. -/
inductive Output where
  | nothing
  | data (bytes : List UInt8)
  | compared (equal : Bool)
deriving DecidableEq

structure OpResult where
  ret : Bool
  judger : Judger
  reads : List Nat
  writes : List Mem.Write
  output : Output

/-- A return of false before anything was touched. -/
def refused (j : Judger) : OpResult := ⟨false, j, [], [], .nothing⟩

/-- The judger after stores into the buffer. -/
def poke (j : Judger) (writes : List Mem.Write) : Judger :=
  { j with mem := j.mem.apply writes }

def clearBuffer (j : Judger) (off len : UInt64) : OpResult :=
  if j.inRange off len then
    let writes : List Mem.Write := [⟨j.addr off, List.replicate len.toNat 0⟩]
    ⟨true, (j.poke writes).clearJudgeResult, [], writes, .nothing⟩
  else j.refused

def readBuffer (j : Judger) (off len : UInt64) : OpResult :=
  if j.inRange off len then
    ⟨true, j, DuckCache.bytesFrom (j.addr off) len.toNat, [],
      .data (j.mem.read (j.addr off) len.toNat)⟩
  else j.refused

/-- `data` is the memory that the caller's pointer points at. -/
def writeBuffer (j : Judger) (off : UInt64) (data : Mem) (len : UInt64) : OpResult :=
  if j.inRange off len then
    let writes : List Mem.Write := [⟨j.addr off, data.read 0 len.toNat⟩]
    ⟨true, (j.poke writes).clearJudgeResult, [], writes, .nothing⟩
  else j.refused

def copyBuffer (j : Judger) (dstOff srcOff len : UInt64) : OpResult :=
  let dstInRange := j.inRange dstOff len
  let srcInRange := j.inRange srcOff len
  let noOverlap := decide (dstOff + len ≤ srcOff) || decide (srcOff + len ≤ dstOff)
  if dstInRange && srcInRange && noOverlap then
    let writes : List Mem.Write := [⟨j.addr dstOff, j.mem.read (j.addr srcOff) len.toNat⟩]
    ⟨true, (j.poke writes).clearJudgeResult, DuckCache.bytesFrom (j.addr srcOff) len.toNat, writes,
      .nothing⟩
  else j.refused

def compareBuffer (j : Judger) (off1 off2 len : UInt64) : OpResult :=
  if j.inRange off1 len && j.inRange off2 len then
    ⟨true, j, DuckCache.bytesFrom (j.addr off1) len.toNat ++ DuckCache.bytesFrom (j.addr off2) len.toNat,
      [], .compared (decide (j.mem.read (j.addr off1) len.toNat = j.mem.read (j.addr off2) len.toNat))⟩
  else j.refused

/-! ## Cache operations -/

inductive CacheName where
  | elf
  | data
deriving DecidableEq

/-- The two `strcmp` tests. -/
def cacheNamed (name : String) : Option CacheName :=
  if name = "elf" then some .elf else if name = "data" then some .data else none

def cache (j : Judger) : CacheName → DuckCache
  | .elf => j.elfCache
  | .data => j.dataCache

def setCache (j : Judger) (c : DuckCache) : CacheName → Judger
  | .elf => { j with elfCache := c }
  | .data => { j with dataCache := c }

/-- The byte stores of `DuckCache::load`, one by one. -/
def byteWrites (ws : List (Nat × UInt8)) : List Mem.Write := ws.map fun w => ⟨w.1, [w.2]⟩

/-- The end of `load_cache` for one of the caches. -/
def loadFrom (j : Judger) (which : CacheName) (digest : Digest256) (dstOff dstLen now : UInt64) :
    Option OpResult :=
  ((j.cache which).load digest (j.addr dstOff) dstLen.toNat now.toNat).map fun r =>
    let j' := (j.setCache r.cache which).poke (byteWrites r.writes)
    ⟨r.ret, if r.ret then j'.clearJudgeResult else j', [], byteWrites r.writes, .nothing⟩

def loadCache (j : Judger) (cacheName : String) (dstOff dstLen : UInt64) (hex : Vector UInt8 64)
    (now : UInt64) : Option OpResult :=
  match digestFromHex hex, cacheNamed cacheName with
  | some digest, some which => j.loadFrom which digest dstOff dstLen now
  | _, _ => some j.refused

/-- The end of `store_cache` for one of the caches. -/
def storeTo (std : StdSort) (j : Judger) (which : CacheName) (digest : Digest256)
    (srcOff srcLen now : UInt64) : Option OpResult :=
  (DuckCache.store std (j.cache which) digest j.mem (j.addr srcOff) srcLen.toNat now.toNat).map
    fun r => ⟨r.ret, j.setCache r.cache which, r.reads, [], .nothing⟩

def storeCache (std : StdSort) (j : Judger) (cacheName : String) (srcOff srcLen : UInt64)
    (hex : Vector UInt8 64) (now : UInt64) : Option OpResult :=
  match digestFromHex hex, cacheNamed cacheName with
  | some digest, some which => j.storeTo std which digest srcOff srcLen now
  | _, _ => some j.refused

/-! ## Judging -/

/-- What `judge` returns, with the state after it. -/
structure Judged where
  result : JudgeResult
  judger : Judger

/-- The two exits with an error: only the text of the stored result changes. -/
def exitWith (j : Judger) (e : JudgeError) : Judged :=
  let result := { j.judgeResult with error := some e }
  ⟨result, { j with judgeResult := result }⟩

def canNotLoadElf (j : Judger) : Judged := j.exitWith .canNotLoadElf
def invalidTimeLimit (j : Judger) : Judged := j.exitWith .invalidTimeLimit

def isValidBuffer (j : Judger) (b : BufferDesc) : Bool := j.inRange b.off b.len

def checkOverlap (b1 b2 : BufferDesc) : Bool :=
  !(decide (b1.off + b1.len ≤ b2.off) || decide (b2.off + b2.len ≤ b1.off))

/-- The loops of `check_buffers`; `seen` are the descriptors before `b`. -/
def checkBuffersFrom (j : Judger) (seen : List BufferDesc) : List BufferDesc → Bool
  | [] => true
  | b :: bs =>
    if !j.isValidBuffer b then false
    else if seen.any fun b' => checkOverlap b b' then false
    else checkBuffersFrom j (seen ++ [b]) bs

def checkBuffers (j : Judger) (bs : List BufferDesc) : Bool := j.checkBuffersFrom [] bs

/-- `req.memory_hard_limit_kb * 1024` wraps. -/
def memoryOverflows (req : JudgeRequest) : Bool :=
  decide (req.memoryHardLimitKb * 1024 < req.memoryHardLimitKb)

def badTimeLimit (req : JudgeRequest) : Bool :=
  decide (req.timeLimitNs = 0) || decide (req.timeLimitNs > MAX_TIME_LIMIT_NS)

/-- `elf_conf`. -/
def elfConf (j : Judger) (req : JudgeRequest) : ELF.AppConfig where
  memoryHardLimit := req.memoryHardLimitKb * 1024
  stdinPtr := j.addr req.stdin.off
  stdinSize := req.stdin.len
  stdoutMaxSize := req.stdout.len
  stderrMaxSize := req.stderr.len
  IBPtr := j.addr req.IB.off
  IBSize := req.IB.len
  OBPtr := j.addr req.OB.off
  OBSize := req.OB.len
  OBNeedClear := decide (req.OBNeedClear ≠ 0)

/-- The file that `judge` passes on; its length is narrowed to 32 bits. -/
def elfFile (j : Judger) (req : JudgeRequest) : ELF.ElfFile :=
  ⟨j.mem, j.addr req.ELF.off, req.ELF.len.toUInt32⟩

/-- The `JudgeResult` of a run, before the time limit is looked at. -/
def resultOf (res : ELF.RunResult) : JudgeResult where
  error := none
  countInst := res.countInst
  clkThread := res.clkThread
  clkRefTsc := res.clkRefTsc
  timeNs := res.timeNs
  timeNsRefTsc := res.timeNsRefTsc
  timeNsReal := res.timeNsReal
  timeTsc := res.timeTsc
  memoryKb := res.memoryKb
  memoryKbAccessed := res.memoryKbAccessed
  stdoutSize := res.stdoutSize
  stderrSize := res.stderrSize
  returnCode := res.returnCode
  trapNum := res.trapNum
  trapEpc := res.trapEpc
  trapCr2 := res.trapCr2
  isRE := decide (res.trapNum ≠ 255)
  isTLE := decide (res.trapNum = 32)

def limited (req : JudgeRequest) (res : ELF.RunResult) (result : JudgeResult) : JudgeResult :=
  if res.timeNs > req.timeLimitNs ∨ result.isTLE then
    { result with isRE := false, isTLE := true, timeNs := req.timeLimitNs }
  else result

/-- The three copies back into the buffer. -/
def copyBack (j : Judger) (req : JudgeRequest) (res : ELF.RunResult) (umem : Mem) :
    List Mem.Write :=
  [⟨j.addr req.stdout.off, umem.read res.stdoutPtr res.stdoutSize.toNat⟩,
    ⟨j.addr req.stderr.off, umem.read res.stderrPtr res.stderrSize.toNat⟩,
    ⟨j.addr req.OB.off, umem.read res.OBPtr req.OB.len.toNat⟩]

/-- The end of `judge`, once the program `app` was loaded. -/
def runLoaded (t : Timer) (j : Judger) (req : JudgeRequest) (app : ELF.App) (g : ELF.Garbage)
    (u : ELF.UserRun) : Judged :=
  let res := ELF.run t app g u
  let result := limited req res (resultOf res)
  ⟨result, { j with
    mem := j.mem.apply (j.copyBack req res u.umem)
    umem := u.umem
    judgeResult := result
    totalTimeNs := j.totalTimeNs + result.timeNs }⟩

/-- What `judge` does first with a request that it did not answer before. -/
def record (j : Judger) (req : JudgeRequest) : Judger :=
  { j with
    nJudges := j.nJudges + 1
    judgeResultCleared := false
    judgeSeqNum := req.seqNum }

/-- The loader, as `judge` calls it.  It never reads outside the file, so that an
    error is a return of false (`ELF.load_safe`). -/
def loadElf (t : Timer) (j : Judger) (req : JudgeRequest) : Option ELF.Loaded :=
  (ELF.load (j.elfFile req) (j.elfConf req) t.tscFreq j.breaks j.umem).toOption

/-- The part of `judge` behind the test for a replay. -/
def execute (t : Timer) (j : Judger) (req : JudgeRequest) (g : ELF.Garbage) (u : ELF.UserRun) :
    Judged :=
  let j' := j.record req
  if memoryOverflows req then j'.canNotLoadElf
  else if !j'.checkBuffers req.buffers then j'.canNotLoadElf
  else if badTimeLimit req then j'.invalidTimeLimit
  else (loadElf t j' req).elim j'.canNotLoadElf fun loaded => j'.runLoaded t req loaded.app g u

/-- `judge`; `g` and `u` are used only if the program is run. -/
def judge (t : Timer) (j : Judger) (req : JudgeRequest) (g : ELF.Garbage) (u : ELF.UserRun) :
    Judged :=
  if req.seqNum = j.judgeSeqNum then ⟨j.judgeResult, j⟩ else j.execute t req g u

end Judger

end JudgePenguin
