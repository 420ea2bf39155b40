/-
  JudgePenguin/JudgerService.lean
  ===============================
  **What the judger is for**, without a word about memory: an abstract service with
  a buffer of bytes, two shelves of objects, and the answer of the last judged
  request.

  A client sees events: a call with what it was answered.  `Service.Step` says which
  answers the service may give and what is left of its state.  Three things are open
  in it, because no client can foresee them:

    * which objects a store removes when there is no room for the new one;
    * what a judged program writes to its three outputs, and how long it takes;
    * nothing else: every other answer is determined by the state.

  A client that keeps account of what its own calls and their answers tell it about
  the buffer is never wrong (`Run.knows`).
-/
import JudgePenguin.Lts
import JudgePenguin.Splice
import JudgePenguin.JudgerBuffer
import JudgePenguin.JudgerConfinement

namespace JudgePenguin

open Words Splice

/-! ## State and events -/

/-- The limits that `init` fixes. -/
structure Service.Config where
  size : Nat
  vaddrBreak : Nat
  pages : Judger.CacheName → Nat
  slots : Judger.CacheName → Nat

/-- A digest and the bytes that were stored under it. -/
abbrev Object := Digest256 × List UInt8

structure Service where
  bytes : List UInt8
  shelf : Judger.CacheName → List Object
  seqNum : UInt64
  result : JudgeResult
  nJudges : UInt64
  totalTimeNs : UInt64

namespace Service

/-- A call and its answer. -/
inductive Event where
  | buffer (op : Judger.BufferOp) (ret : Bool) (output : Judger.Output)
  | judge (req : JudgeRequest) (answer : JudgeResult)
  | getStatistics (nJudges totalTimeNs : UInt64)
  | queryBufferSize (size : UInt64)

/-- `len` bytes at `off` are bytes of the buffer, and the first of them exists. -/
def In (s : Service) (off len : UInt64) : Prop :=
  off.toNat < s.bytes.length ∧ off.toNat + len.toNat ≤ s.bytes.length

def part (s : Service) (off len : UInt64) : List UInt8 := slice s.bytes off.toNat len.toNat

/-- New bytes at `off`; the last answer is forgotten. -/
def put (s : Service) (off : UInt64) (bs : List UInt8) : Service :=
  { s with
    bytes := splice s.bytes off.toNat bs
    seqNum := Judger.CLEARED_SEQ_NUM
    result := .notJudged }

/-! ## Shelves -/

def used (shelf : List Object) : Nat := (shelf.map fun o => exactPages o.2.length).sum

/-- `new` is `old` with the object `o` in place of those named by `gone`. -/
structure Shelved (pages slots : Nat) (old : List Object) (o : Object) (gone : List Digest256)
    (new : List Object) : Prop where
  objects : new.Perm (o :: old.filter fun x => decide (x.1 ∉ gone))
  spared : used old + exactPages o.2.length ≤ pages → old.length < slots → gone = []
  pages : used new ≤ pages
  slots : new.length ≤ slots

/-! ## Judging -/

/-- The file that the bytes are the contents of. -/
def elfFile (bs : List UInt8) : ELF.ElfFile := ⟨fun i => bs.getD i 0, 0, bs.length.toUInt32⟩

/-- The sizes of a request; the loader asks for nothing else to accept a file. -/
def elfConf (req : JudgeRequest) : ELF.AppConfig where
  memoryHardLimit := req.memoryHardLimitKb * 1024
  stdinPtr := 0
  stdinSize := req.stdin.len
  stdoutMaxSize := req.stdout.len
  stderrMaxSize := req.stderr.len
  IBPtr := 0
  IBSize := req.IB.len
  OBPtr := 0
  OBSize := req.OB.len
  OBNeedClear := decide (req.OBNeedClear ≠ 0)

/-- The six ranges of the request are in the buffer and pairwise apart, and its
    memory limit did not get smaller when it was counted in bytes. -/
structure WellPlaced (s : Service) (req : JudgeRequest) : Prop where
  memory : req.memoryHardLimitKb.toNat ≤ req.memoryHardLimitKb.toNat * 1024 % 2 ^ 64
  inside : ∀ b ∈ req.buffers, s.In b.off b.len
  apart : req.buffers.Pairwise BufferDesc.Apart

/-- The time limit is not zero and at most 500 seconds. -/
def TimeOk (req : JudgeRequest) : Prop :=
  0 < req.timeLimitNs.toNat ∧ req.timeLimitNs.toNat ≤ 500000000000

/-- The file of the request is a program that fits. -/
def Loadable (cfg : Config) (s : Service) (req : JudgeRequest) : Prop :=
  ELF.Accepts (elfFile (s.part req.ELF.off req.ELF.len)) (elfConf req) cfg.vaddrBreak

/-- What an answer says about a program that was run. -/
structure Verdict (req : JudgeRequest) (answer : JudgeResult) : Prop where
  ran : answer.error = none
  stdout : answer.stdoutSize.toNat ≤ req.stdout.len.toNat
  stderr : answer.stderrSize.toNat ≤ req.stderr.len.toNat
  time : answer.timeNs.toNat ≤ req.timeLimitNs.toNat
  late : answer.trapNum = 32 → answer.isTLE = true
  inTime : answer.isTLE = false → answer.isRE = decide (answer.trapNum ≠ 255)
  overTime : answer.isTLE = true → answer.isRE = false ∧ answer.timeNs = req.timeLimitNs

/-- What a request that is not replayed leaves, apart from the outputs. -/
def answered (s : Service) (req : JudgeRequest) (answer : JudgeResult) : Service :=
  { s with
    seqNum := req.seqNum
    result := answer
    nJudges := s.nJudges + 1 }

/-- A request that is turned down: the members of the stored answer keep their values. -/
def reject (s : Service) (req : JudgeRequest) (e : JudgeError) : Service :=
  s.answered req { s.result with error := some e }

/-- A request whose program was run and wrote `out`, `err` and `ob`. -/
def complete (s : Service) (req : JudgeRequest) (answer : JudgeResult) (out err ob : List UInt8) :
    Service :=
  { s.answered req answer with
    bytes := splice (splice (splice s.bytes req.stdout.off.toNat out) req.stderr.off.toNat err)
      req.OB.off.toNat ob
    totalTimeNs := s.totalTimeNs + answer.timeNs }

/-! ## Steps -/

/-- **The service.** -/
inductive Step (cfg : Config) (s : Service) : Event → Service → Prop
  | clear {off len : UInt64} (h : s.In off len) :
    Step cfg s (.buffer (.clearBuffer off len) true .nothing)
      (s.put off (List.replicate len.toNat 0))
  | clearOut {off len : UInt64} (h : ¬ s.In off len) :
    Step cfg s (.buffer (.clearBuffer off len) false .nothing) s
  | read {off len : UInt64} (h : s.In off len) :
    Step cfg s (.buffer (.readBuffer off len) true (.data (s.part off len))) s
  | readOut {off len : UInt64} (h : ¬ s.In off len) :
    Step cfg s (.buffer (.readBuffer off len) false .nothing) s
  | write {off len : UInt64} {data : Mem} (h : s.In off len) :
    Step cfg s (.buffer (.writeBuffer off data len) true .nothing)
      (s.put off (data.read 0 len.toNat))
  | writeOut {off len : UInt64} {data : Mem} (h : ¬ s.In off len) :
    Step cfg s (.buffer (.writeBuffer off data len) false .nothing) s
  | copy {dst src len : UInt64} (hdst : s.In dst len) (hsrc : s.In src len)
    (hapart : BufferDesc.Apart ⟨dst, len⟩ ⟨src, len⟩) :
    Step cfg s (.buffer (.copyBuffer dst src len) true .nothing) (s.put dst (s.part src len))
  | copyOut {dst src len : UInt64}
    (h : ¬ (s.In dst len ∧ s.In src len ∧ BufferDesc.Apart ⟨dst, len⟩ ⟨src, len⟩)) :
    Step cfg s (.buffer (.copyBuffer dst src len) false .nothing) s
  | compare {off1 off2 len : UInt64} (h1 : s.In off1 len) (h2 : s.In off2 len) :
    Step cfg s (.buffer (.compareBuffer off1 off2 len) true
      (.compared (decide (s.part off1 len = s.part off2 len)))) s
  | compareOut {off1 off2 len : UInt64} (h : ¬ (s.In off1 len ∧ s.In off2 len)) :
    Step cfg s (.buffer (.compareBuffer off1 off2 len) false .nothing) s
  | load {name : String} {off len now : UInt64} {hex : Vector UInt8 64} {d : Digest256}
    {which : Judger.CacheName} {bs : List UInt8} (hname : Judger.Names hex name d which)
    (hheld : (d, bs) ∈ s.shelf which) (hlen : bs.length = len.toNat)
    (hin : len.toNat = 0 ∨ off.toNat + len.toNat ≤ s.bytes.length) :
    Step cfg s (.buffer (.loadCache name off len hex now) true .nothing) (s.put off bs)
  | loadMiss {name : String} {off len now : UInt64} {hex : Vector UInt8 64}
    (h : ∀ d which bs, Judger.Names hex name d which → (d, bs) ∈ s.shelf which →
      bs.length ≠ len.toNat) :
    Step cfg s (.buffer (.loadCache name off len hex now) false .nothing) s
  | store {name : String} {off len now : UInt64} {hex : Vector UInt8 64} {d : Digest256}
    {which : Judger.CacheName} {gone : List Digest256} {shelf : List Object}
    (hname : Judger.Names hex name d which) (hnew : ∀ bs, (d, bs) ∉ s.shelf which)
    (hin : len.toNat = 0 ∨ off.toNat + len.toNat ≤ s.bytes.length)
    (hshelved : Shelved (cfg.pages which) (cfg.slots which) (s.shelf which) (d, s.part off len)
      gone shelf) :
    Step cfg s (.buffer (.storeCache name off len hex now) true .nothing)
      { s with shelf := fun w => if w = which then shelf else s.shelf w }
  | storeHeld {name : String} {off len now : UInt64} {hex : Vector UInt8 64} {d : Digest256}
    {which : Judger.CacheName} {bs : List UInt8} (hname : Judger.Names hex name d which)
    (hheld : (d, bs) ∈ s.shelf which) :
    Step cfg s (.buffer (.storeCache name off len hex now) true .nothing) s
  | storeOut {name : String} {off len now : UInt64} {hex : Vector UInt8 64}
    (h : ∀ d which, Judger.Names hex name d which →
      (∀ bs, (d, bs) ∉ s.shelf which) ∧ cfg.pages which < exactPages len.toNat) :
    Step cfg s (.buffer (.storeCache name off len hex now) false .nothing) s
  | replay {req : JudgeRequest} (h : req.seqNum = s.seqNum) : Step cfg s (.judge req s.result) s
  | timeLimit {req : JudgeRequest} (hseq : req.seqNum ≠ s.seqNum) (hplace : s.WellPlaced req)
    (htime : ¬ TimeOk req) :
    Step cfg s (.judge req { s.result with error := some .invalidTimeLimit })
      (s.reject req .invalidTimeLimit)
  | canNotLoad {req : JudgeRequest} (hseq : req.seqNum ≠ s.seqNum)
    (h : ¬ s.WellPlaced req ∨ (TimeOk req ∧ ¬ s.Loadable cfg req)) :
    Step cfg s (.judge req { s.result with error := some .canNotLoadElf })
      (s.reject req .canNotLoadElf)
  | run {req : JudgeRequest} {answer : JudgeResult} {out err ob : List UInt8}
    (hseq : req.seqNum ≠ s.seqNum) (hplace : s.WellPlaced req) (htime : TimeOk req)
    (hload : s.Loadable cfg req) (hmemory : req.memoryHardLimitKb.toNat * 1024 < 2 ^ 64)
    (hverdict : Verdict req answer)
    (hout : out.length = answer.stdoutSize.toNat) (herr : err.length = answer.stderrSize.toNat)
    (hob : ob.length = req.OB.len.toNat) :
    Step cfg s (.judge req answer) (s.complete req answer out err ob)
  | getStatistics : Step cfg s (.getStatistics s.nJudges s.totalTimeNs) s
  | queryBufferSize {size : UInt64} (h : size.toNat = s.bytes.length) :
    Step cfg s (.queryBufferSize size) s

section Shelf

variable {cfg : Config} {s s' : Service} {name : String} {off len now : UInt64}
  {hex : Vector UInt8 64} {ret : Bool} {output : Judger.Output} {d : Digest256}
  {which : Judger.CacheName}

/-- Only a store changes the shelves. -/
theorem Step.shelf {e : Event} (h : Step cfg s e s')
    (hno : ∀ name off len hex now ret output,
      e ≠ .buffer (.storeCache name off len hex now) ret output) : s'.shelf = s.shelf := by
  cases h <;> first | rfl | exact absurd rfl (hno _ _ _ _ _ _ _)

/-- A new object that fits is stored. -/
theorem Step.stores (h : Step cfg s (.buffer (.storeCache name off len hex now) ret output) s')
    (hname : Judger.Names hex name d which) (hnew : ∀ bs, (d, bs) ∉ s.shelf which)
    (hfits : exactPages len.toNat ≤ cfg.pages which) :
    ret = true ∧ output = .nothing ∧ (d, s.part off len) ∈ s'.shelf which := by
  cases h with
  | store hname' hnew' hin hshelved =>
    obtain ⟨rfl, rfl⟩ := hname'.unique hname
    refine ⟨rfl, rfl, ?_⟩
    simp only [if_true]
    exact hshelved.objects.mem_iff.mpr List.mem_cons_self
  | storeHeld hname' hheld =>
    obtain ⟨rfl, rfl⟩ := hname'.unique hname
    exact absurd hheld (hnew _)
  | storeOut hout => exact absurd hfits (Nat.not_le_of_gt (hout d which hname).2)

/-- An object on the shelf is delivered to a range of its length. -/
theorem Step.loads (h : Step cfg s (.buffer (.loadCache name off len hex now) ret output) s')
    (hname : Judger.Names hex name d which) {bs : List UInt8} (hheld : (d, bs) ∈ s.shelf which)
    (hlen : bs.length = len.toNat) : ret = true ∧ output = .nothing := by
  cases h with
  | load hname' hheld' hlen' hin => exact ⟨rfl, rfl⟩
  | loadMiss hmiss => exact absurd hlen (hmiss d which bs hname hheld)

end Shelf

/-- A fresh service: zero bytes, empty shelves, nothing judged. -/
def fresh (cfg : Config) : Service where
  bytes := List.replicate cfg.size 0
  shelf _ := []
  seqNum := Judger.CLEARED_SEQ_NUM
  result := .notJudged
  nJudges := 0
  totalTimeNs := 0

def service (cfg : Config) : Lts Service Event where
  start s := s = fresh cfg
  step := Step cfg

/-! ## What a client knows

A client that only sees events can keep a map of the bytes it is sure of: it learns
them from its own writes and clears and from what it reads, moves them with a copy,
shares them where a comparison came out equal, and gives up what a judged program may
have overwritten.  For every digest that it has stored it keeps such a map too, of the
bytes that all objects under the digest have; a load delivers them. -/

/-- The bytes that are known. -/
abbrev Knowledge := Nat → Option UInt8

def Knowledge.learn (k : Knowledge) (off : Nat) (bs : List UInt8) : Knowledge :=
  fun i => if off ≤ i ∧ i < off + bs.length then bs[i - off]? else k i

def Knowledge.forget (k : Knowledge) (off len : Nat) : Knowledge :=
  fun i => if off ≤ i ∧ i < off + len then none else k i

/-- Bytes that are as well known as those of `other`. -/
def Knowledge.place (k : Knowledge) (off len : Nat) (other : Knowledge) : Knowledge :=
  fun i => if off ≤ i ∧ i < off + len then other (i - off) else k i

def Knowledge.move (k : Knowledge) (dst src len : Nat) : Knowledge :=
  k.place dst len fun i => k (src + i)

/-- A byte that is not known is what the byte at its place in an equal range is. -/
def Knowledge.share (k : Knowledge) (off other len : Nat) : Knowledge :=
  fun i => if k i = none ∧ off ≤ i ∧ i < off + len then k (other + (i - off)) else k i

/-- What is known of a range. -/
def Knowledge.range (k : Knowledge) (off len : Nat) : Knowledge :=
  fun i => if i < len then k (off + i) else none

/-- What both know. -/
def Knowledge.both (k k' : Knowledge) : Knowledge := fun i => if k i = k' i then k i else none

/-- What a client keeps: the bytes of the buffer, and for each digest of a cache, if it was
    ever stored, the bytes of the objects under it. -/
structure Account where
  buffer : Knowledge
  stored : Judger.CacheName → Digest256 → Option Knowledge

def Account.seeing (a : Account) (k : Knowledge) : Account := { a with buffer := k }

/-- A store leaves an object that was there before. -/
def Account.storing (a : Account) (which : Judger.CacheName) (d : Digest256) (k : Knowledge) :
    Account where
  buffer := a.buffer
  stored w d' := if w = which ∧ d' = d then
    some ((a.stored which d).elim k fun old => old.both k) else a.stored w d'

/-- What is known of the objects under a digest. -/
def Account.held (a : Account) (which : Judger.CacheName) (d : Digest256) : Knowledge :=
  (a.stored which d).getD fun _ => none

def Event.tell (a : Account) : Event → Account
  | .buffer (.clearBuffer off len) true _ =>
    a.seeing (a.buffer.learn off.toNat (List.replicate len.toNat 0))
  | .buffer (.readBuffer off _) true (.data bs) => a.seeing (a.buffer.learn off.toNat bs)
  | .buffer (.writeBuffer off data len) true _ =>
    a.seeing (a.buffer.learn off.toNat (data.read 0 len.toNat))
  | .buffer (.copyBuffer dst src len) true _ =>
    a.seeing (a.buffer.move dst.toNat src.toNat len.toNat)
  | .buffer (.compareBuffer off1 off2 len) true (.compared true) =>
    a.seeing ((a.buffer.share off1.toNat off2.toNat len.toNat).share off2.toNat off1.toNat len.toNat)
  | .buffer (.loadCache name off len hex _) true _ =>
    match digestFromHex hex, Judger.cacheNamed name with
    | some d, some which => a.seeing (a.buffer.place off.toNat len.toNat (a.held which d))
    | _, _ => a
  | .buffer (.storeCache name off len hex _) true _ =>
    match digestFromHex hex, Judger.cacheNamed name with
    | some d, some which => a.storing which d (a.buffer.range off.toNat len.toNat)
    | _, _ => a
  | .judge req answer =>
    if answer.error = none then
      a.seeing (((a.buffer.forget req.stdout.off.toNat answer.stdoutSize.toNat).forget
        req.stderr.off.toNat answer.stderrSize.toNat).forget req.OB.off.toNat req.OB.len.toNat)
    else a
  | _ => a

/-- What a client knows of a fresh service: the zero bytes of `init`, and no object. -/
def Account.fresh (cfg : Config) : Account where
  buffer i := if i < cfg.size then some 0 else none
  stored _ _ := none

/-- What the events of a history tell. -/
def known (cfg : Config) (events : List Event) : Account :=
  events.foldl Event.tell (Account.fresh cfg)

/-- What is known is so. -/
def Knows (k : Knowledge) (bytes : List UInt8) : Prop := ∀ i b, k i = some b → bytes[i]? = some b

section Knows

variable {k k' : Knowledge} {bytes bs : List UInt8} {off : Nat}

theorem Knows.nothing (bytes : List UInt8) : Knows (fun _ => none) bytes := fun _ _ h => by cases h

theorem Knows.learn (h : Knows k bytes) (hfits : off + bs.length ≤ bytes.length) :
    Knows (k.learn off bs) (splice bytes off bs) := by
  intro i b hi
  by_cases hin : off ≤ i ∧ i < off + bs.length
  · rw [Knowledge.learn, if_pos hin] at hi
    rw [getElem?_splice_inside hfits hin.1 hin.2, hi]
  · rw [Knowledge.learn, if_neg hin] at hi
    rw [getElem?_splice_outside hfits (by omega)]
    exact h i b hi

/-- To read is to learn. -/
theorem Knows.read (h : Knows k bytes) {n : Nat} (hfits : off + n ≤ bytes.length) :
    Knows (k.learn off (slice bytes off n)) bytes := by
  intro i b hi
  unfold Knowledge.learn at hi
  rw [length_slice hfits] at hi
  split at hi
  · rename_i hin
    rw [getElem?_slice, if_pos (by omega), Nat.add_sub_cancel' hin.1] at hi
    exact hi
  · exact h i b hi

/-- Bytes that are put in the buffer are known there as well as before. -/
theorem Knows.place (h : Knows k bytes) (h' : Knows k' bs)
    (hfits : bs = [] ∨ off + bs.length ≤ bytes.length) :
    Knows (k.place off bs.length k') (splice bytes off bs) := by
  intro i b hi
  by_cases hin : off ≤ i ∧ i < off + bs.length
  · rw [Knowledge.place, if_pos hin] at hi
    have hfits' : off + bs.length ≤ bytes.length := by
      rcases hfits with rfl | hfits
      · have hnone := hin.2
        rw [List.length_nil] at hnone
        omega
      · exact hfits
    rw [getElem?_splice_inside hfits' hin.1 hin.2]
    exact h' _ b hi
  · rw [Knowledge.place, if_neg hin] at hi
    rcases hfits with rfl | hfits
    · rw [splice_nil]
      exact h i b hi
    · rw [getElem?_splice_outside hfits (by omega)]
      exact h i b hi

/-- To forget is to know nothing of the new bytes. -/
theorem Knows.forget (h : Knows k bytes) (hfits : bs = [] ∨ off + bs.length ≤ bytes.length) :
    Knows (k.forget off bs.length) (splice bytes off bs) := h.place (Knows.nothing bs) hfits

/-- It can be done at any time. -/
theorem Knows.lose (h : Knows k bytes) {n : Nat} : Knows (k.forget off n) bytes := by
  intro i b hi
  unfold Knowledge.forget at hi
  split at hi
  · cases hi
  · exact h i b hi

theorem Knows.range (h : Knows k bytes) (off n : Nat) : Knows (k.range off n) (slice bytes off n) := by
  intro i b hi
  unfold Knowledge.range at hi
  split at hi
  · rename_i hlt
    rw [getElem?_slice, if_pos hlt]
    exact h _ b hi
  · cases hi

theorem Knows.move (h : Knows k bytes) {src n : Nat} (hdst : off + n ≤ bytes.length)
    (hsrc : src + n ≤ bytes.length) :
    Knows (k.move off src n) (splice bytes off (slice bytes src n)) := by
  have hlen := length_slice hsrc
  have hfits : off + (slice bytes src n).length ≤ bytes.length := by omega
  have hplace := h.place (h.range src n) (.inr hfits)
  rw [hlen] at hplace
  intro i b hi
  refine hplace i b ?_
  unfold Knowledge.move Knowledge.place at hi
  unfold Knowledge.place
  split
  · rename_i hin
    rw [if_pos hin] at hi
    rw [Knowledge.range, if_pos (by omega)]
    exact hi
  · rename_i hin
    rw [if_neg hin] at hi
    exact hi

theorem Knows.share (h : Knows k bytes) {other n : Nat} (heq : slice bytes off n = slice bytes other n) :
    Knows (k.share off other n) bytes := by
  intro i b hi
  unfold Knowledge.share at hi
  split at hi
  · rename_i hin
    have hbyte := congrArg (·[i - off]?) heq
    simp only [getElem?_slice, if_pos (show i - off < n by omega)] at hbyte
    rw [← Nat.add_sub_cancel' hin.2.1, hbyte]
    exact h _ b hi
  · exact h i b hi

theorem Knows.both_left (h : Knows k bytes) : Knows (k.both k') bytes := by
  intro i b hi
  unfold Knowledge.both at hi
  split at hi
  · exact h i b hi
  · cases hi

theorem Knows.both_right (h : Knows k' bytes) : Knows (k.both k') bytes := by
  intro i b hi
  unfold Knowledge.both at hi
  split at hi
  · rename_i heq
    exact h i b (heq.symm.trans hi)
  · cases hi

end Knows

/-- The account is right: a digest that was never stored has no object. -/
structure Account.Right (a : Account) (s : Service) : Prop where
  buffer : Knows a.buffer s.bytes
  stored : ∀ which d bs, (d, bs) ∈ s.shelf which → ∃ k, a.stored which d = some k ∧ Knows k bs

section Right

variable {a : Account} {s : Service}

/-- What happened to the buffer only. -/
theorem Account.Right.seeing (h : a.Right s) {s' : Service} {k : Knowledge} (hk : Knows k s'.bytes)
    (hshelf : s'.shelf = s.shelf) : (a.seeing k).Right s' := by
  refine ⟨hk, fun which d bs hbs => ?_⟩
  rw [hshelf] at hbs
  exact h.stored which d bs hbs

theorem Account.Right.held (h : a.Right s) {which : Judger.CacheName} {d : Digest256}
    {bs : List UInt8} (hbs : (d, bs) ∈ s.shelf which) : Knows (a.held which d) bs := by
  obtain ⟨k, hk, hknows⟩ := h.stored which d bs hbs
  rw [Account.held, hk]
  exact hknows

/-- A store that finds the digest, or puts an object under it that `k` knows. -/
theorem Account.Right.storing (h : a.Right s) {which : Judger.CacheName} {d : Digest256}
    {k : Knowledge} {s' : Service} (hbytes : s'.bytes = s.bytes)
    (hshelf : ∀ w, ∀ o ∈ s'.shelf w, o ∈ s.shelf w ∨
      (w = which ∧ o.1 = d) ∧ Knows k o.2 ∧ ∀ bs, (d, bs) ∉ s.shelf w) :
    (a.storing which d k).Right s' := by
  refine ⟨hbytes ▸ h.buffer, fun w d' bs hbs => ?_⟩
  simp only [Account.storing]
  by_cases hsame : w = which ∧ d' = d
  · rw [if_pos hsame]
    obtain ⟨rfl, rfl⟩ := hsame
    refine ⟨_, rfl, ?_⟩
    rcases hshelf w _ hbs with hold | ⟨-, hknows, hnew⟩
    · obtain ⟨old, hstored, hknows⟩ := h.stored w d' bs hold
      rw [hstored]
      exact hknows.both_left
    · cases hstored : a.stored w d' with
      | none => exact hknows
      | some old => exact hknows.both_right
  · rw [if_neg hsame]
    rcases hshelf w _ hbs with hold | ⟨heq, -⟩
    · exact h.stored w d' bs hold
    · exact absurd heq hsame

theorem fresh_right (cfg : Config) : (Account.fresh cfg).Right (fresh cfg) := by
  refine ⟨fun i b hi => ?_, fun which d bs hbs => by cases hbs⟩
  simp only [Account.fresh] at hi
  split at hi
  · rename_i hlt
    rw [← hi, fresh, List.getElem?_replicate, if_pos hlt]
  · cases hi

end Right

/-- **One event**: the client stays right. -/
theorem Step.knows {cfg : Config} {s s' : Service} {e : Event} (h : Step cfg s e s') {a : Account}
    (ha : a.Right s) : (e.tell a).Right s' := by
  cases h with
  | clear h => exact ha.seeing (ha.buffer.learn (by rw [List.length_replicate]; exact h.2)) rfl
  | read h => exact ha.seeing (ha.buffer.read h.2) rfl
  | write h => exact ha.seeing (ha.buffer.learn (by rw [Mem.length_read]; exact h.2)) rfl
  | copy hdst hsrc hapart => exact ha.seeing (ha.buffer.move hdst.2 hsrc.2) rfl
  | compare h1 h2 =>
    rename_i off1 off2 len
    by_cases heq : s.part off1 len = s.part off2 len
    · simp only [heq, decide_true]
      exact ha.seeing ((ha.buffer.share heq).share heq.symm) rfl
    · simp only [heq, decide_false]
      exact ha
  | load hname hheld hlen hin =>
    rename_i name off len now hex d which bs
    simp only [Event.tell, hname.1, hname.2, ← hlen]
    refine ha.seeing (ha.buffer.place (ha.held hheld) ?_) rfl
    rcases hin with hzero | hin
    · exact .inl (List.eq_nil_of_length_eq_zero (hlen.trans hzero))
    · exact .inr (by rw [hlen]; exact hin)
  | store hname hnew hin hshelved =>
    simp only [Event.tell, hname.1, hname.2]
    refine ha.storing rfl fun w o ho => ?_
    simp only at ho
    split at ho
    · rename_i hw
      subst hw
      rcases List.mem_cons.mp (hshelved.objects.mem_iff.mp ho) with rfl | hold
      · exact .inr ⟨⟨rfl, rfl⟩, ha.buffer.range _ _, hnew⟩
      · exact .inl (List.mem_filter.mp hold).1
    · exact .inl ho
  | storeHeld hname hheld =>
    simp only [Event.tell, hname.1, hname.2]
    exact ha.storing rfl fun _ _ ho => .inl ho
  | replay h =>
    simp only [Event.tell]
    split
    · -- the outputs of an earlier run are given up once more
      exact ha.seeing ha.buffer.lose.lose.lose rfl
    · exact ha
  | run hseq hplace htime hload hmemory hverdict hout herr hob =>
    rename_i req answer out err ob
    have hin : ∀ b ∈ req.buffers, b.off.toNat + b.len.toNat ≤ s.bytes.length :=
      fun b hb => (hplace.inside b hb).2
    have h1 := hin req.stdout (by simp [JudgeRequest.buffers])
    have h2 := hin req.stderr (by simp [JudgeRequest.buffers])
    have h3 := hin req.OB (by simp [JudgeRequest.buffers])
    have hle1 := hverdict.stdout
    have hle2 := hverdict.stderr
    have hlen1 : (splice s.bytes req.stdout.off.toNat out).length = s.bytes.length :=
      length_splice (by omega)
    have hlen2 : (splice (splice s.bytes req.stdout.off.toNat out) req.stderr.off.toNat err).length =
        s.bytes.length := by
      rw [length_splice (by omega), hlen1]
    simp only [Event.tell, hverdict.ran, if_true, ← hout, ← herr, ← hob]
    exact ha.seeing (((ha.buffer.forget (.inr (by omega))).forget (.inr (by omega))).forget
      (.inr (by omega))) rfl
  | timeLimit hseq hplace htime => exact ⟨ha.buffer, ha.stored⟩
  | canNotLoad hseq h => exact ⟨ha.buffer, ha.stored⟩
  | _ => exact ha

/-- **Every history**: the client stays right. -/
theorem Run.knows {cfg : Config} {s s' : Service} {events : List Event}
    (h : (service cfg).Run s events s') {a : Account} (ha : a.Right s) :
    (events.foldl Event.tell a).Right s' := by
  induction h generalizing a with
  | nil s => exact ha
  | cons hstep hrest ih => exact ih (Step.knows hstep ha)

end Service

end JudgePenguin
