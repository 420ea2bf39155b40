/-
  JudgePenguin/DuckCache.lean
  ===========================
  **The object cache of the judge kernel** (`kern/duck_cache.cpp`), as executable
  definitions.

  A cache is one region of memory.  Its front holds three parallel arrays, sorted
  by digest, that describe the stored objects; the rest is cut into pages of 4096
  bytes.  The first word of a page is a next-pointer and the other 4088 bytes are
  content.  Unused pages form a null-terminated list from `free_list_addr`; the
  pages of an object are the first `max(ceil(len / 4088), 1)` cells of the chain
  from its `start_addr`, whose end is implied by `len` alone.

  What the model keeps and what it does not:

    * the three arrays are functions on indices (only the first `nCurObjects`
      entries mean anything); the pages are bytes of `mem`, next-pointers
      included;
    * the scratch array `sort_ids` is the list `std::sort` returns;
    * a dereference of an address that is not a page of the arena has no defined
      result, and neither has a loop that never ends: both are `none`;
    * `firstPage` is the value of the local `cache` of `init` after the four
      arrays, which the source does not store;
    * the memory outside the arena is not part of the cache: `load` returns the
      byte writes it makes to `dst`, in order, and `store` takes the memory that
      `src` points into and returns the byte addresses it reads.
-/
import JudgePenguin.ByteMemory
import JudgePenguin.ArrayLoops
import JudgePenguin.Memory
import Mathlib.Data.List.Sort

namespace JudgePenguin

open Words ArrayLoops

def ONE_PAGE_CONTENT_SIZE : Nat := PAGE_SIZE - 8

/-! ## Digests -/

structure Digest256 where
  a : Vector UInt64 4
deriving DecidableEq, Repr

/-- `a[i]` of the source. -/
def Digest256.word (d : Digest256) (i : Fin 4) : UInt64 := d.a.get i

/-- The value of one hexadecimal digit of either case. -/
def hexVal (c : UInt8) : Option UInt64 :=
  if 48 ≤ c ∧ c ≤ 57 then some (c - 48).toUInt64
  else if 97 ≤ c ∧ c ≤ 102 then some (c - 97 + 10).toUInt64
  else if 65 ≤ c ∧ c ≤ 70 then some (c - 65 + 10).toUInt64
  else none

/-- The inner loop of `digest_from_hex`: digit `i` goes to bits `[4 i, 4 i + 4)`. -/
def hexWord (hex : Vector UInt8 64) (idx : Nat) : Option UInt64 :=
  (List.range 16).foldlM
    (fun sum i => do
      let val ← hexVal (hex.toList.getD (idx * 16 + i) 0)
      some (sum ||| val <<< UInt64.ofNat (i * 4)))
    0

def digestFromHex (hex : Vector UInt8 64) : Option Digest256 := do
  let a0 ← hexWord hex 0
  let a1 ← hexWord hex 1
  let a2 ← hexWord hex 2
  let a3 ← hexWord hex 3
  some ⟨#v[a0, a1, a2, a3]⟩

/-- The loop of `cmp_digest` from word `i` on. -/
def cmpDigestFrom (a b : Digest256) : List (Fin 4) → Int
  | [] => 0
  | i :: is =>
    if a.word i < b.word i then -1
    else if a.word i > b.word i then 1
    else cmpDigestFrom a b is

def cmpDigest (a b : Digest256) : Int := cmpDigestFrom a b [0, 1, 2, 3]

/-- The number a digest stands for, first word highest. -/
def Digest256.val (d : Digest256) : Nat :=
  (((d.word 0).toNat * 2 ^ 64 + (d.word 1).toNat) * 2 ^ 64 + (d.word 2).toNat) * 2 ^ 64 +
    (d.word 3).toNat

/-! ## The cache object -/

structure Metadata where
  lastUsedTsc : Nat
  startAddr : Nat
  len : Nat
deriving DecidableEq, Repr

structure DuckCache where
  cacheSize : Nat
  nMaxObjects : Nat
  nCurObjects : Nat
  freeListAddr : Nat
  nFreePages : Nat
  nTotalPages : Nat
  objHash : Nat → UInt64
  objDigest : Nat → Digest256
  objMetadata : Nat → Metadata
  firstPage : Nat
  mem : Mem

/-- `std::sort` on object ids with a key comparison: some permutation that is
    ordered by the key.  Ties may come out in any order. -/
structure StdSort where
  sort : (Nat → Nat) → List Nat → List Nat
  perm : ∀ key ids, (sort key ids).Perm ids
  sorted : ∀ key ids, (sort key ids).Pairwise fun i j => key i ≤ key j

/-- The number of pages an object of `len` bytes occupies; the sum wraps. -/
def nPagesFor (len : Nat) : Nat :=
  max (wrap64 (len + ONE_PAGE_CONTENT_SIZE - 1) / ONE_PAGE_CONTENT_SIZE) 1

namespace DuckCache

/-- `addr` is the address of one of the arena's pages. -/
def isPage (c : DuckCache) (addr : Nat) : Bool :=
  decide (c.firstPage ≤ addr ∧ addr < c.firstPage + c.nTotalPages * PAGE_SIZE ∧
    (addr - c.firstPage) % PAGE_SIZE = 0)

/-- The next-pointer of a page. -/
def next (c : DuckCache) (addr : Nat) : Nat := c.mem.read64 addr

/-! ## Initialisation -/

/-- More passes than a 64-bit counter has values: a loop that is still running
    after so many never ends. -/
def LOOP_FUEL : Nat := 2 ^ 64

/-- The loop of `init` that links the pages; it returns the memory, the address
    of the last page and the number of pages linked so far. -/
def linkPages (cacheEnd : Nat) : Nat → Nat → Mem → Nat → Option (Mem × Nat × Nat)
  | 0, _, _, _ => none
  | fuel + 1, cache, mem, nPages =>
    let following := wrap64 (cache + PAGE_SIZE)
    if following < cacheEnd then
      linkPages cacheEnd fuel following (mem.write64 cache following) (nPages + 1)
    else some (mem, cache, nPages)

inductive InitOutcome where
  | failed
  | reboot
  | diverged
  | ok (breaks : MemoryBreaks) (c : DuckCache)

/-- The bytes the four arrays of `init` occupy, as the source adds them up. -/
def arraysSize (nMaxObjects : Nat) : Nat :=
  roundUp (wrap64 (nMaxObjects * 8)) PAGE_SIZE + roundUp (wrap64 (nMaxObjects * 32)) PAGE_SIZE +
    roundUp (wrap64 (nMaxObjects * 24)) PAGE_SIZE + roundUp (wrap64 (nMaxObjects * 8)) PAGE_SIZE

/-- The fields `init` sets once the pages are linked; `old` supplies what the
    arrays and the pages held before. -/
def freshCache (old : DuckCache) (nMaxObjects cacheSize firstPage : Nat)
    (linked : Mem × Nat × Nat) : DuckCache :=
  { old with
    cacheSize := cacheSize
    nMaxObjects := nMaxObjects
    nCurObjects := 0
    freeListAddr := firstPage
    nFreePages := linked.2.2 + 1
    nTotalPages := linked.2.2 + 1
    firstPage := firstPage
    mem := linked.1.write64 linked.2.1 0 }

/-- `DuckCache::init` once its region is allocated at `cache`. -/
def initAt (old : DuckCache) (nMaxObjects cacheSize cache : Nat) (breaks : MemoryBreaks) :
    InitOutcome :=
  let cacheEnd := wrap64 (cache + cacheSize)
  let firstPage := wrap64 (cache + arraysSize nMaxObjects)
  if wrap64 (firstPage + PAGE_SIZE) ≥ cacheEnd then .reboot
  else
    (linkPages cacheEnd LOOP_FUEL firstPage old.mem 0).elim .diverged fun linked =>
      .ok breaks (freshCache old nMaxObjects cacheSize firstPage linked)

/-- `DuckCache::init`.  It writes only the next-pointers. -/
def init (breaks : MemoryBreaks) (old : DuckCache) (nMaxObjects cacheSize : Nat) : InitOutcome :=
  (allocateVirtualMemory breaks cacheSize).elim .failed fun region =>
    initAt old nMaxObjects cacheSize region.1 region.2

/-! ## Lookup -/

/-- `std::lower_bound` on the sorted range `[lo, hi)`: the first position whose
    element is not below `v`. -/
def lowerBound (arr : Nat → UInt64) (lo hi : Nat) (v : UInt64) : Nat :=
  firstNot (fun i => decide (arr i < v)) lo hi

/-- `std::upper_bound` on the sorted range `[lo, hi)`: the first position whose
    element is above `v`. -/
def upperBound (arr : Nat → UInt64) (lo hi : Nat) (v : UInt64) : Nat :=
  firstNot (fun i => decide (¬ v < arr i)) lo hi

/-- The scan of `find` over the digests that share the first word. -/
def findLoop (c : DuckCache) (digest : Digest256) : List Nat → Nat → Bool × Nat
  | [], idx => (false, idx)
  | i :: is, _ =>
    let r := cmpDigest (c.objDigest i) digest
    if r ≥ 0 then (decide (r = 0), i) else findLoop c digest is (i + 1)

/-- `DuckCache::find`: whether the digest is stored, and `*lower_bound_index`. -/
def find (c : DuckCache) (digest : Digest256) : Bool × Nat :=
  if c.nCurObjects = 0 then (false, 0)
  else
    let hash := digest.word 0
    let idx1 := lowerBound c.objHash 0 c.nCurObjects hash
    let idx2 := upperBound c.objHash idx1 c.nCurObjects hash
    findLoop c digest (List.range' idx1 (idx2 - idx1)) idx1

/-! ## Loading -/

/-- The byte writes of `memcpy(dst, …)`. -/
def bytesTo (dst : Nat) (bs : List UInt8) : List (Nat × UInt8) :=
  bs.mapIdx fun i b => (wrap64 (dst + i), b)

/-- The copy loop of `load`. -/
def loadLoop (c : DuckCache) (requiredLen : Nat) :
    Nat → Nat → Nat → Nat → Option (List (Nat × UInt8))
  | 0, _, _, _ => none
  | fuel + 1, addr, dst, curLen =>
    if curLen < requiredLen then
      if c.isPage addr then do
        let content := c.mem.read (addr + 8) (min (requiredLen - curLen) ONE_PAGE_CONTENT_SIZE)
        let rest ← loadLoop c requiredLen fuel (c.next addr)
          (wrap64 (dst + ONE_PAGE_CONTENT_SIZE)) (wrap64 (curLen + ONE_PAGE_CONTENT_SIZE))
        some (bytesTo dst content ++ rest)
      else none
    else some []

/-- Set the time stamp of object `i`. -/
def touch (c : DuckCache) (i now : Nat) : DuckCache :=
  { c with
    objMetadata := Function.update c.objMetadata i
      { c.objMetadata i with lastUsedTsc := now } }

structure LoadResult where
  ret : Bool
  cache : DuckCache
  writes : List (Nat × UInt8)

/-- `DuckCache::load`; `now` is the reading of `Timer::tsc_since_epoch()`. -/
def load (c : DuckCache) (digest : Digest256) (dst requiredLen now : Nat) : Option LoadResult :=
  let (found, idx) := c.find digest
  if found then
    let metadata := c.objMetadata idx
    if metadata.len ≠ requiredLen then some ⟨false, c, []⟩
    else
      let c' := c.touch idx now
      (loadLoop c' requiredLen LOOP_FUEL metadata.startAddr dst 0).map fun ws => ⟨true, c', ws⟩
  else some ⟨false, c, []⟩

/-! ## Storing -/

/-- Walk `k` next-pointers from `addr`. -/
def walkPages (c : DuckCache) : Nat → Nat → Option Nat
  | 0, addr => some addr
  | k + 1, addr => if c.isPage addr then walkPages c k (c.next addr) else none

/-- One pass of the eviction loop: mark object `id` and splice its pages in front
    of the free list. -/
def evictOne (c : DuckCache) (id : Nat) : Option DuckCache := do
  let metadata := c.objMetadata id
  let addr ← walkPages c (nPagesFor metadata.len - 1) metadata.startAddr
  if c.isPage addr then
    some { c with
      objMetadata := Function.update c.objMetadata id { metadata with lastUsedTsc := 0 }
      mem := c.mem.write64 addr c.freeListAddr
      freeListAddr := metadata.startAddr }
  else none

structure Evicted where
  cache : DuckCache
  nRemovedPages : Nat
  ids : List Nat

/-- The eviction loop over the sorted ids, with its running counts. -/
def evictLoop (nNeedPages : Nat) : List Nat → Evicted → Option Evicted
  | [], e => some e
  | id :: ids, e => do
    let c ← evictOne e.cache id
    let e' : Evicted :=
      ⟨c, e.nRemovedPages + nPagesFor (e.cache.objMetadata id).len, e.ids ++ [id]⟩
    let stillNeedRemove :=
      decide (nNeedPages > c.nFreePages + e'.nRemovedPages) ||
        decide (c.nCurObjects + 1 > c.nMaxObjects + e'.ids.length)
    if stillNeedRemove then evictLoop nNeedPages ids e' else some e'

/-- One pass of the compaction of the three arrays (`// Defrag`). -/
def defragStep (i : Nat) (s : DuckCache × Nat) : DuckCache × Nat :=
  if (s.1.objMetadata i).lastUsedTsc = 0 then s
  else
    ({ s.1 with
        objHash := Function.update s.1.objHash s.2 (s.1.objHash i)
        objDigest := Function.update s.1.objDigest s.2 (s.1.objDigest i)
        objMetadata := Function.update s.1.objMetadata s.2 (s.1.objMetadata i) }, s.2 + 1)

def defrag (c : DuckCache) : DuckCache := (countUp defragStep c.nCurObjects (c, 0)).1

/-- The `if (need_remove)` block of `store` up to the second `find`; it returns
    the digests it evicts besides the new cache. -/
def removeObjects (std : StdSort) (c : DuckCache) (nNeedPages : Nat) :
    Option (DuckCache × List Digest256) := do
  let ids := std.sort (fun i => (c.objMetadata i).lastUsedTsc) (List.range c.nCurObjects)
  let e ← evictLoop nNeedPages ids ⟨c, 0, []⟩
  let c' := defrag e.cache
  some ({ c' with
    nCurObjects := c'.nCurObjects - e.ids.length
    nFreePages := c'.nFreePages + e.nRemovedPages }, e.ids.map c.objDigest)

/-- Open a gap at `idx` in the three arrays and fill it (`// Move`, `// Store at idx`). -/
def insertObject (c : DuckCache) (idx : Nat) (digest : Digest256) (metadata : Metadata) :
    DuckCache :=
  { c with
    objHash := insertAt c.objHash idx c.nCurObjects (digest.word 0)
    objDigest := insertAt c.objDigest idx c.nCurObjects digest
    objMetadata := insertAt c.objMetadata idx c.nCurObjects metadata
    nCurObjects := c.nCurObjects + 1 }

structure Copied where
  mem : Mem
  addr : Nat
  reads : List Nat

/-- The byte addresses read by `memcpy(…, src, n)`. -/
def bytesFrom (src n : Nat) : List Nat := (List.range n).map fun i => wrap64 (src + i)

/-- The copy loop of `store`; `ext` is the memory that `src` points into. -/
def storeLoop (c : DuckCache) (ext : Mem) (len : Nat) :
    Nat → Mem → Nat → Nat → Nat → Option Copied
  | 0, _, _, _, _ => none
  | fuel + 1, mem, addr, src, curLen =>
    if curLen < len then
      if c.isPage addr then do
        let srcBytes := bytesFrom src (min (len - curLen) ONE_PAGE_CONTENT_SIZE)
        let mem' := mem.write (addr + 8) (srcBytes.map ext)
        let r ← storeLoop c ext len fuel mem' (mem'.read64 addr)
          (wrap64 (src + ONE_PAGE_CONTENT_SIZE)) (wrap64 (curLen + ONE_PAGE_CONTENT_SIZE))
        some { r with reads := srcBytes ++ r.reads }
      else none
    else some ⟨mem, addr, []⟩

/-- The new head of the free list: an empty object takes the page that the copy
    loop did not pass. -/
def addrAfterCopy (c : DuckCache) (len : Nat) (r : Copied) : Option Nat :=
  if len = 0 then
    if c.isPage r.addr then some (r.mem.read64 r.addr) else none
  else some r.addr

structure StoreResult where
  ret : Bool
  cache : DuckCache
  evicted : List Digest256
  reads : List Nat

/-- The end of `store`: insert the object at `idx` and copy its bytes into the
    first pages of the free list. -/
def storeAt (c : DuckCache) (idx : Nat) (digest : Digest256) (ext : Mem) (src len now : Nat)
    (evicted : List Digest256) : Option StoreResult := do
  let c' := insertObject c idx digest ⟨now, c.freeListAddr, len⟩
  let r ← storeLoop c' ext len LOOP_FUEL c'.mem c.freeListAddr src 0
  let addr ← addrAfterCopy c' len r
  some ⟨true, { c' with
    mem := r.mem
    nFreePages := c'.nFreePages - nPagesFor len
    freeListAddr := addr }, evicted, r.reads⟩

/-- `DuckCache::store`. -/
def store (std : StdSort) (c : DuckCache) (digest : Digest256) (ext : Mem) (src len now : Nat) :
    Option StoreResult :=
  let (found, idx) := c.find digest
  if found then some ⟨true, c, [], []⟩
  else
    let nNeedPages := nPagesFor len
    if nNeedPages > c.nTotalPages then some ⟨false, c, [], []⟩
    else if nNeedPages > c.nFreePages ∨ c.nCurObjects + 1 > c.nMaxObjects then do
      let (c', evicted) ← removeObjects std c nNeedPages
      -- the `assert` evaluates `find` and takes its index
      let (found', idx') := c'.find digest
      if found' then none else storeAt c' idx' digest ext src len now evicted
    else storeAt c idx digest ext src len now []

end DuckCache

end JudgePenguin
