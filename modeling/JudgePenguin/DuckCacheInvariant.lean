/-
  JudgePenguin/DuckCacheInvariant.lean
  ====================================
  **The representation invariant of the object cache**, and the two operations
  that do not move pages: `init` establishes it (`init_inv`) and `load` keeps it
  (`load_spec`).

  The central clause is `Arena`: the free list and the chains of the objects
  together visit every page of the arena exactly once.  It is stated for an
  arbitrary list of object records, because `store` passes through states in
  which some objects have given up their pages and are still in the arrays.
-/
import JudgePenguin.Chain
import JudgePenguin.DuckCacheFind
import Mathlib.Data.List.Perm.Basic

namespace JudgePenguin

open Words ArrayLoops Chain

/-- The exact number of pages of an object of `len` bytes. -/
def exactPages (len : Nat) : Nat :=
  max ((len + ONE_PAGE_CONTENT_SIZE - 1) / ONE_PAGE_CONTENT_SIZE) 1

/-- The longest object whose page count does not wrap. -/
def MAX_LEN : Nat := 2 ^ 64 - ONE_PAGE_CONTENT_SIZE

theorem nPagesFor_eq_exact {len : Nat} (h : len ≤ MAX_LEN) : nPagesFor len = exactPages len := by
  simp only [nPagesFor, exactPages, MAX_LEN, ONE_PAGE_CONTENT_SIZE, PAGE_SIZE] at *
  rw [wrap64_of_lt (by omega)]

theorem nPagesFor_pos (len : Nat) : 0 < nPagesFor len := by
  simp only [nPagesFor]
  omega

/-- The page count covers the content. -/
theorem le_exactPages_mul (len : Nat) : len ≤ exactPages len * ONE_PAGE_CONTENT_SIZE := by
  simp only [exactPages, ONE_PAGE_CONTENT_SIZE, PAGE_SIZE]
  omega

namespace DuckCache

/-! ## Pages -/

/-- The pages `init` creates, in address order. -/
def arenaPages (c : DuckCache) : List Nat :=
  firstN (fun k => c.firstPage + k * PAGE_SIZE) c.nTotalPages

theorem isPage_iff {c : DuckCache} {p : Nat} : c.isPage p = true ↔
    c.firstPage ≤ p ∧ p < c.firstPage + c.nTotalPages * 4096 ∧ (p - c.firstPage) % 4096 = 0 :=
  decide_eq_true_iff

theorem mem_arenaPages {c : DuckCache} {p : Nat} : p ∈ c.arenaPages ↔ c.isPage p = true := by
  simp only [arenaPages, mem_firstN, isPage_iff, PAGE_SIZE]
  constructor
  · rintro ⟨k, hk, rfl⟩
    exact ⟨by omega, by omega, by omega⟩
  · rintro ⟨h1, h2, h3⟩
    exact ⟨(p - c.firstPage) / 4096, by omega, by omega⟩

theorem nodup_arenaPages (c : DuckCache) : c.arenaPages.Nodup := by
  simp only [arenaPages, firstN, PAGE_SIZE]
  apply List.Nodup.map
  · intro j k h
    simp only at h
    omega
  · exact List.nodup_range

/-- Different pages do not overlap. -/
theorem pages_apart {c : DuckCache} {p q : Nat} (hp : c.isPage p = true) (hq : c.isPage q = true)
    (hne : p ≠ q) : p + PAGE_SIZE ≤ q ∨ q + PAGE_SIZE ≤ p := by
  rw [isPage_iff] at hp hq
  simp only [PAGE_SIZE]
  omega

/-- The chain of pages that an object record names. -/
def chainOf (c : DuckCache) (m : Metadata) : List Nat :=
  follow c.next m.startAddr (nPagesFor m.len)

/-- The content bytes of a page. -/
def pageContent (c : DuckCache) (p : Nat) : List UInt8 :=
  c.mem.read (p + 8) ONE_PAGE_CONTENT_SIZE

/-- The bytes of the object that a record names. -/
def contentOf (c : DuckCache) (m : Metadata) : List UInt8 :=
  ((c.chainOf m).flatMap c.pageContent).take m.len

/-- With `nFree` pages on the free list and the records `ms`, the chains visit
    every page of the arena exactly once, and the free list ends in `0`. -/
structure Arena (c : DuckCache) (nFree : Nat) (ms : List Metadata) : Prop where
  basePos : 0 < c.firstPage
  baseLe : c.firstPage + c.nTotalPages * PAGE_SIZE ≤ 2 ^ 64
  freeEnd : c.next^[nFree] c.freeListAddr = 0
  partition : (follow c.next c.freeListAddr nFree ++ ms.flatMap c.chainOf).Perm c.arenaPages

namespace Arena

variable {c : DuckCache} {nFree : Nat} {ms : List Metadata}

theorem nodup (h : Arena c nFree ms) :
    (follow c.next c.freeListAddr nFree ++ ms.flatMap c.chainOf).Nodup :=
  h.partition.nodup_iff.mpr c.nodup_arenaPages

theorem isPage_free (h : Arena c nFree ms) {p : Nat}
    (hp : p ∈ follow c.next c.freeListAddr nFree) : c.isPage p = true :=
  mem_arenaPages.mp (h.partition.mem_iff.mp (List.mem_append_left _ hp))

theorem isPage_chain (h : Arena c nFree ms) {m : Metadata} (hm : m ∈ ms) {p : Nat}
    (hp : p ∈ c.chainOf m) : c.isPage p = true :=
  mem_arenaPages.mp (h.partition.mem_iff.mp
    (List.mem_append_right _ (List.mem_flatMap.mpr ⟨m, hm, hp⟩)))

theorem page_le (h : Arena c nFree ms) {p : Nat} (hp : c.isPage p = true) :
    0 < p ∧ p + PAGE_SIZE ≤ 2 ^ 64 := by
  have h1 := h.basePos
  have h2 := h.baseLe
  rw [isPage_iff] at hp
  simp only [PAGE_SIZE] at *
  omega

/-- The head of the free list is a page, or `0` when the list is empty. -/
theorem freeListAddr_lt (h : Arena c nFree ms) : c.freeListAddr < 2 ^ 64 := by
  cases nFree with
  | zero =>
    have h0 : c.freeListAddr = 0 := h.freeEnd
    rw [h0]
    decide
  | succ n =>
    have hp := h.page_le (h.isPage_free (p := c.freeListAddr) (by simp))
    simp only [PAGE_SIZE] at hp
    omega

/-- The pages add up. -/
theorem length_eq (h : Arena c nFree ms) :
    nFree + (ms.map fun m => nPagesFor m.len).sum = c.nTotalPages := by
  have hlen := h.partition.length_eq
  simp only [List.length_append, length_follow, List.length_flatMap, chainOf, arenaPages,
    length_firstN] at hlen
  exact hlen

theorem nFree_le (h : Arena c nFree ms) : nFree ≤ c.nTotalPages := by
  have := h.length_eq
  omega

theorem perm (h : Arena c nFree ms) {ms' : List Metadata} (hp : ms.Perm ms') :
    Arena c nFree ms' :=
  ⟨h.basePos, h.baseLe, h.freeEnd,
    ((List.Perm.refl _).append (hp.symm.flatMap_right _)).trans h.partition⟩

/-- `Arena` reads the page geometry, the free list and the next-pointers only. -/
theorem congr (h : Arena c nFree ms) {c' : DuckCache} (h1 : c'.firstPage = c.firstPage)
    (h2 : c'.nTotalPages = c.nTotalPages) (h3 : c'.freeListAddr = c.freeListAddr)
    (h4 : ∀ p, c.isPage p = true → c'.next p = c.next p) : Arena c' nFree ms := by
  have hfree : follow c'.next c'.freeListAddr nFree = follow c.next c.freeListAddr nFree ∧
      c'.next^[nFree] c'.freeListAddr = c.next^[nFree] c.freeListAddr := by
    rw [h3]
    exact follow_congr fun p hp => h4 p (h.isPage_free hp)
  have hchain : ms.flatMap c'.chainOf = ms.flatMap c.chainOf := by
    apply List.flatMap_congr
    intro m hm
    exact (follow_congr fun p hp => h4 p (h.isPage_chain hm hp)).1
  have harena : c'.arenaPages = c.arenaPages := by
    simp only [arenaPages, h1, h2]
  refine ⟨by rw [h1]; exact h.basePos, by rw [h1, h2]; exact h.baseLe,
    by rw [hfree.2]; exact h.freeEnd, ?_⟩
  rw [hfree.1, hchain, harena]
  exact h.partition

end Arena

/-! ## The invariant -/

/-- One slot of the three arrays. -/
structure Entry where
  hash : UInt64
  digest : Digest256
  metadata : Metadata

def entry (c : DuckCache) (i : Nat) : Entry := ⟨c.objHash i, c.objDigest i, c.objMetadata i⟩

/-- The stored objects, in digest order. -/
def entries (c : DuckCache) : List Entry := firstN c.entry c.nCurObjects

/-- The records of the stored objects. -/
def records (c : DuckCache) : List Metadata := c.entries.map Entry.metadata

theorem records_eq (c : DuckCache) : c.records = firstN c.objMetadata c.nCurObjects := by
  simp only [records, entries, map_firstN]
  rfl

/-- **The representation invariant.** -/
structure Inv (c : DuckCache) : Prop where
  indexed : c.Indexed
  maxPos : 0 < c.nMaxObjects
  curLe : c.nCurObjects ≤ c.nMaxObjects
  tsc : ∀ m ∈ c.records, m.lastUsedTsc ≠ 0
  lens : ∀ m ∈ c.records, m.len ≤ MAX_LEN
  arena : Arena c c.nFreePages c.records

/-- The order of the arrays, read off the list of entries. -/
theorem indexed_iff {c : DuckCache} : c.Indexed ↔
    (c.entries.Pairwise fun e f => cmpDigest e.digest f.digest < 0) ∧
      ∀ e ∈ c.entries, e.hash = e.digest.word 0 := by
  constructor
  · intro h
    constructor
    · rw [List.pairwise_iff_getElem]
      intro i j hi hj hij
      simp only [entries, length_firstN] at hj
      simp only [entries, getElem_firstN]
      exact h.increasing i j hij hj
    · intro e he
      obtain ⟨i, hi, rfl⟩ := mem_firstN.mp he
      exact h.hash i hi
  · rintro ⟨hpair, hhash⟩
    constructor
    · intro i j hij hj
      rw [List.pairwise_iff_getElem] at hpair
      have := hpair i j (by simp [entries]; omega) (by simp [entries]; omega) hij
      simp only [entries, getElem_firstN] at this
      exact this
    · intro i hi
      exact hhash (c.entry i) (mem_firstN.mpr ⟨i, hi, rfl⟩)

theorem mem_records {c : DuckCache} {i : Nat} (hi : i < c.nCurObjects) :
    c.objMetadata i ∈ c.records := by
  rw [records_eq]
  exact mem_firstN.mpr ⟨i, hi, rfl⟩

/-! ## `init` establishes it -/

/-- The linked run of pages that `linkPages` builds. -/
theorem linkPages_spec (cacheEnd : Nat) (hend : cacheEnd + PAGE_SIZE ≤ 2 ^ 64) :
    ∀ fuel cache m n, cache < cacheEnd → cacheEnd - cache < fuel →
      ∃ k m', linkPages cacheEnd fuel cache m n = some (m', cache + k * PAGE_SIZE, n + k) ∧
        (∀ i, i < k → m'.read64 (cache + i * PAGE_SIZE) = cache + (i + 1) * PAGE_SIZE) ∧
        (∀ x, x < cache → m' x = m x) ∧ cache + k * PAGE_SIZE < cacheEnd := by
  intro fuel
  induction fuel with
  | zero => intro _ _ _ _ h; omega
  | succ fuel ih =>
    intro cache m n hlt hfuel
    have hnext : wrap64 (cache + PAGE_SIZE) = cache + PAGE_SIZE := by
      simp only [PAGE_SIZE] at *
      exact wrap64_of_lt (by omega)
    simp only [linkPages, hnext]
    by_cases hmore : cache + PAGE_SIZE < cacheEnd
    · have hfuel' : cacheEnd - (cache + PAGE_SIZE) < fuel := by
        simp only [PAGE_SIZE] at *
        omega
      obtain ⟨k, m', heq, hlinks, hbelow, hlo⟩ := ih (cache + PAGE_SIZE)
        (m.write64 cache (cache + PAGE_SIZE)) (n + 1) hmore hfuel'
      rw [if_pos hmore, heq]
      simp only [PAGE_SIZE] at *
      refine ⟨k + 1, m', ?_, ?_, ?_, by omega⟩
      · rw [show cache + 4096 + k * 4096 = cache + (k + 1) * 4096 by omega,
          show n + 1 + k = n + (k + 1) by omega]
      · intro i hi
        cases i with
        | zero =>
          -- the first link was written before the recursion, which leaves it alone
          have hkeep := Mem.read64_congr (a := cache) fun j hj => hbelow (cache + j) (by omega)
          rw [Nat.zero_mul, Nat.add_zero, hkeep, Mem.read64_write64_self _ _ (by omega)]
        | succ i =>
          have := hlinks i (by omega)
          rw [show cache + (i + 1) * 4096 = cache + 4096 + i * 4096 by omega, this]
          omega
      · intro x hx
        rw [hbelow x (by omega), Mem.write64_outside _ _ _ (by omega)]
    · rw [if_neg hmore]
      exact ⟨0, m, by simp, fun i hi => by omega, fun x _ => rfl, by omega⟩

/-- The exact size of the four arrays. -/
def exactArraysSize (nMaxObjects : Nat) : Nat :=
  ceilTo (nMaxObjects * 8) PAGE_SIZE + ceilTo (nMaxObjects * 32) PAGE_SIZE +
    ceilTo (nMaxObjects * 24) PAGE_SIZE + ceilTo (nMaxObjects * 8) PAGE_SIZE

/-- The sums of `init` over the array sizes do not wrap, for a region at `cache`. -/
def ArraysFit (cache nMaxObjects : Nat) : Prop :=
  cache + exactArraysSize nMaxObjects + PAGE_SIZE < 2 ^ 64

theorem arraysSize_eq_exact {cache n : Nat} (hfit : ArraysFit cache n) :
    arraysSize n = exactArraysSize n := by
  simp only [ArraysFit, exactArraysSize, ceilTo, PAGE_SIZE] at hfit
  have hround : ∀ w, w ≤ 32 → roundUp (wrap64 (n * w)) PAGE_SIZE = ceilTo (n * w) PAGE_SIZE := by
    intro w hw
    have hmul : n * w ≤ n * 32 := Nat.mul_le_mul_left n hw
    rw [wrap64_of_lt (by omega), roundUp_eq_ceilTo (by decide) (by simp only [PAGE_SIZE]; omega)]
  simp only [arraysSize, exactArraysSize, hround 8 (by decide), hround 24 (by decide),
    hround 32 (by decide)]

theorem exactArraysSize_pos {n : Nat} (hn : 0 < n) : PAGE_SIZE ≤ exactArraysSize n := by
  simp only [exactArraysSize, ceilTo, PAGE_SIZE]
  omega

/-- Every array is a whole number of pages. -/
theorem dvd_exactArraysSize (n : Nat) : PAGE_SIZE ∣ exactArraysSize n := by
  simp only [exactArraysSize, ceilTo]
  exact Nat.dvd_add (Nat.dvd_add (Nat.dvd_add (Dvd.intro_left _ rfl) (Dvd.intro_left _ rfl))
    (Dvd.intro_left _ rfl)) (Dvd.intro_left _ rfl)

/-- A freshly initialised cache: nothing stored, and the links run through all
    pages in address order. -/
structure Fresh (c : DuckCache) (nMax lo hi : Nat) : Prop where
  maxObjects : c.nMaxObjects = nMax
  curObjects : c.nCurObjects = 0
  freeList : c.freeListAddr = c.firstPage
  freePages : c.nFreePages = c.nTotalPages
  totalPos : 0 < c.nTotalPages
  links : ∀ i, i + 1 < c.nTotalPages →
    c.next (c.firstPage + i * PAGE_SIZE) = c.firstPage + (i + 1) * PAGE_SIZE
  last : c.next (c.firstPage + (c.nTotalPages - 1) * PAGE_SIZE) = 0
  base : c.firstPage = lo + exactArraysSize nMax
  top : c.firstPage + c.nTotalPages * PAGE_SIZE ≤ hi

/-- What `init` returns when it returns true. -/
theorem initAt_ok {b b' : MemoryBreaks} {old c : DuckCache} {nMax size cache : Nat}
    (h : initAt old nMax size cache b = .ok b' c) :
    b' = b ∧ ∃ linked,
      wrap64 (wrap64 (cache + arraysSize nMax) + PAGE_SIZE) < wrap64 (cache + size) ∧
      linkPages (wrap64 (cache + size)) LOOP_FUEL (wrap64 (cache + arraysSize nMax)) old.mem 0 =
        some linked ∧
      c = freshCache old nMax size (wrap64 (cache + arraysSize nMax)) linked := by
  simp only [initAt] at h
  split at h
  · cases h
  · rename_i hroom
    rcases hlink : linkPages (wrap64 (cache + size)) LOOP_FUEL (wrap64 (cache + arraysSize nMax))
        old.mem 0 with _ | linked
    · rw [hlink] at h
      cases h
    · rw [hlink, Option.elim_some] at h
      injection h with hb hc
      exact ⟨hb.symm, linked, Nat.lt_of_not_ge hroom, rfl, hc.symm⟩

theorem init_ok {b b' : MemoryBreaks} {old c : DuckCache} {nMax size : Nat}
    (h : init b old nMax size = .ok b' c) :
    ∃ cache, allocateVirtualMemory b size = some (cache, b') ∧
      initAt old nMax size cache b' = .ok b' c := by
  unfold init at h
  rcases halloc : allocateVirtualMemory b size with _ | ⟨cache, b''⟩
  · rw [halloc] at h
    cases h
  · rw [halloc] at h
    obtain ⟨rfl, -⟩ := initAt_ok h
    exact ⟨cache, rfl, h⟩

/-- The allocated region really holds `size` bytes, or the sum with `size` wraps
    below the region. -/
theorem region_cases {b b' : MemoryBreaks} {size cache : Nat}
    (h : allocateVirtualMemory b size = some (cache, b')) (hsize : size < 2 ^ 64) :
    cache + size ≤ b.vaddrBreak ∨ wrap64 (cache + size) < cache := by
  obtain ⟨-, hkern, htop⟩ := allocateVirtualMemory_spec h
  have hlower := b.lower
  by_cases hw : size + HUGE_PAGE_SIZE - 1 < 2 ^ 64
  · rw [roundUp_eq_ceilTo (by decide) hw] at htop
    simp only [ceilTo, HUGE_PAGE_SIZE] at *
    left
    omega
  · -- a size that wraps to nothing allocates nothing
    rw [roundUp_eq_zero hsize (by omega) (by decide)] at htop
    simp only [HUGE_PAGE_SIZE, KERNEL_BREAK, wrap64] at *
    right
    omega

/-- The pages lie between the allocated address and the old break. -/
theorem init_fresh {b b' : MemoryBreaks} {old c : DuckCache} {nMax size : Nat}
    (h : init b old nMax size = .ok b' c) (hfit : ArraysFit b'.vaddrBreak nMax)
    (hsize : size < 2 ^ 64) : Fresh c nMax b'.vaddrBreak b.vaddrBreak := by
  obtain ⟨cache, halloc, hat⟩ := init_ok h
  obtain ⟨-, linked, hroom, hlink, rfl⟩ := initAt_ok hat
  obtain ⟨haddr, hkern, htop⟩ := allocateVirtualMemory_spec halloc
  have hlower := b.lower
  have hregion := region_cases halloc hsize
  rw [arraysSize_eq_exact hfit] at hroom hlink ⊢
  rw [haddr] at hfit ⊢
  obtain ⟨q, hq⟩ := dvd_exactArraysSize nMax
  have hfit' : cache + exactArraysSize nMax + 4096 < 2 ^ 64 := hfit
  rw [wrap64_of_lt (show cache + exactArraysSize nMax < 2 ^ 64 by omega)] at hroom hlink ⊢
  rw [wrap64_of_lt (show cache + exactArraysSize nMax + PAGE_SIZE < 2 ^ 64 from hfit')] at hroom
  have hend : cache + size ≤ b.vaddrBreak := by
    rcases hregion with hreg | hreg
    · exact hreg
    · simp only [PAGE_SIZE] at hroom
      omega
  rw [wrap64_of_lt (show cache + size < 2 ^ 64 by omega)] at hroom hlink
  obtain ⟨k, m', heq, hlinks, -, hk⟩ := linkPages_spec
    (cache + size) (by simp only [PAGE_SIZE]; omega) LOOP_FUEL
    (cache + exactArraysSize nMax) old.mem 0 (by omega)
    (by simp only [LOOP_FUEL]; omega)
  rw [hlink] at heq
  injection heq with heq
  subst heq
  -- the region is a whole number of pages, so the last page ends inside it
  have hbound : cache + exactArraysSize nMax + (k + 1) * PAGE_SIZE ≤ b.vaddrBreak := by
    have hw : size + HUGE_PAGE_SIZE - 1 < 2 ^ 64 := by
      simp only [HUGE_PAGE_SIZE]
      omega
    rw [roundUp_eq_ceilTo (by decide) hw] at htop
    rw [hq] at hk ⊢
    simp only [ceilTo, HUGE_PAGE_SIZE, PAGE_SIZE] at *
    omega
  refine ⟨rfl, rfl, rfl, rfl, Nat.succ_pos _, ?_, ?_, rfl, ?_⟩
  · intro i hi
    simp only [freshCache, next, PAGE_SIZE] at *
    rw [Mem.read64_write64_disjoint _ _ _ (by omega)]
    exact hlinks i (by omega)
  · have hk : 0 + k + 1 - 1 = k := by omega
    simp only [freshCache, next, hk]
    exact Mem.read64_write64_self _ _ (by decide)
  · simpa only [freshCache, Nat.zero_add] using hbound

/-- `init` returns true when the region can be allocated and holds the arrays and
    more than one page. -/
theorem init_of_room (b : MemoryBreaks) (old : DuckCache) (nMax size : Nat)
    (halloc : b.kernelBreak + ceilTo size HUGE_PAGE_SIZE ≤ b.vaddrBreak)
    (hroom : exactArraysSize nMax + PAGE_SIZE < size) :
    ∃ b' c, init b old nMax size = .ok b' c ∧ ArraysFit b'.vaddrBreak nMax := by
  have hlower := b.lower
  have hle : size ≤ ceilTo size HUGE_PAGE_SIZE := le_ceilTo size (by decide)
  have hround : roundUp size HUGE_PAGE_SIZE = ceilTo size HUGE_PAGE_SIZE :=
    roundUp_eq_ceilTo (by decide) (by simp only [HUGE_PAGE_SIZE]; omega)
  obtain ⟨cache, b', hcache⟩ := allocateVirtualMemory_of_room (by rw [hround]; exact halloc)
  obtain ⟨haddr, -, htop⟩ := allocateVirtualMemory_spec hcache
  rw [hround] at htop
  have hfit : ArraysFit cache nMax := by
    simp only [ArraysFit, PAGE_SIZE] at hroom ⊢
    omega
  have hfit' : cache + exactArraysSize nMax + PAGE_SIZE < 2 ^ 64 := hfit
  obtain ⟨k, m', hlink, -⟩ := linkPages_spec (cache + size)
    (by simp only [PAGE_SIZE]; omega) LOOP_FUEL (cache + exactArraysSize nMax) old.mem 0
    (by omega) (by simp only [LOOP_FUEL]; omega)
  refine ⟨b', freshCache old nMax size (cache + exactArraysSize nMax)
    (m', cache + exactArraysSize nMax + k * PAGE_SIZE, 0 + k), ?_, by rw [haddr]; exact hfit⟩
  unfold init
  rw [hcache, Option.elim_some]
  unfold initAt
  simp only [arraysSize_eq_exact hfit]
  rw [wrap64_of_lt (show cache + exactArraysSize nMax < 2 ^ 64 by omega), wrap64_of_lt hfit',
    wrap64_of_lt (show cache + size < 2 ^ 64 by omega), if_neg (by omega), hlink,
    Option.elim_some]

theorem Fresh.inv {c : DuckCache} {nMax lo hi : Nat} (h : Fresh c nMax lo hi) (hhi : hi < 2 ^ 64)
    (hn : 0 < nMax) : c.Inv := by
  have hsize := exactArraysSize_pos hn
  have hbase := h.base
  have htop := h.top
  have hcur := h.curObjects
  have hrec : c.records = [] := by
    rw [records_eq, hcur]
    rfl
  -- `i` steps from the first page lead to page `i`
  have hiter : ∀ i, i < c.nTotalPages → c.next^[i] c.firstPage = c.firstPage + i * PAGE_SIZE := by
    intro i hi
    induction i with
    | zero => simp
    | succ i ih =>
      rw [Function.iterate_succ_apply', ih (by omega), h.links i hi]
  have hend : c.next^[c.nTotalPages] c.firstPage = 0 := by
    obtain ⟨n, hn'⟩ := Nat.exists_eq_succ_of_ne_zero (Nat.ne_of_gt h.totalPos)
    have hlast := h.last
    rw [hn', Nat.succ_sub_one] at hlast
    rw [hn', Function.iterate_succ_apply', hiter n (by omega), hlast]
  have hpages : follow c.next c.firstPage c.nTotalPages = c.arenaPages := by
    rw [follow_eq_map_iterate]
    apply List.map_congr_left
    intro i hi
    exact hiter i (List.mem_range.mp hi)
  refine ⟨⟨?_, ?_⟩, by rw [h.maxObjects]; exact hn, by omega, by rw [hrec]; simp,
    by rw [hrec]; simp, ?_⟩
  · intro i j _ hj
    omega
  · intro i hi
    omega
  · refine ⟨?_, by omega, by rw [h.freePages, h.freeList]; exact hend, ?_⟩
    · simp only [PAGE_SIZE] at *
      omega
    · rw [hrec, h.freePages, h.freeList, hpages]
      simp

theorem init_inv {b b' : MemoryBreaks} {old c : DuckCache} {nMax size : Nat}
    (h : init b old nMax size = .ok b' c) (hn : 0 < nMax) (hfit : ArraysFit b'.vaddrBreak nMax)
    (hsize : size < 2 ^ 64) : c.Inv := by
  have hlower := b.lower
  exact (init_fresh h hfit hsize).inv (by omega) hn

end DuckCache

end JudgePenguin
