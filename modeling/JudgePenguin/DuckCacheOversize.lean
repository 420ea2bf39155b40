/-
  JudgePenguin/DuckCacheOversize.lean
  ===================================
  **Objects larger than the arena** (`kern/duck_cache.cpp`, `DuckCache::store`).

  The page count of `store` is rounded up with a sum that wraps, and the copy loop
  goes by the length.  Up to `MAX_LEN` the count is exact and an object that does
  not fit is refused (`store_of_big`).  Beyond, the count comes out as one page,
  the object is taken, and the loop follows the free list past its end
  (`store_overrun`); a run that went on has therefore never met such a length.
-/
import JudgePenguin.DuckCacheRuns

namespace JudgePenguin

open Words ArrayLoops Chain

namespace DuckCache

/-- The copy loop has no result when the chain ends before the length does. -/
theorem storeLoop_overrun {c : DuckCache} (ext : Mem) {len : Nat} (hlen : len < 2 ^ 64)
    (hnull : c.isPage 0 = false) :
    ∀ n fuel mem addr src curLen, curLen + n * ONE_PAGE_CONTENT_SIZE < len →
      (∀ p ∈ follow mem.read64 addr n, c.isPage p = true) → mem.read64^[n] addr = 0 →
      storeLoop c ext len fuel mem addr src curLen = none := by
  intro n
  induction n with
  | zero =>
    intro fuel mem addr src curLen hshort _ hend
    have hnone : addr = 0 := hend
    cases fuel with
    | zero => rfl
    | succ fuel =>
      have hlt : curLen < len := by omega
      rw [storeLoop, if_pos hlt, hnone, hnull]
      rfl
  | succ n ih =>
    intro fuel mem addr src curLen hshort hpages hend
    cases fuel with
    | zero => rfl
    | succ fuel =>
      have hstep : (n + 1) * ONE_PAGE_CONTENT_SIZE =
          n * ONE_PAGE_CONTENT_SIZE + ONE_PAGE_CONTENT_SIZE := Nat.succ_mul _ _
      have hlt : curLen < len := by omega
      have haddr : c.isPage addr = true := hpages addr (by simp)
      have hrest : ∀ p ∈ follow mem.read64 (mem.read64 addr) n, c.isPage p = true :=
        fun p hp => hpages p (by simp [hp])
      have hcur : wrap64 (curLen + ONE_PAGE_CONTENT_SIZE) = curLen + ONE_PAGE_CONTENT_SIZE :=
        wrap64_of_lt (by omega)
      set k := min (len - curLen) ONE_PAGE_CONTENT_SIZE with hk
      set mem' := mem.write (addr + 8) ((bytesFrom src k).map ext) with hmem'
      have hoff : Mem.EqOff (Within [addr]) mem mem' := by
        apply Mem.EqOff.write
        intro x h1 h2
        simp only [List.length_map, length_bytesFrom, hk, ONE_PAGE_CONTENT_SIZE, PAGE_SIZE] at h2
        exact ⟨addr, by simp, h1, by simp only [PAGE_SIZE]; omega⟩
      -- the page that was filled keeps its pointer, and so do the others
      have hnext : ∀ q, c.isPage q = true → mem'.read64 q = mem.read64 q :=
        fun q hq => read64_of_within hoff (by simpa using haddr) hq
      obtain ⟨hchain, hiter⟩ := follow_congr fun p hp => hnext p (hrest p hp)
      have hloop := ih fuel mem' (mem'.read64 addr) (wrap64 (src + ONE_PAGE_CONTENT_SIZE))
        (curLen + ONE_PAGE_CONTENT_SIZE) (by omega)
        (by rw [hnext addr haddr, hchain]; exact hrest)
        (by rw [hnext addr haddr, hiter]; exact hend)
      simp only [storeLoop, if_pos hlt, if_pos haddr, ← hk, ← hmem', hcur, hloop,
        Option.bind_eq_bind, Option.bind_none]

/-- The free list of a cache is shorter than such an object. -/
theorem Inv.free_lt {c : DuckCache} (hinv : c.Inv) {len : Nat} (hbig : MAX_LEN < len) :
    c.nFreePages * ONE_PAGE_CONTENT_SIZE < len := by
  have hfree := hinv.arena.nFree_le
  have hbase := hinv.arena.baseLe
  simp only [MAX_LEN, ONE_PAGE_CONTENT_SIZE, PAGE_SIZE] at *
  omega

theorem Inv.null {c : DuckCache} (hinv : c.Inv) : c.isPage 0 = false := by
  have hpos := hinv.arena.basePos
  rw [← Bool.not_eq_true, isPage_iff]
  omega

theorem storeAt_overrun {c : DuckCache} (hinv : c.Inv) {len : Nat} (hbig : MAX_LEN < len)
    (hlen : len < 2 ^ 64) (idx : Nat) (d : Digest256) (ext : Mem) (src now : Nat)
    (evicted : List Digest256) : storeAt c idx d ext src len now evicted = none := by
  have hloop : storeLoop (insertObject c idx d ⟨now, c.freeListAddr, len⟩) ext len LOOP_FUEL
      c.mem c.freeListAddr src 0 = none := by
    refine storeLoop_overrun (c := insertObject c idx d ⟨now, c.freeListAddr, len⟩) ext hlen
      hinv.null c.nFreePages _ _ _ _ _ ?_ (fun p hp => hinv.arena.isPage_free hp)
      hinv.arena.freeEnd
    rw [Nat.zero_add]
    exact hinv.free_lt hbig
  have hmem : (insertObject c idx d ⟨now, c.freeListAddr, len⟩).mem = c.mem := rfl
  simp only [storeAt, hmem, hloop, Option.bind_eq_bind, Option.bind_none]

theorem nPagesFor_overrun {len : Nat} (hbig : MAX_LEN < len) (hlen : len < 2 ^ 64) :
    nPagesFor len = 1 := by
  have hwrap : wrap64 (len + ONE_PAGE_CONTENT_SIZE - 1) < ONE_PAGE_CONTENT_SIZE := by
    simp only [MAX_LEN, ONE_PAGE_CONTENT_SIZE, PAGE_SIZE, wrap64] at *
    omega
  rw [nPagesFor, Nat.div_eq_of_lt hwrap]
  rfl

/-- **Beyond `MAX_LEN`** a new object is taken for one page, and the copy runs off the
    free list. -/
theorem store_overrun (std : StdSort) {c : DuckCache} (hinv : c.Inv) (hpos : 0 < c.nTotalPages)
    {d : Digest256} (habs : (c.find d).1 = false) {len : Nat} (hbig : MAX_LEN < len)
    (hlen : len < 2 ^ 64) (ext : Mem) (src now : Nat) :
    store std c d ext src len now = none := by
  have hfits : nPagesFor len ≤ c.nTotalPages := by
    rw [nPagesFor_overrun hbig hlen]
    exact hpos
  by_cases hneed : nPagesFor len > c.nFreePages ∨ c.nCurObjects + 1 > c.nMaxObjects
  · obtain ⟨c', evicted, hrem, hspec⟩ := removeObjects_spec std hinv hfits
    rw [store_of_need habs ext src now hfits hneed hrem (find_of_removed hinv habs hspec)]
    exact storeAt_overrun hspec.inv hbig hlen _ d ext src now evicted
  · rw [store_of_room habs ext src now hfits hneed]
    exact storeAt_overrun hinv hbig hlen _ d ext src now []

/-! ## Runs that went on -/

/-- The clock does not read `0`, and a length has 64 bits. -/
def Timed : CacheOp → Prop
  | .store _ _ _ len now => len < 2 ^ 64 ∧ now ≠ 0
  | .load _ _ _ now => now ≠ 0

/-- One call that has a result keeps the invariant, whatever its length. -/
theorem step_kept {std : StdSort} {c0 c c' : DuckCache} {history events : List StoreEvent}
    (h : RunInv c0 c history) (hpos : 0 < c0.nTotalPages) {op : CacheOp} (hop : Timed op)
    (hstep : step std c op = some (c', events)) : RunInv c0 c' (history ++ events) := by
  by_cases hok : op.Ok
  · obtain ⟨c'', events', hstep', h'⟩ := step_spec std h op hok
    cases hstep.symm.trans hstep'
    exact h'
  · cases op with
    | load d dst requiredLen now => exact absurd hop hok
    | store d ext src len now =>
      have hbig : MAX_LEN < len := Nat.lt_of_not_le fun hle => hok ⟨hle, hop.2⟩
      cases hfind : (c.find d).1 with
      | true =>
        rw [step, store_of_found hfind ext src len now, Option.map_some] at hstep
        cases hstep
        exact ⟨h.inv, h.tracks.idle (by simp [storeEvent, hfind]) rfl, h.arena⟩
      | false =>
        have hc : 0 < c.nTotalPages := by
          rw [h.arena.totalPages]
          exact hpos
        rw [step, store_overrun std h.inv hc hfind hbig hop.1 ext src now] at hstep
        cases hstep

theorem run_kept {std : StdSort} {c0 c c' : DuckCache} {history events : List StoreEvent}
    (h : RunInv c0 c history) (hpos : 0 < c0.nTotalPages) {ops : List CacheOp}
    (hops : ∀ op ∈ ops, Timed op) (hrun : run std c ops = some (c', events)) :
    RunInv c0 c' (history ++ events) := by
  induction ops generalizing c history events with
  | nil =>
    cases hrun
    rw [List.append_nil]
    exact h
  | cons op ops ih =>
    simp only [run, Option.bind_eq_bind, Option.bind_eq_some_iff, Option.some.injEq] at hrun
    obtain ⟨⟨c1, events1⟩, hstep, ⟨c2, events2⟩, hrest, heq⟩ := hrun
    cases heq
    have h1 := step_kept h hpos (hops op (by simp)) hstep
    have h2 := ih h1 (fun o ho => hops o (by simp [ho])) hrest
    rwa [List.append_assoc] at h2

/-- `init` makes at least one page. -/
theorem init_pages_pos {b b' : MemoryBreaks} {old c : DuckCache} {nMax size : Nat}
    (h : init b old nMax size = .ok b' c) : 0 < c.nTotalPages := by
  obtain ⟨cache, -, hat⟩ := init_ok h
  obtain ⟨-, linked, -, -, rfl⟩ := initAt_ok hat
  exact Nat.succ_pos _

/-- **Oversized objects.**  In every state of every run, an absent object that needs
    more pages than the arena has is refused, with nothing changed and no page
    followed, exactly if the rounding of its length does not wrap. -/
theorem run_store_oversized_iff (std : StdSort) {b b' : MemoryBreaks} {old c0 c : DuckCache}
    {nMax size : Nat} (hinit : init b old nMax size = .ok b' c0) (hn : 1 ≤ nMax)
    (hfit : ArraysFit b'.vaddrBreak nMax) (hsize : size < 2 ^ 64) (ops : List CacheOp)
    (hops : ∀ op ∈ ops, Timed op) {history : List StoreEvent}
    (hrun : run std c0 ops = some (c, history)) {d : Digest256} (habs : (c.find d).1 = false)
    (ext : Mem) (src now : Nat) {len : Nat} (hlen : len < 2 ^ 64)
    (hbig : c.nTotalPages < (len + ONE_PAGE_CONTENT_SIZE - 1) / ONE_PAGE_CONTENT_SIZE) :
    store std c d ext src len now = some ⟨false, c, [], []⟩ ↔
      len + ONE_PAGE_CONTENT_SIZE - 1 < 2 ^ 64 := by
  have hpos := init_pages_pos hinit
  have h := run_kept (init_runInv hinit hn hfit hsize) hpos hops hrun
  constructor
  · intro hrefused
    by_contra hwrap
    have hover : MAX_LEN < len := by
      simp only [MAX_LEN, ONE_PAGE_CONTENT_SIZE, PAGE_SIZE] at *
      omega
    have hc : 0 < c.nTotalPages := by
      rw [h.arena.totalPages]
      exact hpos
    rw [store_overrun std h.inv hc habs hover hlen ext src now] at hrefused
    cases hrefused
  · intro hwrap
    have hmax : len ≤ MAX_LEN := by
      simp only [MAX_LEN, ONE_PAGE_CONTENT_SIZE, PAGE_SIZE] at *
      omega
    refine store_of_big habs ext src now ?_
    rw [nPagesFor_eq_exact hmax]
    exact Nat.lt_of_lt_of_le hbig (Nat.le_max_left _ _)

/-- No arena has as many pages as the longest object that is counted right. -/
theorem Inv.pages_lt {c : DuckCache} (hinv : c.Inv) {len : Nat} (hlen : MAX_LEN ≤ len) :
    c.nTotalPages < (len + ONE_PAGE_CONTENT_SIZE - 1) / ONE_PAGE_CONTENT_SIZE := by
  have hbase := hinv.arena.baseLe
  simp only [MAX_LEN, ONE_PAGE_CONTENT_SIZE, PAGE_SIZE] at *
  omega

theorem init_absent {b b' : MemoryBreaks} {old c : DuckCache} {nMax size : Nat}
    (h : init b old nMax size = .ok b' c) (hn : 0 < nMax) (hfit : ArraysFit b'.vaddrBreak nMax)
    (hsize : size < 2 ^ 64) (d : Digest256) : (c.find d).1 = false := by
  refine find_of_absent (init_inv h hn hfit hsize) fun e he => ?_
  have hcur := (init_fresh h hfit hsize).curObjects
  obtain ⟨i, hi, -⟩ := mem_firstN.mp he
  rw [hcur] at hi
  cases hi

theorem run_store_oversized_iff_sample :
    ∃ b' c0, init MemoryBreaks.init blank 1 0x200000 = .ok b' c0 ∧
      (store .insertion c0 ⟨Vector.replicate 4 1⟩ (fun _ => 7) 0 MAX_LEN 1 =
          some ⟨false, c0, [], []⟩ ↔
        MAX_LEN + ONE_PAGE_CONTENT_SIZE - 1 < 2 ^ 64) := by
  obtain ⟨b', c0, hinit, hfit⟩ := init_of_room MemoryBreaks.init blank 1 0x200000 (by decide)
    (by decide)
  have hinv := init_inv hinit (by decide) hfit (by decide)
  exact ⟨b', c0, hinit, run_store_oversized_iff .insertion hinit (by decide) hfit (by decide)
    [] (by simp) rfl (init_absent hinit (by decide) hfit (by decide) _) (fun _ => 7) 0 1
    (by decide) (hinv.pages_lt (Nat.le_refl _))⟩

/-- The length `2 ^ 64 - 1` is taken for one page: the store does not refuse it. -/
theorem longest_store_overruns :
    ∃ b' c0, init MemoryBreaks.init blank 1 0x200000 = .ok b' c0 ∧
      (c0.find ⟨Vector.replicate 4 1⟩).1 = false ∧
      c0.nTotalPages < (2 ^ 64 - 1 + ONE_PAGE_CONTENT_SIZE - 1) / ONE_PAGE_CONTENT_SIZE ∧
      store .insertion c0 ⟨Vector.replicate 4 1⟩ (fun _ => 7) 0 (2 ^ 64 - 1) 1 = none := by
  obtain ⟨b', c0, hinit, hfit⟩ := init_of_room MemoryBreaks.init blank 1 0x200000 (by decide)
    (by decide)
  have hinv := init_inv hinit (by decide) hfit (by decide)
  have habs := init_absent hinit (by decide) hfit (by decide) ⟨Vector.replicate 4 1⟩
  exact ⟨b', c0, hinit, habs, hinv.pages_lt (by decide),
    store_overrun .insertion hinv (init_pages_pos hinit) habs (by decide) (by decide) _ 0 1⟩

end DuckCache

end JudgePenguin
