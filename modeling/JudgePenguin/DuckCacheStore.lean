/-
  JudgePenguin/DuckCacheStore.lean
  ================================
  **`DuckCache::store` as a whole.**

  The end of `store` takes the first pages of the free list for the new object,
  writes the bytes of the source into them and opens a gap in the three arrays at
  the index that `find` returned (`storeAt_spec`).  With the eviction before it,
  `store_spec` says what every call does: it finds the digest, or refuses an
  object larger than the arena, or inserts the object after it evicted some
  others.
-/
import JudgePenguin.DuckCacheEvict
import JudgePenguin.DuckCacheCopy

namespace JudgePenguin

open Words ArrayLoops Chain

namespace DuckCache

/-! ## The arrays -/

section Insert

variable {c : DuckCache} {d : Digest256} {idx : Nat} {m : Metadata}

/-- The three gaps are one gap in the list of entries. -/
theorem insertObject_entry (c : DuckCache) (d : Digest256) (idx : Nat) (m : Metadata) :
    (insertObject c idx d m).entry = insertAt c.entry idx c.nCurObjects ⟨d.word 0, d, m⟩ := by
  funext k
  by_cases hk : k = idx
  · subst hk
    simp [insertObject, entry]
  · simp only [insertObject, entry, insertAt, Function.update_of_ne hk]
    by_cases hshift : idx < k ∧ k ≤ c.nCurObjects
    · simp only [if_pos hshift]
    · simp only [if_neg hshift]

theorem insertObject_entries (hidx : idx ≤ c.nCurObjects) :
    (insertObject c idx d m).entries.Perm (⟨d.word 0, d, m⟩ :: c.entries) := by
  have h := firstN_insertAt_perm c.entry (⟨d.word 0, d, m⟩ : Entry) hidx
  rw [← insertObject_entry] at h
  exact h

/-- The digests from the insertion point on lie strictly above a digest that is
    not stored. -/
theorem val_lt_of_absent (hinv : c.Indexed) (habs : (c.find d).1 = false) {i : Nat}
    (h1 : (c.find d).2 ≤ i) (h2 : i < c.nCurObjects) : d.val < (c.objDigest i).val := by
  have hle := (find_spec hinv d).above i h1 h2
  refine Nat.lt_of_le_of_ne hle fun heq => ?_
  have hstored := (find_fst_iff hinv d).mpr ⟨i, h2, (Digest256.val_injective heq).symm⟩
  rw [habs] at hstored
  cases hstored

/-- The insertion point keeps the order. -/
theorem insertObject_indexed (hinv : c.Indexed) (habs : (c.find d).1 = false) :
    (insertObject c (c.find d).2 d m).Indexed := by
  have hloc := find_spec hinv d
  have hle := hloc.le
  set idx := (c.find d).2 with hidx
  have hval : ∀ i j, i < j → j < c.nCurObjects + 1 →
      (insertAt c.objDigest idx c.nCurObjects d i).val <
        (insertAt c.objDigest idx c.nCurObjects d j).val := by
    intro i j hij hj
    rcases Nat.lt_trichotomy j idx with hlt | heq | hgt
    · rw [insertAt_lt _ _ hlt, insertAt_lt _ _ (Nat.lt_trans hij hlt)]
      exact hinv.val_lt hij (by omega)
    · subst heq
      rw [insertAt_self, insertAt_lt _ _ hij]
      exact hloc.below i hij
    · rw [insertAt_gt _ _ hgt (by omega)]
      have habove := val_lt_of_absent hinv habs (i := j - 1) (by omega) (by omega)
      rcases Nat.lt_trichotomy i idx with hi | hi | hi
      · rw [insertAt_lt _ _ hi]
        exact Nat.lt_trans (hloc.below i hi) habove
      · subst hi
        rw [insertAt_self]
        exact habove
      · rw [insertAt_gt _ _ hi (by omega)]
        exact hinv.val_lt (by omega) (by omega)
  constructor
  · intro i j hij hj
    exact (cmpDigest_neg_iff _ _).mpr (hval i j hij hj)
  · intro i hi
    have hmem : (insertObject c idx d m).entry i ∈ (insertObject c idx d m).entries :=
      mem_firstN.mpr ⟨i, hi, rfl⟩
    rcases List.mem_cons.mp ((insertObject_entries hle).mem_iff.mp hmem) with heq | hold
    · have hhash := congrArg Entry.hash heq
      have hdig := congrArg Entry.digest heq
      simp only [entry] at hhash hdig
      rw [hhash, hdig]
    · obtain ⟨j, hj, heq⟩ := mem_firstN.mp hold
      have hhash := congrArg Entry.hash heq
      have hdig := congrArg Entry.digest heq
      simp only [entry] at hhash hdig
      rw [← hhash, ← hdig]
      exact hinv.hash j hj

end Insert

/-! ## The pages -/

/-- What an insertion returns: one more object, with the bytes of the source; the
    others and their bytes are as before. -/
structure Stored (c : DuckCache) (d : Digest256) (m : Metadata) (bytes : List UInt8)
    (c' : DuckCache) : Prop where
  inv : c'.Inv
  entries : c'.entries.Perm (⟨d.word 0, d, m⟩ :: c.entries)
  contentNew : c'.contentOf m = bytes
  content : ∀ m' ∈ c.records, c'.contentOf m' = c.contentOf m'
  maxObjects : c'.nMaxObjects = c.nMaxObjects
  totalPages : c'.nTotalPages = c.nTotalPages
  firstPage : c'.firstPage = c.firstPage

section TakePages

variable {c : DuckCache} {nFree : Nat} {ms : List Metadata}

/-- The free list splits into the pages taken and the pages left. -/
theorem Arena.take (h : Arena c nFree ms) {m : Metadata} (haddr : m.startAddr = c.freeListAddr)
    (hroom : nPagesFor m.len ≤ nFree) {c' : DuckCache} (h1 : c'.firstPage = c.firstPage)
    (h2 : c'.nTotalPages = c.nTotalPages)
    (h3 : c'.freeListAddr = c.next^[nPagesFor m.len] c.freeListAddr)
    (h4 : ∀ p, c.isPage p = true → c'.next p = c.next p) :
    Arena c' (nFree - nPagesFor m.len) (m :: ms) := by
  obtain ⟨left, rfl⟩ := Nat.exists_eq_add_of_le hroom
  have hcount : nPagesFor m.len + left - nPagesFor m.len = left := by omega
  -- first with the old pointers
  have harena : Arena { c with freeListAddr := c.next^[nPagesFor m.len] c.freeListAddr }
      left (m :: ms) := by
    refine ⟨h.basePos, h.baseLe, ?_, ?_⟩
    · have hend := h.freeEnd
      rw [Nat.add_comm, Function.iterate_add_apply] at hend
      exact hend
    · have hpart := h.partition
      have hchain : c.chainOf m = follow c.next c.freeListAddr (nPagesFor m.len) := by
        rw [chainOf, haddr]
      rw [follow_add, ← hchain] at hpart
      refine List.Perm.trans ?_ hpart
      rw [List.flatMap_cons, ← List.append_assoc]
      exact List.Perm.append_right _ List.perm_append_comm
  rw [hcount]
  exact harena.congr h1 h2 h3 h4

end TakePages

/-- **The end of `store`.**  With enough free pages and a free slot, an object that
    is not stored is inserted. -/
theorem storeAt_spec {c : DuckCache} (hinv : c.Inv) {d : Digest256}
    (habs : (c.find d).1 = false) {len now : Nat} (hlen : len ≤ MAX_LEN)
    (hroom : nPagesFor len ≤ c.nFreePages) (hslot : c.nCurObjects < c.nMaxObjects)
    (hnow : now ≠ 0) (ext : Mem) (src : Nat) (evicted : List Digest256) :
    ∃ c', storeAt c (c.find d).2 d ext src len now evicted =
        some ⟨true, c', evicted, bytesFrom src len⟩ ∧
      Stored c d ⟨now, c.freeListAddr, len⟩ ((bytesFrom src len).map ext) c' := by
  set m : Metadata := ⟨now, c.freeListAddr, len⟩ with hm
  set ins := insertObject c (c.find d).2 d m with hins
  have hidx := (find_spec hinv.indexed d).le
  -- the pages the loop fills are the first of the free list
  have hchain : c.chainOf m = follow c.next c.freeListAddr (nPagesFor len) := rfl
  obtain ⟨left, hleft⟩ := Nat.exists_eq_add_of_le hroom
  have hsplit := follow_add c.next c.freeListAddr (nPagesFor len) left
  rw [← hleft] at hsplit
  have hfreePage : ∀ p ∈ c.chainOf m, c.isPage p = true := by
    intro p hp
    apply hinv.arena.isPage_free
    rw [hsplit]
    exact List.mem_append_left _ hp
  have hnd := hinv.arena.nodup
  rw [hsplit, ← hchain] at hnd
  have hndChain : (c.chainOf m).Nodup := (List.nodup_append.mp (List.nodup_append.mp hnd).1).1
  have hcopy : copyPages len ≤ nPagesFor len := by
    rw [nPagesFor_eq_exact hlen]
    exact copyPages_le_exactPages len
  obtain ⟨extra, hextra⟩ := Nat.exists_eq_add_of_le hcopy
  have hfill : c.chainOf m = follow c.next c.freeListAddr (copyPages len) ++
      follow c.next (c.next^[copyPages len] c.freeListAddr) extra := by
    rw [hchain, hextra, follow_add]
  have hfuel : copyPages len < LOOP_FUEL := by
    have := copyPages_le len
    simp only [MAX_LEN, ONE_PAGE_CONTENT_SIZE, PAGE_SIZE] at hlen
    simp only [LOOP_FUEL]
    omega
  obtain ⟨mem', hloop, hoff, hbytes⟩ := storeLoop_spec ins ext hlen LOOP_FUEL
    (copyPages len) c.mem c.freeListAddr src 0 (by rw [Nat.sub_zero]) hfuel
    (fun p hp => hfreePage p (hfill ▸ List.mem_append_left _ hp))
    (by rw [hfill] at hndChain; exact (List.nodup_append.mp hndChain).1)
  rw [Nat.sub_zero] at hloop hbytes
  have hoffChain : Mem.EqOff (Within (c.chainOf m)) c.mem mem' := by
    refine hoff.mono ?_
    rintro x ⟨p, hp, hx⟩
    exact ⟨p, hfill ▸ List.mem_append_left _ hp, hx⟩
  have hnext : ∀ p, c.isPage p = true → mem'.read64 p = c.next p :=
    fun p hp => read64_of_within hoffChain hfreePage hp
  -- a zero-length object takes the one page that the loop did not pass
  have haddr : addrAfterCopy ins len ⟨mem', c.next^[copyPages len] c.freeListAddr,
      bytesFrom src len⟩ = some (c.next^[nPagesFor len] c.freeListAddr) := by
    unfold addrAfterCopy
    rcases Nat.eq_zero_or_pos len with h0 | hpos
    · have hhead : c.isPage c.freeListAddr = true := hfreePage _ (mem_follow_iterate c.next _
        (k := 0) (nPagesFor_pos len))
      have hnone : c.next^[copyPages len] c.freeListAddr = c.freeListAddr := by
        rw [h0, copyPages_zero, Function.iterate_zero, id_eq]
      have hone : c.next^[nPagesFor len] c.freeListAddr = c.next c.freeListAddr := by
        rw [nPagesFor_eq_exact hlen, h0, exactPages_zero, Function.iterate_one]
      rw [hnone, hone, if_pos h0, if_pos (show ins.isPage c.freeListAddr = true from hhead)]
      exact congrArg some (hnext _ hhead)
    · rw [if_neg (Nat.ne_of_gt hpos), nPagesFor_eq_exact hlen, exactPages_of_pos hpos]
  have heq : storeAt c (c.find d).2 d ext src len now evicted =
      some ⟨true, { ins with
        mem := mem'
        nFreePages := c.nFreePages - nPagesFor len
        freeListAddr := c.next^[nPagesFor len] c.freeListAddr }, evicted, bytesFrom src len⟩ := by
    simp only [storeAt, Option.bind_eq_bind]
    rw [← hm, ← hins, show ins.mem = c.mem from rfl, hloop]
    simp only [Option.bind_some]
    rw [show c.mem.read64 = c.next from rfl, haddr]
    simp only [Option.bind_some]
    rfl
  refine ⟨_, heq, ?_⟩
  set c' : DuckCache := { ins with
    mem := mem'
    nFreePages := c.nFreePages - nPagesFor len
    freeListAddr := c.next^[nPagesFor len] c.freeListAddr } with hc'
  have hentries : c'.entries.Perm (⟨d.word 0, d, m⟩ :: c.entries) := insertObject_entries hidx
  have hrecords : c'.records.Perm (m :: c.records) := hentries.map Entry.metadata
  have harena : Arena c' c'.nFreePages (m :: c.records) :=
    hinv.arena.take (m := m) rfl hroom rfl rfl rfl hnext
  have hothers : ∀ m' ∈ c.records, ∀ p ∈ c.chainOf m', p ∉ c.chainOf m := by
    intro m' hm' p hp hmem
    exact (List.nodup_append.mp hnd).2.2 p (List.mem_append_left _ hmem) p
      (List.mem_flatMap.mpr ⟨m', hm', hp⟩) rfl
  refine ⟨⟨?_, hinv.maxPos, hslot, ?_, ?_, harena.perm hrecords.symm⟩, hentries, ?_, ?_, rfl, rfl,
    rfl⟩
  · have h := insertObject_indexed (m := m) hinv.indexed habs
    exact ⟨h.increasing, h.hash⟩
  · intro m' hm'
    rcases List.mem_cons.mp (hrecords.mem_iff.mp hm') with rfl | hold
    · exact hnow
    · exact hinv.tsc m' hold
  · intro m' hm'
    rcases List.mem_cons.mp (hrecords.mem_iff.mp hm') with rfl | hold
    · exact hlen
    · exact hinv.lens m' hold
  · rw [contentOf_eq c' (m := m) hlen]
    have hfollow : follow c'.next m.startAddr (copyPages m.len) =
        follow c.next c.freeListAddr (copyPages len) := by
      refine (follow_congr fun p hp => hnext p (hfreePage p ?_)).1
      rw [hfill]
      exact List.mem_append_left _ hp
    rw [hfollow]
    exact hbytes
  · intro m' hm'
    have hpages : ∀ p ∈ c.chainOf m', c.isPage p = true :=
      fun p hp => hinv.arena.isPage_chain hm' hp
    refine contentOf_congr (follow_congr fun p hp => hnext p (hpages p hp)).1 fun p hp => ?_
    exact read_of_within hoffChain hfreePage (hpages p hp) (hothers m' hm' p hp)

/-! ## The whole call -/

/-- The entries that an eviction of `evicted` leaves. -/
def keptEntries (c : DuckCache) (evicted : List Digest256) : List Entry :=
  c.entries.filter fun e => decide (e.digest ∉ evicted)

theorem keptEntries_nil (c : DuckCache) : c.keptEntries [] = c.entries :=
  List.filter_eq_self.mpr fun _ _ => by simp

/-- A `store` that inserted `d` with the given bytes after evicting `evicted`. -/
structure Inserted (c : DuckCache) (d : Digest256) (bytes : List UInt8)
    (evicted : List Digest256) (c' : DuckCache) : Prop where
  inv : c'.Inv
  entries : ∃ m : Metadata, m.len = bytes.length ∧ c'.contentOf m = bytes ∧
    c'.entries.Perm (⟨d.word 0, d, m⟩ :: c.keptEntries evicted)
  content : ∀ e ∈ c.keptEntries evicted, c'.contentOf e.metadata = c.contentOf e.metadata
  maxObjects : c'.nMaxObjects = c.nMaxObjects
  totalPages : c'.nTotalPages = c.nTotalPages
  firstPage : c'.firstPage = c.firstPage

/-- The index a call computes before the eviction may be stale; the one after it
    is found in the compacted arrays, where the digest is still absent. -/
theorem find_of_removed {c c' : DuckCache} {nNeed : Nat} {evicted : List Digest256}
    (hinv : c.Inv) {d : Digest256} (habs : (c.find d).1 = false)
    (h : Removed c nNeed c' evicted) : (c'.find d).1 = false := by
  rw [← Bool.not_eq_true, find_fst_iff h.inv.indexed]
  rintro ⟨i, hi, rfl⟩
  have hmem : c'.entry i ∈ c'.entries := mem_firstN.mpr ⟨i, hi, rfl⟩
  rw [h.entries] at hmem
  obtain ⟨j, hj, heq⟩ := mem_firstN.mp (List.mem_filter.mp hmem).1
  have hstored := (find_fst_iff hinv.indexed (c'.objDigest i)).mpr
    ⟨j, hj, congrArg Entry.digest heq⟩
  rw [habs] at hstored
  cases hstored

/-- A stored digest, as `find` sees it. -/
theorem find_of_entry {c : DuckCache} (hinv : c.Inv) {e : Entry} (he : e ∈ c.entries) :
    (c.find e.digest).1 = true := by
  obtain ⟨i, hi, rfl⟩ := mem_firstN.mp he
  exact (find_fst_iff hinv.indexed _).mpr ⟨i, hi, rfl⟩

/-- The absent digest, as `find` sees it. -/
theorem find_of_absent {c : DuckCache} (hinv : c.Inv) {d : Digest256}
    (habs : ∀ e ∈ c.entries, e.digest ≠ d) : (c.find d).1 = false := by
  rw [← Bool.not_eq_true, find_fst_iff hinv.indexed]
  rintro ⟨i, hi, hd⟩
  exact habs (c.entry i) (mem_firstN.mpr ⟨i, hi, rfl⟩) hd

theorem store_of_found {std : StdSort} {c : DuckCache} {d : Digest256}
    (hfind : (c.find d).1 = true) (ext : Mem) (src len now : Nat) :
    store std c d ext src len now = some ⟨true, c, [], []⟩ := by
  rcases hloc : c.find d with ⟨found, idx⟩
  rw [hloc] at hfind
  simp only at hfind
  simp only [store, hloc, hfind, if_true]

section Branches

variable {std : StdSort} {c : DuckCache} {d : Digest256} {len : Nat}
  (hfind : (c.find d).1 = false) (ext : Mem) (src now : Nat)

include hfind

theorem store_of_big (hbig : c.nTotalPages < nPagesFor len) :
    store std c d ext src len now = some ⟨false, c, [], []⟩ := by
  rcases hloc : c.find d with ⟨found, idx⟩
  rw [hloc] at hfind
  simp only at hfind
  simp only [store, hloc, hfind, Bool.false_eq_true, if_false, if_pos hbig]

theorem store_of_room (hfits : nPagesFor len ≤ c.nTotalPages)
    (hroom : ¬ (nPagesFor len > c.nFreePages ∨ c.nCurObjects + 1 > c.nMaxObjects)) :
    store std c d ext src len now = storeAt c (c.find d).2 d ext src len now [] := by
  rcases hloc : c.find d with ⟨found, idx⟩
  rw [hloc] at hfind
  simp only at hfind
  simp only [store, hloc, hfind, Bool.false_eq_true, if_false, if_neg (Nat.not_lt.mpr hfits),
    if_neg hroom]

theorem store_of_need (hfits : nPagesFor len ≤ c.nTotalPages)
    (hneed : nPagesFor len > c.nFreePages ∨ c.nCurObjects + 1 > c.nMaxObjects)
    {c' : DuckCache} {evicted : List Digest256}
    (hrem : removeObjects std c (nPagesFor len) = some (c', evicted))
    (hfind' : (c'.find d).1 = false) :
    store std c d ext src len now = storeAt c' (c'.find d).2 d ext src len now evicted := by
  rcases hloc : c.find d with ⟨found, idx⟩
  rw [hloc] at hfind
  simp only at hfind
  simp only [store, hloc, hfind, Bool.false_eq_true, if_false, if_neg (Nat.not_lt.mpr hfits),
    if_pos hneed, hrem, Option.bind_eq_bind, Option.bind_some, hfind']

end Branches

/-- **`store`.**  In any state that satisfies the invariant a call finds the
    digest, or refuses an object larger than the arena, or inserts the object. -/
theorem store_spec (std : StdSort) {c : DuckCache} (hinv : c.Inv) (d : Digest256) (ext : Mem)
    (src : Nat) {len now : Nat} (hlen : len ≤ MAX_LEN) (hnow : now ≠ 0) :
    ((c.find d).1 = true ∧ store std c d ext src len now = some ⟨true, c, [], []⟩) ∨
    ((c.find d).1 = false ∧ c.nTotalPages < nPagesFor len ∧
      store std c d ext src len now = some ⟨false, c, [], []⟩) ∨
    ((c.find d).1 = false ∧ nPagesFor len ≤ c.nTotalPages ∧
      ∃ c' evicted, store std c d ext src len now = some ⟨true, c', evicted, bytesFrom src len⟩ ∧
        Inserted c d ((bytesFrom src len).map ext) evicted c') := by
  rcases hfind : c.find d with ⟨found, idx⟩
  cases found with
  | true => exact .inl ⟨rfl, store_of_found (by rw [hfind]) ext src len now⟩
  | false =>
    have habs : (c.find d).1 = false := by rw [hfind]
    by_cases hbig : nPagesFor len > c.nTotalPages
    · refine .inr (.inl ⟨rfl, hbig, ?_⟩)
      exact store_of_big habs ext src now hbig
    · refine .inr (.inr ⟨rfl, Nat.le_of_not_lt hbig, ?_⟩)
      by_cases hneed : nPagesFor len > c.nFreePages ∨ c.nCurObjects + 1 > c.nMaxObjects
      · obtain ⟨c', evicted, hrem, hspec⟩ := removeObjects_spec std hinv (Nat.le_of_not_lt hbig)
        have habs' := find_of_removed hinv habs hspec
        obtain ⟨c'', hstore, hst⟩ := storeAt_spec hspec.inv habs' hlen hspec.room hspec.slot hnow
          ext src evicted
        refine ⟨c'', evicted, ?_, hst.inv, ?_, ?_, hst.maxObjects.trans hspec.maxObjects,
          hst.totalPages.trans hspec.totalPages, hst.firstPage.trans hspec.firstPage⟩
        · rw [store_of_need habs ext src now (Nat.le_of_not_lt hbig) hneed hrem habs', hstore]
        · have hperm := hst.entries
          rw [hspec.entries] at hperm
          exact ⟨_, by simp, hst.contentNew, hperm⟩
        · intro e he
          have hrec : e.metadata ∈ c'.records := by
            rw [records, hspec.entries]
            exact List.mem_map.mpr ⟨e, he, rfl⟩
          rw [hst.content _ hrec, hspec.content _ hrec]
      · obtain ⟨c'', hstore, hst⟩ := storeAt_spec hinv habs hlen (by omega) (by omega) hnow
          ext src []
        refine ⟨c'', [], ?_, hst.inv, ?_, ?_, hst.maxObjects, hst.totalPages, hst.firstPage⟩
        · rw [store_of_room habs ext src now (Nat.le_of_not_lt hbig) hneed, hstore]
        · rw [keptEntries_nil]
          exact ⟨_, by simp, hst.contentNew, hst.entries⟩
        · intro e he
          rw [keptEntries_nil] at he
          exact hst.content _ (List.mem_map.mpr ⟨e, he, rfl⟩)

/-! ## What a call reads -/

/-- However the copy loop ends, it has read every byte of the source; the state of
    the cache does not matter. -/
theorem storeLoop_reads {c : DuckCache} {ext : Mem} {len : Nat} (hlen : len < 2 ^ 64) {fuel : Nat}
    {mem : Mem} {addr src curLen : Nat} {r : Copied}
    (h : storeLoop c ext len fuel mem addr src curLen = some r) {i : Nat} (h1 : curLen ≤ i)
    (h2 : i < len) : wrap64 (src + (i - curLen)) ∈ r.reads := by
  induction fuel generalizing mem addr src curLen r with
  | zero => simp [storeLoop] at h
  | succ fuel ih =>
    simp only [storeLoop, if_pos (Nat.lt_of_le_of_lt h1 h2)] at h
    split at h
    · simp only [Option.bind_eq_bind, Option.bind_eq_some_iff, Option.some.injEq] at h
      obtain ⟨r', hrest, rfl⟩ := h
      by_cases hpass : i < curLen + ONE_PAGE_CONTENT_SIZE
      · -- a byte of this pass
        refine List.mem_append_left _ (List.mem_map.mpr ⟨i - curLen, ?_, rfl⟩)
        exact List.mem_range.mpr (by omega)
      · have hcur : wrap64 (curLen + ONE_PAGE_CONTENT_SIZE) = curLen + ONE_PAGE_CONTENT_SIZE :=
          wrap64_of_lt (by omega)
        have hlater := ih hrest (by omega)
        rw [hcur, wrap64_wrap64_add] at hlater
        have hsame : src + ONE_PAGE_CONTENT_SIZE + (i - (curLen + ONE_PAGE_CONTENT_SIZE)) =
            src + (i - curLen) := by omega
        rw [hsame] at hlater
        exact List.mem_append_right _ hlater
    · cases h

theorem storeAt_reads {c : DuckCache} {idx : Nat} {d : Digest256} {ext : Mem}
    {src len now : Nat} (hlen : len < 2 ^ 64) {evicted : List Digest256} {r : StoreResult}
    (h : storeAt c idx d ext src len now evicted = some r) :
    r.ret = true ∧ ∀ i, i < len → wrap64 (src + i) ∈ r.reads := by
  simp only [storeAt, Option.bind_eq_bind, Option.bind_eq_some_iff] at h
  obtain ⟨copied, hloop, addr, -, h⟩ := h
  rw [Option.some.injEq] at h
  subst h
  exact ⟨rfl, fun i hi => storeLoop_reads hlen hloop (Nat.zero_le i) hi⟩

/-- A call that copies reads all of the source. -/
theorem store_reads {std : StdSort} {c : DuckCache} {d : Digest256} {ext : Mem}
    {src len now : Nat} (hlen : len < 2 ^ 64) (hfind : (c.find d).1 = false)
    (hfits : nPagesFor len ≤ c.nTotalPages) {r : StoreResult}
    (h : store std c d ext src len now = some r) :
    r.ret = true ∧ ∀ i, i < len → wrap64 (src + i) ∈ r.reads := by
  by_cases hneed : nPagesFor len > c.nFreePages ∨ c.nCurObjects + 1 > c.nMaxObjects
  · rcases hloc : c.find d with ⟨found, idx⟩
    rw [hloc] at hfind
    simp only at hfind
    simp only [store, hloc, hfind, Bool.false_eq_true, if_false, if_neg (Nat.not_lt.mpr hfits),
      if_pos hneed, Option.bind_eq_bind, Option.bind_eq_some_iff] at h
    obtain ⟨removed, -, h⟩ := h
    split at h
    · cases h
    · exact storeAt_reads hlen h
  · rw [store_of_room hfind ext src now hfits hneed] at h
    exact storeAt_reads hlen h

end DuckCache

end JudgePenguin
