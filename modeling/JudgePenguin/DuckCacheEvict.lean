/-
  JudgePenguin/DuckCacheEvict.lean
  ================================
  **Eviction** (the `if (need_remove)` block of `DuckCache::store`).

  One pass splices the chain of the victim in front of the free list by a single
  write to the last cell of that chain (`evictOne_spec`).  The loop does so for a
  front part of the sorted ids and stops when enough pages and one slot are free,
  or when nothing is left (`evictLoop_spec`); the victims stay in the arrays,
  marked by a time stamp of `0`, until the compaction drops them
  (`defrag_entries`).  `removeObjects_spec` puts the three together.
-/
import JudgePenguin.DuckCacheInvariant

namespace JudgePenguin

open Words ArrayLoops Chain

namespace DuckCache

/-! ## One victim -/

theorem walkPages_eq {c : DuckCache} {k a : Nat}
    (h : ∀ p ∈ follow c.next a k, c.isPage p = true) : walkPages c k a = some (c.next^[k] a) := by
  induction k generalizing a with
  | zero => rfl
  | succ k ih =>
    have ha : c.isPage a = true := h a (by simp)
    simp only [walkPages, if_pos ha, Function.iterate_succ_apply]
    exact ih fun p hp => h p (by simp [hp])

/-- The cache after the pages of object `id`, whose last one is `last`, went to
    the free list. -/
def splice (c : DuckCache) (id last : Nat) : DuckCache :=
  { c with
    objMetadata := Function.update c.objMetadata id
      { c.objMetadata id with lastUsedTsc := 0 }
    mem := c.mem.write64 last c.freeListAddr
    freeListAddr := (c.objMetadata id).startAddr }

/-- The last page of the chain of a record. -/
def lastPage (c : DuckCache) (m : Metadata) : Nat := c.next^[nPagesFor m.len - 1] m.startAddr

theorem lastPage_mem (c : DuckCache) (m : Metadata) : c.lastPage m ∈ c.chainOf m :=
  mem_follow_iterate _ _ (by have := nPagesFor_pos m.len; omega)

section Splice

variable {c : DuckCache} {nFree id : Nat} {ms : List Metadata}

theorem evictOne_eq (h : Arena c nFree (c.objMetadata id :: ms)) :
    evictOne c id = some (splice c id (c.lastPage (c.objMetadata id))) := by
  have hpage : ∀ p ∈ c.chainOf (c.objMetadata id), c.isPage p = true :=
    fun p hp => h.isPage_chain (by simp) hp
  have hwalk : walkPages c (nPagesFor (c.objMetadata id).len - 1) (c.objMetadata id).startAddr =
      some (c.lastPage (c.objMetadata id)) := by
    apply walkPages_eq
    intro p hp
    apply hpage
    have hpos := nPagesFor_pos (c.objMetadata id).len
    have hsplit := follow_add c.next (c.objMetadata id).startAddr
      (nPagesFor (c.objMetadata id).len - 1) 1
    rw [Nat.sub_add_cancel hpos] at hsplit
    simp only [chainOf, hsplit]
    exact List.mem_append_left _ hp
  have hlast := hpage _ (c.lastPage_mem (c.objMetadata id))
  simp only [evictOne, hwalk, Option.bind_eq_bind, Option.bind_some, if_pos hlast]
  rfl

/-- The one write leaves every other pointer alone. -/
theorem splice_next {last p : Nat} (hl : c.isPage last = true) (hp : c.isPage p = true)
    (hne : p ≠ last) : (splice c id last).next p = c.next p := by
  have hapart := pages_apart hp hl hne
  simp only [PAGE_SIZE] at hapart
  exact Mem.read64_write64_disjoint _ _ _ (by omega)

theorem splice_next_last (h : Arena c nFree ms) (last : Nat) :
    (splice c id last).next last = c.freeListAddr :=
  Mem.read64_write64_self _ _ h.freeListAddr_lt

/-- Next-pointers are not content. -/
theorem splice_pageContent {last p : Nat} (hl : c.isPage last = true) (hp : c.isPage p = true) :
    (splice c id last).pageContent p = c.pageContent p := by
  have hapart : p = last ∨ p + PAGE_SIZE ≤ last ∨ last + PAGE_SIZE ≤ p := by
    by_cases hne : p = last
    · exact .inl hne
    · exact .inr (pages_apart hp hl hne)
  simp only [PAGE_SIZE] at hapart
  apply Mem.read_write64_disjoint
  simp only [ONE_PAGE_CONTENT_SIZE, PAGE_SIZE]
  omega

/-- The chains of the other objects are as before. -/
theorem splice_chainOf (h : Arena c nFree (c.objMetadata id :: ms)) {m : Metadata} (hm : m ∈ ms) :
    (splice c id (c.lastPage (c.objMetadata id))).chainOf m = c.chainOf m := by
  have hlast := c.lastPage_mem (c.objMetadata id)
  have hnd := h.nodup
  simp only [List.flatMap_cons, List.nodup_append] at hnd
  obtain ⟨-, ⟨-, -, hdisj⟩, -⟩ := hnd
  refine (follow_congr fun p hp => ?_).1
  apply splice_next (h.isPage_chain (by simp) hlast)
    (h.isPage_chain (List.mem_cons_of_mem _ hm) hp)
  intro heq
  exact hdisj _ hlast _ (List.mem_flatMap.mpr ⟨m, hm, hp⟩) heq.symm

/-- **One pass of the eviction loop.**  The pages of the victim join the free
    list and the partition is kept. -/
theorem splice_arena (h : Arena c nFree (c.objMetadata id :: ms)) :
    Arena (splice c id (c.lastPage (c.objMetadata id)))
      (nFree + nPagesFor (c.objMetadata id).len) ms := by
  have hlast := c.lastPage_mem (c.objMetadata id)
  have hpageLast := h.isPage_chain (by simp) hlast
  have hnd := h.nodup
  simp only [List.flatMap_cons, List.nodup_append] at hnd
  obtain ⟨-, ⟨hndChain, -, -⟩, hfreeDisj⟩ := hnd
  obtain ⟨n, hn⟩ := Nat.exists_eq_succ_of_ne_zero
    (Nat.ne_of_gt (nPagesFor_pos (c.objMetadata id).len))
  have hlastEq : c.lastPage (c.objMetadata id) = c.next^[n] (c.objMetadata id).startAddr := by
    simp only [lastPage, hn, Nat.succ_sub_one]
  have hchain : c.chainOf (c.objMetadata id) =
      follow c.next (c.objMetadata id).startAddr (n + 1) := by
    simp only [chainOf, hn]
  -- the new free list is the victim's chain followed by the old free list
  have hlastNext : (splice c id (c.lastPage (c.objMetadata id))).next
      (c.next^[n] (c.objMetadata id).startAddr) = c.freeListAddr := by
    rw [← hlastEq]
    exact splice_next_last h _
  have hsame : ∀ x, x ≠ c.next^[n] (c.objMetadata id).startAddr →
      x ∈ follow c.next (c.objMetadata id).startAddr (n + 1) →
      (splice c id (c.lastPage (c.objMetadata id))).next x = c.next x := by
    intro x hne hx
    rw [← hlastEq] at hne
    rw [← hchain] at hx
    exact splice_next hpageLast (h.isPage_chain (by simp) hx) hne
  have htail : ∀ x ∈ follow c.next c.freeListAddr nFree,
      (splice c id (c.lastPage (c.objMetadata id))).next x = c.next x := by
    intro x hx
    apply splice_next hpageLast (h.isPage_free hx)
    exact hfreeDisj x hx _ (List.mem_append_left _ hlast)
  rw [hchain] at hndChain
  obtain ⟨hfollow, hiter⟩ := follow_splice hndChain hlastNext hsame htail
  have hcount : nFree + nPagesFor (c.objMetadata id).len = n + 1 + nFree := by omega
  refine ⟨h.basePos, h.baseLe, ?_, ?_⟩
  · rw [hcount]
    exact hiter.trans h.freeEnd
  · have hothers : ms.flatMap (splice c id (c.lastPage (c.objMetadata id))).chainOf =
        ms.flatMap c.chainOf :=
      List.flatMap_congr fun m hm => splice_chainOf h hm
    have hpart := h.partition
    rw [List.flatMap_cons, hchain, ← List.append_assoc] at hpart
    rw [hcount, hothers]
    refine List.Perm.trans ?_ hpart
    refine List.Perm.append_right _ ?_
    exact (List.Perm.of_eq hfollow).trans List.perm_append_comm

end Splice

/-! ## The loop -/

/-- What the loop leaves of the cache `c` once the objects `victims` gave up their
    pages: the marks, the free list and the next-pointers have changed. -/
structure Drained (c : DuckCache) (victims : List Nat) (c' : DuckCache) : Prop where
  maxObjects : c'.nMaxObjects = c.nMaxObjects
  curObjects : c'.nCurObjects = c.nCurObjects
  freePages : c'.nFreePages = c.nFreePages
  totalPages : c'.nTotalPages = c.nTotalPages
  firstPage : c'.firstPage = c.firstPage
  hash : c'.objHash = c.objHash
  digest : c'.objDigest = c.objDigest
  metadata : ∀ i, c'.objMetadata i =
    if i ∈ victims then { c.objMetadata i with lastUsedTsc := 0 } else c.objMetadata i
  content : ∀ p, c.isPage p = true → c'.pageContent p = c.pageContent p

theorem isPage_congr {c c' : DuckCache} (h1 : c'.firstPage = c.firstPage)
    (h2 : c'.nTotalPages = c.nTotalPages) (p : Nat) : c'.isPage p = c.isPage p := by
  simp only [isPage, h1, h2]

theorem Drained.refl (c : DuckCache) : Drained c [] c :=
  ⟨rfl, rfl, rfl, rfl, rfl, rfl, rfl, fun _ => by simp, fun _ _ => rfl⟩

theorem Drained.splice {c c' : DuckCache} {victims : List Nat} (h : Drained c victims c')
    {id last : Nat} (hid : id ∉ victims) (hlast : c'.isPage last = true) :
    Drained c (victims ++ [id]) (splice c' id last) := by
  refine ⟨h.maxObjects, h.curObjects, h.freePages, h.totalPages, h.firstPage, h.hash, h.digest,
    ?_, ?_⟩
  · intro i
    by_cases hi : i = id
    · subst hi
      have hm := h.metadata i
      rw [if_neg hid] at hm
      simp only [DuckCache.splice, Function.update_self, hm]
      rw [if_pos (by simp)]
    · simp only [DuckCache.splice, Function.update_of_ne hi, h.metadata i]
      simp only [List.mem_append, List.mem_singleton, hi, or_false]
  · intro p hp
    have hp' : c'.isPage p = true := by rw [isPage_congr h.firstPage h.totalPages, hp]
    rw [splice_pageContent hlast hp', h.content p hp]

/-- The loop invariant, with `ids` still to come. -/
structure EvictInv (c : DuckCache) (ids : List Nat) (e : Evicted) : Prop where
  drained : Drained c e.ids e.cache
  arena : Arena e.cache (c.nFreePages + e.nRemovedPages) (ids.map c.objMetadata)
  chains : ∀ i ∈ ids, e.cache.chainOf (c.objMetadata i) = c.chainOf (c.objMetadata i)
  nodup : (e.ids ++ ids).Nodup

/-- One pass keeps it. -/
theorem EvictInv.step {c : DuckCache} {id : Nat} {ids : List Nat} {e : Evicted}
    (h : EvictInv c (id :: ids) e) :
    ∃ c', evictOne e.cache id = some c' ∧
      EvictInv c ids ⟨c', e.nRemovedPages + nPagesFor (e.cache.objMetadata id).len,
        e.ids ++ [id]⟩ := by
  have hnd := h.nodup
  have hid : id ∉ e.ids := by
    intro hmem
    exact (List.nodup_append.mp hnd).2.2 id hmem id (by simp) rfl
  have hm : e.cache.objMetadata id = c.objMetadata id := by
    rw [h.drained.metadata, if_neg hid]
  have harena := h.arena
  rw [List.map_cons, ← hm] at harena
  have hlast := harena.isPage_chain (by simp) (e.cache.lastPage_mem (e.cache.objMetadata id))
  refine ⟨_, evictOne_eq harena, h.drained.splice hid hlast, ?_, ?_, ?_⟩
  · have hnext := splice_arena harena
    rwa [Nat.add_assoc] at hnext
  · intro i hi
    rw [splice_chainOf harena (List.mem_map.mpr ⟨i, hi, rfl⟩)]
    exact h.chains i (List.mem_cons_of_mem _ hi)
  · simpa using hnd

/-- **The eviction loop.**  It never meets a stray address; it evicts a front part
    of the ids, and it stops early only when there is room. -/
theorem evictLoop_spec {c : DuckCache} (nNeed : Nat) {ids : List Nat} {e : Evicted}
    (h : EvictInv c ids e) :
    ∃ victims rest e', evictLoop nNeed ids e = some e' ∧ ids = victims ++ rest ∧
      e'.ids = e.ids ++ victims ∧ EvictInv c rest e' ∧
      (rest = [] ∨ nNeed ≤ c.nFreePages + e'.nRemovedPages ∧
        c.nCurObjects + 1 ≤ c.nMaxObjects + e'.ids.length) := by
  induction ids generalizing e with
  | nil => exact ⟨[], [], e, rfl, rfl, by simp, h, .inl rfl⟩
  | cons id ids ih =>
    obtain ⟨c', hone, hinv⟩ := h.step
    simp only [evictLoop, hone, Option.bind_eq_bind, Option.bind_some]
    split
    · obtain ⟨victims, rest, e', heq, rfl, hids, hinv', hstop⟩ := ih hinv
      exact ⟨id :: victims, rest, e', heq, rfl, by rw [hids]; simp, hinv', hstop⟩
    · rename_i hneed
      refine ⟨[id], ids, _, rfl, rfl, rfl, hinv, .inr ?_⟩
      have hfree := hinv.drained.freePages
      have hcur := hinv.drained.curObjects
      have hmax := hinv.drained.maxObjects
      simp only [Bool.or_eq_true, decide_eq_true_eq, not_or, Nat.not_lt] at hneed
      simp only at hfree hcur hmax
      rw [hfree, hcur, hmax] at hneed
      exact hneed

/-! ## Compaction -/

/-- The test of the compaction loop. -/
def unmarked (e : Entry) : Bool := decide (e.metadata.lastUsedTsc ≠ 0)

/-- The three arrays move together: on entries the loop is one compaction. -/
theorem defrag_entries (c : DuckCache) :
    ∃ hs ds ms, defrag c = { c with objHash := hs, objDigest := ds, objMetadata := ms } ∧
      firstN (defrag c).entry (c.entries.filter unmarked).length = c.entries.filter unmarked := by
  have hcompact := firstN_compact unmarked c.entry c.nCurObjects
  have hloop := countUp_induct defragStep c.nCurObjects (c, 0)
    (fun i s => s.1.entry = (countUp (compactStep unmarked) i (c.entry, 0)).1 ∧
      s.2 = (countUp (compactStep unmarked) i (c.entry, 0)).2 ∧
      ∃ hs ds ms, s.1 = { c with objHash := hs, objDigest := ds, objMetadata := ms })
    ⟨rfl, rfl, _, _, _, rfl⟩ ?_
  · obtain ⟨hentry, hpos, hs, ds, ms, heq⟩ := hloop
    refine ⟨hs, ds, ms, heq, ?_⟩
    have hlen : (c.entries.filter unmarked).length =
        (countUp (compactStep unmarked) c.nCurObjects (c.entry, 0)).2 := by
      rw [entries, ← hcompact, length_firstN]
    rw [hlen]
    simp only [defrag]
    rw [hentry]
    exact hcompact
  · rintro i - s ⟨hentry, hpos, hs, ds, ms, heq⟩
    have hkeep : unmarked ((countUp (compactStep unmarked) i (c.entry, 0)).1 i) =
        decide ((s.1.objMetadata i).lastUsedTsc ≠ 0) := by
      rw [← hentry]
      rfl
    simp only [defragStep, countUp, compactStep, hkeep, decide_eq_true_eq]
    by_cases htsc : (s.1.objMetadata i).lastUsedTsc = 0
    · rw [if_pos htsc, if_neg (by simpa using htsc)]
      exact ⟨hentry, hpos, hs, ds, ms, heq⟩
    · rw [if_neg htsc, if_pos htsc]
      refine ⟨?_, by simp only [hpos], _, _, _, by rw [heq]⟩
      rw [← hentry, ← hpos]
      funext k
      by_cases hk : k = s.2
      · subst hk
        simp only [entry, Function.update_self]
      · simp only [entry, Function.update_of_ne hk]

/-! ## The whole block -/

section Kept

variable {c : DuckCache}

/-- The ids that survive, in index order. -/
def keptIds (c : DuckCache) (victims : List Nat) : List Nat :=
  (List.range c.nCurObjects).filter fun i => decide (i ∉ victims)

theorem keptIds_perm {victims rest : List Nat}
    (hperm : (victims ++ rest).Perm (List.range c.nCurObjects)) :
    (c.keptIds victims).Perm rest := by
  have hnd := hperm.nodup_iff.mpr List.nodup_range
  obtain ⟨-, -, hdisj⟩ := List.nodup_append.mp hnd
  have hv : victims.filter (fun i => decide (i ∉ victims)) = [] := by
    apply List.filter_eq_nil_iff.mpr
    intro i hi
    simpa using hi
  have hr : rest.filter (fun i => decide (i ∉ victims)) = rest := by
    apply List.filter_eq_self.mpr
    intro i hi
    simp only [decide_eq_true_eq]
    intro hmem
    exact hdisj i hmem i hi rfl
  have h := (hperm.filter fun i => decide (i ∉ victims)).symm
  rw [List.filter_append, hv, hr, List.nil_append] at h
  exact h

/-- In the drained cache the compaction keeps exactly the surviving ids. -/
theorem entries_filter_unmarked {victims : List Nat} {c' : DuckCache} (hinv : c.Inv)
    (h : Drained c victims c') : c'.entries.filter unmarked = (c.keptIds victims).map c.entry := by
  have hentries : c'.entries = (List.range c.nCurObjects).map c'.entry := by
    simp only [entries, firstN, h.curObjects]
  have hmark : ∀ i ∈ List.range c.nCurObjects,
      (unmarked ∘ c'.entry) i = decide (i ∉ victims) := by
    intro i hi
    have htsc := hinv.tsc _ (mem_records (List.mem_range.mp hi))
    simp only [Function.comp_apply, unmarked, entry, h.metadata]
    by_cases hv : i ∈ victims
    · simp [hv]
    · simp [hv, htsc]
  rw [hentries, List.filter_map, List.filter_congr hmark]
  apply List.map_congr_left
  intro i hi
  have hv : i ∉ victims := by simpa using (List.mem_filter.mp hi).2
  simp only [entry, h.hash, h.digest, h.metadata, if_neg hv]

/-- Distinct objects have distinct digests, so the kept entries are those whose
    digest was not evicted. -/
theorem entries_filter_digest {victims : List Nat} (hidx : c.Indexed)
    (hv : ∀ i ∈ victims, i < c.nCurObjects) :
    c.entries.filter (fun e => decide (e.digest ∉ victims.map c.objDigest)) =
      (c.keptIds victims).map c.entry := by
  rw [entries, firstN, List.filter_map]
  congr 1
  apply List.filter_congr
  intro i hi
  apply decide_eq_decide.mpr
  simp only [entry, List.mem_map, not_iff_not]
  constructor
  · rintro ⟨j, hj, hd⟩
    rwa [hidx.inj (hv j hj) (List.mem_range.mp hi) hd] at hj
  · intro hmem
    exact ⟨i, hmem, rfl⟩

end Kept

/-- The bytes of an object depend on the chain and the content of its pages. -/
theorem contentOf_congr {c c' : DuckCache} {m : Metadata} (hchain : c'.chainOf m = c.chainOf m)
    (hcontent : ∀ p ∈ c.chainOf m, c'.pageContent p = c.pageContent p) :
    c'.contentOf m = c.contentOf m := by
  simp only [contentOf, hchain]
  rw [List.flatMap_congr hcontent]

/-- What the block returns: `evicted` is gone, the other objects and their bytes
    are as before, and there is room. -/
structure Removed (c : DuckCache) (nNeed : Nat) (c' : DuckCache) (evicted : List Digest256) :
    Prop where
  inv : c'.Inv
  room : nNeed ≤ c'.nFreePages
  slot : c'.nCurObjects < c'.nMaxObjects
  entries : c'.entries = c.entries.filter fun e => decide (e.digest ∉ evicted)
  content : ∀ m ∈ c'.records, c'.contentOf m = c.contentOf m
  maxObjects : c'.nMaxObjects = c.nMaxObjects
  totalPages : c'.nTotalPages = c.nTotalPages
  firstPage : c'.firstPage = c.firstPage

/-- **Eviction.**  From any state that satisfies the invariant, and for any object
    that fits the arena, the block makes room and keeps the invariant. -/
theorem removeObjects_spec (std : StdSort) {c : DuckCache} (hinv : c.Inv) {nNeed : Nat}
    (hfits : nNeed ≤ c.nTotalPages) :
    ∃ c' evicted, removeObjects std c nNeed = some (c', evicted) ∧
      Removed c nNeed c' evicted := by
  have hsort := std.perm (fun i => (c.objMetadata i).lastUsedTsc) (List.range c.nCurObjects)
  have hstart : EvictInv c
      (std.sort (fun i => (c.objMetadata i).lastUsedTsc) (List.range c.nCurObjects))
      ⟨c, 0, []⟩ := by
    refine ⟨Drained.refl c, ?_, fun _ _ => rfl, ?_⟩
    · have harena := hinv.arena
      rw [records_eq] at harena
      exact harena.perm (hsort.symm.map _)
    · simpa using hsort.nodup_iff.mpr List.nodup_range
  obtain ⟨victims, rest, e, hloop, hids, hvict, hend, hstop⟩ :=
    evictLoop_spec nNeed hstart
  rw [hids] at hsort
  simp only [List.nil_append] at hvict
  obtain ⟨hs, ds, ms, hdefrag, hcompact⟩ := defrag_entries e.cache
  have hdr := hend.drained
  rw [hvict] at hdr
  -- the surviving ids, twice: in index order and in the order of the loop
  have hkept := keptIds_perm hsort
  rw [entries_filter_unmarked hinv hdr] at hcompact
  have hlen : (c.keptIds victims).length = c.nCurObjects - victims.length := by
    have h1 := hkept.length_eq
    have h2 := hsort.length_eq
    simp only [List.length_append, List.length_range] at h2
    omega
  rw [List.length_map, hlen] at hcompact
  have hvlt : ∀ i ∈ victims, i < c.nCurObjects := by
    intro i hi
    exact List.mem_range.mp (hsort.mem_iff.mp (List.mem_append_left _ hi))
  simp only [removeObjects, hloop, Option.bind_eq_bind, Option.bind_some]
  refine ⟨_, _, rfl, ?_⟩
  set c' : DuckCache := { defrag e.cache with
    nCurObjects := (defrag e.cache).nCurObjects - e.ids.length
    nFreePages := (defrag e.cache).nFreePages + e.nRemovedPages } with hc'
  have hcur : c'.nCurObjects = c.nCurObjects - victims.length := by
    simp only [hc', hdefrag, hdr.curObjects, hvict]
  have hfree : c'.nFreePages = c.nFreePages + e.nRemovedPages := by
    simp only [hc', hdefrag, hdr.freePages]
  have hmax : c'.nMaxObjects = c.nMaxObjects := by
    simp only [hc', hdefrag, hdr.maxObjects]
  have htotal : c'.nTotalPages = c.nTotalPages := by
    simp only [hc', hdefrag, hdr.totalPages]
  have hfirst : c'.firstPage = c.firstPage := by
    simp only [hc', hdefrag, hdr.firstPage]
  have hmem : c'.mem = e.cache.mem := by
    simp only [hc', hdefrag]
  have hhead : c'.freeListAddr = e.cache.freeListAddr := by
    simp only [hc', hdefrag]
  have hnext : c'.next = e.cache.next := by
    funext p
    simp only [next, hmem]
  have hentries : c'.entries = (c.keptIds victims).map c.entry := by
    simp only [entries, hcur]
    exact hcompact
  have hrecords : c'.records = (c.keptIds victims).map c.objMetadata := by
    simp only [records, hentries, List.map_map]
    rfl
  have hsub : c'.entries = c.entries.filter
      fun f => decide (f.digest ∉ victims.map c.objDigest) := by
    rw [hentries, entries_filter_digest hinv.indexed hvlt]
  have hold : ∀ m ∈ c'.records, m ∈ c.records := by
    intro m hm
    rw [hrecords] at hm
    obtain ⟨i, hi, rfl⟩ := List.mem_map.mp hm
    exact mem_records (List.mem_range.mp (List.mem_filter.mp hi).1)
  have harena : Arena c' c'.nFreePages c'.records := by
    rw [hfree, hrecords]
    have h1 := hend.arena.perm (hkept.symm.map c.objMetadata)
    exact h1.congr (by rw [hfirst, hdr.firstPage]) (by rw [htotal, hdr.totalPages]) hhead
      fun p _ => by rw [hnext]
  refine ⟨⟨?_, by rw [hmax]; exact hinv.maxPos, ?_, ?_, ?_, harena⟩, ?_, ?_, ?_, ?_, hmax, htotal,
    hfirst⟩
  · obtain ⟨hpair, hhash⟩ := indexed_iff.mp hinv.indexed
    apply indexed_iff.mpr
    rw [hsub]
    exact ⟨hpair.sublist List.filter_sublist, fun f hf => hhash f (List.mem_filter.mp hf).1⟩
  · have := hinv.curLe
    omega
  · exact fun m hm => hinv.tsc m (hold m hm)
  · exact fun m hm => hinv.lens m (hold m hm)
  · rcases hstop with hnone | ⟨hroom, -⟩
    · -- with no object left every page is free
      have hall := hend.arena.length_eq
      rw [hnone, hdr.totalPages] at hall
      simp only [List.map_nil, List.sum_nil, Nat.add_zero] at hall
      omega
    · omega
  · have hpos := hinv.maxPos
    rcases hstop with hnone | ⟨-, hslot⟩
    · have h2 := hsort.length_eq
      simp only [List.length_append, List.length_range, hnone, List.length_nil] at h2
      omega
    · have h2 := hsort.length_eq
      simp only [List.length_append, List.length_range] at h2
      rw [hvict] at hslot
      omega
  · simp only [hvict]
    exact hsub
  · intro m hm
    have hm' := hm
    rw [hrecords] at hm'
    obtain ⟨i, hi, rfl⟩ := List.mem_map.mp hm'
    have hchain : c'.chainOf (c.objMetadata i) = c.chainOf (c.objMetadata i) := by
      rw [← hend.chains i (hkept.mem_iff.mp hi)]
      simp only [chainOf, hnext]
    refine contentOf_congr hchain fun p hp => ?_
    rw [← hdr.content p (hinv.arena.isPage_chain (hold _ hm) hp)]
    simp only [pageContent, hmem]

end DuckCache

end JudgePenguin
