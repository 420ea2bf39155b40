/-
  JudgePenguin/DuckCacheLru.lean
  ==============================
  **Which objects `DuckCache::store` evicts.**

  The purpose of the eviction block is stated without arrays or counters: an
  eviction is *least recently used and minimal* when no victim was used after a
  kept object, the victims make room, and they would not without the most recent
  one of them (`OldestMinimal`).

    * a loop that takes the ids in the order of their time stamps and stops as soon
      as there is room does exactly that (`oldestMinimal_of_sorted`);
    * the loop of the source does so with its running counts
      (`evictLoop_lacks`, `removeObjects_victims`);
    * the insertion that follows opens one gap in the kept entries and changes
      nothing else of them (`storeAt_keeps`).
-/
import JudgePenguin.DuckCacheRuns

namespace JudgePenguin

open Words ArrayLoops Chain

/-! ## The policy -/

section Policy

variable {α : Type}

/-- `victims`, in the order they are taken from `all`, are the oldest by `key`, are
    enough, and are not enough without the last and most recent of them. -/
structure OldestMinimal (key : α → Nat) (enough : List α → Prop) (all victims : List α) :
    Prop where
  stored : ∀ v ∈ victims, v ∈ all
  nodup : victims.Nodup
  oldest : ∀ v ∈ victims, ∀ x ∈ all, x ∉ victims → key v ≤ key x
  makesRoom : enough victims
  minimal : ∃ front last, victims = front ++ [last] ∧ (∀ v ∈ victims, key v ≤ key last) ∧
    ¬ enough front

/-- A front part of a sorted list that ends at the first point where there is
    enough. -/
theorem oldestMinimal_of_sorted {key : α → Nat} {enough : List α → Prop}
    {all victims rest : List α} (hperm : (victims ++ rest).Perm all) (hnd : all.Nodup)
    (hsorted : (victims ++ rest).Pairwise fun a b => key a ≤ key b) (henough : enough victims)
    (hlack : ∀ front last, victims = front ++ [last] → ¬ enough front) (hnone : ¬ enough []) :
    OldestMinimal key enough all victims := by
  have hsplit := List.pairwise_append.mp hsorted
  have hnd' := List.nodup_append.mp (hperm.nodup_iff.mpr hnd)
  refine ⟨fun v hv => hperm.mem_iff.mp (List.mem_append_left _ hv), hnd'.1, ?_, henough, ?_⟩
  · intro v hv x hx hxv
    rcases List.mem_append.mp (hperm.mem_iff.mpr hx) with hin | hin
    · exact absurd hin hxv
    · exact hsplit.2.2 v hv x hin
  · rcases List.eq_nil_or_concat victims with rfl | ⟨front, last, rfl⟩
    · exact absurd henough hnone
    · rw [List.concat_eq_append] at hsplit hlack ⊢
      refine ⟨front, last, rfl, ?_, hlack front last rfl⟩
      intro v hv
      rcases List.mem_append.mp hv with hfront | hlast
      · exact (List.pairwise_append.mp hsplit.1).2.2 v hfront last (by simp)
      · rw [List.mem_singleton.mp hlast]

end Policy

namespace DuckCache

/-! ## The running counts of the loop -/

/-- The pages of the objects `ids`. -/
def pagesOf (c : DuckCache) (ids : List Nat) : Nat :=
  (ids.map fun i => nPagesFor (c.objMetadata i).len).sum

/-- The test of the loop once the objects `ids` are gone. -/
def Lacks (c : DuckCache) (nNeed : Nat) (ids : List Nat) : Prop :=
  nNeed > c.nFreePages + c.pagesOf ids ∨ c.nCurObjects + 1 > c.nMaxObjects + ids.length

theorem pagesOf_snoc (c : DuckCache) (ids : List Nat) (id : Nat) :
    c.pagesOf (ids ++ [id]) = c.pagesOf ids + nPagesFor (c.objMetadata id).len := by
  simp [pagesOf]

/-- What the counts of the loop rely on. -/
structure SameCounts (c c' : DuckCache) : Prop where
  maxObjects : c'.nMaxObjects = c.nMaxObjects
  curObjects : c'.nCurObjects = c.nCurObjects
  freePages : c'.nFreePages = c.nFreePages
  len : ∀ i, (c'.objMetadata i).len = (c.objMetadata i).len

theorem evictOne_sameCounts {c c' : DuckCache} {id : Nat} (h : evictOne c id = some c') :
    SameCounts c c' := by
  simp only [evictOne, Option.bind_eq_bind, Option.bind_eq_some_iff] at h
  obtain ⟨addr, -, h⟩ := h
  split at h
  · rw [Option.some.injEq] at h
    subst h
    refine ⟨rfl, rfl, rfl, fun i => ?_⟩
    by_cases hi : i = id
    · subst hi
      simp only [Function.update_self]
    · simp only [Function.update_of_ne hi]
  · cases h

theorem SameCounts.trans {c c' c'' : DuckCache} (h1 : SameCounts c c') (h2 : SameCounts c' c'') :
    SameCounts c c'' :=
  ⟨h2.maxObjects.trans h1.maxObjects, h2.curObjects.trans h1.curObjects,
    h2.freePages.trans h1.freePages, fun i => (h2.len i).trans (h1.len i)⟩

/-- The loop takes a front part of the ids, counts its pages, and stands in need
    after every victim but the last. -/
theorem evictLoop_lacks {c : DuckCache} {nNeed : Nat} {ids : List Nat} {e e' : Evicted}
    (h : evictLoop nNeed ids e = some e') (hcounts : SameCounts c e.cache)
    (hpages : e.nRemovedPages = c.pagesOf e.ids) :
    ∃ victims rest, ids = victims ++ rest ∧ e'.ids = e.ids ++ victims ∧
      SameCounts c e'.cache ∧ e'.nRemovedPages = c.pagesOf e'.ids ∧
      ∀ front last, victims = front ++ [last] → front ≠ [] → c.Lacks nNeed (e.ids ++ front) := by
  induction ids generalizing e with
  | nil =>
    simp only [evictLoop, Option.some.injEq] at h
    subst h
    exact ⟨[], [], rfl, by simp, hcounts, hpages, by simp⟩
  | cons id ids ih =>
    simp only [evictLoop, Option.bind_eq_bind, Option.bind_eq_some_iff] at h
    obtain ⟨c1, hone, h⟩ := h
    have hcounts1 := hcounts.trans (evictOne_sameCounts hone)
    have hpages1 : e.nRemovedPages + nPagesFor (e.cache.objMetadata id).len =
        c.pagesOf (e.ids ++ [id]) := by
      rw [pagesOf_snoc, hpages, hcounts.len]
    split at h
    · rename_i hneed
      obtain ⟨victims, rest, rfl, hids, hcounts', hpages', hlack⟩ := ih h hcounts1 hpages1
      refine ⟨id :: victims, rest, rfl, by rw [hids]; simp, hcounts', hpages', ?_⟩
      intro front last hfront hne
      cases front with
      | nil => exact absurd rfl hne
      | cons x front =>
        simp only [List.cons_append, List.cons.injEq] at hfront
        obtain ⟨rfl, hfront⟩ := hfront
        by_cases hnil : front = []
        · -- the need seen after this pass
          subst hnil
          simp only [Bool.or_eq_true, decide_eq_true_eq] at hneed
          rw [hcounts1.freePages, hcounts1.curObjects, hcounts1.maxObjects, hpages1] at hneed
          exact hneed
        · have hmore := hlack front last hfront hnil
          simpa using hmore
    · rw [Option.some.injEq] at h
      subst h
      refine ⟨[id], ids, rfl, rfl, hcounts1, hpages1, ?_⟩
      intro front last hfront hne
      have hlen := congrArg List.length hfront
      simp only [List.length_singleton, List.length_append] at hlen
      exact absurd (List.eq_nil_of_length_eq_zero (by omega)) hne

theorem countUp_defragStep (c : DuckCache) (n : Nat) :
    (countUp defragStep n (c, 0)).1.nCurObjects = c.nCurObjects ∧
      (countUp defragStep n (c, 0)).1.nFreePages = c.nFreePages := by
  refine countUp_induct defragStep n (c, 0)
    (fun _ s => s.1.nCurObjects = c.nCurObjects ∧ s.1.nFreePages = c.nFreePages) ⟨rfl, rfl⟩ ?_
  intro i _ s hs
  simp only [defragStep]
  split
  · exact hs
  · exact hs

/-- What the block reports: the victims are a front part of the sorted ids, each
    proper part of them leaves a need, and the counters are brought up to date. -/
theorem removeObjects_victims {std : StdSort} {c c' : DuckCache} {nNeed : Nat}
    {evicted : List Digest256} (h : removeObjects std c nNeed = some (c', evicted))
    (hneed : c.Lacks nNeed []) :
    ∃ victims rest,
      std.sort (fun i => (c.objMetadata i).lastUsedTsc) (List.range c.nCurObjects) =
        victims ++ rest ∧
      evicted = victims.map c.objDigest ∧
      c'.nCurObjects = c.nCurObjects - victims.length ∧
      c'.nFreePages = c.nFreePages + c.pagesOf victims ∧
      ∀ front last, victims = front ++ [last] → c.Lacks nNeed front := by
  simp only [removeObjects, Option.bind_eq_bind, Option.bind_eq_some_iff] at h
  obtain ⟨e, hloop, h⟩ := h
  obtain ⟨victims, rest, hids, hvict, hcounts, hpages, hlack⟩ :=
    evictLoop_lacks hloop ⟨rfl, rfl, rfl, fun _ => rfl⟩ (by simp [pagesOf])
  simp only [List.nil_append] at hvict hlack
  rw [hvict] at hpages
  simp only [Option.some.injEq, Prod.mk.injEq] at h
  obtain ⟨rfl, rfl⟩ := h
  have hdefrag := countUp_defragStep e.cache e.cache.nCurObjects
  refine ⟨victims, rest, hids, by rw [hvict], ?_, ?_, ?_⟩
  · simp only [defrag]
    rw [hdefrag.1, hcounts.curObjects, hvict]
  · simp only [defrag]
    rw [hdefrag.2, hcounts.freePages, hpages]
  · intro front last hfront
    by_cases hnil : front = []
    · subst hnil
      exact hneed
    · exact hlack front last hfront hnil

/-! ## The insertion -/

/-- The end of `store` changes the pages and the free list besides the gap. -/
theorem storeAt_cache {c : DuckCache} {idx : Nat} {d : Digest256} {ext : Mem}
    {src len now : Nat} {evicted : List Digest256} {r : StoreResult}
    (h : storeAt c idx d ext src len now evicted = some r) :
    ∃ mem addr, r.cache = { insertObject c idx d ⟨now, c.freeListAddr, len⟩ with
      mem := mem
      nFreePages := c.nFreePages - nPagesFor len
      freeListAddr := addr } := by
  simp only [storeAt, Option.bind_eq_bind, Option.bind_eq_some_iff] at h
  obtain ⟨copied, -, addr, -, h⟩ := h
  rw [Option.some.injEq] at h
  subst h
  exact ⟨copied.mem, addr, rfl⟩

/-- The entry `new` is put somewhere into the list `kept`. -/
def OneMore (kept : List Entry) (new : Entry) (entries : List Entry) : Prop :=
  ∃ before after, kept = before ++ after ∧ entries = before ++ new :: after

theorem storeAt_oneMore {c : DuckCache} {idx : Nat} (hidx : idx ≤ c.nCurObjects) {d : Digest256}
    {ext : Mem} {src len now : Nat} {evicted : List Digest256} {r : StoreResult}
    (h : storeAt c idx d ext src len now evicted = some r) :
    OneMore c.entries ⟨d.word 0, d, ⟨now, c.freeListAddr, len⟩⟩ r.cache.entries := by
  obtain ⟨mem, addr, hr⟩ := storeAt_cache h
  have hentries : r.cache.entries =
      c.entries.insertIdx idx ⟨d.word 0, d, ⟨now, c.freeListAddr, len⟩⟩ := by
    rw [hr, entries]
    have hgap := firstN_insertAt c.entry
      (⟨d.word 0, d, ⟨now, c.freeListAddr, len⟩⟩ : Entry) hidx
    rw [← insertObject_entry] at hgap
    exact hgap
  have hle : idx ≤ c.entries.length := by
    rw [entries, length_firstN]
    exact hidx
  obtain ⟨before, after, hsplit, -, hins⟩ := List.exists_of_modifyTailIdx
    (List.cons (⟨d.word 0, d, ⟨now, c.freeListAddr, len⟩⟩ : Entry)) hle
  exact ⟨before, after, hsplit, hentries.trans hins⟩

/-! ## The whole call -/

/-- The pages of the objects `victims`. -/
def victimPages (victims : List Entry) : Nat :=
  (victims.map fun e => exactPages e.metadata.len).sum

/-- Without `victims` there are `n` free pages and a free slot. -/
def HasRoom (c : DuckCache) (n : Nat) (victims : List Entry) : Prop :=
  n ≤ c.nFreePages + victimPages victims ∧ c.nCurObjects < c.nMaxObjects + victims.length

/-- A call of `store` that inserted `d` in place of `victims`. -/
structure Replaces (c : DuckCache) (d : Digest256) (len now : Nat) (victims : List Entry)
    (r : StoreResult) : Prop where
  ret : r.ret = true
  evicted : r.evicted = victims.map Entry.digest
  nothing : exactPages len ≤ c.nFreePages → c.nCurObjects < c.nMaxObjects → victims = []
  lru : ¬ (exactPages len ≤ c.nFreePages ∧ c.nCurObjects < c.nMaxObjects) →
    OldestMinimal (fun e => e.metadata.lastUsedTsc) (c.HasRoom (exactPages len)) c.entries victims
  kept : ∀ e ∈ c.entries, e ∈ c.keptEntries r.evicted ↔ e ∉ victims
  entries : ∃ startAddr, OneMore (c.keptEntries r.evicted)
    ⟨d.word 0, d, ⟨now, startAddr, len⟩⟩ r.cache.entries
  content : ∀ e ∈ c.keptEntries r.evicted, r.cache.contentOf e.metadata = c.contentOf e.metadata
  freePages : r.cache.nFreePages + exactPages len = c.nFreePages + victimPages victims
  curObjects : r.cache.nCurObjects + victims.length = c.nCurObjects + 1

section Victims

variable {c : DuckCache} (hinv : c.Inv) {victims : List Nat}
  (hlt : ∀ i ∈ victims, i < c.nCurObjects)

include hinv hlt

theorem victimPages_map : victimPages (victims.map c.entry) = c.pagesOf victims := by
  simp only [victimPages, pagesOf, List.map_map]
  refine congrArg List.sum (List.map_congr_left fun i hi => ?_)
  simp only [Function.comp_apply, entry]
  rw [nPagesFor_eq_exact (hinv.lens _ (mem_records (hlt i hi)))]

/-- The test of the loop, in the words of the policy. -/
theorem not_hasRoom_of_lacks {n : Nat} (h : c.Lacks n victims) :
    ¬ c.HasRoom n (victims.map c.entry) := by
  rintro ⟨hpages, hslot⟩
  rw [victimPages_map hinv hlt] at hpages
  rw [List.length_map] at hslot
  rcases h with h | h
  · exact absurd hpages (Nat.not_le.mpr h)
  · omega

theorem mem_keptEntries_iff {e : Entry} (he : e ∈ c.entries) :
    e ∈ c.keptEntries (victims.map c.objDigest) ↔ e ∉ victims.map c.entry := by
  obtain ⟨i, hi, rfl⟩ := mem_firstN.mp he
  rw [keptEntries, entries_filter_digest hinv.indexed hlt]
  have hone : ∀ j, j < c.nCurObjects → c.entry j = c.entry i → j = i :=
    fun j hj heq => hinv.indexed.inj hj hi (congrArg Entry.digest heq)
  constructor
  · rintro hmem hv
    obtain ⟨j, hj, hji⟩ := List.mem_map.mp hmem
    obtain ⟨k, hk, hki⟩ := List.mem_map.mp hv
    obtain ⟨hjlt, hjv⟩ := List.mem_filter.mp hj
    rw [hone j (List.mem_range.mp hjlt) hji, ← hone k (hlt k hk) hki] at hjv
    simp [hk] at hjv
  · intro hv
    refine List.mem_map.mpr ⟨i, List.mem_filter.mpr ⟨List.mem_range.mpr hi, ?_⟩, rfl⟩
    simp only [decide_eq_true_eq]
    exact fun hmem => hv (List.mem_map.mpr ⟨i, hmem, rfl⟩)

end Victims

theorem entries_nodup {c : DuckCache} (hinv : c.Inv) : c.entries.Nodup := by
  rw [entries, firstN]
  refine List.Nodup.map_on ?_ List.nodup_range
  intro i hi j hj heq
  exact hinv.indexed.inj (List.mem_range.mp hi) (List.mem_range.mp hj)
    (congrArg Entry.digest heq)

/-- The eviction block follows the policy. -/
theorem removeObjects_oldestMinimal (std : StdSort) {c : DuckCache} (hinv : c.Inv) {n : Nat}
    (hfits : n ≤ c.nTotalPages) (hneed : c.Lacks n []) :
    ∃ c' victims, removeObjects std c n = some (c', victims.map c.objDigest) ∧
      Removed c n c' (victims.map c.objDigest) ∧ (∀ i ∈ victims, i < c.nCurObjects) ∧
      c'.nCurObjects + victims.length = c.nCurObjects ∧
      c'.nFreePages = c.nFreePages + c.pagesOf victims ∧
      OldestMinimal (fun e => e.metadata.lastUsedTsc) (c.HasRoom n) c.entries
        (victims.map c.entry) := by
  obtain ⟨c', evicted, hrem, hspec⟩ := removeObjects_spec std hinv hfits
  obtain ⟨victims, rest, hsort, rfl, hcur, hfree, hlack⟩ := removeObjects_victims hrem hneed
  have hperm := std.perm (fun i => (c.objMetadata i).lastUsedTsc) (List.range c.nCurObjects)
  have hord := std.sorted (fun i => (c.objMetadata i).lastUsedTsc) (List.range c.nCurObjects)
  rw [hsort] at hperm hord
  have hlt : ∀ i ∈ victims, i < c.nCurObjects := by
    intro i hi
    exact List.mem_range.mp (hperm.mem_iff.mp (List.mem_append_left _ hi))
  have hlen : victims.length ≤ c.nCurObjects := by
    have h := hperm.length_eq
    simp only [List.length_append, List.length_range] at h
    omega
  have hcount : c'.nCurObjects + victims.length = c.nCurObjects := by omega
  refine ⟨c', victims, hrem, hspec, hlt, hcount, hfree, ?_⟩
  have hall : (victims.map c.entry ++ rest.map c.entry).Perm c.entries := by
    rw [← List.map_append]
    exact hperm.map c.entry
  apply oldestMinimal_of_sorted hall (entries_nodup hinv)
  · rw [← List.map_append]
    exact List.pairwise_map.mpr hord
  · have hroom := hspec.room
    have hslot := hspec.slot
    rw [hfree] at hroom
    rw [hspec.maxObjects] at hslot
    refine ⟨by rw [victimPages_map hinv hlt]; exact hroom, ?_⟩
    rw [List.length_map]
    omega
  · intro front last hfront
    obtain ⟨ids, tail, rfl, hids, htail⟩ := List.map_eq_append_iff.mp hfront
    obtain ⟨id, rest', rfl, -, hnil⟩ := List.map_eq_cons_iff.mp htail
    rw [List.map_eq_nil_iff.mp hnil] at hlack hlt
    rw [← hids]
    exact not_hasRoom_of_lacks hinv (fun i hi => hlt i (List.mem_append_left _ hi))
      (hlack ids id rfl)
  · exact not_hasRoom_of_lacks hinv (by simp) hneed

/-- **`store` of an absent digest** that fits the arena. -/
theorem store_replaces (std : StdSort) {c : DuckCache} (hinv : c.Inv) {d : Digest256}
    (habs : ∀ e ∈ c.entries, e.digest ≠ d) (ext : Mem) (src : Nat) {len now : Nat}
    (hlen : len ≤ MAX_LEN) (hnow : now ≠ 0) (hfits : exactPages len ≤ c.nTotalPages) :
    ∃ r victims, store std c d ext src len now = some r ∧ Replaces c d len now victims r := by
  have hfind := find_of_absent hinv habs
  have hpages := nPagesFor_eq_exact hlen
  rw [← hpages] at hfits
  by_cases hneed : nPagesFor len > c.nFreePages ∨ c.nCurObjects + 1 > c.nMaxObjects
  · obtain ⟨c', victims, hrem, hspec, hlt, hcur, hfree, hlru⟩ :=
      removeObjects_oldestMinimal std hinv hfits (by simpa [Lacks, pagesOf] using hneed)
    have hfind' := find_of_removed hinv hfind hspec
    obtain ⟨c'', hstore, hst⟩ := storeAt_spec hspec.inv hfind' hlen hspec.room hspec.slot hnow
      ext src (victims.map c.objDigest)
    have hmore := storeAt_oneMore (find_spec hspec.inv.indexed d).le hstore
    obtain ⟨mem, addr, hcache⟩ := storeAt_cache hstore
    simp only at hmore hcache
    rw [hspec.entries] at hmore
    refine ⟨⟨true, c'', victims.map c.objDigest, bytesFrom src len⟩, victims.map c.entry,
      ?_, rfl, ?_, ?_, ?_, ?_, ⟨_, hmore⟩, ?_, ?_, ?_⟩
    · rw [store_of_need hfind ext src now hfits hneed hrem hfind', hstore]
    · simp only [List.map_map]
      rfl
    · intro h1 h2
      omega
    · intro _
      rw [← hpages]
      exact hlru
    · exact fun e he => mem_keptEntries_iff hinv hlt he
    · intro e he
      have he' : e ∈ c'.entries := by rw [hspec.entries]; exact he
      have hrec : e.metadata ∈ c'.records := List.mem_map.mpr ⟨e, he', rfl⟩
      exact (hst.content _ hrec).trans (hspec.content _ hrec)
    · have hroom := hspec.room
      have hnow : c''.nFreePages = c'.nFreePages - nPagesFor len := by rw [hcache]
      rw [victimPages_map hinv hlt]
      simp only
      omega
    · have hnow : c''.nCurObjects = c'.nCurObjects + 1 := by rw [hcache]; rfl
      rw [List.length_map]
      simp only
      omega
  · have hroom : nPagesFor len ≤ c.nFreePages ∧ c.nCurObjects < c.nMaxObjects := by omega
    obtain ⟨c'', hstore, hst⟩ := storeAt_spec hinv hfind hlen hroom.1 hroom.2 hnow ext src []
    have hmore := storeAt_oneMore (find_spec hinv.indexed d).le hstore
    obtain ⟨mem, addr, hcache⟩ := storeAt_cache hstore
    simp only at hmore hcache
    refine ⟨⟨true, c'', [], bytesFrom src len⟩, [], ?_, rfl, rfl, fun _ _ => rfl,
      ?_, ?_, ?_, ?_, ?_, ?_⟩
    · rw [store_of_room hfind ext src now hfits hneed, hstore]
    · intro hnone
      omega
    · intro e he
      rw [keptEntries_nil]
      simp [he]
    · simp only
      rw [keptEntries_nil]
      exact ⟨_, hmore⟩
    · simp only
      rw [keptEntries_nil]
      intro e he
      exact hst.content _ (List.mem_map.mpr ⟨e, he, rfl⟩)
    · have hnow : c''.nFreePages = c.nFreePages - nPagesFor len := by rw [hcache]
      simp only [victimPages, List.map_nil, List.sum_nil]
      omega
    · have hnow : c''.nCurObjects = c.nCurObjects + 1 := by rw [hcache]; rfl
      simpa using hnow

/-- **Eviction is minimal and least recently used**, in every state a run of calls
    reaches. -/
theorem run_store_lru (std : StdSort) {b b' : MemoryBreaks} {old c0 : DuckCache}
    {nMax size : Nat} (hinit : init b old nMax size = .ok b' c0) (hn : 1 ≤ nMax)
    (hfit : ArraysFit b'.vaddrBreak nMax) (hsize : size < 2 ^ 64) (ops : List CacheOp)
    (hops : ∀ op ∈ ops, op.Ok) :
    ∃ c history, run std c0 ops = some (c, history) ∧
      ∀ d ext src len now, len ≤ MAX_LEN → now ≠ 0 → (∀ e ∈ c.entries, e.digest ≠ d) →
        (exactPages len ≤ c.nTotalPages → ∃ r victims,
          store std c d ext src len now = some r ∧ Replaces c d len now victims r) ∧
        (c.nTotalPages < exactPages len →
          store std c d ext src len now = some ⟨false, c, [], []⟩) := by
  obtain ⟨c, history, hrun, h⟩ := run_spec std (init_runInv hinit hn hfit hsize) hops
  refine ⟨c, history, hrun, fun d ext src len now hlen hnow habs => ⟨?_, ?_⟩⟩
  · exact fun hfits => store_replaces std h.inv habs ext src hlen hnow hfits
  · intro hbig
    rw [← nPagesFor_eq_exact hlen] at hbig
    exact store_of_big (find_of_absent h.inv habs) ext src now hbig

/-- A digest of four equal words. -/
def evenDigest (w : UInt64) : Digest256 := ⟨Vector.replicate 4 w⟩

/-- The run of the next theorem: one object of ten bytes. -/
def oneStore : List CacheOp := [.store (evenDigest 1) (fun x => UInt8.ofNat x) 0 10 1]

theorem oneStore_ok : ∀ op ∈ oneStore, op.Ok := by
  simp [oneStore, CacheOp.Ok, MAX_LEN, ONE_PAGE_CONTENT_SIZE, PAGE_SIZE]

/-- In a cache with one slot the second object replaces the first. -/
theorem run_store_lru_two :
    ∃ b' c0, init MemoryBreaks.init blank 1 0x200000 = .ok b' c0 ∧
      ∃ c history, run .insertion c0 oneStore = some (c, history) ∧
        ∃ r victims, store .insertion c (evenDigest 2) (fun _ => 7) 0 10 2 = some r ∧
          Replaces c (evenDigest 2) 10 2 victims r ∧ victims ≠ [] := by
  obtain ⟨b', c0, hinit, hfit⟩ := init_of_room MemoryBreaks.init blank 1 0x200000 (by decide)
    (by decide)
  have hfresh := init_fresh hinit hfit (by decide)
  have hrun0 := init_runInv hinit (by decide) hfit (by decide)
  have hnone : c0.entries = [] := by
    rw [entries, hfresh.curObjects]
    rfl
  obtain ⟨c, history, hrun, hstore⟩ := run_store_lru .insertion hinit (by decide) hfit (by decide)
    oneStore oneStore_ok
  obtain ⟨c1, events, hrun1, hinv1⟩ := run_spec .insertion hrun0 oneStore_ok
  rw [hrun, Option.some.injEq, Prod.mk.injEq] at hrun1
  obtain ⟨rfl, rfl⟩ := hrun1
  have hpages : exactPages 10 = 1 := by decide
  obtain ⟨r1, v1, hr1, hrep1⟩ := store_replaces .insertion hrun0.inv (d := evenDigest 1)
    (by rw [hnone]; simp) (fun x => UInt8.ofNat x) 0 (show 10 ≤ MAX_LEN by decide)
    (show 1 ≠ 0 by decide) (by rw [hpages]; exact hfresh.totalPos)
  have hc : r1.cache = c := by
    simp only [oneStore, run, step, hr1, Option.map_some, Option.bind_eq_bind, Option.bind_some,
      Option.some.injEq, Prod.mk.injEq] at hrun
    exact hrun.1
  obtain ⟨addr, before, after, hkept, hentries⟩ := hrep1.entries
  have hnil : c0.keptEntries r1.evicted = [] := by
    rw [keptEntries, hnone]
    rfl
  rw [hnil] at hkept
  obtain ⟨rfl, rfl⟩ := List.append_eq_nil_iff.mp hkept.symm
  rw [hc] at hentries
  have htotal : 0 < c.nTotalPages := by
    rw [hinv1.arena.totalPages]
    exact hfresh.totalPos
  have hfull : c.nCurObjects = 1 ∧ c.nMaxObjects = 1 := by
    have hlen := congrArg List.length hentries
    rw [entries, length_firstN] at hlen
    exact ⟨hlen, hinv1.arena.maxObjects.trans hfresh.maxObjects⟩
  obtain ⟨r, victims, hr, hrep⟩ := (hstore (evenDigest 2) (fun _ => 7) 0 10 2 (by decide)
    (by decide) (by rw [hentries]; simp [evenDigest])).1 (by rw [hpages]; exact htotal)
  refine ⟨b', c0, hinit, c, history, hrun, r, victims, hr, hrep, ?_⟩
  rintro rfl
  obtain ⟨front, last, hsnoc, -⟩ := (hrep.lru (by omega)).minimal
  simp at hsnoc

end DuckCache

end JudgePenguin
