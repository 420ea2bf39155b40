/-
  JudgePenguin/DuckCacheRuns.lean
  ===============================
  **Whole runs of the object cache.**

  `run` makes a sequence of `store` and `load` calls and records what the stores
  did.  Two results hold after every run from an initialised cache, and with it
  after every call of every run:

    * `run_wellFormed`: no call meets a stray address, the arrays stay sorted, and
      the free list and the objects partition the pages that `init` created;
    * `run_refines_map`: the cache is a map from digests to bytes.  An object is
      held from the store that inserts it to the store that evicts it, and a load
      returns the bytes of the inserting call, whatever happened in between.
-/
import JudgePenguin.DuckCacheStore

namespace JudgePenguin

open Words ArrayLoops Chain

/-- One `std::sort`: insertion sort by the key. -/
def StdSort.insertion : StdSort where
  sort key ids := ids.insertionSort fun i j => key i ≤ key j
  perm _ ids := List.perm_insertionSort _ ids
  sorted key ids :=
    haveI : Std.Total fun i j : Nat => key i ≤ key j := ⟨fun i j => Nat.le_total (key i) (key j)⟩
    haveI : IsTrans Nat fun i j => key i ≤ key j := ⟨fun _ _ _ => Nat.le_trans⟩
    List.pairwise_insertionSort _ ids

/-- A call on the cache.  `ext` is the memory that `src` points into, and `now` the
    clock reading of the call. -/
inductive CacheOp where
  | store (digest : Digest256) (ext : Mem) (src len now : Nat)
  | load (digest : Digest256) (dst requiredLen now : Nat)

/-- The clock does not read `0`, and the length of a stored object leaves room for
    the rounding. -/
def CacheOp.Ok : CacheOp → Prop
  | .store _ _ _ len now => len ≤ MAX_LEN ∧ now ≠ 0
  | .load _ _ _ now => now ≠ 0

/-- What a `store` did: whether it inserted the bytes it was given under `digest`,
    and which digests it evicted. -/
structure StoreEvent where
  digest : Digest256
  bytes : List UInt8
  inserted : Bool
  evicted : List Digest256

namespace DuckCache

def storeEvent (c : DuckCache) (digest : Digest256) (ext : Mem) (src len : Nat)
    (r : StoreResult) : StoreEvent :=
  ⟨digest, (bytesFrom src len).map ext, r.ret && !(c.find digest).1, r.evicted⟩

def step (std : StdSort) (c : DuckCache) : CacheOp → Option (DuckCache × List StoreEvent)
  | .store digest ext src len now =>
    (store std c digest ext src len now).map fun r =>
      (r.cache, [storeEvent c digest ext src len r])
  | .load digest dst requiredLen now =>
    (load c digest dst requiredLen now).map fun r => (r.cache, [])

/-- Make the calls in order; the history lists the stores, oldest first. -/
def run (std : StdSort) (c : DuckCache) : List CacheOp → Option (DuckCache × List StoreEvent)
  | [] => some (c, [])
  | op :: ops => do
    let (c', events) ← step std c op
    let (c'', events') ← run std c' ops
    some (c'', events ++ events')

/-- `e` is the store that inserted `d`, and `d` was not evicted since. -/
def Held (history : List StoreEvent) (d : Digest256) (e : StoreEvent) : Prop :=
  ∃ before after, history = before ++ e :: after ∧ e.digest = d ∧ e.inserted = true ∧
    ∀ e' ∈ after, d ∉ e'.evicted

/-! ## The map -/

section Held

variable {history : List StoreEvent} {d : Digest256} {e e' : StoreEvent}

theorem not_held_nil : ¬ Held [] d e := by
  rintro ⟨before, after, h, -⟩
  simp at h

/-- One more store: an object stays unless evicted, and the new one is there if
    it was inserted. -/
theorem held_snoc : Held (history ++ [e']) d e ↔
    (Held history d e ∧ d ∉ e'.evicted) ∨ (e = e' ∧ e'.digest = d ∧ e'.inserted = true) := by
  constructor
  · rintro ⟨before, after, heq, hd, hins, hkeep⟩
    rcases List.eq_nil_or_concat after with rfl | ⟨after', last, rfl⟩
    · have h := List.append_inj' heq (by simp)
      simp only [List.cons.injEq, and_true] at h
      obtain ⟨-, rfl⟩ := h
      exact .inr ⟨rfl, hd, hins⟩
    · rw [List.concat_eq_append, ← List.cons_append, ← List.append_assoc] at heq
      have h := List.append_inj' heq (by simp)
      simp only [List.cons.injEq, and_true] at h
      obtain ⟨rfl, rfl⟩ := h
      refine .inl ⟨⟨before, after', rfl, hd, hins, ?_⟩, hkeep _ (by simp)⟩
      exact fun f hf => hkeep f (by simp [hf])
  · rintro (⟨⟨before, after, rfl, hd, hins, hkeep⟩, hnew⟩ | ⟨rfl, hd, hins⟩)
    · refine ⟨before, after ++ [e'], by simp, hd, hins, ?_⟩
      intro f hf
      rcases List.mem_append.mp hf with hold | hlast
      · exact hkeep f hold
      · rw [List.mem_singleton.mp hlast]
        exact hnew
    · exact ⟨history, [], rfl, hd, hins, by simp⟩

end Held

/-- The cache holds exactly the objects that the history says, with the bytes of
    the inserting call. -/
structure Tracks (c : DuckCache) (history : List StoreEvent) : Prop where
  stored : ∀ d e, Held history d e →
    ∃ f ∈ c.entries, f.digest = d ∧ f.metadata.len = e.bytes.length ∧
      c.contentOf f.metadata = e.bytes
  held : ∀ f ∈ c.entries, ∃ e, Held history f.digest e

theorem Tracks.touch {c : DuckCache} {history : List StoreEvent} (h : Tracks c history)
    (i now : Nat) : Tracks (c.touch i now) history := by
  constructor
  · intro d e hheld
    obtain ⟨f, hf, hd, hlen, hbytes⟩ := h.stored d e hheld
    obtain ⟨k, hk, rfl⟩ := mem_firstN.mp hf
    refine ⟨(c.touch i now).entry k, mem_firstN.mpr ⟨k, hk, rfl⟩, hd, ?_, ?_⟩
    · exact (touch_metadata c i now k).2.trans hlen
    · exact (touch_contentOf c i now k).trans hbytes
  · intro f hf
    obtain ⟨k, hk, rfl⟩ := mem_firstN.mp hf
    exact h.held (c.entry k) (mem_firstN.mpr ⟨k, hk, rfl⟩)

/-- A store that neither inserts nor evicts does not change the map. -/
theorem Tracks.idle {c : DuckCache} {history : List StoreEvent} (h : Tracks c history)
    {e' : StoreEvent} (hins : e'.inserted = false) (hev : e'.evicted = []) :
    Tracks c (history ++ [e']) := by
  have hiff : ∀ d e, Held (history ++ [e']) d e ↔ Held history d e := by
    intro d e
    rw [held_snoc, hins, hev]
    simp
  constructor
  · intro d e hheld
    exact h.stored d e ((hiff d e).mp hheld)
  · intro f hf
    obtain ⟨e, he⟩ := h.held f hf
    exact ⟨e, (hiff _ e).mpr he⟩

/-- A store that inserts replaces the evicted objects by the new one. -/
theorem Tracks.insert {c c' : DuckCache} {history : List StoreEvent} (h : Tracks c history)
    {d : Digest256} {bytes : List UInt8} {evicted : List Digest256}
    (hins : Inserted c d bytes evicted c') :
    Tracks c' (history ++ [⟨d, bytes, true, evicted⟩]) := by
  obtain ⟨m, hmlen, hmbytes, hperm⟩ := hins.entries
  constructor
  · intro d' e hheld
    rcases held_snoc.mp hheld with ⟨hold, hkept⟩ | ⟨rfl, rfl, -⟩
    · obtain ⟨f, hf, rfl, hlen, hbytes⟩ := h.stored d' e hold
      have hfk : f ∈ c.keptEntries evicted := List.mem_filter.mpr ⟨hf, by simpa using hkept⟩
      refine ⟨f, hperm.mem_iff.mpr (List.mem_cons_of_mem _ hfk), rfl, hlen, ?_⟩
      rw [hins.content f hfk, hbytes]
    · exact ⟨⟨d.word 0, d, m⟩, hperm.mem_iff.mpr (by simp), rfl, hmlen, hmbytes⟩
  · intro f hf
    rcases List.mem_cons.mp (hperm.mem_iff.mp hf) with rfl | hold
    · exact ⟨_, held_snoc.mpr (.inr ⟨rfl, rfl, rfl⟩)⟩
    · obtain ⟨hmem, hkept⟩ := List.mem_filter.mp hold
      obtain ⟨e, he⟩ := h.held f hmem
      exact ⟨e, held_snoc.mpr (.inl ⟨he, by simpa using hkept⟩)⟩

/-- Two states of one cache: the limits and the pages are those of `init`. -/
structure SameArena (c c' : DuckCache) : Prop where
  maxObjects : c'.nMaxObjects = c.nMaxObjects
  totalPages : c'.nTotalPages = c.nTotalPages
  firstPage : c'.firstPage = c.firstPage

theorem SameArena.trans {c c' c'' : DuckCache} (h1 : SameArena c c') (h2 : SameArena c' c'') :
    SameArena c c'' :=
  ⟨h2.maxObjects.trans h1.maxObjects, h2.totalPages.trans h1.totalPages,
    h2.firstPage.trans h1.firstPage⟩

/-- What a run keeps. -/
structure RunInv (c0 : DuckCache) (c : DuckCache) (history : List StoreEvent) : Prop where
  inv : c.Inv
  tracks : Tracks c history
  arena : SameArena c0 c

/-- **One call** keeps it, and does not meet a stray address. -/
theorem step_spec (std : StdSort) {c0 c : DuckCache} {history : List StoreEvent}
    (h : RunInv c0 c history) (op : CacheOp) (hop : op.Ok) :
    ∃ c' events, step std c op = some (c', events) ∧ RunInv c0 c' (history ++ events) := by
  cases op with
  | load d dst requiredLen now =>
    rcases load_spec h.inv d dst requiredLen now with ⟨i, hi, -, -, heq⟩ | ⟨-, heq⟩
    · refine ⟨c.touch i now, [], by simp only [step, heq, Option.map_some], ?_⟩
      rw [List.append_nil]
      exact ⟨touch_inv h.inv hop, h.tracks.touch i now, h.arena.trans ⟨rfl, rfl, rfl⟩⟩
    · refine ⟨c, [], by simp only [step, heq, Option.map_some], ?_⟩
      rw [List.append_nil]
      exact h
  | store d ext src len now =>
    rcases store_spec std h.inv d ext src hop.1 hop.2 with
      ⟨hfound, heq⟩ | ⟨habs, -, heq⟩ | ⟨habs, -, c', evicted, heq, hins⟩
    · refine ⟨c, _, by simp only [step, heq, Option.map_some]; rfl, h.inv, ?_, h.arena⟩
      exact h.tracks.idle (by simp [storeEvent, hfound]) rfl
    · refine ⟨c, _, by simp only [step, heq, Option.map_some]; rfl, h.inv, ?_, h.arena⟩
      exact h.tracks.idle (by simp [storeEvent]) rfl
    · refine ⟨c', _, by simp only [step, heq, Option.map_some]; rfl, hins.inv, ?_,
        h.arena.trans ⟨hins.maxObjects, hins.totalPages, hins.firstPage⟩⟩
      simp only [storeEvent, habs, Bool.not_false, Bool.and_true]
      exact h.tracks.insert hins

/-- **Every run** keeps it. -/
theorem run_spec (std : StdSort) {c0 c : DuckCache} {history : List StoreEvent}
    (h : RunInv c0 c history) {ops : List CacheOp} (hops : ∀ op ∈ ops, op.Ok) :
    ∃ c' events, run std c ops = some (c', events) ∧ RunInv c0 c' (history ++ events) := by
  induction ops generalizing c history with
  | nil => exact ⟨c, [], rfl, by rw [List.append_nil]; exact h⟩
  | cons op ops ih =>
    obtain ⟨c1, ev1, hstep, h1⟩ := step_spec std h op (hops op (by simp))
    obtain ⟨c2, ev2, hrun, h2⟩ := ih h1 fun o ho => hops o (by simp [ho])
    refine ⟨c2, ev1 ++ ev2, ?_, by rw [← List.append_assoc]; exact h2⟩
    simp only [run, hstep, hrun, Option.bind_eq_bind, Option.bind_some]

/-- `init` starts a run. -/
theorem init_runInv {b b' : MemoryBreaks} {old c : DuckCache} {nMax size : Nat}
    (h : init b old nMax size = .ok b' c) (hn : 0 < nMax) (hfit : ArraysFit b'.vaddrBreak nMax)
    (hsize : size < 2 ^ 64) : RunInv c c [] := by
  have hcur := (init_fresh h hfit hsize).curObjects
  have hnone : c.entries = [] := by
    rw [entries, hcur]
    rfl
  refine ⟨init_inv h hn hfit hsize, ⟨?_, ?_⟩, ⟨rfl, rfl, rfl⟩⟩
  · intro d e hheld
    exact absurd hheld not_held_nil
  · intro f hf
    rw [hnone] at hf
    cases hf

/-! ## The invariant of every run -/

/-- The pages that following the free list visits. -/
def freePages (c : DuckCache) : List Nat := follow c.next c.freeListAddr c.nFreePages

/-- The pages of object `i`: the front of the chain from its start address. -/
def objectPages (c : DuckCache) (i : Nat) : List Nat :=
  follow c.next (c.objMetadata i).startAddr (exactPages (c.objMetadata i).len)

/-- The state `c` of a cache that `init` left in the state `c0`. -/
structure WellFormed (c0 c : DuckCache) : Prop where
  maxObjects : c.nMaxObjects = c0.nMaxObjects
  curLe : c.nCurObjects ≤ c.nMaxObjects
  increasing : ∀ i j, i < j → j < c.nCurObjects →
    cmpDigest (c.objDigest i) (c.objDigest j) < 0
  hash : ∀ i, i < c.nCurObjects → c.objHash i = (c.objDigest i).word 0
  arenaDistinct : c0.arenaPages.Nodup
  arenaLength : c0.arenaPages.length = c.nTotalPages
  freeDistinct : c.freePages.Nodup
  freeInArena : ∀ p ∈ c.freePages, p ∈ c0.arenaPages ∧ p ≠ 0
  freeEnd : c.next^[c.nFreePages] c.freeListAddr = 0
  objectDistinct : ∀ i, i < c.nCurObjects → (c.objectPages i).Nodup
  objectInArena : ∀ i, i < c.nCurObjects → ∀ p ∈ c.objectPages i, p ∈ c0.arenaPages
  partition : (c.freePages ++ (List.range c.nCurObjects).flatMap c.objectPages).Perm
    c0.arenaPages

theorem Inv.wellFormed {c0 c : DuckCache} (h : c.Inv) (hsame : SameArena c0 c) :
    WellFormed c0 c := by
  have harena : c0.arenaPages = c.arenaPages := by
    simp only [arenaPages, hsame.totalPages, hsame.firstPage]
  have hpages : ∀ i, i < c.nCurObjects → c.objectPages i = c.chainOf (c.objMetadata i) := by
    intro i hi
    simp only [objectPages, chainOf, nPagesFor_eq_exact (h.lens _ (mem_records hi))]
  have hall : (List.range c.nCurObjects).flatMap c.objectPages = c.records.flatMap c.chainOf := by
    rw [records_eq, firstN, List.flatMap_map]
    apply List.flatMap_congr
    intro i hi
    exact hpages i (List.mem_range.mp hi)
  have hnd := List.nodup_append.mp h.arena.nodup
  have hchain : ∀ i, i < c.nCurObjects → (c.objectPages i).Nodup := by
    intro i hi
    rw [hpages i hi]
    exact (List.nodup_flatMap.mp hnd.2.1).1 _ (mem_records hi)
  refine ⟨hsame.maxObjects, h.curLe, h.indexed.increasing, h.indexed.hash, c0.nodup_arenaPages,
    ?_, hnd.1, ?_, h.arena.freeEnd, hchain, ?_, ?_⟩
  · rw [harena, arenaPages, length_firstN]
  · intro p hp
    have hpage := h.arena.isPage_free hp
    rw [harena]
    exact ⟨mem_arenaPages.mpr hpage, Nat.ne_of_gt (h.arena.page_le hpage).1⟩
  · intro i hi p hp
    rw [hpages i hi] at hp
    rw [harena]
    exact mem_arenaPages.mpr (h.arena.isPage_chain (mem_records hi) hp)
  · rw [hall, harena]
    exact h.arena.partition

/-- **The representation invariant holds after every run.**  No call meets a stray
    address or runs forever, and the pages of `init` are partitioned into the free
    list and the objects. -/
theorem run_wellFormed (std : StdSort) {b b' : MemoryBreaks} {old c0 : DuckCache}
    {nMax size : Nat} (hinit : init b old nMax size = .ok b' c0) (hn : 1 ≤ nMax)
    (hfit : ArraysFit b'.vaddrBreak nMax) (hsize : size < 2 ^ 64) (ops : List CacheOp)
    (hops : ∀ op ∈ ops, op.Ok) :
    ∃ c history, run std c0 ops = some (c, history) ∧ WellFormed c0 c := by
  obtain ⟨c, history, hrun, h⟩ := run_spec std (init_runInv hinit hn hfit hsize) hops
  exact ⟨c, history, hrun, h.inv.wellFormed h.arena⟩

/-- A cache before `init`: nothing in it is read. -/
def blank : DuckCache :=
  ⟨0, 0, 0, 0, 0, 0, fun _ => 0, fun _ => ⟨#v[0, 0, 0, 0]⟩, fun _ => ⟨0, 0, 0⟩, 0, fun _ => 0⟩

/-- A store of 5000 bytes, a zero-length store that evicts it, and two loads, in a
    cache with room for one object. -/
def sampleOps : List CacheOp :=
  [.store ⟨#v[1, 0, 0, 0]⟩ (fun x => UInt8.ofNat x) 0 5000 1, .load ⟨#v[1, 0, 0, 0]⟩ 0 5000 2,
    .store ⟨#v[2, 0, 0, 0]⟩ (fun _ => 7) 16 0 3, .load ⟨#v[1, 0, 0, 0]⟩ 0 5000 4]

theorem sampleOps_ok : ∀ op ∈ sampleOps, op.Ok := by
  simp [sampleOps, CacheOp.Ok, MAX_LEN, ONE_PAGE_CONTENT_SIZE, PAGE_SIZE]

theorem run_wellFormed_sample :
    ∃ b' c0, init MemoryBreaks.init blank 1 0x200000 = .ok b' c0 ∧
      ∃ c history, run .insertion c0 sampleOps = some (c, history) ∧ WellFormed c0 c := by
  obtain ⟨b', c0, hinit, hfit⟩ := init_of_room MemoryBreaks.init blank 1 0x200000 (by decide)
    (by decide)
  exact ⟨b', c0, hinit, run_wellFormed .insertion hinit (by decide) hfit (by decide) sampleOps
    sampleOps_ok⟩

/-! ## The map of every run -/

/-- In a tracked state a load returns what the history says. -/
theorem load_of_tracks {c0 c : DuckCache} {history : List StoreEvent} (h : RunInv c0 c history)
    (d : Digest256) (dst requiredLen now : Nat) :
    ∃ r, c.load d dst requiredLen now = some r ∧
      (r.ret = true ↔ ∃ e, Held history d e ∧ e.bytes.length = requiredLen) ∧
      (r.ret = true → ∀ e, Held history d e → r.writes = bytesTo dst e.bytes) ∧
      (r.ret = false → r.writes = []) := by
  -- a held digest is stored at one index only
  have hstored : ∀ e, Held history d e → ∃ i, i < c.nCurObjects ∧ c.objDigest i = d ∧
      (c.objMetadata i).len = e.bytes.length ∧ c.contentOf (c.objMetadata i) = e.bytes := by
    intro e he
    obtain ⟨f, hf, hd, hlen, hbytes⟩ := h.tracks.stored d e he
    obtain ⟨i, hi, rfl⟩ := mem_firstN.mp hf
    exact ⟨i, hi, hd, hlen, hbytes⟩
  rcases load_spec h.inv d dst requiredLen now with ⟨i, hi, hd, hlen, heq⟩ | ⟨hnone, heq⟩
  · have hone : ∀ e, Held history d e → e.bytes.length = requiredLen ∧
        c.contentOf (c.objMetadata i) = e.bytes := by
      intro e he
      obtain ⟨j, hj, hdj, hlenj, hbytes⟩ := hstored e he
      have hij := h.inv.indexed.inj hj hi (hdj.trans hd.symm)
      subst hij
      exact ⟨hlenj.symm.trans hlen, hbytes⟩
    obtain ⟨e, he⟩ := h.tracks.held (c.entry i) (mem_firstN.mpr ⟨i, hi, rfl⟩)
    rw [show (c.entry i).digest = d from hd] at he
    refine ⟨_, heq, ⟨fun _ => ⟨e, he, (hone e he).1⟩, fun _ => rfl⟩, ?_, by simp⟩
    intro _ e' he'
    rw [(hone e' he').2]
  · refine ⟨_, heq, ⟨by simp, ?_⟩, by simp, fun _ => rfl⟩
    rintro ⟨e, he, hlen⟩
    obtain ⟨i, hi, hd, hleni, -⟩ := hstored e he
    exact absurd (hleni.trans hlen) (hnone i hi hd)

/-- After a store that returned true its digest is held, and if it was absent
    before, a load at once returns the bytes of the source. -/
theorem store_of_tracks (std : StdSort) {c0 c : DuckCache} {history : List StoreEvent}
    (h : RunInv c0 c history) (d : Digest256) (ext : Mem) (src : Nat) {len now : Nat}
    (hlen : len ≤ MAX_LEN) (hnow : now ≠ 0) :
    ∃ r, store std c d ext src len now = some r ∧ (r.ret = true →
      (∃ e, Held (history ++ [storeEvent c d ext src len r]) d e) ∧
      ((¬ ∃ e, Held history d e) → ∀ dst now', ∃ r', r.cache.load d dst len now' = some r' ∧
        r'.ret = true ∧ r'.writes = bytesTo dst ((bytesFrom src len).map ext))) := by
  obtain ⟨c', events, hstep, h'⟩ := step_spec std h (.store d ext src len now) ⟨hlen, hnow⟩
  rcases hr : store std c d ext src len now with _ | r
  · simp [step, hr] at hstep
  · simp only [step, hr, Option.map_some, Option.some.injEq, Prod.mk.injEq] at hstep
    obtain ⟨rfl, rfl⟩ := hstep
    refine ⟨r, rfl, fun hret => ?_⟩
    rcases hfind : (c.find d).1 with _ | _
    · -- the digest was absent, so this store inserted it
      have hins : Held (history ++ [storeEvent c d ext src len r]) d
          (storeEvent c d ext src len r) :=
        held_snoc.mpr (.inr ⟨rfl, rfl, by simp [storeEvent, hret, hfind]⟩)
      refine ⟨⟨_, hins⟩, fun _ dst now' => ?_⟩
      obtain ⟨r', hload, hiff, hbytes, -⟩ := load_of_tracks h' d dst len now'
      have hret' := hiff.mpr ⟨_, hins, by simp [storeEvent]⟩
      exact ⟨r', hload, hret', hbytes hret' _ hins⟩
    · obtain ⟨i, hi, hd⟩ := (find_fst_iff h.inv.indexed d).mp hfind
      obtain ⟨e, he⟩ := h.tracks.held (c.entry i) (mem_firstN.mpr ⟨i, hi, rfl⟩)
      rw [show (c.entry i).digest = d from hd] at he
      have hnoev : r.evicted = [] := by
        rcases store_spec std h.inv d ext src hlen hnow with
          ⟨-, heq⟩ | ⟨habs, -⟩ | ⟨habs, -⟩
        · rw [hr, Option.some.injEq] at heq
          rw [heq]
        · rw [hfind] at habs
          cases habs
        · rw [hfind] at habs
          cases habs
      exact ⟨⟨e, held_snoc.mpr (.inl ⟨he, by simp [storeEvent, hnoev]⟩)⟩,
        fun habs => absurd ⟨e, he⟩ habs⟩

/-- **The cache refines a map from digests to bytes.**  After every run, a load
    succeeds exactly on a held digest with the length of its insertion and then
    writes the bytes of the inserting call; a store that returns true leaves its
    digest held. -/
theorem run_refines_map (std : StdSort) {b b' : MemoryBreaks} {old c0 : DuckCache}
    {nMax size : Nat} (hinit : init b old nMax size = .ok b' c0) (hn : 1 ≤ nMax)
    (hfit : ArraysFit b'.vaddrBreak nMax) (hsize : size < 2 ^ 64) (ops : List CacheOp)
    (hops : ∀ op ∈ ops, op.Ok) :
    ∃ c history, run std c0 ops = some (c, history) ∧
      (∀ d dst requiredLen now, ∃ r, c.load d dst requiredLen now = some r ∧
        (r.ret = true ↔ ∃ e, Held history d e ∧ e.bytes.length = requiredLen) ∧
        (r.ret = true → ∀ e, Held history d e → r.writes = bytesTo dst e.bytes) ∧
        (r.ret = false → r.writes = [])) ∧
      (∀ d ext src len now, len ≤ MAX_LEN → now ≠ 0 →
        ∃ r, store std c d ext src len now = some r ∧ (r.ret = true →
          (∃ e, Held (history ++ [storeEvent c d ext src len r]) d e) ∧
          ((¬ ∃ e, Held history d e) → ∀ dst now', ∃ r', r.cache.load d dst len now' = some r' ∧
            r'.ret = true ∧ r'.writes = bytesTo dst ((bytesFrom src len).map ext)))) := by
  obtain ⟨c, history, hrun, h⟩ := run_spec std (init_runInv hinit hn hfit hsize) hops
  exact ⟨c, history, hrun, load_of_tracks h, fun d ext src len now hlen hnow =>
    store_of_tracks std h d ext src hlen hnow⟩

theorem run_refines_map_sample :
    ∃ b' c0, init MemoryBreaks.init blank 1 0x200000 = .ok b' c0 ∧
      ∃ c history, run .insertion c0 sampleOps = some (c, history) ∧
        ∀ dst now, ∃ r, c.load ⟨#v[1, 0, 0, 0]⟩ dst 5000 now = some r ∧
          (r.ret = true ↔ ∃ e, Held history ⟨#v[1, 0, 0, 0]⟩ e ∧ e.bytes.length = 5000) := by
  obtain ⟨b', c0, hinit, hfit⟩ := init_of_room MemoryBreaks.init blank 1 0x200000 (by decide)
    (by decide)
  obtain ⟨c, history, hrun, hload, -⟩ := run_refines_map .insertion hinit (by decide) hfit
    (by decide) sampleOps sampleOps_ok
  refine ⟨b', c0, hinit, c, history, hrun, fun dst now => ?_⟩
  obtain ⟨r, hr, hiff, -⟩ := hload ⟨#v[1, 0, 0, 0]⟩ dst 5000 now
  exact ⟨r, hr, hiff⟩

end DuckCache

end JudgePenguin
