/-
  JudgePenguin/BlockBudget.lean
  =============================
  **The block budget of `init_page_table`** (`driver/page_table.c`).

  Which blocks `init_page_table_4k` takes and which entries it stores depends on
  `total_size` alone: no branch and no loop reads an address or the memory.  So its
  run is recorded here without memory (`Trace`): what `alloc_block` returned, the
  indices handed to `PTE`, and the operands of the unsigned subtractions in the trip
  counts.  The driver's own run, when its window is large enough for it, puts the same
  on record: `Recorded` is that run with a log (`Recorded.initPageTable_erase`), and its
  log is the one of `Trace` (`initPageTable_follows`).
-/
import JudgePenguin.PageTableInit

namespace JudgePenguin.Driver

open Words ArrayLoops

/-! ## The record of a run -/

structure Trace where
  physBaseAddr : Nat
  totalSize : Nat
  nextBlockPhysAddr : Nat
  pageTableBreak : Nat
  allocs : List Nat
  indices : List Nat
  subs : List (Nat × Nat)

namespace Trace

/-- `alloc_block`, with what it returns put on record. -/
def alloc (t : Trace) : Trace :=
  let next := wrap64 (t.nextBlockPhysAddr + PAGE_SIZE)
  if next > t.pageTableBreak then
    { t with nextBlockPhysAddr := next, allocs := t.allocs ++ [0] }
  else { t with nextBlockPhysAddr := next, allocs := t.allocs ++ [t.nextBlockPhysAddr] }

/-- A store to entry `i` of some block. -/
def entry (i : Nat) (t : Trace) : Trace := { t with indices := t.indices ++ [i] }

/-- The subtraction `x - y` on unsigned words. -/
def minus (x y : Nat) (t : Trace) : Trace := { t with subs := t.subs ++ [(x, y)] }

def fillP2 (P3Idx P2Idx : Nat) (t : Trace) : Trace :=
  let t := entry P2Idx t.alloc
  let t := minus t.totalSize (P3Idx * P3_PAGE_SIZE) t
  let t := minus (sub64 t.totalSize (P3Idx * P3_PAGE_SIZE)) (P2Idx * HUGE_PAGE_SIZE) t
  countUp entry (P0Num t.totalSize P3Idx P2Idx) t

def fillP3 (P3Idx : Nat) (t : Trace) : Trace :=
  let t := entry P3Idx t.alloc
  let t := minus t.totalSize (P3Idx * P3_PAGE_SIZE) t
  countUp (fillP2 P3Idx) (P1Num t.totalSize P3Idx) t

def initPageTable4k (t : Trace) : Trace :=
  let t := entry (PT_ENTRIES - 1) t.alloc
  let t := entry (PT_ENTRIES - 2) t.alloc
  let t := countUp entry PT_ENTRIES t
  let t := entry 0 t.alloc
  countUp fillP3 (P2Num t.totalSize) t

def initPageTable (physAddr size : Nat) : Trace :=
  initPageTable4k
    ⟨physAddr, size, physAddr, wrap64 (physAddr + numBlocks size * PAGE_SIZE), [], [], []⟩

end Trace

/-! ## The driver's run, recorded -/

/-- A state of the driver, with what its run has put on record: the values of
    `alloc_block`, the indices of `PTE` and the operands of the subtractions. -/
structure Recorded where
  state : PageTables
  allocs : List Nat
  indices : List Nat
  subs : List (Nat × Nat)

namespace Recorded

def alloc (r : Recorded) : Option (Nat × Recorded) :=
  (allocBlock r.state).map fun b =>
    (b.addr, { r with state := b.state, allocs := r.allocs ++ [b.addr] })

/-- `*PTE(block, index) = x`. -/
def store (r : Recorded) (block index x : Nat) : Option Recorded :=
  (r.state.store (r.state.PTE block index) x).map fun s =>
    { r with state := s, indices := r.indices ++ [index] }

def minus (r : Recorded) (x y : Nat) : Nat × Recorded :=
  (sub64 x y, { r with subs := r.subs ++ [(x, y)] })

def fillP1 (P3Idx P2Idx P1 P1Idx : Nat) (r : Recorded) : Option Recorded :=
  let P0 := P3Idx * P3_PAGE_SIZE + P2Idx * HUGE_PAGE_SIZE + P1Idx * PAGE_SIZE
  r.store P1 P1Idx (mapped (wrap64 (P0 + r.state.physBaseAddr)))

def fillP2 (P3Idx P2 P2Idx : Nat) (r : Recorded) : Option Recorded := do
  let P1 ← r.alloc
  let r ← P1.2.store P2 P2Idx (mapped P1.1)
  let x := r.minus r.state.totalSize (P3Idx * P3_PAGE_SIZE)
  let y := x.2.minus x.1 (P2Idx * HUGE_PAGE_SIZE)
  countUpM (fillP1 P3Idx P2Idx P1.1) (min (divRoundUp y.1 PAGE_SIZE) PT_ENTRIES) y.2

def fillP3 (P3Low P3Idx : Nat) (r : Recorded) : Option Recorded := do
  let P2 ← r.alloc
  let r ← P2.2.store P3Low P3Idx (mapped P2.1 ||| PTE_U)
  let x := r.minus r.state.totalSize (P3Idx * P3_PAGE_SIZE)
  countUpM (fillP2 P3Idx P2.1) (min (divRoundUp x.1 (PAGE_SIZE * PT_ENTRIES)) PT_ENTRIES) x.2

def fillP3Upp (P3Upp i : Nat) (r : Recorded) : Option Recorded :=
  r.store P3Upp i (mapped (i * P3_PAGE_SIZE) ||| PTE_H)

def initPageTable4k (r : Recorded) : Option (Nat × Recorded) := do
  let P4 ← r.alloc
  let r ← P4.2.store P4.1 (PT_ENTRIES - 1) (mapped P4.1)
  let P3Upp ← r.alloc
  let r ← P3Upp.2.store P4.1 (PT_ENTRIES - 2) (mapped P3Upp.1)
  let r ← countUpM (fillP3Upp P3Upp.1) PT_ENTRIES r
  let P3Low ← r.alloc
  let r ← P3Low.2.store P4.1 0 (mapped P3Low.1 ||| PTE_U)
  let r ← countUpM (fillP3 P3Low.1) (P2Num r.state.totalSize) r
  return (P4.1, r)

def initPageTable (physAddr virtAddr size : Nat) (mem : Mem) : Option Recorded := do
  let s := initPageTableBreak ⟨physAddr, virtAddr, size, 0, 0, 0, mem⟩
  let P4 ← initPageTable4k ⟨{ s with nextBlockPhysAddr := physAddr }, [], [], []⟩
  return { P4.2 with state := { P4.2.state with P4Base := P4.1 } }

/-! Without the record, each of these is the driver's own function. -/

theorem bind_erase {α α' β β' : Type} {x : Option α} {k : α → Option β} {x' : Option α'}
    {k' : α' → Option β'} {f : α → α'} {g : β → β'} (hx : x.map f = x')
    (hk : ∀ a, (k a).map g = k' (f a)) : (x >>= k).map g = x' >>= k' := by
  subst hx
  cases x with
  | none => rfl
  | some a => exact hk a

def block (p : Nat × Recorded) : Block := ⟨p.1, p.2.state⟩

theorem alloc_erase (r : Recorded) : r.alloc.map block = allocBlock r.state := by
  rw [alloc, Option.map_map]
  exact Option.map_id'

theorem store_erase (r : Recorded) (P index x : Nat) :
    (r.store P index x).map state = r.state.store (r.state.PTE P index) x := by
  rw [store, Option.map_map]
  exact Option.map_id'

theorem fillP2_erase (q P2 j : Nat) (r : Recorded) :
    (fillP2 q P2 j r).map state = Driver.fillP2 q P2 j r.state := by
  refine bind_erase (alloc_erase r) fun P1 => bind_erase (store_erase P1.2 P2 j _) fun r => ?_
  exact countUpM_map state (fun i r => store_erase r P1.1 i _) _ _

theorem fillP3_erase (P3Low q : Nat) (r : Recorded) :
    (fillP3 P3Low q r).map state = Driver.fillP3 P3Low q r.state := by
  refine bind_erase (alloc_erase r) fun P2 => bind_erase (store_erase P2.2 P3Low q _) fun r => ?_
  exact countUpM_map state (fun j r => fillP2_erase q P2.1 j r) _ _

theorem initPageTable4k_erase (r : Recorded) :
    (initPageTable4k r).map block = Driver.initPageTable4k r.state := by
  refine bind_erase (alloc_erase r) fun P4 => bind_erase (store_erase P4.2 P4.1 _ _) fun r => ?_
  refine bind_erase (alloc_erase r) fun P3Upp =>
    bind_erase (store_erase P3Upp.2 P4.1 _ _) fun r => ?_
  refine bind_erase (countUpM_map state (fun i r => store_erase r P3Upp.1 i _) PT_ENTRIES r)
    fun r => ?_
  refine bind_erase (alloc_erase r) fun P3Low =>
    bind_erase (store_erase P3Low.2 P4.1 _ _) fun r => ?_
  exact bind_erase (countUpM_map state (fun q r => fillP3_erase P3Low.1 q r) _ r) fun r => rfl

/-- **Every run of the driver is a recorded one.** -/
theorem initPageTable_erase (physAddr virtAddr size : Nat) (mem : Mem) :
    (initPageTable physAddr virtAddr size mem).map state =
      Driver.initPageTable physAddr virtAddr size mem :=
  bind_erase (initPageTable4k_erase _) fun _ => rfl

end Recorded

/-! ## The driver follows the record -/

/-- A recorded run of the driver and the run without memory agree. -/
structure Follows (r : Recorded) (t : Trace) : Prop where
  size : r.state.totalSize = t.totalSize
  next : r.state.nextBlockPhysAddr = t.nextBlockPhysAddr
  brk : r.state.pageTableBreak = t.pageTableBreak
  allocs : r.allocs = t.allocs
  indices : r.indices = t.indices
  subs : r.subs = t.subs

namespace Follows

variable {r r' : Recorded} {t : Trace}

theorem minus (h : Follows r t) (x y : Nat) : Follows (r.minus x y).2 (t.minus x y) :=
  ⟨h.size, h.next, h.brk, h.allocs, h.indices, congrArg (· ++ [(x, y)]) h.subs⟩

theorem store (h : Follows r t) {P i x : Nat} (hs : r.store P i x = some r') :
    Follows r' (t.entry i) := by
  rw [Recorded.store, Option.map_eq_some_iff] at hs
  obtain ⟨s, hs, rfl⟩ := hs
  rw [PageTables.store, Option.map_eq_some_iff] at hs
  obtain ⟨p, -, rfl⟩ := hs
  exact ⟨h.size, h.next, h.brk, h.allocs, congrArg (· ++ [i]) h.indices, h.subs⟩

theorem alloc (h : Follows r t) {p : Nat × Recorded} (hp : r.alloc = some p) :
    Follows p.2 t.alloc := by
  rw [Recorded.alloc, Option.map_eq_some_iff] at hp
  obtain ⟨b, hb, rfl⟩ := hp
  obtain ⟨next, hnext⟩ : ∃ next, wrap64 (t.nextBlockPhysAddr + PAGE_SIZE) = next := ⟨_, rfl⟩
  simp only [allocBlock, h.next, h.brk, hnext] at hb
  simp only [Trace.alloc, hnext]
  by_cases hpast : next > t.pageTableBreak
  · rw [if_pos hpast, Option.some.injEq] at hb
    rw [if_pos hpast, ← hb]
    exact ⟨h.size, rfl, rfl, congrArg (· ++ [0]) h.allocs, h.indices, h.subs⟩
  · rw [if_neg hpast, Option.map_eq_some_iff] at hb
    obtain ⟨s1, hs1, rfl⟩ := hb
    rw [PageTables.memset, Option.map_eq_some_iff] at hs1
    obtain ⟨a, -, rfl⟩ := hs1
    rw [if_neg hpast]
    exact ⟨h.size, rfl, rfl, congrArg (· ++ [t.nextBlockPhysAddr]) h.allocs, h.indices, h.subs⟩

theorem fillP2 (h : Follows r t) {q P2 j : Nat} (hr : Recorded.fillP2 q P2 j r = some r') :
    Follows r' (t.fillP2 q j) := by
  simp only [Recorded.fillP2, Option.bind_eq_bind, Option.bind_eq_some_iff] at hr
  obtain ⟨P1, h1, r2, h2, h3⟩ := hr
  have f1 := (h.alloc h1).store h2
  rw [Trace.fillP2]
  generalize Trace.entry j t.alloc = t1 at f1 ⊢
  have f3 := (f1.minus r2.state.totalSize (q * P3_PAGE_SIZE)).minus
    (sub64 r2.state.totalSize (q * P3_PAGE_SIZE)) (j * HUGE_PAGE_SIZE)
  rw [f1.size] at f3 h3
  exact countUpM_related (fun i _ r r' t hst hbody => hst.store hbody) f3 h3

theorem fillP3 (h : Follows r t) {P3Low q : Nat} (hr : Recorded.fillP3 P3Low q r = some r') :
    Follows r' (t.fillP3 q) := by
  simp only [Recorded.fillP3, Option.bind_eq_bind, Option.bind_eq_some_iff] at hr
  obtain ⟨P2, h1, r2, h2, h3⟩ := hr
  have f1 := (h.alloc h1).store h2
  rw [Trace.fillP3]
  generalize Trace.entry q t.alloc = t1 at f1 ⊢
  have f2 := f1.minus r2.state.totalSize (q * P3_PAGE_SIZE)
  rw [f1.size] at f2 h3
  exact countUpM_related (fun j _ r r' t hst hbody => hst.fillP2 hbody) f2 h3

theorem initPageTable4k (h : Follows r t) {p : Nat × Recorded}
    (hp : Recorded.initPageTable4k r = some p) : Follows p.2 t.initPageTable4k := by
  simp only [Recorded.initPageTable4k, Option.bind_eq_bind, Option.bind_eq_some_iff] at hp
  obtain ⟨P4, h1, r2, h2, P3Upp, h3, r4, h4, r5, h5, P3Low, h6, r7, h7, r8, h8, hp⟩ := hp
  have f4 := (((h.alloc h1).store h2).alloc h3).store h4
  have f5 : Follows r5 (countUp Trace.entry PT_ENTRIES _) :=
    countUpM_related (fun i _ r r' t hst hbody => hst.store hbody) f4 h5
  have f7 := (f5.alloc h6).store h7
  rw [f7.size] at h8
  have f8 := countUpM_related (fun q _ r r' t hst hbody => hst.fillP3 hbody) f7 h8
  rw [Option.pure_def, Option.some.injEq] at hp
  rw [← hp]
  exact f8

end Follows

/-- The driver's run takes the blocks, the entries and the differences on record. -/
theorem initPageTable_follows {physAddr virtAddr size : Nat} {mem : Mem} {s : PageTables}
    (h : initPageTable physAddr virtAddr size mem = some s) :
    ∃ r, Recorded.initPageTable physAddr virtAddr size mem = some r ∧ r.state = s ∧
      Follows r (Trace.initPageTable physAddr size) := by
  rw [← Recorded.initPageTable_erase, Option.map_eq_some_iff] at h
  obtain ⟨r, hr, hs⟩ := h
  refine ⟨r, hr, hs, ?_⟩
  simp only [Recorded.initPageTable, Option.bind_eq_bind, Option.bind_eq_some_iff] at hr
  obtain ⟨P4, hP4, hr⟩ := hr
  have hstart : Follows
      ⟨{ initPageTableBreak ⟨physAddr, virtAddr, size, 0, 0, 0, mem⟩ with
          nextBlockPhysAddr := physAddr }, [], [], []⟩
      ⟨physAddr, size, physAddr, wrap64 (physAddr + numBlocks size * PAGE_SIZE), [], [], []⟩ :=
    ⟨rfl, rfl, rfl, rfl, rfl, rfl⟩
  have hrun := hstart.initPageTable4k hP4
  rw [Option.pure_def, Option.some.injEq] at hr
  rw [← hr]
  exact ⟨hrun.size, hrun.next, hrun.brk, hrun.allocs, hrun.indices, hrun.subs⟩

/-! ## The budget -/

/-- The record after `k` blocks, all of them taken within the budget. -/
structure Within (physAddr size k : Nat) (t : Trace) : Prop where
  total : t.totalSize = size
  next : t.nextBlockPhysAddr = physAddr + 4096 * k
  brk : t.pageTableBreak = physAddr + 4096 * numBlocks size
  count : t.allocs.length = k
  served : ∀ a ∈ t.allocs, a ≠ 0
  indices : ∀ i ∈ t.indices, i < 512
  subs : ∀ p ∈ t.subs, p.2 ≤ p.1

/-- The ranges for which the driver's tables are made. -/
structure Ranges (physAddr size : Nat) : Prop where
  phys_pos : 0 < physAddr
  phys_le : physAddr ≤ 2 ^ 51
  size_le : size ≤ 2 ^ 39

/-- The P1 and P2 blocks of a region; a last partial one counts. -/
def blocksP1 (size : Nat) : Nat := (size + 2097151) / 2097152
def blocksP2 (size : Nat) : Nat := (size + 1073741823) / 1073741824

theorem Ranges.numBlocks_eq {physAddr size : Nat} (hr : Ranges physAddr size) :
    numBlocks size = 53 + blocksP1 size + blocksP2 size := numBlocks_of_le hr.size_le

namespace Within

variable {physAddr size k : Nat} {t : Trace}

theorem entry (h : Within physAddr size k t) {i : Nat} (hi : i < 512) :
    Within physAddr size k (t.entry i) := by
  refine ⟨h.total, h.next, h.brk, h.count, h.served, ?_, h.subs⟩
  intro j hj
  rcases List.mem_append.mp hj with hj | hj
  · exact h.indices j hj
  · rw [List.mem_singleton.mp hj]
    exact hi

theorem minus (h : Within physAddr size k t) {x y : Nat} (hle : y ≤ x) :
    Within physAddr size k (t.minus x y) := by
  refine ⟨h.total, h.next, h.brk, h.count, h.served, h.indices, ?_⟩
  intro p hp
  rcases List.mem_append.mp hp with hp | hp
  · exact h.subs p hp
  · rw [List.mem_singleton.mp hp]
    exact hle

/-- A loop of stores takes no block. -/
theorem entries (h : Within physAddr size k t) {n : Nat} (hn : n ≤ 512) :
    Within physAddr size k (countUp Trace.entry n t) :=
  countUp_induct Trace.entry n t (fun _ => Within physAddr size k) h
    fun i hi t ht => ht.entry (by omega)

/-- One more block, inside the budget. -/
theorem alloc (h : Within physAddr size k t) (hr : Ranges physAddr size)
    (hk : k < numBlocks size) : Within physAddr size (k + 1) t.alloc := by
  have hphys := hr.phys_le
  have hpos := hr.phys_pos
  have hsize := hr.size_le
  have hblocks := hr.numBlocks_eq
  unfold blocksP1 blocksP2 at hblocks
  have hpage : PAGE_SIZE = 4096 := by decide
  have hnext : wrap64 (t.nextBlockPhysAddr + PAGE_SIZE) = physAddr + 4096 * (k + 1) := by
    rw [h.next, hpage, wrap64_of_lt (by omega)]
    omega
  have hfits : ¬ physAddr + 4096 * (k + 1) > t.pageTableBreak := by
    rw [h.brk]
    omega
  simp only [Trace.alloc, hnext, if_neg hfits]
  refine ⟨h.total, rfl, h.brk, ?_, ?_, h.indices, h.subs⟩
  · rw [List.length_append, h.count, List.length_singleton]
  · intro a ha
    rcases List.mem_append.mp ha with ha | ha
    · exact h.served a ha
    · rw [List.mem_singleton.mp ha, h.next]
      omega

/-- One pass of the loop over a P2 block takes one block. -/
theorem fillP2 (h : Within physAddr size k t) (hr : Ranges physAddr size) (hk : k < numBlocks size)
    {q j : Nat} (hj : j < 512) (hq : 1073741824 * q + 2097152 * j ≤ size) :
    Within physAddr size (k + 1) (t.fillP2 q j) := by
  have hsize := hr.size_le
  have h1 := (h.alloc hr hk).entry hj
  rw [Trace.fillP2]
  generalize Trace.entry j t.alloc = t1 at h1 ⊢
  have h2 := h1.minus (x := t1.totalSize) (y := q * P3_PAGE_SIZE) (by rw [h1.total, mul_gib]; omega)
  generalize Trace.minus t1.totalSize (q * P3_PAGE_SIZE) t1 = t2 at h2 ⊢
  have h3 := h2.minus (x := sub64 t2.totalSize (q * P3_PAGE_SIZE)) (y := j * HUGE_PAGE_SIZE) (by
    rw [h2.total, mul_gib, mul_huge, sub64_of_le (by omega) (by omega)]
    omega)
  exact h3.entries (Nat.le_trans (Nat.min_le_right _ _) (by decide))

/-- One pass of the outer loop takes a block and those of its own loop. -/
theorem fillP3 (h : Within physAddr size k t) (hr : Ranges physAddr size) {q : Nat} (hq512 : q < 512)
    (hq : 1073741824 * q < size) (hk : k + 1 + P1Num size q ≤ numBlocks size) :
    Within physAddr size (k + 1 + P1Num size q) (t.fillP3 q) := by
  have hcount := P1Num_of_le hr.size_le hq
  have h1 := (h.alloc hr (by omega)).entry hq512
  rw [Trace.fillP3]
  generalize Trace.entry q t.alloc = t1 at h1 ⊢
  have h2 := h1.minus (x := t1.totalSize) (y := q * P3_PAGE_SIZE) (by rw [h1.total, mul_gib]; omega)
  generalize Trace.minus t1.totalSize (q * P3_PAGE_SIZE) t1 = t2 at h2 ⊢
  rw [h2.total]
  refine countUp_induct (Trace.fillP2 q) (P1Num size q) t2
    (fun j => Within physAddr size (k + 1 + j)) h2 ?_
  intro j hj t' ht'
  exact ht'.fillP2 hr (by omega) (by omega) (by omega)

/-- What the outer loop has taken after `q` passes: a P2 block each, and the P1 blocks
    of the first `q` GiB. -/
theorem loopP3 (h : Within physAddr size 3 t) (hr : Ranges physAddr size) :
    Within physAddr size (3 + blocksP2 size + blocksP1 size)
      (countUp Trace.fillP3 (blocksP2 size) t) := by
  have hblocks := hr.numBlocks_eq
  have hsize := hr.size_le
  have hmul : blocksP1 size ≤ 512 * blocksP2 size := by
    unfold blocksP1 blocksP2
    omega
  have hzero : 3 + 0 + min (blocksP1 size) (512 * 0) = 3 := by omega
  have hloop := countUp_induct Trace.fillP3 (blocksP2 size) t
    (fun q => Within physAddr size (3 + q + min (blocksP1 size) (512 * q))) (by rwa [hzero]) ?_
  · rwa [Nat.min_eq_left hmul] at hloop
  intro q hq t' ht'
  have hgib : 1073741824 * q < size := by
    unfold blocksP2 at hq
    omega
  have hcount : P1Num size q = min (blocksP1 size - 512 * q) 512 := P1Num_of_le hr.size_le hgib
  have hsum : 3 + q + min (blocksP1 size) (512 * q) + 1 + P1Num size q =
      3 + (q + 1) + min (blocksP1 size) (512 * (q + 1)) := by
    have hbelow : 512 * q ≤ blocksP1 size := by
      unfold blocksP1
      omega
    omega
  have hq512 : q < 512 := by
    unfold blocksP2 at hq
    omega
  have hstep := ht'.fillP3 hr hq512 hgib (by rw [hsum]; omega)
  rwa [hsum] at hstep

theorem initPageTable4k (h : Within physAddr size 0 t) (hr : Ranges physAddr size) :
    Within physAddr size (3 + blocksP2 size + blocksP1 size) t.initPageTable4k := by
  have hblocks := hr.numBlocks_eq
  have hcount : P2Num size = blocksP2 size := P2Num_of_le hr.size_le
  rw [Trace.initPageTable4k]
  have h1 := (h.alloc hr (by omega)).entry (i := PT_ENTRIES - 1) (by decide)
  generalize Trace.entry (PT_ENTRIES - 1) t.alloc = t1 at h1 ⊢
  have h2 := (h1.alloc hr (by omega)).entry (i := PT_ENTRIES - 2) (by decide)
  generalize Trace.entry (PT_ENTRIES - 2) t1.alloc = t2 at h2 ⊢
  have h3 := h2.entries (n := PT_ENTRIES) (by decide)
  generalize countUp Trace.entry PT_ENTRIES t2 = t3 at h3 ⊢
  have h4 := (h3.alloc hr (by omega)).entry (i := 0) (by decide)
  generalize Trace.entry 0 t3.alloc = t4 at h4 ⊢
  rw [h4.total, hcount]
  exact h4.loopP3 hr

end Within

/-- **The block budget is exact.**  `init_page_table` takes 50 blocks fewer than it
    reserves, every `alloc_block` is served, no subtraction in a trip count goes below
    zero and every index is that of an entry; and the driver's run, wherever its window
    holds the tables, puts just this on record. -/
theorem initPageTable_budget {physAddr size : Nat} (hpos : 0 < physAddr) (hphys : physAddr ≤ 2 ^ 51)
    (hsize : size ≤ 2 ^ 39) :
    let t := Trace.initPageTable physAddr size
    t.allocs.length = 3 + (size + (2 ^ 30 - 1)) / 2 ^ 30 + (size + (2 ^ 21 - 1)) / 2 ^ 21 ∧
      numBlocks size = t.allocs.length + 50 ∧
      (∀ a ∈ t.allocs, a ≠ 0) ∧
      (∀ p ∈ t.subs, p.2 ≤ p.1) ∧
      (∀ i ∈ t.indices, i < 512) ∧
      ∀ virtAddr mem s, initPageTable physAddr virtAddr size mem = some s →
        ∃ r, Recorded.initPageTable physAddr virtAddr size mem = some r ∧ r.state = s ∧
          Follows r t := by
  have hr : Ranges physAddr size := ⟨hpos, hphys, hsize⟩
  have hblocks := hr.numBlocks_eq
  have hbreak : wrap64 (physAddr + numBlocks size * PAGE_SIZE) = physAddr + 4096 * numBlocks size := by
    unfold blocksP1 blocksP2 at hblocks
    rw [mul_page, wrap64_of_lt (by omega)]
  have hstart : Within physAddr size 0
      ⟨physAddr, size, physAddr, wrap64 (physAddr + numBlocks size * PAGE_SIZE), [], [], []⟩ :=
    ⟨rfl, rfl, hbreak, rfl, by simp, by simp, by simp⟩
  have hrun := hstart.initPageTable4k hr
  have hcount : (Trace.initPageTable physAddr size).allocs.length =
      3 + blocksP2 size + blocksP1 size := hrun.count
  refine ⟨hcount, ?_, hrun.served, hrun.subs, hrun.indices, fun virtAddr mem s h =>
    initPageTable_follows h⟩
  rw [hblocks, hcount]
  omega

/-- 512 MiB and one page at 1 GiB, as the driver's run has it. -/
theorem initPageTable_budget_sample : ∃ s r,
    initPageTable 0x40000000 0xffffc90000000000 0x20001000 (fun _ => 0xcc) = some s ∧
    Recorded.initPageTable 0x40000000 0xffffc90000000000 0x20001000 (fun _ => 0xcc) = some r ∧
    r.state = s ∧ r.allocs.length = 261 ∧ numBlocks 0x20001000 = 311 ∧
    (∀ a ∈ r.allocs, a ≠ 0) ∧ (∀ p ∈ r.subs, p.2 ≤ p.1) ∧ ∀ i ∈ r.indices, i < 512 := by
  obtain ⟨hcount, hreserve, hserved, hsubs, hindices, hruns⟩ :=
    @initPageTable_budget 0x40000000 0x20001000 (by decide) (by decide) (by decide)
  obtain ⟨s, hs, -⟩ := initPageTable_spec
    ⟨0x40000000, 0xffffc90000000000, 0x20001000, 311, by decide, by decide, by decide, by decide,
      by decide, by decide⟩ fun _ => 0xcc
  obtain ⟨r, hr, hstate, hfollows⟩ := hruns _ _ s hs
  rw [← hfollows.allocs] at hcount hreserve hserved
  rw [← hfollows.subs] at hsubs
  rw [← hfollows.indices] at hindices
  have hblocks : r.allocs.length = 261 := hcount
  rw [hblocks] at hreserve
  exact ⟨s, r, hs, hr, hstate, hblocks, hreserve, hserved, hsubs, hindices⟩

end JudgePenguin.Driver
