/-
  JudgePenguin/CacheDisabled.lean
  ===============================
  **`map_region_cache_disabled`** (`lib/memory.cpp`), on the tables that the driver
  built.

  The kernel edits level-1 entries through the recursive slot: each store goes to
  an address that the tables themselves translate.  On a tree of tables the store
  lands in the entry of the page that it is meant for (`Tree.storeVirt_P1`), so the
  loop follows the tree as the driver's own calls do, one page a pass (`loop_spec`).
-/
import JudgePenguin.PageTableRuns
import JudgePenguin.RecursiveSlot

namespace JudgePenguin

open Words Paging

namespace Memory

def PTE_PRESENT : Nat := 1 <<< 0
def PTE_WRITABLE : Nat := 1 <<< 1
def PTE_WRITE_THROUGH : Nat := 1 <<< 3
def PTE_CACHE_DISABLE : Nat := 1 <<< 4

/-- A store by the kernel, which runs on the tables below `root`.  A page that is not
    there or must not be written is a fault. -/
def storeVirt (root : Nat) (m : Mem) (va v : Nat) : Option Mem :=
  (translate m root va).bind fun x => if x.writable then some (m.write64 x.phys v) else none

/-- The loop; it takes one unit of fuel for each test of its condition. -/
def mapRegionLoop (root : Nat) : Nat → Nat → Nat → Nat → Mem → Option Mem
  | 0, _, _, _, _ => none
  | fuel + 1, start, stop, srcAddr, m =>
    if start ≠ stop then
      (storeVirt root m (getP1 start)
        (srcAddr ||| PTE_PRESENT ||| PTE_WRITABLE ||| PTE_CACHE_DISABLE ||| PTE_WRITE_THROUGH)).bind
        (mapRegionLoop root fuel (wrap64 (start + PAGE_SIZE)) stop (wrap64 (srcAddr + PAGE_SIZE)))
    else some m

/-- `map_region_cache_disabled`; an assertion that fails ends the kernel. -/
def mapRegionCacheDisabled (root fuel start stop srcAddr : Nat) (m : Mem) : Option Mem :=
  if start % PAGE_SIZE = 0 ∧ stop % PAGE_SIZE = 0 ∧ srcAddr % PAGE_SIZE = 0 then
    mapRegionLoop root fuel start stop srcAddr m
  else none

/-- The address range translates to the one at `srcAddr`, uncached, and nothing else
    has changed. -/
structure Remapped (root start stop srcAddr : Nat) (m m' : Mem) : Prop where
  mapped : ∀ k < stop - start, translate m' root (start + k) = some ⟨srcAddr + k, true⟩
  uncached : ∀ k < stop - start,
    (m'.read64 (entryAfter m' root (start + k) 3)).testBit 3 = true ∧
      (m'.read64 (entryAfter m' root (start + k) 3)).testBit 4 = true
  others : ∀ va, Driver.P4Index va ≠ 511 → ¬ (start ≤ va ∧ va < stop) →
    translate m' root va = translate m root va
  written : ∀ a, (∀ va, start ≤ va → va < stop →
    ¬ (tableAfter m root va 3 ≤ a ∧ a < tableAfter m root va 3 + PAGE_SIZE)) → m' a = m a

end Memory

namespace Driver

open Memory

section Step

variable {R : Region} {t : Tables} {tab : Tab} {page : Nat → Nat} {s : PageTables} {va b : Nat}

/-- The path to a page that has its table, level by level. -/
theorem Tree.path (h : Tree R t tab page) (hr : Rep R t s) (hva : index 3 va < 510)
    (hb : tab 0 (spanOf 1 va) = some b) {d : Nat} (hd : d ≤ 3) :
    ∃ c, tab (3 - d) (spanOf (4 - d) va) = some c ∧ tableAfter s.mem (R.block 0) va d = R.block c ∧
      ∀ i, i < d → ∃ c' f, s.mem.read64 (entryAfter s.mem (R.block 0) va i) = R.block c' + f ∧
        (f = 0x63 ∨ f = 0x67) := by
  induction d with
  | zero =>
    refine ⟨0, ?_, rfl, fun i hi => absurd hi (Nat.not_lt_zero i)⟩
    rw [spanOf_root]
    exact h.top
  | succ d ih =>
    obtain ⟨c, hc, htable, hbefore⟩ := ih (by omega)
    -- the table below is there, since the last one is
    have hpresent : ∀ level, level ≤ 2 → tab level (spanOf (level + 1) va) ≠ none := by
      intro level hlevel hnone
      have hlow : tab 0 (spanOf 1 va) = none := by
        have hcases : level = 0 ∨ level = 1 ∨ level = 2 := by omega
        rcases hcases with rfl | rfl | rfl
        · exact hnone
        · exact h.below_absent (by decide) hnone
        · exact h.below_absent (by decide) (h.below_absent (by decide) hnone)
      rw [hb] at hlow
      cases hlow
    have hl1 : 3 - d = 2 - d + 1 := by omega
    have hl2 : 4 - d = 2 - d + 2 := by omega
    have hl3 : 3 - (d + 1) = 2 - d := by omega
    have hl4 : 4 - (d + 1) = 2 - d + 1 := by omega
    rw [hl1, hl2] at hc
    have hnames := h.on_path (show 2 - d < 3 by omega) hc hva
    obtain ⟨c', hc'⟩ := Option.ne_none_iff_exists'.mp (hpresent (2 - d) (by omega))
    obtain ⟨f, he, hf⟩ := hnames.some_iff hc'
    have hlt := R.block_lt (h.block_lt (by omega) hc')
    have hread : s.mem.read64 (entryAfter s.mem (R.block 0) va d) = R.block c' + f := by
      rw [entryAfter, htable, hl1, hr.entry c _ (index_lt _ va), he]
    refine ⟨c', by rw [hl3, hl4]; exact hc', ?_, ?_⟩
    · rw [tableAfter_succ, hread]
      exact frame_add (by decide) (R.block_aligned c') (by omega) (by unfold pageSize; omega)
    · intro i hi
      rcases Nat.lt_succ_iff_lt_or_eq.mp hi with hlt | rfl
      · exact hbefore i hlt
      · exact ⟨c', f, hread, hf⟩

theorem Tree.selfEntry (h : Tree R t tab page) (hr : Rep R t s) :
    SelfEntry s.mem (R.block 0) ∧ writable (s.mem.read64 (R.block 0 + 511 * 8)) = true := by
  have htwo := h.two_le
  have hnext := h.next_le
  have hlt : R.block 0 + 4096 ≤ 2 ^ 51 := R.block_lt (by omega)
  have hal := R.block_aligned 0
  have hread : s.mem.read64 (R.block 0 + 511 * 8) = R.block 0 + 0x63 := by
    rw [hr.entry 0 511 (by decide), h.back]
  refine ⟨⟨?_, ?_, ?_⟩, ?_⟩
  · rw [hread, present_add hal]
    decide
  · rw [hread, large_add hal]
    decide
  · rw [hread]
    exact frame_add (by decide) hal (by omega) (by decide)
  · rw [hread, writable_add hal]
    decide

/-- **A store through `get_P1` lands in the entry of its page.** -/
theorem Tree.storeVirt_P1 (h : Tree R t tab page) (hr : Rep R t s) (hva : index 3 va < 510)
    (hc : canonical va = true) (hb : tab 0 (spanOf 1 va) = some b) (v : Nat) :
    storeVirt s.P4Base s.mem (getP1 va) v =
      some (s.mem.write64 (R.block b + index 0 va * 8) v) := by
  have hroot : s.P4Base = R.block 0 := hr.root.trans h.root
  obtain ⟨hself, hselfw⟩ := h.selfEntry hr
  obtain ⟨c, hc3, htable, hentries⟩ := h.path hr hva hb (Nat.le_refl 3)
  have hsame : c = b := Option.some.inj (hc3.symm.trans hb)
  subst hsame
  have hflags : ∀ i, i < 3 → ∃ c' f, s.mem.read64 (entryAfter s.mem (R.block 0) va i) =
      R.block c' + f ∧ Paging.present f = true ∧ large f = false ∧ writable f = true := by
    intro i hi
    obtain ⟨c', f, he, rfl | rfl⟩ := hentries i hi
    · exact ⟨c', 0x63, he, by decide⟩
    · exact ⟨c', 0x67, he, by decide⟩
  have hdown : Descends s.mem (R.block 0) va (4 - 1) := by
    intro i hi
    obtain ⟨c', f, he, hp, hl, -⟩ := hflags i hi
    rw [he, present_add (R.block_aligned c'), large_add (R.block_aligned c')]
    exact ⟨hp, hl⟩
  have hwritable : ∀ i, i < 4 - 1 →
      writable (s.mem.read64 (entryAfter s.mem (R.block 0) va i)) = true := by
    intro i hi
    obtain ⟨c', f, he, -, -, hw⟩ := hflags i hi
    rw [he, writable_add (R.block_aligned c'), hw]
  have hv64 : va < 2 ^ 64 := by
    rcases canonical_iff.mp hc with hlow | hhigh
    · omega
    · exact hhigh.2
  have hwalk := translate_getPk_eq hself hc (Nat.le_refl 1) (by decide) hdown
  rw [pathWritable_getPk hself hselfw hv64 (Nat.le_refl 1) (by decide) hwritable] at hwalk
  have hplace : entryAfter s.mem (R.block 0) va (4 - 1) = R.block c + index 0 va * 8 := by
    show tableAfter s.mem (R.block 0) va 3 + index 0 va * 8 = _
    rw [htable]
  rw [hplace] at hwalk
  have hP1 : getPk 1 va = getP1 va := rfl
  rw [hP1] at hwalk
  rw [storeVirt, hroot, hwalk, Option.bind_some, if_pos rfl]

end Step

/-! ## The loop -/

/-- The pages with `n` of them, from page `p` on, remapped to `srcAddr`. -/
def remapPages (page : Nat → Nat) (p n srcAddr : Nat) : Nat → Nat :=
  fun j => if p ≤ j ∧ j < p + n then srcAddr + 4096 * (j - p) + 0x1b else page j

theorem remapPages_zero (page : Nat → Nat) (p srcAddr : Nat) : remapPages page p 0 srcAddr = page := by
  funext j
  exact if_neg (by omega)

/-- The first page, and then the others. -/
theorem remapPages_succ (page : Nat → Nat) (p n srcAddr : Nat) :
    remapPages (putPage page p (srcAddr + 0x1b)) (p + 1) n (srcAddr + 4096) =
      remapPages page p (n + 1) srcAddr := by
  funext j
  unfold remapPages putPage
  by_cases hj : j = p
  · rw [if_neg (by omega), if_pos hj, if_pos (by omega)]
    omega
  · by_cases hin : p + 1 ≤ j ∧ j < p + 1 + n
    · rw [if_pos hin, if_pos (by omega)]
      omega
    · rw [if_neg hin, if_neg hj, if_neg (by omega)]

section Loop

variable {R : Region} {t : Tables} {tab : Tab} {page : Nat → Nat} {s : PageTables}

/-- The bytes of the level-1 tables of `n` pages from page `p` on. -/
def InTables (R : Region) (tab : Tab) (p n a : Nat) : Prop :=
  ∃ j b, p ≤ j ∧ j < p + n ∧ tab 0 (j / 512) = some b ∧ R.block b ≤ a ∧ a < R.block b + 4096

theorem low_page {p : Nat} (hp : p < 2 ^ 27) : index 3 (4096 * p) < 510 ∧
    canonical (4096 * p) = true ∧ spanOf 1 (4096 * p) = p / 512 ∧ index 0 (4096 * p) = p % 512 := by
  unfold index spanOf
  rw [canonical_iff, pageSize_zero, pageSize_one, pageSize_three]
  omega

theorem flags_eq {srcAddr : Nat} (h : 4096 ∣ srcAddr) :
    srcAddr ||| PTE_PRESENT ||| PTE_WRITABLE ||| PTE_CACHE_DISABLE ||| PTE_WRITE_THROUGH =
      srcAddr + 0x1b := by
  rw [Nat.or_assoc, Nat.or_assoc, Nat.or_assoc]
  exact or_flags h (by decide)

/-- **The loop** remaps page after page, and writes nothing but their tables. -/
theorem loop_spec {n p srcAddr : Nat} (hr : Rep R t s) (h : Tree R t tab page)
    (hthere : ∀ j, p ≤ j → j < p + n → tab 0 (j / 512) ≠ none) (hp : p + n ≤ 2 ^ 27)
    (hsrc : 4096 ∣ srcAddr) (hlt : srcAddr + 4096 * n ≤ 2 ^ 51) :
    ∃ m' t', (∀ fuel, n < fuel →
        mapRegionLoop s.P4Base fuel (4096 * p) (4096 * (p + n)) srcAddr s.mem = some m') ∧
      Rep R t' { s with mem := m' } ∧ Tree R t' tab (remapPages page p n srcAddr) ∧
      Mem.EqOff (InTables R tab p n) s.mem m' := by
  induction n generalizing t page s p srcAddr with
  | zero =>
    refine ⟨s.mem, t, ?_, hr, ?_, Mem.EqOff.refl _ _⟩
    · intro fuel hfuel
      obtain ⟨f, rfl⟩ := Nat.exists_eq_add_of_lt hfuel
      rw [Nat.zero_add, mapRegionLoop, if_neg (by simp)]
    · rw [remapPages_zero]
      exact h
  | succ n ih =>
    obtain ⟨b, hb⟩ := Option.ne_none_iff_exists'.mp (hthere p (Nat.le_refl p) (by omega))
    obtain ⟨hindex, hcanon, hspan, hmod⟩ := low_page (p := p) (by omega)
    have hodd : (srcAddr + 0x1b) % 2 = 1 := by omega
    have hstore := h.storeVirt_P1 hr hindex hcanon (by rw [hspan]; exact hb) (srcAddr + 0x1b)
    rw [hmod] at hstore
    have hr1 := hr.write64 (b := b) (v := srcAddr + 0x1b) (Nat.mod_lt p (by decide : 512 > 0)) (by omega)
    have ht1 := h.setPage hb hodd
    have hsrc1 : 4096 ∣ srcAddr + 4096 := by omega
    obtain ⟨m', t', hrun, hr', ht', hoff⟩ := ih (p := p + 1) hr1 ht1
      (fun j h1 h2 => hthere j (by omega) (by omega)) (by omega) hsrc1 (by omega)
    refine ⟨m', t', ?_, hr', ?_, ?_⟩
    · intro fuel hfuel
      obtain ⟨f, rfl⟩ : ∃ f, fuel = f + 1 := ⟨fuel - 1, by omega⟩
      have hpage : PAGE_SIZE = 4096 := by decide
      have hnext : wrap64 (4096 * p + PAGE_SIZE) = 4096 * (p + 1) := by
        rw [hpage, wrap64_of_lt (by omega)]
        omega
      have hsrcnext : wrap64 (srcAddr + PAGE_SIZE) = srcAddr + 4096 := by
        rw [hpage, wrap64_of_lt (by omega)]
      have hend : p + (n + 1) = p + 1 + n := by omega
      rw [mapRegionLoop, if_pos (by omega), flags_eq hsrc, hstore, Option.bind_some, hnext, hsrcnext,
        hend]
      exact hrun f (by omega)
    · rw [← remapPages_succ]
      exact ht'
    · refine Mem.EqOff.trans ((Mem.EqOff.write64 _ _ _ ?_)) (hoff.mono ?_)
      · intro a h1 h2
        exact ⟨p, b, Nat.le_refl p, by omega, hb, by omega, by omega⟩
      · rintro a ⟨j, c, h1, h2, hc⟩
        exact ⟨j, c, by omega, by omega, hc⟩

/-- A page remapped without cache. -/
theorem leafOf_uncached {srcAddr va : Nat} (h : 4096 ∣ srcAddr) (hlt : srcAddr < 2 ^ 51) :
    leafOf (srcAddr + 0x1b) va = some ⟨srcAddr + va % 4096, true⟩ := by
  have hframe : frame (srcAddr + 0x1b) (pageSize 0) = srcAddr :=
    frame_add (by decide) h (by omega) (by decide)
  have hw : writable (srcAddr + 0x1b) = true := writable_add h
  rw [leafOf, if_neg (by omega), hframe, hw]

theorem uncached_bits {srcAddr : Nat} (h : 4096 ∣ srcAddr) :
    (srcAddr + 0x1b).testBit 3 = true ∧ (srcAddr + 0x1b).testBit 4 = true := by
  rw [← or_flags h (by decide), Nat.testBit_or, Nat.testBit_or]
  have h3 : Nat.testBit 0x1b 3 = true := by decide
  have h4 : Nat.testBit 0x1b 4 = true := by decide
  rw [h3, h4, Bool.or_true, Bool.or_true]
  exact ⟨rfl, rfl⟩

/-- **Remapping through the recursive slot is exact.** -/
theorem mapRegionCacheDisabled_spec (hphys : 0 < R.phys) (hs : Reachable R s)
    {start stop srcAddr : Nat} (hstart : 4096 ∣ start) (hstop : 4096 ∣ stop) (hle : start ≤ stop)
    (hsize : stop ≤ R.size) (hsrc : 4096 ∣ srcAddr) (hlt : srcAddr + (stop - start) ≤ 2 ^ 51) :
    ∃ m', (∀ fuel, (stop - start) / PAGE_SIZE < fuel →
        mapRegionCacheDisabled s.P4Base fuel start stop srcAddr s.mem = some m') ∧
      Remapped s.P4Base start stop srcAddr s.mem m' := by
  obtain ⟨t, tab, page, hr, h, hpages⟩ := hs.tree_region hphys
  obtain ⟨p, rfl⟩ := hstart
  obtain ⟨q, rfl⟩ := hstop
  obtain ⟨n, rfl⟩ := Nat.exists_eq_add_of_le (show p ≤ q by omega)
  have hRsize := R.size_le
  have hroot : s.P4Base = R.block 0 := hr.root.trans h.root
  have hthere : ∀ j, p ≤ j → j < p + n → tab 0 (j / 512) ≠ none := by
    intro j h1 h2 hnone
    exact hpages j (R.lt_numP0.mpr (by omega)) (h.noPage j hnone)
  obtain ⟨m', t', hrun, hr', h', hoff⟩ := loop_spec hr h hthere (by omega) hsrc (by omega)
  have hcount : (4096 * (p + n) - 4096 * p) / PAGE_SIZE = n := by
    have hpage : PAGE_SIZE = 4096 := by decide
    rw [hpage]
    omega
  -- the page of an address in the range
  have hrange : ∀ k, k < 4096 * (p + n) - 4096 * p → index 3 (4096 * p + k) < 510 ∧
      canonical (4096 * p + k) = true ∧ spanOf 0 (4096 * p + k) = p + k / 4096 ∧
      remapPages page p n srcAddr (p + k / 4096) = srcAddr + 4096 * (k / 4096) + 0x1b := by
    intro k hk
    refine ⟨?_, canonical_iff.mpr (.inl (by omega)), ?_, ?_⟩
    · unfold index
      rw [pageSize_three]
      omega
    · unfold spanOf
      rw [pageSize_zero]
      omega
    · unfold remapPages
      rw [if_pos (by omega)]
      omega
  refine ⟨m', ?_, ?_, ?_, ?_, ?_⟩
  · intro fuel hfuel
    rw [hcount] at hfuel
    have hal : 4096 * p % PAGE_SIZE = 0 ∧ 4096 * (p + n) % PAGE_SIZE = 0 ∧ srcAddr % PAGE_SIZE = 0 := by
      have hpage : PAGE_SIZE = 4096 := by decide
      rw [hpage]
      omega
    rw [mapRegionCacheDisabled, if_pos hal]
    exact hrun fuel hfuel
  · intro k hk
    obtain ⟨hindex, hcanon, hspan, hpage⟩ := hrange k hk
    have hwalk := h'.translate_lower hr' hindex hcanon
    rw [hspan, hpage, leafOf_uncached (by omega) (by omega)] at hwalk
    have hoffset : srcAddr + 4096 * (k / 4096) + (4096 * p + k) % 4096 = srcAddr + k := by omega
    rw [hoffset] at hwalk
    exact hwalk
  · intro k hk
    obtain ⟨hindex, hcanon, hspan, hpage⟩ := hrange k hk
    have hdiv : (p + k / 4096) / 512 = spanOf 1 (4096 * p + k) := by
      rw [← hspan]
      exact spanOf_div _ (by decide)
    obtain ⟨b, hb⟩ := Option.ne_none_iff_exists'.mp (hthere (p + k / 4096) (by omega) (by omega))
    obtain ⟨c, hc, htable, -⟩ := h'.path hr' hindex (by rw [← hdiv]; exact hb) (Nat.le_refl 3)
    have hsame : c = b := by
      rw [hdiv] at hb
      exact Option.some.inj (hc.symm.trans hb)
    subst hsame
    have hleaf := h'.leaf (p + k / 4096) c hb
    have hmod : (p + k / 4096) % 512 = index 0 (4096 * p + k) := by
      rw [← hspan]
      exact spanOf_mod _ (by decide)
    rw [hmod, hpage] at hleaf
    have hentry : m'.read64 (entryAfter m' s.P4Base (4096 * p + k) 3) =
        srcAddr + 4096 * (k / 4096) + 0x1b := by
      rw [hroot, entryAfter]
      rw [show tableAfter m' (R.block 0) (4096 * p + k) 3 = R.block c from htable]
      exact (hr'.entry c _ (index_lt 0 _)).trans hleaf
    rw [hentry]
    exact uncached_bits (by omega)
  · intro va h511 hout
    by_cases hcanon : canonical va = true
    · by_cases hupper : index 3 va = 510
      · have hafter := h'.walk_upper hr' hupper
        rw [translate_of_canonical hcanon, translate_of_canonical hcanon, hroot, h.walk_upper hr hupper]
        exact hafter
      · have hlower : index 3 va < 510 := index_lower (by rw [P4Index_eq]; exact hupper) h511
        have hafter := h'.translate_lower hr' hlower hcanon
        rw [h.translate_lower hr hlower hcanon]
        have hsame : remapPages page p n srcAddr (spanOf 0 va) = page (spanOf 0 va) := by
          refine if_neg ?_
          rw [canonical_iff] at hcanon
          unfold spanOf
          rw [pageSize_zero]
          omega
        rw [hsame] at hafter
        exact hafter
    · unfold Paging.translate
      rw [if_neg hcanon, if_neg hcanon]
  · intro a ha
    apply hoff
    rintro ⟨j, b, h1, h2, hb, h3, h4⟩
    have hpage : PAGE_SIZE = 4096 := by decide
    obtain ⟨hindex, hcanon, hspan, -⟩ := low_page (p := j) (by omega)
    obtain ⟨c, hc, htable, -⟩ := h.path hr hindex (by rw [hspan]; exact hb) (Nat.le_refl 3)
    have hsame : c = b := by
      rw [← hspan] at hb
      exact Option.some.inj (hc.symm.trans hb)
    subst hsame
    refine ha (4096 * j) (by omega) (by omega) ?_
    rw [hroot, htable, hpage]
    exact ⟨h3, h4⟩

end Loop

/-- A frame buffer of two pages behind the first GiB of the device window. -/
theorem mapRegionCacheDisabled_sample : ∃ s m', Reachable sampleRegion s ∧
    mapRegionCacheDisabled s.P4Base 3 0x400000 0x402000 0xfd000000 s.mem = some m' ∧
      Remapped s.P4Base 0x400000 0x402000 0xfd000000 s.mem m' := by
  obtain ⟨s, t, tab, page, hreach, -⟩ := sample_run 0 (Nat.zero_le 16)
  have hstart : 4096 ∣ 0x400000 := by decide
  have hstop : 4096 ∣ 0x402000 := by decide
  have hsrc : 4096 ∣ 0xfd000000 := by decide
  obtain ⟨m', hrun, hremap⟩ := mapRegionCacheDisabled_spec sampleRegion_pos hreach hstart hstop
    (by decide) (by decide) hsrc (by decide)
  exact ⟨s, m', hreach, hrun 3 (by decide), hremap⟩

end Driver

end JudgePenguin
