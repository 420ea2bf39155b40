/-
  JudgePenguin/PageTableRuns.lean
  ===============================
  **Any run of `map_page` calls after `init_page_table`.**

  Whatever was mapped, the tables are a tree (`Reachable.tree`).  A call therefore
  maps its page and nothing else exactly if it needs no more blocks than remain
  below `page_table_break` (`mapsOnePage_iff`), and one that needs more never
  fails cleanly (`mapPage_exhausted`).  Seventeen calls are enough to come there.
-/
import JudgePenguin.KernelMapping
import JudgePenguin.PageTableCalls

namespace JudgePenguin.Driver

open Words ArrayLoops Paging

/-! ## Runs -/

/-- The states of the driver after `init_page_table` and any calls of `map_page` for
    the addresses of the first 510 entries of the top table. -/
inductive Reachable (R : Region) : PageTables → Prop
  | init {mem : Mem} {s : PageTables} : initPageTable R.phys R.virt R.size mem = some s → Reachable R s
  | call {s : PageTables} {phys va : Nat} {r : MapResult} : Reachable R s → phys < 2 ^ 64 →
      P4Index va ≠ 510 → P4Index va ≠ 511 → mapPage phys va s = some r → Reachable R r.state

/-- The tables in use are distinct blocks below `page_table_break`. -/
structure BlocksApart (s : PageTables) : Prop where
  distinct : ∀ level k level' k' a, TableAt s.mem s.P4Base level k a →
    TableAt s.mem s.P4Base level' k' a → level = level' ∧ k = k'
  inside : ∀ level k a, TableAt s.mem s.P4Base level k a →
    s.physBaseAddr ≤ a ∧ a + PAGE_SIZE ≤ s.pageTableBreak

/-- `map_page` maps one page and nothing else. -/
structure OnePage (s : PageTables) (physAddr virtAddr : Nat) (r : MapResult) : Prop where
  added : translate s.mem s.P4Base virtAddr = none → r.ret = 0 ∧ ∀ k < 4096,
    translate r.state.mem r.state.P4Base (virtAddr + k) = some ⟨physAddr + k, true⟩
  kept : translate s.mem s.P4Base virtAddr ≠ none → r.ret = -1 ∧ r.state = s
  others : ∀ va, P4Index va ≠ 511 → va / PAGE_SIZE ≠ virtAddr / PAGE_SIZE →
    translate r.state.mem r.state.P4Base va = translate s.mem s.P4Base va
  apart : BlocksApart r.state

def MapsOnePage (s : PageTables) (physAddr virtAddr : Nat) : Prop :=
  ∃ r, mapPage physAddr virtAddr s = some r ∧ OnePage s physAddr virtAddr r

/-- A failure that leaves nothing behind but blocks. -/
structure CleanFailure (s : PageTables) (r : MapResult) : Prop where
  error : r.ret ≠ 0
  linked : ∀ level k a, TableAt r.state.mem r.state.P4Base level k a →
    a ≠ 0 ∧ s.physBaseAddr ≤ a ∧ a + PAGE_SIZE ≤ s.pageTableBreak
  written : ∀ a, ¬ (s.physBaseAddr ≤ a ∧ a < s.pageTableBreak) → r.state.mem a = s.mem a
  kept : ∀ va x, translate s.mem s.P4Base va = some x →
    translate r.state.mem r.state.P4Base va = some x

def FailsCleanly (s : PageTables) (physAddr virtAddr : Nat) : Prop :=
  ∃ r, mapPage physAddr virtAddr s = some r ∧ CleanFailure s r

section Runs

variable {R : Region} {t : Tables} {tab : Tab} {page : Nat → Nat} {s : PageTables} {va p : Nat}

theorem index_lower (h510 : P4Index va ≠ 510) (h511 : P4Index va ≠ 511) : index 3 va < 510 := by
  rw [P4Index_eq] at h510 h511
  have hlt := index_lt 3 va
  omega

/-- **The invariant of a run.**  The pages of the region stay mapped. -/
theorem Reachable.tree_region (hphys : 0 < R.phys) (h : Reachable R s) :
    ∃ t tab page, Rep R t s ∧ Tree R t tab page ∧ ∀ j, j < R.numP0 → page j ≠ 0 := by
  induction h with
  | @init mem s hs =>
    obtain ⟨s', hs', t, hr, hi⟩ := initPageTable_spec R mem
    rw [hs'] at hs
    cases hs
    refine ⟨t, _, _, hr, hi.tree, ?_⟩
    intro j hj
    rw [Region.leaf, if_pos hj]
    omega
  | @call s phys va r _ hp h510 h511 hcall ih =>
    obtain ⟨t, tab, page, hr, ht, hpages⟩ := ih
    rcases ht.mapPage_spec hphys hr (index_lower h510 h511) hp with
      ⟨-, r', hr', hserved⟩ | ⟨-, hnone, -⟩
    · rw [hr'] at hcall
      cases hcall
      obtain ⟨t', tab', page', hrep, htree, -, -, hset, hkeep⟩ := hserved.tree
      refine ⟨t', tab', page', hrep, htree, ?_⟩
      intro j hj
      by_cases hpage : page (spanOf 0 va) = 0
      · have hne : j ≠ spanOf 0 va := by
          rintro rfl
          exact hpages _ hj hpage
        rw [hset hpage, putPage, if_neg hne]
        exact hpages j hj
      · rw [hkeep hpage]
        exact hpages j hj
    · rw [hnone] at hcall
      cases hcall

theorem Reachable.tree (hphys : 0 < R.phys) (h : Reachable R s) :
    ∃ t tab page, Rep R t s ∧ Tree R t tab page := by
  obtain ⟨t, tab, page, hr, ht, -⟩ := h.tree_region hphys
  exact ⟨t, tab, page, hr, ht⟩

/-- The tables that walks meet are those of the tree, and the one that maps all memory. -/
theorem Tree.of_tableAt (h : Tree R t tab page) (hr : Rep R t s) {level k a : Nat}
    (ha : TableAt s.mem (R.block 0) level k a) :
    level ≤ 3 ∧ ((∃ b, tab level k = some b ∧ a = R.block b) ∨
      (level = 2 ∧ k = 510 ∧ a = R.block 1)) := by
  have htwo := h.two_le
  have hnext := h.next_le
  induction ha with
  | top => exact ⟨Nat.le_refl 3, .inl ⟨0, h.top, rfl⟩⟩
  | @child level k a i _ hi htop hp hl ih =>
    obtain ⟨hlevel, ⟨b, hb, rfl⟩ | ⟨hlow, hk, rfl⟩⟩ := ih
    · have hdiv : (512 * k + i) / 512 = k := by omega
      have hmod : (512 * k + i) % 512 = i := by omega
      rw [hr.entry b i hi] at hp hl ⊢
      refine ⟨by omega, ?_⟩
      by_cases hupper : level = 2 ∧ i = 510
      · -- the entry of the top table that maps all physical memory
        obtain ⟨rfl, rfl⟩ := hupper
        have hk := h.topOnly k b hb
        subst hk
        rw [h.top] at hb
        cases hb
        have hlt : R.block 1 + 4096 ≤ 2 ^ 51 := R.block_lt (by omega)
        refine .inr ⟨rfl, rfl, ?_⟩
        rw [h.upper]
        exact frame_add (by decide) (R.block_aligned 1) (by omega) (by decide)
      · have hlow : level = 2 → 512 * k + i < 510 := by
          rintro rfl
          have hk := h.topOnly k b hb
          have hi511 := htop rfl
          omega
        have hnames := h.child level (512 * k + i) b (by omega) (by rw [hdiv]; exact hb) hlow
        rw [hmod] at hnames
        cases hcase : tab level (512 * k + i) with
        | none =>
          rw [hnames.of_none hcase] at hp
          cases hp
        | some c =>
          obtain ⟨f, he, hf⟩ := hnames.some_iff hcase
          have hlt := R.block_lt (h.block_lt (by omega) hcase)
          refine .inl ⟨c, rfl, ?_⟩
          rw [he]
          exact frame_add (by decide) (R.block_aligned c) (by omega) (by unfold pageSize; omega)
    · -- the entries of that table are pages of 1 GiB
      rw [hr.entry 1 i hi, h.gib i hi, large_add (by omega)] at hl
      cases hl

theorem Tree.blocksApart (h : Tree R t tab page) (hr : Rep R t s) : BlocksApart s := by
  have hroot : s.P4Base = R.block 0 := hr.root.trans h.root
  have htwo := h.two_le
  have hnext := h.next_le
  have hsize : PAGE_SIZE = 4096 := by decide
  constructor
  · intro level k level' k' a ha ha'
    rw [hroot] at ha ha'
    obtain ⟨hl, ⟨b, hb, rfl⟩ | ⟨rfl, rfl, rfl⟩⟩ := h.of_tableAt hr ha
    · obtain ⟨hl', ⟨b', hb', he⟩ | ⟨rfl, rfl, he⟩⟩ := h.of_tableAt hr ha'
      · have hsame := R.block_inj he
        subst hsame
        exact h.unshared level k level' k' b hl hl' hb hb'
      · exact absurd (R.block_inj he) (h.bound level k b hl hb).2
    · obtain ⟨hl', ⟨b', hb', he⟩ | ⟨rfl, rfl, -⟩⟩ := h.of_tableAt hr ha'
      · exact absurd (R.block_inj he).symm (h.bound level' k' b' hl' hb').2
      · exact ⟨rfl, rfl⟩
  · intro level k a ha
    rw [hroot] at ha
    rw [hr.phys, hr.brk, hsize]
    have hinside : ∀ b < R.blocks, R.phys ≤ R.block b ∧ R.block b + 4096 ≤ R.phys + 4096 * R.blocks := by
      intro b hb
      unfold Region.block
      omega
    obtain ⟨hl, ⟨b, hb, rfl⟩ | ⟨-, -, rfl⟩⟩ := h.of_tableAt hr ha
    · exact hinside b (h.block_lt hl hb)
    · exact hinside 1 (by omega)

/-! ## Translations -/

theorem Tree.translate_lower (h : Tree R t tab page) (hr : Rep R t s) (hva : index 3 va < 510)
    (hc : canonical va = true) :
    translate s.mem s.P4Base va = leafOf (page (spanOf 0 va)) va := by
  rw [translate_of_canonical hc, hr.root, h.root, h.walk_eq hr hva]

theorem leafOf_none {e : Nat} : leafOf e va = none ↔ e = 0 := by
  unfold leafOf
  by_cases he : e = 0
  · simp only [he, if_true]
  · simp only [he, if_false, reduceCtorEq]

theorem leafOf_mapped (hp : 4096 ∣ p) (hlt : p < 2 ^ 51) :
    leafOf (mapped p) va = some ⟨p + va % 4096, true⟩ := by
  have hframe : frame (p + 0x63) (pageSize 0) = p := frame_add (by decide) hp (by omega) (by decide)
  have hw : writable (p + 0x63) = true := writable_add hp
  rw [mapped_eq hp, leafOf, if_neg (by omega), hframe, hw]

theorem spanOf_page_ne {va' : Nat} (hc : canonical va = true) (hc' : canonical va' = true)
    (h : va' / 4096 ≠ va / 4096) : spanOf 0 va' ≠ spanOf 0 va := by
  rw [canonical_iff] at hc hc'
  unfold spanOf
  rw [pageSize_zero]
  omega

/-- A call that is served changes the translation of no other page. -/
theorem Served.others {r : MapResult} (h : Tree R t tab page) (hr : Rep R t s)
    (hs : Served R t tab page s p va r) (hc : canonical va = true) {va' : Nat}
    (h511 : P4Index va' ≠ 511) (hne : va' / 4096 ≠ va / 4096) :
    translate r.state.mem r.state.P4Base va' = translate s.mem s.P4Base va' := by
  obtain ⟨t', tab', page', hr', ht', -, -, hset, hkeep⟩ := hs.tree
  by_cases hc' : canonical va' = true
  · by_cases hupper : index 3 va' = 510
    · rw [translate_of_canonical hc', translate_of_canonical hc', hr'.root, ht'.root, hr.root, h.root,
        ht'.walk_upper hr' hupper, h.walk_upper hr hupper]
    · have hlower : index 3 va' < 510 := index_lower (by rw [P4Index_eq]; exact hupper) h511
      rw [ht'.translate_lower hr' hlower hc', h.translate_lower hr hlower hc']
      congr 1
      by_cases hpage : page (spanOf 0 va) = 0
      · rw [hset hpage]
        exact if_neg (spanOf_page_ne hc hc' hne)
      · rw [hkeep hpage]
  · unfold Paging.translate
    rw [if_neg hc', if_neg hc']

/-- **A call with blocks enough maps one page and nothing else.** -/
theorem Served.onePage {r : MapResult} (h : Tree R t tab page) (hr : Rep R t s)
    (hs : Served R t tab page s p va r) (hva : index 3 va < 510) (hc : canonical va = true)
    (hal : 4096 ∣ va) (hp : 4096 ∣ p) (hlt : p < 2 ^ 51) : OnePage s p va r := by
  have hbefore := h.translate_lower hr hva hc
  constructor
  · intro hnone
    rw [hbefore, leafOf_none] at hnone
    refine ⟨hs.added hnone, ?_⟩
    intro k hk
    obtain ⟨t', tab', page', hr', ht', -, -, hset, -⟩ := hs.tree
    have hck : canonical (va + k) = true := by
      rw [canonical_iff] at hc ⊢
      omega
    have hspan : spanOf 0 (va + k) = spanOf 0 va := by
      unfold spanOf
      rw [pageSize_zero]
      omega
    have hindex : index 3 (va + k) = index 3 va := by
      unfold index
      rw [pageSize_three]
      omega
    have hentry : page' (spanOf 0 va) = mapped p := by
      rw [hset hnone]
      exact if_pos rfl
    have hoff : (va + k) % 4096 = k := by omega
    rw [ht'.translate_lower hr' (by rw [hindex]; exact hva) hck, hspan, hentry, leafOf_mapped hp hlt,
      hoff]
  · intro hsome
    rw [hbefore, Ne, leafOf_none] at hsome
    exact hs.kept hsome
  · intro va' h511 hne
    exact hs.others h hr hc h511 hne
  · obtain ⟨t', tab', page', hr', ht', -⟩ := hs.tree
    exact ht'.blocksApart hr'

/-- **`map_page` maps one page and nothing else exactly if it needs no more blocks than
    remain.** -/
theorem mapsOnePage_iff (hphys : 0 < R.phys) (hs : Reachable R s) (hp : 4096 ∣ p)
    (hlt : p < 2 ^ 51) (hal : 4096 ∣ va) (hc : canonical va = true) (h510 : P4Index va ≠ 510)
    (h511 : P4Index va ≠ 511) : MapsOnePage s p va ↔ ¬ Exhausts s va := by
  obtain ⟨t, tab, page, hr, ht⟩ := hs.tree hphys
  have hva := index_lower h510 h511
  rcases ht.mapPage_spec hphys hr hva (p := p) (by omega) with
    ⟨hroom, r, hcall, hserved⟩ | ⟨hfull, hnone, -⟩
  · constructor
    · intro _
      exact hroom
    · intro _
      exact ⟨r, hcall, hserved.onePage ht hr hva hc hal hp hlt⟩
  · constructor
    · rintro ⟨r, hcall, -⟩
      rw [hnone] at hcall
      cases hcall
    · intro hroom
      exact absurd hfull hroom

/-- **A call that needs more blocks than remain never fails cleanly**: it links an entry
    that points to physical address `0` and goes on through it, out of the window. -/
theorem mapPage_exhausted (hphys : 0 < R.phys) (hs : Reachable R s) (hp : p < 2 ^ 64)
    (h510 : P4Index va ≠ 510) (h511 : P4Index va ≠ 511) (hfull : Exhausts s va) :
    ¬ FailsCleanly s p va ∧ mapPage p va s = none ∧
      ∃ n s', descend s.P4Base ((tableIndices va).take n) s = some (0x63, s') := by
  obtain ⟨t, tab, page, hr, ht⟩ := hs.tree hphys
  rcases ht.mapPage_spec hphys hr (index_lower h510 h511) hp with
    ⟨hroom, -⟩ | ⟨-, hnone, hlink⟩
  · exact absurd hfull hroom
  · refine ⟨?_, hnone, hlink⟩
    rintro ⟨r, hcall, -⟩
    rw [hnone] at hcall
    cases hcall

end Runs

/-! ## A run to the end of the blocks -/

/-- The reserved memory as `vmalloc` may place it. -/
def sampleRegion : Region := reserved 0xffffc90000000000 (by decide)

theorem sampleRegion_pos : 0 < sampleRegion.phys := by decide

/-- The first address behind entry `j` of the top table. -/
def topPage (j : Nat) : Nat := j * 549755813888

section Sample

variable {j : Nat}

theorem index_topPage (hj : j < 510) : index 3 (topPage j) = j := by
  unfold topPage index
  rw [pageSize_three]
  omega

theorem spanOf_topPage (hj : j < 510) : spanOf 3 (topPage j) = j := by
  rw [spanOf_top, index_topPage hj]

theorem P4Index_topPage (hj : j < 510) :
    P4Index (topPage j) ≠ 510 ∧ P4Index (topPage j) ≠ 511 := by
  rw [P4Index_eq, index_topPage hj]
  omega

/-- Each call behind a fresh entry of the top table takes three blocks. -/
theorem sample_run (j : Nat) (hj : j ≤ 16) : ∃ s t tab page, Reachable sampleRegion s ∧
    Rep sampleRegion t s ∧ Tree sampleRegion t tab page ∧ t.next = 260 + 3 * j ∧
      ∀ k, j < k → tab 2 k = none := by
  have hblocks : sampleRegion.blocks = 310 := rfl
  induction j with
  | zero =>
    obtain ⟨s, hs, t, hr, hi⟩ := initPageTable_spec sampleRegion (fun _ => 0xcc)
    refine ⟨s, t, _, _, .init hs, hr, hi.tree, ?_, ?_⟩
    · rw [hi.next]
      rfl
    · intro k hk
      rw [initTab_two]
      exact if_neg (by omega)
  | succ j ih =>
    obtain ⟨s, t, tab, page, hreach, hr, ht, hnext, hfree⟩ := ih (by omega)
    have hva : index 3 (topPage (j + 1)) < 510 := by
      rw [index_topPage (by omega)]
      omega
    have hnone : tab 2 (spanOf 3 (topPage (j + 1))) = none := by
      rw [spanOf_topPage (by omega)]
      exact hfree _ (by omega)
    have hmiss : missing tab (topPage (j + 1)) 3 = 3 := ht.missing_all (by decide) hnone
    rcases ht.mapPage_spec sampleRegion_pos hr hva (p := 0) (by decide) with
      ⟨-, r, hcall, hserved⟩ | ⟨hfull, -⟩
    · obtain ⟨t', tab', page', hr', ht', hnext', hold, -⟩ := hserved.tree
      obtain ⟨h510, h511⟩ := P4Index_topPage (show j + 1 < 510 by omega)
      refine ⟨r.state, t', tab', page', .call hreach (by decide) h510 h511 hcall, hr', ht', ?_, ?_⟩
      · rw [hnext', hmiss, hnext]
        omega
      · intro k hk
        rw [hold 2 k (by rw [spanOf_topPage (by omega)]; omega)]
        exact hfree k (by omega)
    · rw [ht.exhausts_iff hr hva, hmiss] at hfull
      omega

/-- The seventeenth call. -/
theorem sample_exhausted : ∃ s, Reachable sampleRegion s ∧ Exhausts s (topPage 17) ∧
    mapPage 0 (topPage 17) s = none := by
  obtain ⟨s, t, tab, page, hreach, hr, ht, hnext, hfree⟩ := sample_run 16 (Nat.le_refl 16)
  have hblocks : sampleRegion.blocks = 310 := rfl
  have hva : index 3 (topPage 17) < 510 := by decide
  have hnone : tab 2 (spanOf 3 (topPage 17)) = none := by
    rw [spanOf_topPage (by decide)]
    exact hfree 17 (by decide)
  have hmiss : missing tab (topPage 17) 3 = 3 := ht.missing_all (by decide) hnone
  rcases ht.mapPage_spec sampleRegion_pos hr hva (p := 0) (by decide) with ⟨hroom, -⟩ | ⟨hfull, hn, -⟩
  · rw [ht.exhausts_iff hr hva, hmiss] at hroom
    omega
  · exact ⟨s, hreach, hfull, hn⟩

/-- The first call after `init_page_table` has blocks enough. -/
theorem sample_first : ∃ s, Reachable sampleRegion s ∧ ¬ Exhausts s (topPage 1) := by
  obtain ⟨s, t, tab, page, hreach, hr, ht, hnext, hfree⟩ := sample_run 0 (Nat.zero_le 16)
  have hblocks : sampleRegion.blocks = 310 := rfl
  have hva : index 3 (topPage 1) < 510 := by decide
  have hnone : tab 2 (spanOf 3 (topPage 1)) = none := by
    rw [spanOf_topPage (by decide)]
    exact hfree 1 (by decide)
  have hmiss : missing tab (topPage 1) 3 = 3 := ht.missing_all (by decide) hnone
  refine ⟨s, hreach, ?_⟩
  rw [ht.exhausts_iff hr hva, hmiss]
  omega

end Sample

/-- `mapsOnePage_iff` at the first call. -/
theorem mapsOnePage_sample :
    ∃ s, Reachable sampleRegion s ∧ MapsOnePage s 0x40000000 (topPage 1) := by
  obtain ⟨s, hs, hroom⟩ := sample_first
  exact ⟨s, hs, (mapsOnePage_iff sampleRegion_pos hs (by decide) (by decide) (by decide) (by decide)
    (by decide) (by decide)).mpr hroom⟩

/-- Not every call maps its page: the seventeenth of a run does not return. -/
theorem mapsOnePage_fails : ¬ ∀ (R : Region) (s : PageTables) (p va : Nat), 0 < R.phys →
    Reachable R s → 4096 ∣ p → p < 2 ^ 51 → 4096 ∣ va → canonical va = true →
    P4Index va ≠ 510 → P4Index va ≠ 511 → MapsOnePage s p va := by
  intro hall
  obtain ⟨s, hs, -, hnone⟩ := sample_exhausted
  obtain ⟨r, hcall, -⟩ := hall sampleRegion s 0 (topPage 17) sampleRegion_pos hs (by decide)
    (by decide) (by decide) (by decide) (by decide) (by decide)
  rw [hnone] at hcall
  cases hcall

/-- `mapPage_exhausted` at the seventeenth call. -/
theorem mapPage_exhausted_sample : ∃ s, Reachable sampleRegion s ∧ Exhausts s (topPage 17) ∧
    ¬ FailsCleanly s 0 (topPage 17) := by
  obtain ⟨s, hs, hfull, -⟩ := sample_exhausted
  exact ⟨s, hs, hfull, (mapPage_exhausted sampleRegion_pos hs (by decide) (by decide) (by decide)
    hfull).1⟩

/-- Not every call that runs out of blocks fails cleanly. -/
theorem failsCleanly_fails : ¬ ∀ (R : Region) (s : PageTables) (p va : Nat), 0 < R.phys →
    Reachable R s → p < 2 ^ 64 → 4096 ∣ va → canonical va = true → P4Index va ≠ 510 →
    P4Index va ≠ 511 → Exhausts s va → FailsCleanly s p va := by
  intro hall
  obtain ⟨s, hs, hfull, hnone⟩ := sample_exhausted
  obtain ⟨r, hcall, -⟩ := hall sampleRegion s 0 (topPage 17) sampleRegion_pos hs (by decide)
    (by decide) (by decide) (by decide) (by decide) hfull
  rw [hnone] at hcall
  cases hcall

end JudgePenguin.Driver
