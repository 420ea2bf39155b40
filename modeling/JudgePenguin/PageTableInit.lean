/-
  JudgePenguin/PageTableInit.lean
  ===============================
  **The address space that `init_page_table` builds.**

  The blocks come out in a fixed order: the root, the two tables below it, and
  then, for each GiB of the region, its P2 block followed by that block's P1
  blocks.  So block numbers are known in advance (`P2Block`, `P1Block`), and the
  three loops are followed by what they have completed: `P2Filled` for the inner
  two, `P3Filled` for the outer one.  `Static` is the outcome, and the walks
  through it are computed from its entries.
-/
import JudgePenguin.PageTableBlocks

namespace JudgePenguin.Driver

open Words ArrayLoops Paging

/-! ## Trip counts -/

theorem hugeSpan_eq : PAGE_SIZE * PT_ENTRIES = 2097152 := by decide

theorem gibSpan_eq : PAGE_SIZE * PT_ENTRIES * PT_ENTRIES = 1073741824 := by decide

/-- The products of the loops with the sizes as literals in front. -/
theorem mul_gib (q : Nat) : q * P3_PAGE_SIZE = 1073741824 * q := by
  have h : P3_PAGE_SIZE = 1073741824 := by decide
  rw [h, Nat.mul_comm]

theorem mul_huge (j : Nat) : j * HUGE_PAGE_SIZE = 2097152 * j := by
  have h : HUGE_PAGE_SIZE = 2097152 := by decide
  rw [h, Nat.mul_comm]

theorem mul_page (i : Nat) : i * PAGE_SIZE = 4096 * i := by
  have h : PAGE_SIZE = 4096 := by decide
  rw [h, Nat.mul_comm]

section Counts

variable {size : Nat}

theorem numBlocks_of_le (h : size ≤ 2 ^ 39) :
    numBlocks size = 53 + (size + 2097151) / 2097152 + (size + 1073741823) / 1073741824 := by
  have h1 : divRoundUp size (PAGE_SIZE * PT_ENTRIES) = (size + 2097151) / 2097152 := by
    rw [hugeSpan_eq, divRoundUp_eq (by omega)]
    omega
  have h2 : divRoundUp size (PAGE_SIZE * PT_ENTRIES * PT_ENTRIES) =
      (size + 1073741823) / 1073741824 := by
    rw [gibSpan_eq, divRoundUp_eq (by omega)]
    omega
  rw [numBlocks, h1, h2]
  omega

theorem P2Num_of_le (h : size ≤ 2 ^ 39) : P2Num size = (size + 1073741823) / 1073741824 := by
  unfold P2Num
  rw [gibSpan_eq, divRoundUp_eq (by omega)]
  omega

theorem P1Num_of_le (h : size ≤ 2 ^ 39) {q : Nat} (hq : 1073741824 * q < size) :
    P1Num size q = min ((size + 2097151) / 2097152 - 512 * q) 512 := by
  have hn : PT_ENTRIES = 512 := by decide
  unfold P1Num
  rw [mul_gib, sub64_of_le (by omega) (by omega), hugeSpan_eq, hn, divRoundUp_eq (by omega)]
  omega

end Counts

namespace Region

variable (R : Region)

/-- The pages, the P1 blocks and the P2 blocks of the region; a last partial one
    counts. -/
def numP0 : Nat := (R.size + 4095) / 4096
def numP1 : Nat := (R.size + 2097151) / 2097152
def numP2 : Nat := (R.size + 1073741823) / 1073741824

theorem blocks_eq : R.blocks = 53 + R.numP1 + R.numP2 := by
  rw [← R.numBlocks_eq]
  exact numBlocks_of_le R.size_le

theorem lt_numP0 {p : Nat} : p < R.numP0 ↔ 4096 * p < R.size := by
  unfold numP0
  omega

theorem lt_numP1 {p : Nat} : p < R.numP1 ↔ 2097152 * p < R.size := by
  unfold numP1
  omega

theorem lt_numP2 {q : Nat} : q < R.numP2 ↔ 1073741824 * q < R.size := by
  unfold numP2
  omega

theorem numP2_le : R.numP2 ≤ 512 := by
  have hsize := R.size_le
  unfold numP2
  omega

theorem P2Num_eq : P2Num R.size = R.numP2 := P2Num_of_le R.size_le

theorem P1Num_eq {q : Nat} (hq : q < R.numP2) : P1Num R.size q = min (R.numP1 - 512 * q) 512 :=
  P1Num_of_le R.size_le (R.lt_numP2.mp hq)

theorem P0Num_eq {q j : Nat} (hj : j < R.numP1 - 512 * q) :
    P0Num R.size q j = min (R.numP0 - (262144 * q + 512 * j)) 512 := by
  have hsize := R.size_le
  have hlt : 2097152 * (512 * q + j) < R.size := R.lt_numP1.mp (by omega)
  have hn : PT_ENTRIES = 512 := by decide
  have hy : PAGE_SIZE = 4096 := by decide
  have hinner : sub64 R.size (1073741824 * q) = R.size - 1073741824 * q :=
    sub64_of_le (by omega) (by omega)
  unfold P0Num numP0
  rw [mul_gib, mul_huge, hinner, sub64_of_le (by omega) (by omega), hy, hn,
    divRoundUp_eq (by omega)]
  omega

/-- The entry of page `p` of the region. -/
def leaf (p : Nat) : Nat := if p < R.numP0 then R.phys + 4096 * p + 0x63 else 0

end Region

/-- The P2 block of GiB `q`, and the P1 block of its 2 MiB `j`. -/
def P2Block (q : Nat) : Nat := 3 + 513 * q
def P1Block (q j : Nat) : Nat := 4 + 513 * q + j

/-! ## The loops -/

section Loops

variable {R : Region} {t t0 : Tables} {s : PageTables}

/-- One store of the loop over a P1 block. -/
theorem fillP1_eq {q j i : Nat} (P1 : Nat) (h : Rep R t s)
    (hp : 262144 * q + 512 * j + i < R.numP0) :
    fillP1 q j P1 i s = s.store (s.PTE P1 i) (R.leaf (262144 * q + 512 * j + i)) := by
  have hpage := R.lt_numP0.mp hp
  have htop := R.top
  have hal := R.aligned
  have hsum : q * P3_PAGE_SIZE + j * HUGE_PAGE_SIZE + i * PAGE_SIZE + s.physBaseAddr
      = R.phys + 4096 * (262144 * q + 512 * j + i) := by
    rw [h.phys, mul_gib, mul_huge, mul_page]
    omega
  simp only [fillP1, Region.leaf]
  rw [hsum, wrap64_of_lt (by omega), mapped_eq (by omega), if_pos hp]

theorem leaf_lt (R : Region) (p : Nat) : R.leaf p < 2 ^ 52 := by
  have htop := R.top
  unfold Region.leaf
  split
  · have hpage := R.lt_numP0.mp ‹_›
    omega
  · decide

/-- The loop over a P1 block. -/
theorem fillP1_loop {q j b n : Nat} (h : Rep R t s) (hb : b < R.blocks)
    (hn : n = min (R.numP0 - (262144 * q + 512 * j)) 512) :
    ∃ s', countUpM (fillP1 q j (R.block b)) n s = some s' ∧
      Rep R (t.fill b n fun i => R.leaf (262144 * q + 512 * j + i)) s' := by
  apply h.fill hb (by omega)
  intro i hi t' s' h'
  have hlt := leaf_lt R (262144 * q + 512 * j + i)
  exact ⟨by omega, fillP1_eq _ h' (by omega)⟩

/-- One pass over a P2 block: a new P1 block, filled with its part of the region. -/
theorem fillP2_run {q j : Nat} (h : Rep R t s) (hP2 : P2Block q < R.blocks)
    (hP1 : t.next < R.blocks) (hj : j < R.numP1 - 512 * q) (hj' : j < 512) :
    ∃ s', fillP2 q (R.block (P2Block q)) j s = some s' ∧
      Rep R ((t.alloc.set (P2Block q) j (R.block t.next + 0x63)).fill t.next (P0Num R.size q j)
        fun i => R.leaf (262144 * q + 512 * j + i)) s' := by
  have hlt := R.block_lt hP1
  obtain ⟨s1, h1, r1⟩ := h.alloc hP1
  obtain ⟨s2, h2, r2⟩ := r1.storeTable hP2 hj' (R.block_aligned t.next) (by omega)
  obtain ⟨s3, h3, r3⟩ := fillP1_loop r2 hP1 (R.P0Num_eq hj)
  refine ⟨s3, ?_, r3⟩
  rw [fillP2, h1, Option.bind_eq_bind, Option.bind_some]
  dsimp only
  rw [h2, Option.bind_eq_bind, Option.bind_some, r2.size, h3]

/-- After `j` passes over the P2 block of GiB `q`. -/
structure P2Filled (R : Region) (t0 : Tables) (q j : Nat) (t : Tables) : Prop where
  next : t.next = P1Block q j
  root : t.root = t0.root
  P2 : ∀ i < 512, t.entry (P2Block q) i = if i < j then R.block (P1Block q i) + 0x63 else 0
  P1 : ∀ j' < j, ∀ i < 512, t.entry (P1Block q j') i = R.leaf (262144 * q + 512 * j' + i)
  old : ∀ b < P2Block q, ∀ i, t.entry b i = t0.entry b i

/-- A pass over the P2 block of GiB `q` completes one more of its P1 blocks. -/
theorem fillP2_step {q j : Nat} (h : Rep R t s) (hf : P2Filled R t0 q j t)
    (hq : q < R.numP2) (hj : j < min (R.numP1 - 512 * q) 512) :
    ∃ s', fillP2 q (R.block (P2Block q)) j s = some s' ∧
      ∃ t', Rep R t' s' ∧ P2Filled R t0 q (j + 1) t' := by
  have hblocks := R.blocks_eq
  have hnext := hf.next
  have hP2 : P2Block q < R.blocks := by unfold P2Block; omega
  have hP1 : t.next < R.blocks := by rw [hnext]; unfold P1Block; omega
  have hcount := R.P0Num_eq (show j < R.numP1 - 512 * q by omega)
  obtain ⟨s1, h1, r1⟩ := fillP2_run h hP2 hP1 (show j < R.numP1 - 512 * q by omega) (by omega)
  refine ⟨s1, h1, _, r1, ?_⟩
  have hne : P2Block q ≠ t.next := by rw [hnext]; unfold P1Block P2Block; omega
  constructor
  · simp [hnext, P1Block, Nat.add_assoc]
  · exact hf.root
  · intro i hi
    rw [Tables.fill_entry_ne _ _ _ _ hne]
    by_cases hij : i = j
    · subst hij
      rw [Tables.set_entry_self, hnext, if_pos (by omega)]
    · rw [Tables.set_entry_ne _ _ (Or.inr hij), Tables.alloc_entry_old _ _ hne, hf.P2 i hi]
      simp only [show i < j + 1 ↔ i < j by omega]
  · intro j' hj' i hi
    by_cases hjj : j' = j
    · -- the new block: what the inner loop leaves out is still zero
      subst hjj
      rw [← hnext, Tables.fill_entry, Tables.set_entry_ne _ _ (Or.inl (Ne.symm hne)),
        Tables.alloc_entry_new, hcount]
      unfold Region.leaf
      by_cases hp : 262144 * q + 512 * j' + i < R.numP0
      · rw [if_pos (by omega)]
      · rw [if_neg (by omega), if_neg hp]
    · have hb : P1Block q j' ≠ t.next := by rw [hnext]; unfold P1Block; omega
      rw [Tables.fill_entry_ne _ _ _ _ hb, Tables.set_entry_ne _ _ (by unfold P1Block P2Block; omega),
        Tables.alloc_entry_old _ _ hb, hf.P1 j' (by omega) i hi]
  · intro b hb i
    have hbn : b ≠ t.next := by rw [hnext]; unfold P1Block; unfold P2Block at hb; omega
    rw [Tables.fill_entry_ne _ _ _ _ hbn, Tables.set_entry_ne _ _ (by omega),
      Tables.alloc_entry_old _ _ hbn, hf.old b hb i]

/-- After the first `q` GiB. -/
structure P3Filled (R : Region) (t0 : Tables) (q : Nat) (t : Tables) : Prop where
  next : t.next = 3 + q + min R.numP1 (512 * q)
  root : t.root = t0.root
  P3 : ∀ i < 512, t.entry 2 i = if i < q then R.block (P2Block i) + 0x67 else 0
  P2 : ∀ q' < q, ∀ j < 512, t.entry (P2Block q') j =
    if 512 * q' + j < R.numP1 then R.block (P1Block q' j) + 0x63 else 0
  P1 : ∀ q' < q, ∀ j < 512, 512 * q' + j < R.numP1 → ∀ i < 512,
    t.entry (P1Block q' j) i = R.leaf (262144 * q' + 512 * j + i)
  old : ∀ b < 2, ∀ i, t.entry b i = t0.entry b i

/-- One pass over the low P3 block, up to the loop over the new P2 block. -/
theorem fillP3_run {q n : Nat} (h : Rep R t s) (hnext : t.next = P2Block q) (hq : q < R.numP2)
    (hn : n = min (R.numP1 - 512 * q) 512) :
    ∃ s', fillP3 (R.block 2) q s = some s' ∧
      ∃ t', Rep R t' s' ∧
        P2Filled R (t.alloc.set 2 q (R.block (P2Block q) + 0x67)) q n t' := by
  have hblocks := R.blocks_eq
  have hle := R.numP2_le
  have hmul : 512 * q < R.numP1 := R.lt_numP1.mpr (by have := R.lt_numP2.mp hq; omega)
  have hP2 : P2Block q < R.blocks := by unfold P2Block; omega
  have hlt := R.block_lt hP2
  obtain ⟨s1, h1, r1⟩ := h.alloc (by rw [hnext]; exact hP2)
  rw [hnext] at h1
  obtain ⟨s2, h2, r2⟩ := r1.storeFlagged (show 2 < R.blocks by omega) (show q < 512 by omega)
    (R.block_aligned (P2Block q)) (f := PTE_U) (by omega) (by decide)
  have hstart : P2Filled R (t.alloc.set 2 q (R.block (P2Block q) + 0x67)) q 0
      (t.alloc.set 2 q (R.block (P2Block q) + 0x67)) := by
    constructor
    · simp [hnext, P1Block, P2Block]
      omega
    · rfl
    · intro i hi
      rw [Tables.set_entry_ne _ _ (by unfold P2Block; omega), ← hnext, Tables.alloc_entry_new]
      simp
    · intro j' hj'
      omega
    · intro b hb i
      rfl
  obtain ⟨s3, h3, t3, r3, hf3⟩ := countUpM_induct (fillP2 q (R.block (P2Block q))) n s2
    (fun j s => ∃ t', Rep R t' s ∧ P2Filled R (t.alloc.set 2 q (R.block (P2Block q) + 0x67)) q j t')
    ⟨_, r2, hstart⟩ (by
      rintro j hj s' ⟨t', r', hf'⟩
      exact fillP2_step r' hf' hq (by omega))
  refine ⟨s3, ?_, t3, r3, hf3⟩
  rw [fillP3, h1, Option.bind_eq_bind, Option.bind_some]
  dsimp only
  rw [h2, Option.bind_eq_bind, Option.bind_some, r2.size, R.P1Num_eq hq, ← hn, h3]

/-- A pass over the low P3 block completes one more GiB. -/
theorem fillP3_step {q : Nat} (h : Rep R t s) (hf : P3Filled R t0 q t) (hq : q < R.numP2) :
    ∃ s', fillP3 (R.block 2) q s = some s' ∧
      ∃ t', Rep R t' s' ∧ P3Filled R t0 (q + 1) t' := by
  have hmul : 512 * q < R.numP1 := R.lt_numP1.mpr (by have := R.lt_numP2.mp hq; omega)
  have hnext : t.next = P2Block q := by
    rw [hf.next]
    unfold P2Block
    omega
  obtain ⟨s1, h1, t1, r1, hf1⟩ := fillP3_run h hnext hq rfl
  refine ⟨s1, h1, t1, r1, ?_⟩
  -- blocks of earlier GiBs lie below the new P2 block and are kept
  have hold : ∀ b, b < P2Block q → b ≠ 2 → ∀ i, t1.entry b i = t.entry b i := by
    intro b hb hb2 i
    rw [hf1.old b hb i, Tables.set_entry_ne _ _ (Or.inl hb2), Tables.alloc_entry_old _ _ (by omega)]
  constructor
  · rw [hf1.next]
    unfold P1Block
    omega
  · rw [hf1.root]
    exact hf.root
  · intro i hi
    rw [hf1.old 2 (by unfold P2Block; omega)]
    by_cases hiq : i = q
    · subst hiq
      rw [Tables.set_entry_self, if_pos (by omega)]
    · rw [Tables.set_entry_ne _ _ (Or.inr hiq),
        Tables.alloc_entry_old _ _ (by rw [hnext]; unfold P2Block; omega), hf.P3 i hi]
      simp only [show i < q + 1 ↔ i < q by omega]
  · intro q' hq' j hj
    by_cases hqq : q' = q
    · subst hqq
      rw [hf1.P2 j hj]
      simp only [show j < min (R.numP1 - 512 * q') 512 ↔ 512 * q' + j < R.numP1 by omega]
    · rw [hold _ (by unfold P2Block; omega) (by unfold P2Block; omega), hf.P2 q' (by omega) j hj]
  · intro q' hq' j hj hpj i hi
    by_cases hqq : q' = q
    · subst hqq
      exact hf1.P1 j (by omega) i hi
    · rw [hold _ (by unfold P1Block P2Block; omega) (by unfold P1Block; omega),
        hf.P1 q' (by omega) j hj hpj i hi]
  · intro b hb i
    rw [hold b (by unfold P2Block; omega) (by omega), hf.old b hb i]

end Loops

/-! ## The whole construction -/

/-- The entries that `init_page_table` writes and nothing changes afterwards. -/
structure Static (R : Region) (t : Tables) : Prop where
  self : t.entry 0 511 = R.block 0 + 0x63
  upper : t.entry 0 510 = R.block 1 + 0x63
  lower : t.entry 0 0 = R.block 2 + 0x67
  gib : ∀ i < 512, t.entry 1 i = 1073741824 * i + 0xe3
  P3 : ∀ i < 512, t.entry 2 i = if i < R.numP2 then R.block (P2Block i) + 0x67 else 0
  P2 : ∀ q < R.numP2, ∀ j < 512, t.entry (P2Block q) j =
    if 512 * q + j < R.numP1 then R.block (P1Block q j) + 0x63 else 0
  P1 : ∀ q < R.numP2, ∀ j < 512, 512 * q + j < R.numP1 → ∀ i < 512,
    t.entry (P1Block q j) i = R.leaf (262144 * q + 512 * j + i)

/-- The tables as `init_page_table` leaves them. -/
structure Initial (R : Region) (t : Tables) : Prop where
  fixed : Static R t
  empty : ∀ i, 1 ≤ i → i ≤ 509 → t.entry 0 i = 0
  next : t.next = 3 + R.numP1 + R.numP2
  root : t.root = R.block 0

section Init

variable {R : Region} {t t0 : Tables} {s : PageTables}

theorem fillP3Upp_loop (h : Rep R t s) (hb : 1 < R.blocks) :
    ∃ s', countUpM (fillP3Upp (R.block 1)) PT_ENTRIES s = some s' ∧
      Rep R (t.fill 1 512 fun i => 1073741824 * i + 0xe3) s' := by
  apply h.fill hb (by decide)
  intro i hi t' s' h'
  have hi' : i < 512 := hi
  refine ⟨by omega, ?_⟩
  unfold fillP3Upp
  rw [mul_gib, mapped_or (by omega) (by decide)]
  rfl

/-- The tables before the loop over the low P3 block. -/
def upperTables (R : Region) (t : Tables) : Tables :=
  ((((t.alloc.set 0 511 (R.block 0 + 0x63)).alloc.set 0 510 (R.block 1 + 0x63)).fill 1 512
    fun i => 1073741824 * i + 0xe3).alloc).set 0 0 (R.block 2 + 0x67)

theorem initPageTable4k_run (h : Rep R t s) (h0 : t.next = 0) :
    ∃ s', initPageTable4k s = some ⟨R.block 0, s'⟩ ∧
      ∃ t', Rep R t' s' ∧ P3Filled R (upperTables R t) R.numP2 t' := by
  have hblocks := R.blocks_eq
  have hlt : R.block 2 + 4096 ≤ 2 ^ 51 := R.block_lt (by omega)
  have hblock : ∀ b, b ≤ 2 → R.block b < 2 ^ 52 := by
    intro b hb
    unfold Region.block at hlt ⊢
    omega
  obtain ⟨s1, h1, r1⟩ := h.alloc (by omega)
  rw [h0] at h1
  obtain ⟨s2, h2, r2⟩ := r1.storeTable (show 0 < R.blocks by omega) (show 511 < 512 by decide)
    (R.block_aligned 0) (hblock 0 (by decide))
  have n2 : (t.alloc.set 0 511 (R.block 0 + 0x63)).next = 1 := by simp [h0]
  obtain ⟨s3, h3, r3⟩ := r2.alloc (by omega)
  rw [n2] at h3
  obtain ⟨s4, h4, r4⟩ := r3.storeTable (show 0 < R.blocks by omega) (show 510 < 512 by decide)
    (R.block_aligned 1) (hblock 1 (by decide))
  obtain ⟨s5, h5, r5⟩ := fillP3Upp_loop r4 (by omega)
  obtain ⟨s6, h6, r6⟩ := r5.alloc (by simp [h0]; omega)
  have n5 : (((t.alloc.set 0 511 (R.block 0 + 0x63)).alloc.set 0 510 (R.block 1 + 0x63)).fill 1 512
    fun i => 1073741824 * i + 0xe3).next = 2 := by simp [h0]
  rw [n5] at h6
  obtain ⟨s7, h7, r7⟩ := r6.storeFlagged (show 0 < R.blocks by omega) (show 0 < 512 by decide)
    (R.block_aligned 2) (f := PTE_U) (hblock 2 (by decide)) (by decide)
  have hstart : P3Filled R (upperTables R t) 0 (upperTables R t) := by
    constructor
    · simp [upperTables, h0]
    · rfl
    · intro i hi
      unfold upperTables
      rw [Tables.set_entry_ne _ _ (by omega), ← n5, Tables.alloc_entry_new]
      simp
    · intro q' hq'
      omega
    · intro q' hq'
      omega
    · intro b hb i
      rfl
  obtain ⟨s8, h8, t8, r8, hf8⟩ := countUpM_induct (fillP3 (R.block 2)) R.numP2 s7
    (fun q s => ∃ t', Rep R t' s ∧ P3Filled R (upperTables R t) q t') ⟨_, r7, hstart⟩ (by
      rintro q hq s' ⟨t', r', hf'⟩
      exact fillP3_step r' hf' hq)
  refine ⟨s8, ?_, t8, r8, hf8⟩
  have hn1 : PT_ENTRIES - 1 = 511 := by decide
  have hn2 : PT_ENTRIES - 2 = 510 := by decide
  rw [initPageTable4k, h1, Option.bind_eq_bind, Option.bind_some]
  dsimp only
  rw [hn1, h2, Option.bind_eq_bind, Option.bind_some, h3, Option.bind_some]
  dsimp only
  rw [hn2, h4, Option.bind_some, h5, Option.bind_some, h6, Option.bind_some]
  dsimp only
  rw [h7, Option.bind_some, r7.size, R.P2Num_eq, h8, Option.bind_some]
  rfl

theorem P3Filled.initial (h : P3Filled R (upperTables R t0) R.numP2 t) (h0 : t0.next = 0) :
    Initial R { t with root := R.block 0 } := by
  have hmul : R.numP1 ≤ 512 * R.numP2 := by
    unfold Region.numP1 Region.numP2
    omega
  -- the top table of `upperTables`, entry by entry
  have htop : ∀ i, i ≠ 0 → t.entry 0 i =
      if i = 510 then R.block 1 + 0x63 else if i = 511 then R.block 0 + 0x63 else 0 := by
    intro i hi
    rw [h.old 0 (by decide)]
    unfold upperTables
    rw [Tables.set_entry_ne _ _ (Or.inr hi), Tables.alloc_entry_old _ _ (by simp [h0]),
      Tables.fill_entry_ne _ _ _ _ (by decide)]
    by_cases h510 : i = 510
    · subst h510
      simp
    · rw [Tables.set_entry_ne _ _ (Or.inr h510), Tables.alloc_entry_old _ _ (by simp [h0]),
        if_neg h510]
      by_cases h511 : i = 511
      · subst h511
        simp
      · rw [Tables.set_entry_ne _ _ (Or.inr h511), if_neg h511]
        simp only [← h0, Tables.alloc_entry_new]
  refine ⟨⟨?_, ?_, ?_, ?_, h.P3, h.P2, h.P1⟩, ?_, ?_, rfl⟩
  · exact htop 511 (by decide)
  · exact htop 510 (by decide)
  · show t.entry 0 0 = _
    rw [h.old 0 (by decide)]
    simp [upperTables]
  · intro i hi
    show t.entry 1 i = _
    rw [h.old 1 (by decide)]
    unfold upperTables
    rw [Tables.set_entry_ne _ _ (by omega), Tables.alloc_entry_old _ _ (by simp [h0]),
      Tables.fill_entry, if_pos hi]
  · intro i h1 h2
    have hentry := htop i (by omega)
    rw [if_neg (by omega), if_neg (by omega)] at hentry
    exact hentry
  · show t.next = _
    rw [h.next]
    omega

/-- `init_page_table` builds the initial tables from any memory. -/
theorem initPageTable_spec (R : Region) (mem : Mem) :
    ∃ s, initPageTable R.phys R.virt R.size mem = some s ∧ ∃ t, Rep R t s ∧ Initial R t := by
  have hbrk : wrap64 (R.phys + numBlocks R.size * PAGE_SIZE) = R.phys + 4096 * R.blocks := by
    have htop := R.top
    have hroom := R.room
    rw [R.numBlocks_eq, mul_page]
    exact wrap64_of_lt (by omega)
  have hrep : Rep R ⟨0, fun b i => mem.read64 (R.block b + i * 8), 0⟩
      { initPageTableBreak ⟨R.phys, R.virt, R.size, 0, 0, 0, mem⟩ with
        nextBlockPhysAddr := R.phys } := by
    have hzero : R.phys = R.block 0 := rfl
    exact ⟨rfl, rfl, rfl, hbrk, hzero, rfl, fun b i hi => rfl⟩
  obtain ⟨s1, h1, t1, r1, hf1⟩ := initPageTable4k_run hrep rfl
  refine ⟨{ s1 with P4Base := R.block 0 }, ?_, { t1 with root := R.block 0 }, ?_, hf1.initial rfl⟩
  · rw [initPageTable, h1, Option.bind_eq_bind, Option.bind_some]
    rfl
  · exact ⟨r1.phys, r1.virt, r1.size, r1.brk, r1.next, rfl, r1.entry⟩

end Init

/-! ## Walks through the initial tables -/

section Walks

variable {R : Region} {t : Tables} {s : PageTables} {va : Nat}

theorem index_lt (level va : Nat) : index level va < 512 := Nat.mod_lt _ (by decide)

/-- One level of the walk, at an entry that names a block. -/
theorem Rep.walk_block (h : Rep R t s) {level b c f : Nat} {w : Bool} (hc : c < R.blocks)
    (hf : f < 4096) (he : t.entry b (index (level + 1) va) = R.block c + f)
    (hp : present f = true) (hl : large f = false) :
    walkFrom s.mem (level + 1) (R.block b) va w =
      walkFrom s.mem level (R.block c) va (w && writable f) := by
  have hlt := R.block_lt hc
  apply walkFrom_table _ (R.block_aligned c) (by omega) hf hp hl
  rw [h.entry _ _ (index_lt _ _), he]

theorem Rep.walk_absent (h : Rep R t s) {level b : Nat} {w : Bool}
    (he : t.entry b (index level va) = 0) : walkFrom s.mem level (R.block b) va w = none := by
  apply walkFrom_absent
  rw [h.entry _ _ (index_lt _ _), he]
  rfl

theorem lt_index_split (hva : va < 2 ^ 39) :
    index 3 va = 0 ∧ va / 4096 = 262144 * index 2 va + 512 * index 1 va + index 0 va := by
  have h3 : index 3 va = va / 549755813888 % 512 := rfl
  have h2 : index 2 va = va / 1073741824 % 512 := rfl
  have h1 : index 1 va = va / 2097152 % 512 := rfl
  have h0 : index 0 va = va / 4096 % 512 := rfl
  omega

/-- Below 512 GiB the walk ends at the leaf of its page, wherever it stops. -/
theorem Static.walk_low (hs : Static R t) (h : Rep R t s) (hva : va < 2 ^ 39) :
    walk s.mem (R.block 0) va =
      if va / 4096 < R.numP0 then some ⟨R.phys + va, true⟩ else none := by
  have hblocks := R.blocks_eq
  have hle := R.numP2_le
  have hi2 := index_lt 2 va
  have hi1 := index_lt 1 va
  have hi0 := index_lt 0 va
  obtain ⟨h3, hpage⟩ := lt_index_split hva
  have htop : walk s.mem (R.block 0) va = walkFrom s.mem 2 (R.block 2) va true :=
    h.walk_block (f := 0x67) (by omega) (by decide) (by rw [h3]; exact hs.lower) (by decide)
      (by decide)
  -- a level whose entry is missing lies beyond the last page
  have hn21 : R.numP1 ≤ 512 * R.numP2 := by unfold Region.numP1 Region.numP2; omega
  have hn10 : R.numP0 ≤ 512 * R.numP1 := by unfold Region.numP0 Region.numP1; omega
  rw [htop]
  by_cases hq : index 2 va < R.numP2
  · have hmul := R.lt_numP2.mp hq
    have hq1 : 512 * index 2 va < R.numP1 := R.lt_numP1.mpr (by omega)
    have hP3 := hs.P3 _ hi2
    rw [if_pos hq] at hP3
    rw [h.walk_block (by unfold P2Block; omega) (by decide) hP3 (by decide) (by decide)]
    have hP2 := hs.P2 _ hq _ hi1
    by_cases hj : 512 * index 2 va + index 1 va < R.numP1
    · rw [if_pos hj] at hP2
      rw [h.walk_block (by unfold P1Block; omega) (by decide) hP2 (by decide) (by decide)]
      have hP1 := hs.P1 _ hq _ hi1 hj _ hi0
      rw [← hpage] at hP1
      unfold Region.leaf at hP1
      by_cases hp : va / 4096 < R.numP0
      · have hsize := R.lt_numP0.mp hp
        have hal := R.aligned
        have hR := R.top
        rw [if_pos hp] at hP1
        rw [walkFrom_page ((h.entry _ _ hi0).trans hP1) (by omega) (by omega) (by decide) (by decide),
          if_pos hp]
        have hsum : R.phys + 4096 * (va / 4096) + va % 4096 = R.phys + va := by omega
        rw [hsum]
        rfl
      · rw [if_neg hp] at hP1
        rw [h.walk_absent hP1, if_neg hp]
    · rw [if_neg hj] at hP2
      rw [h.walk_absent hP2, if_neg (by omega)]
  · have hP3 := hs.P3 _ hi2
    rw [if_neg hq] at hP3
    rw [h.walk_absent hP3, if_neg (by omega)]

/-- The 1 GiB pages below the last P4 entry but one. -/
theorem Static.walk_gib (hs : Static R t) (h : Rep R t s) (h3 : index 3 va = 510) :
    walk s.mem (R.block 0) va = some ⟨va % 2 ^ 39, true⟩ := by
  have hblocks := R.blocks_eq
  have hi2 := index_lt 2 va
  have htop : walk s.mem (R.block 0) va = walkFrom s.mem 2 (R.block 1) va true :=
    h.walk_block (f := 0x63) (by omega) (by decide) (by rw [h3]; exact hs.upper) (by decide)
      (by decide)
  have he := hs.gib _ hi2
  rw [htop, walkFrom_gib ((h.entry _ _ hi2).trans he) (by omega) (by omega) (by decide) (by decide)
    (by decide)]
  have hsum : 1073741824 * index 2 va + va % 2 ^ 30 = va % 2 ^ 39 := by
    have h2 : index 2 va = va / 1073741824 % 512 := rfl
    omega
  rw [hsum]
  rfl

theorem remap_eq {p : Nat} (hp : p < 2 ^ 39) : remap p = p + 2 ^ 64 - 2 ^ 40 := by
  have h40 : 1024 <<< 30 = 2 ^ 40 := by decide
  simp only [remap, sub64, wrap64, h40]
  omega

theorem remap_index {p : Nat} (hp : p < 2 ^ 39) :
    index 3 (remap p) = 510 ∧ remap p % 2 ^ 39 = p ∧ canonical (remap p) = true := by
  have hcanon : 2 ^ 64 - 2 ^ 47 ≤ remap p ∧ remap p < 2 ^ 64 := by
    rw [remap_eq hp]
    omega
  have h3 : index 3 (remap p) = remap p / 549755813888 % 512 := rfl
  refine ⟨?_, ?_, ?_⟩
  · rw [h3, remap_eq hp]
    omega
  · rw [remap_eq hp]
    omega
  · exact canonical_iff.mpr (Or.inr hcanon)

end Walks

/-! ## The address space -/

/-- What the kernel relies on when it loads `P4_base` into CR3. -/
structure AddressSpace (physAddr size : Nat) (s : PageTables) : Prop where
  /-- the region itself, from address `0` on -/
  region : ∀ va < size, translate s.mem s.P4Base va = some ⟨physAddr + va, true⟩
  /-- nothing else in the first 512 GiB -/
  beyond : ∀ va, ceilTo size 4096 ≤ va → va < 2 ^ 39 → walk s.mem s.P4Base va = none
  /-- all physical memory at `-1024 GiB` -/
  remapped : ∀ p < 2 ^ 39, translate s.mem s.P4Base (remap p) = some ⟨p, true⟩
  /-- by entries of 1 GiB -/
  gibEntry : ∀ p < 2 ^ 39, ∃ P3Upp,
    frame (s.mem.read64 (s.P4Base + index 3 (remap p) * 8)) 4096 = P3Upp ∧
      large (s.mem.read64 (P3Upp + index 2 (remap p) * 8)) = true
  /-- the last entry of the top table points back to it -/
  recursive : present (s.mem.read64 (s.P4Base + 511 * 8)) = true ∧
    frame (s.mem.read64 (s.P4Base + 511 * 8)) 4096 = s.P4Base
  /-- and there is nothing between -/
  between : ∀ va, 1 ≤ index 3 va → index 3 va ≤ 509 → walk s.mem s.P4Base va = none

theorem Initial.addressSpace {R : Region} {t : Tables} {s : PageTables} (hi : Initial R t)
    (h : Rep R t s) : AddressSpace R.phys R.size s := by
  have hroot : s.P4Base = R.block 0 := h.root.trans hi.root
  have hblocks := R.blocks_eq
  have hlt0 : R.block 0 + 4096 ≤ 2 ^ 51 := R.block_lt (by omega)
  have hlt1 : R.block 1 + 4096 ≤ 2 ^ 51 := R.block_lt (by omega)
  have hsize := R.size_le
  constructor
  · intro va hva
    have hcanon : canonical va = true := canonical_iff.mpr (Or.inl (by omega))
    rw [translate_of_canonical hcanon, hroot, hi.fixed.walk_low h (by omega)]
    exact if_pos (R.lt_numP0.mpr (by omega))
  · intro va hge hva
    rw [hroot, hi.fixed.walk_low h hva]
    apply if_neg
    have hdvd := dvd_ceilTo R.size 4096
    have hle := le_ceilTo R.size (r := 4096) (by decide)
    intro hp
    have hpage := R.lt_numP0.mp hp
    omega
  · intro p hp
    obtain ⟨h3, hmod, hcanon⟩ := remap_index hp
    rw [translate_of_canonical hcanon, hroot, hi.fixed.walk_gib h h3, hmod]
  · intro p hp
    obtain ⟨h3, -, -⟩ := remap_index hp
    refine ⟨R.block 1, ?_, ?_⟩
    · rw [hroot, h3, h.entry 0 510 (by decide), hi.fixed.upper]
      exact frame_add (by decide) (R.block_aligned 1) (by omega) (by decide)
    · rw [h.entry _ _ (index_lt _ _), hi.fixed.gib _ (index_lt _ _), large_add (by omega)]
      decide
  · rw [hroot, h.entry 0 511 (by decide), hi.fixed.self]
    constructor
    · rw [present_add (R.block_aligned 0)]
      decide
    · exact frame_add (by decide) (R.block_aligned 0) (by omega) (by decide)
  · intro va h1 h2
    rw [hroot]
    exact h.walk_absent (hi.empty _ h1 h2)

/-- From any memory, `init_page_table` builds exactly the intended address space
    and returns. -/
theorem initPageTable_addressSpace {physAddr virtAddr size : Nat} (mem : Mem)
    (hphys : 4096 ∣ physAddr) (hvirt : virtAddr < 2 ^ 64) (hsize : size ≤ 2 ^ 39)
    (hbreak : (initPageTableBreak ⟨physAddr, virtAddr, size, 0, 0, 0, mem⟩).pageTableBreak
      ≤ physAddr + size)
    (htop : physAddr + size ≤ 2 ^ 51) :
    ∃ s, initPageTable physAddr virtAddr size mem = some s ∧ AddressSpace physAddr size s := by
  have hroom : 4096 * numBlocks size ≤ size := by
    have h1 : numBlocks size ≤ 2 ^ 20 := by
      unfold numBlocks
      rw [gibSpan_eq, hugeSpan_eq, divRoundUp_eq (by omega), divRoundUp_eq (by omega)]
      omega
    have hbreak' : wrap64 (physAddr + numBlocks size * PAGE_SIZE) ≤ physAddr + size := hbreak
    rw [mul_page, wrap64_of_lt (by omega)] at hbreak'
    omega
  obtain ⟨s, hs, t, hrep, hinit⟩ := initPageTable_spec
    ⟨physAddr, virtAddr, size, numBlocks size, hphys, hvirt, htop, hsize, rfl, hroom⟩ mem
  exact ⟨s, hs, hinit.addressSpace hrep⟩

theorem initPageTable_addressSpace_reserved :
    ∃ s, initPageTable 0x40000000 0xffffc90000000000 0x20000000 (fun _ => 0xcc) = some s ∧
      AddressSpace 0x40000000 0x20000000 s :=
  initPageTable_addressSpace _ (by decide) (by decide) (by decide) (by decide) (by decide)

end JudgePenguin.Driver
