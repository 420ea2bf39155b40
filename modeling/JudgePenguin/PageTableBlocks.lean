/-
  JudgePenguin/PageTableBlocks.lean
  =================================
  **The page tables as numbered blocks of entries.**

  `driver/page_table.c` forms every entry address by OR-ing an index into a block
  address and moves it through two wrapping subtractions.  For a region that
  starts on a page and ends below `2^51` none of this loses a bit, and the state
  is represented by `Tables`: how many blocks were handed out, and entry `i` of
  block `b`.  The lemmas of this module are the rules by which `Rep` follows the
  driver's loads, stores and allocations; nothing above them computes an address.
-/
import JudgePenguin.PageTable
import JudgePenguin.Paging
import Mathlib.Data.Nat.Bitwise

namespace JudgePenguin.Driver

open Words ArrayLoops

/-! ## Flags and masks -/

theorem or_flags {a f : Nat} (ha : 4096 ∣ a) (hf : f < 4096) : a ||| f = a + f := by
  obtain ⟨k, rfl⟩ := ha
  exact (Nat.two_pow_add_eq_or_of_lt (i := 12) hf k).symm

theorem mapped_eq {a : Nat} (ha : 4096 ∣ a) : mapped a = a + 0x63 := by
  unfold mapped
  rw [Nat.or_assoc, Nat.or_assoc, Nat.or_assoc]
  exact or_flags ha (by decide)

theorem mapped_or {a f : Nat} (ha : 4096 ∣ a) (hf : f < 4096) :
    mapped a ||| f = a + (0x63 ||| f) := by
  unfold mapped
  rw [Nat.or_assoc, Nat.or_assoc, Nat.or_assoc, Nat.or_assoc]
  have hflags : PTE_P ||| (PTE_W ||| (PTE_D ||| (PTE_A ||| f))) = 0x63 ||| f := by
    rw [← Nat.or_assoc, ← Nat.or_assoc, ← Nat.or_assoc]
    rfl
  rw [hflags]
  exact or_flags ha (Nat.or_lt_two_pow (n := 12) (by decide) hf)

theorem and_mask {x : Nat} (hx : x < 2 ^ 64) : x &&& (2 ^ 64 - 1 - 0xfff) = x / 4096 * 4096 := by
  apply Nat.eq_of_testBit_eq
  intro i
  have hmask : 2 ^ 64 - 1 - 0xfff = (2 ^ 52 - 1) <<< 12 := by decide
  have hshift : x / 4096 * 4096 = x >>> 12 <<< 12 := by
    rw [Nat.shiftRight_eq_div_pow, Nat.shiftLeft_eq]
  rw [hmask, hshift, Nat.testBit_and, Nat.testBit_shiftLeft, Nat.testBit_shiftLeft,
    Nat.testBit_two_pow_sub_one, Nat.testBit_shiftRight]
  by_cases hi : 12 ≤ i
  · have hsum : 12 + (i - 12) = i := by omega
    simp only [hi, decide_true, Bool.true_and, hsum]
    by_cases h64 : i < 64
    · simp [show i - 12 < 52 by omega]
    · have hbit : x.testBit i = false :=
        Nat.testBit_lt_two_pow (Nat.lt_of_lt_of_le hx (Nat.pow_le_pow_right (by decide) (by omega)))
      simp [hbit]
  · simp [hi]

/-! ## Regions -/

/-- The memory that `init_page_table` is given: page-aligned, at most 512 GiB,
    ending below `2^51` and with room for its own page tables. -/
structure Region where
  phys : Nat
  virt : Nat
  size : Nat
  blocks : Nat
  aligned : 4096 ∣ phys
  virt_lt : virt < 2 ^ 64
  top : phys + size ≤ 2 ^ 51
  size_le : size ≤ 2 ^ 39
  numBlocks_eq : numBlocks size = blocks
  room : 4096 * blocks ≤ size

namespace Region

variable (R : Region)

/-- The address of block `b`. -/
def block (b : Nat) : Nat := R.phys + 4096 * b

theorem block_aligned (b : Nat) : 4096 ∣ R.block b := by
  have h := R.aligned
  unfold block
  omega

theorem block_lt {b : Nat} (hb : b < R.blocks) : R.block b + 4096 ≤ 2 ^ 51 := by
  have h1 := R.top
  have h2 := R.room
  unfold block
  omega

end Region

theorem divRoundUp_eq {x y : Nat} (h : x + y ≤ 2 ^ 64) :
    divRoundUp x y = (x + y - 1) / y := by
  unfold divRoundUp
  rw [wrap64_of_lt (by omega)]

/-! ## Tables -/

/-- The driver's tables with addresses removed: the number of blocks handed out,
    the entries, and the block that CR3 gets. -/
structure Tables where
  next : Nat
  entry : Nat → Nat → Nat
  root : Nat

namespace Tables

variable (t : Tables)

def set (b i v : Nat) : Tables :=
  { t with entry := fun b' i' => if b' = b ∧ i' = i then v else t.entry b' i' }

def alloc : Tables :=
  { t with next := t.next + 1, entry := fun b i => if b = t.next then 0 else t.entry b i }

/-- The first `n` entries of block `b` set to those of `f`. -/
def fill (b n : Nat) (f : Nat → Nat) : Tables :=
  { t with entry := fun b' i => if b' = b ∧ i < n then f i else t.entry b' i }

@[simp] theorem set_next (b i v : Nat) : (t.set b i v).next = t.next := rfl
@[simp] theorem set_root (b i v : Nat) : (t.set b i v).root = t.root := rfl
@[simp] theorem alloc_next : t.alloc.next = t.next + 1 := rfl
@[simp] theorem alloc_root : t.alloc.root = t.root := rfl
@[simp] theorem fill_next (b n : Nat) (f : Nat → Nat) : (t.fill b n f).next = t.next := rfl
@[simp] theorem fill_root (b n : Nat) (f : Nat → Nat) : (t.fill b n f).root = t.root := rfl

@[simp] theorem set_entry_self (b i v : Nat) : (t.set b i v).entry b i = v := by simp [set]

theorem set_entry_ne {b i b' i' : Nat} (v : Nat) (h : b' ≠ b ∨ i' ≠ i) :
    (t.set b i v).entry b' i' = t.entry b' i' := by
  apply if_neg
  rintro ⟨hb, hi⟩
  rcases h with h | h
  · exact h hb
  · exact h hi

@[simp] theorem alloc_entry_new (i : Nat) : t.alloc.entry t.next i = 0 := by simp [alloc]

theorem alloc_entry_old {b : Nat} (i : Nat) (h : b ≠ t.next) :
    t.alloc.entry b i = t.entry b i := if_neg h

theorem fill_entry (b : Nat) {n i : Nat} (f : Nat → Nat) :
    (t.fill b n f).entry b i = if i < n then f i else t.entry b i := by
  simp [fill]

theorem fill_entry_ne {b b' : Nat} (n i : Nat) (f : Nat → Nat) (h : b' ≠ b) :
    (t.fill b n f).entry b' i = t.entry b' i := by
  simp [fill, h]

@[simp] theorem fill_zero (b : Nat) (f : Nat → Nat) : t.fill b 0 f = t := by
  simp [fill]

theorem fill_succ (b n : Nat) (f : Nat → Nat) :
    (t.fill b n f).set b n (f n) = t.fill b (n + 1) f := by
  simp only [fill, set]
  congr 1
  funext b' i
  by_cases hb : b' = b
  · subst hb
    rcases Nat.lt_trichotomy i n with h | rfl | h
    · simp [h, show i ≠ n by omega, show i < n + 1 by omega]
    · simp
    · simp [show i ≠ n by omega, show ¬ i < n by omega, show ¬ i < n + 1 by omega]
  · simp [hb]

end Tables

/-! ## Representation -/

/-- The state `s` of the driver represents the tables `t` of the region `R`. -/
structure Rep (R : Region) (t : Tables) (s : PageTables) : Prop where
  phys : s.physBaseAddr = R.phys
  virt : s.virtBaseAddr = R.virt
  size : s.totalSize = R.size
  brk : s.pageTableBreak = R.phys + 4096 * R.blocks
  next : s.nextBlockPhysAddr = R.block t.next
  root : s.P4Base = t.root
  entry : ∀ b i, i < 512 → s.mem.read64 (R.block b + i * 8) = t.entry b i

namespace Rep

variable {R : Region} {t : Tables} {s : PageTables}

/-- The window that Linux maps is linear, whatever the two base addresses are. -/
theorem behind_physToVirt (h : Rep R t s) {off n : Nat} (hoff : off + n ≤ R.size) :
    s.behind (s.physToVirt (R.phys + off)) n = some (R.phys + off) := by
  have htop := R.top
  have hsub : sub64 (R.phys + off) R.phys = off := by
    rw [sub64_of_le (by omega) (by omega)]
    omega
  simp only [PageTables.behind, PageTables.physToVirt, h.phys, h.virt, h.size, hsub]
  rw [sub64_wrap64_add (by omega) R.virt_lt, if_pos hoff]

/-- The OR of a block address, with or without flags, and an index is a sum. -/
theorem pte (s : PageTables) {b i f : Nat} (hb : b < R.blocks) (hi : i < 512)
    (hf : f < 4096) : s.PTE (R.block b + f) i = s.physToVirt (R.phys + (4096 * b + i * 8)) := by
  have hal := R.block_aligned b
  have hlt := R.block_lt hb
  have hclear : (R.block b + f) / 4096 * 4096 = R.block b := by omega
  unfold PageTables.PTE
  rw [and_mask (by omega), hclear, or_flags hal (by omega)]
  unfold Region.block
  rw [Nat.add_assoc]

theorem behind_pte (h : Rep R t s) {b i f : Nat} (hb : b < R.blocks) (hi : i < 512)
    (hf : f < 4096) : s.behind (s.PTE (R.block b + f) i) 8 = some (R.block b + i * 8) := by
  have hroom := R.room
  have hoff : 4096 * b + i * 8 + 8 ≤ R.size := by omega
  rw [pte s hb hi hf, h.behind_physToVirt hoff]
  unfold Region.block
  rw [Nat.add_assoc]

theorem load (h : Rep R t s) {b i f : Nat} (hb : b < R.blocks) (hi : i < 512)
    (hf : f < 4096) : s.load (s.PTE (R.block b + f) i) = some (t.entry b i) := by
  unfold PageTables.load
  rw [h.behind_pte hb hi hf, Option.map_some, h.entry b i hi]

/-- A word written where an entry stands. -/
theorem write64 (h : Rep R t s) {b i v : Nat} (hi : i < 512) (hv : v < 2 ^ 64) :
    Rep R (t.set b i v) { s with mem := s.mem.write64 (R.block b + i * 8) v } := by
  refine ⟨h.phys, h.virt, h.size, h.brk, h.next, h.root, ?_⟩
  intro b' i' hi'
  by_cases hsame : b' = b ∧ i' = i
  · obtain ⟨rfl, rfl⟩ := hsame
    rw [Tables.set_entry_self]
    exact Mem.read64_write64_self _ _ hv
  · rw [Tables.set_entry_ne _ _ (by omega), ← h.entry b' i' hi']
    apply Mem.read64_write64_disjoint
    unfold Region.block
    omega

theorem store (h : Rep R t s) {b i f v : Nat} (hb : b < R.blocks) (hi : i < 512)
    (hf : f < 4096) (hv : v < 2 ^ 64) :
    ∃ s', s.store (s.PTE (R.block b + f) i) v = some s' ∧ Rep R (t.set b i v) s' := by
  unfold PageTables.store
  rw [h.behind_pte hb hi hf]
  exact ⟨_, rfl, h.write64 hi hv⟩

/-- Storing the entry for an aligned address in a block. -/
theorem storeTable (h : Rep R t s) {b i a : Nat} (hb : b < R.blocks) (hi : i < 512)
    (ha : 4096 ∣ a) (hlt : a < 2 ^ 52) :
    ∃ s', s.store (s.PTE (R.block b) i) (mapped a) = some s' ∧
      Rep R (t.set b i (a + 0x63)) s' := by
  rw [mapped_eq ha]
  exact h.store hb hi (f := 0) (by decide) (by omega)

/-- The same with one more flag. -/
theorem storeFlagged (h : Rep R t s) {b i a f : Nat} (hb : b < R.blocks) (hi : i < 512)
    (ha : 4096 ∣ a) (hlt : a < 2 ^ 52) (hf : f < 4096) :
    ∃ s', s.store (s.PTE (R.block b) i) (mapped a ||| f) = some s' ∧
      Rep R (t.set b i (a + (0x63 ||| f))) s' := by
  have hor : (0x63 ||| f) < 2 ^ 12 := Nat.or_lt_two_pow (by decide) hf
  rw [mapped_or ha hf]
  exact h.store hb hi (f := 0) (by decide) (by omega)

theorem alloc (h : Rep R t s) (hroom : t.next < R.blocks) :
    ∃ s', allocBlock s = some ⟨R.block t.next, s'⟩ ∧ Rep R t.alloc s' := by
  have hlt := R.block_lt hroom
  have hfit := R.room
  have hnext : wrap64 (s.nextBlockPhysAddr + PAGE_SIZE) = R.block (t.next + 1) := by
    have hsum : s.nextBlockPhysAddr + PAGE_SIZE = R.block (t.next + 1) := by
      rw [h.next]
      unfold Region.block PAGE_SIZE
      omega
    rw [hsum]
    apply wrap64_of_lt
    unfold Region.block at hlt ⊢
    omega
  have hbreak : ¬ R.block (t.next + 1) > s.pageTableBreak := by
    rw [h.brk]
    unfold Region.block
    omega
  have hoff : 4096 * t.next + PAGE_SIZE ≤ R.size := by
    unfold PAGE_SIZE
    omega
  have hwin : PageTables.behind { s with nextBlockPhysAddr := R.block (t.next + 1) }
      (s.physToVirt (R.block t.next)) PAGE_SIZE = some (R.block t.next) :=
    h.behind_physToVirt hoff
  simp only [allocBlock, hnext, hbreak, if_false, PageTables.memset]
  rw [h.next, hwin]
  refine ⟨_, rfl, ⟨h.phys, h.virt, h.size, h.brk, rfl, h.root, ?_⟩⟩
  intro b i hi
  by_cases hb : b = t.next
  · subst hb
    rw [Tables.alloc_entry_new]
    exact Mem.read64_fill_zero _ (by omega) (by unfold PAGE_SIZE; omega)
  · rw [Tables.alloc_entry_old _ _ hb, ← h.entry b i hi]
    apply Mem.read64_fill_disjoint
    unfold Region.block PAGE_SIZE
    omega

/-- A loop that stores entry after entry of one block fills it. -/
theorem fill (h : Rep R t s) {body : Nat → PageTables → Option PageTables} {b n : Nat}
    {f : Nat → Nat} (hb : b < R.blocks) (hn : n ≤ 512)
    (hbody : ∀ i, i < n → ∀ t' s', Rep R t' s' →
      f i < 2 ^ 64 ∧ body i s' = s'.store (s'.PTE (R.block b) i) (f i)) :
    ∃ s', countUpM body n s = some s' ∧ Rep R (t.fill b n f) s' := by
  apply countUpM_induct body n s (fun i s => Rep R (t.fill b i f) s)
  · rw [Tables.fill_zero]
    exact h
  · intro i hi s1 h1
    obtain ⟨hv, heq⟩ := hbody i hi _ _ h1
    obtain ⟨s2, h2, hrep⟩ := h1.store hb (Nat.lt_of_lt_of_le hi hn) (f := 0) (by decide) hv
    refine ⟨s2, ?_, ?_⟩
    · rw [heq]
      exact h2
    · rw [← Tables.fill_succ]
      exact hrep

end Rep

end JudgePenguin.Driver
