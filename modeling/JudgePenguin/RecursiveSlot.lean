/-
  JudgePenguin/RecursiveSlot.lean
  ===============================
  **Page-table entries through the recursive slot** (`lib/memory.cpp`, `get_P1` to
  `get_P4`).

  The last entry of the top table points back to the top table.  An address whose
  upper indices are all 511 therefore walks through that entry first, and then reads
  the tables one level later than usual: what it ends at is not a page but a table.
  `get_Pk` builds, for a virtual address, the address that ends at its level-k entry
  (`translate_getPk`).
-/
import JudgePenguin.Memory
import JudgePenguin.Paging
import Mathlib.Data.Nat.Bitwise
import Mathlib.Tactic.IntervalCases

namespace JudgePenguin

open Words Paging

namespace Memory

/-! ## The addresses -/

/-- `((vaddr >> shift) & -8) | -(1ull << low)`. -/
def entryOf (shift low vaddr : Nat) : Nat :=
  ((vaddr >>> shift) &&& (2 ^ 64 - 8)) ||| (2 ^ 64 - 1 <<< low)

def getP1 (vaddr : Nat) : Nat := entryOf 9 39 vaddr
def getP2 (vaddr : Nat) : Nat := entryOf 18 30 vaddr
def getP3 (vaddr : Nat) : Nat := entryOf 27 21 vaddr
def getP4 (vaddr : Nat) : Nat := entryOf 36 12 vaddr

/-- `get_Pk`. -/
def getPk : Nat → Nat → Nat
  | 1 => getP1
  | 2 => getP2
  | 3 => getP3
  | _ => getP4

theorem and_neg_eight {x : Nat} (hx : x < 2 ^ 64) : x &&& (2 ^ 64 - 8) = x / 8 * 8 := by
  apply Nat.eq_of_testBit_eq
  intro i
  have hmask : 2 ^ 64 - 8 = (2 ^ 61 - 1) <<< 3 := by decide
  have hshift : x / 8 * 8 = x >>> 3 <<< 3 := by
    rw [Nat.shiftRight_eq_div_pow, Nat.shiftLeft_eq]
  rw [hmask, hshift, Nat.testBit_and, Nat.testBit_shiftLeft, Nat.testBit_shiftLeft,
    Nat.testBit_two_pow_sub_one, Nat.testBit_shiftRight]
  by_cases hi : 3 ≤ i
  · have hsum : 3 + (i - 3) = i := by omega
    simp only [hi, decide_true, Bool.true_and, hsum]
    by_cases h64 : i < 64
    · simp [show i - 3 < 61 by omega]
    · have hbit : x.testBit i = false :=
        Nat.testBit_lt_two_pow (Nat.lt_of_lt_of_le hx (Nat.pow_le_pow_right (by decide) (by omega)))
      simp [hbit]
  · simp [hi]

/-- The mask sets every bit from `b` on. -/
theorem or_high_mask {y b : Nat} (hy : y < 2 ^ 64) (hb : b ≤ 64) :
    y ||| (2 ^ 64 - 2 ^ b) = 2 ^ 64 - 2 ^ b + y % 2 ^ b := by
  have hmask : 2 ^ 64 - 2 ^ b = 2 ^ b * (2 ^ (64 - b) - 1) := by
    rw [Nat.mul_sub, ← Nat.pow_add, Nat.add_sub_cancel' hb, Nat.mul_one]
  rw [hmask]
  apply Nat.eq_of_testBit_eq
  intro i
  have hlow : y % 2 ^ b < 2 ^ b := Nat.mod_lt _ (Nat.two_pow_pos b)
  rw [Nat.testBit_or, Nat.two_pow_add_eq_or_of_lt hlow, Nat.testBit_or, Nat.testBit_two_pow_mul,
    Nat.testBit_mod_two_pow, Nat.testBit_two_pow_sub_one]
  by_cases hi : b ≤ i
  · by_cases h64 : i < 64
    · simp [hi, show i - b < 64 - b by omega]
    · have hbit : y.testBit i = false :=
        Nat.testBit_lt_two_pow (Nat.lt_of_lt_of_le hy (Nat.pow_le_pow_right (by decide) (by omega)))
      simp [hbit, show ¬ i - b < 64 - b by omega]
  · simp [hi, show i < b by omega]

theorem entryOf_eq {shift low vaddr : Nat} (hv : vaddr < 2 ^ 64) (hlow : low ≤ 64) :
    entryOf shift low vaddr = 2 ^ 64 - 2 ^ low + vaddr / 2 ^ shift / 8 * 8 % 2 ^ low := by
  have hle : vaddr / 2 ^ shift ≤ vaddr := Nat.div_le_self _ _
  rw [entryOf, Nat.shiftRight_eq_div_pow, and_neg_eight (by omega), Nat.one_shiftLeft,
    or_high_mask (by omega) hlow]

section Index

variable {vaddr : Nat} (hv : vaddr < 2 ^ 64)

include hv

theorem getP1_eq : getP1 vaddr = 18446743523953737728 + vaddr / 512 / 8 * 8 % 549755813888 :=
  entryOf_eq hv (by decide)

theorem getP2_eq : getP2 vaddr = 18446744072635809792 + vaddr / 262144 / 8 * 8 % 1073741824 :=
  entryOf_eq hv (by decide)

theorem getP3_eq : getP3 vaddr = 18446744073707454464 + vaddr / 134217728 / 8 * 8 % 2097152 :=
  entryOf_eq hv (by decide)

theorem getP4_eq : getP4 vaddr = 18446744073709547520 + vaddr / 68719476736 / 8 * 8 % 4096 :=
  entryOf_eq hv (by decide)

/-- The four addresses as one. -/
theorem getPk_eq {k : Nat} (hk : 1 ≤ k) (hk4 : k ≤ 4) :
    getPk k vaddr =
      2 ^ 64 - 2 ^ (48 - 9 * k) + vaddr / 2 ^ (9 * k) / 8 * 8 % 2 ^ (48 - 9 * k) := by
  interval_cases k
  · exact getP1_eq hv
  · exact getP2_eq hv
  · exact getP3_eq hv
  · exact getP4_eq hv

/-- The indices of `vaddr` stand `k` levels lower, below `k` times 511. -/
theorem getPk_index {k level : Nat} (hk : 1 ≤ k) (hk4 : k ≤ 4) (hlevel : level ≤ 3) :
    index level (getPk k vaddr) = if 4 ≤ level + k then 511 else index (level + k) vaddr := by
  rw [getPk_eq hv hk hk4]
  unfold index pageSize
  interval_cases k <;> interval_cases level <;>
    simp only [Nat.reduceMul, Nat.reduceAdd, Nat.reduceSub, Nat.reducePow, Nat.reduceLeDiff,
      if_true, if_false] <;>
    omega

/-- The last index is the offset. -/
theorem getPk_offset {k : Nat} (hk : 1 ≤ k) (hk4 : k ≤ 4) :
    getPk k vaddr % 4096 = index (k - 1) vaddr * 8 := by
  rw [getPk_eq hv hk hk4]
  unfold index pageSize
  interval_cases k <;>
    simp only [Nat.reduceMul, Nat.reduceAdd, Nat.reduceSub, Nat.reducePow] <;>
    omega

theorem getPk_canonical {k : Nat} (hk : 1 ≤ k) (hk4 : k ≤ 4) : canonical (getPk k vaddr) = true := by
  rw [canonical_iff, getPk_eq hv hk hk4]
  interval_cases k <;>
    simp only [Nat.reduceMul, Nat.reduceSub, Nat.reducePow] <;>
    omega

end Index

/-! ## Their walks -/

/-- The last entry of the top table points back to it. -/
structure SelfEntry (m : Mem) (root : Nat) : Prop where
  present : present (m.read64 (root + 511 * 8)) = true
  table : large (m.read64 (root + 511 * 8)) = false
  back : frame (m.read64 (root + 511 * 8)) (pageSize 0) = root

section Walk

variable {m : Mem} {root vaddr k : Nat}

/-- The first `k` entries lead back to the top table. -/
theorem tableAfter_self (h : SelfEntry m root) (hv : vaddr < 2 ^ 64) (hk : 1 ≤ k) (hk4 : k ≤ 4)
    {d : Nat} (hd : d ≤ k) : tableAfter m root (getPk k vaddr) d = root := by
  induction d with
  | zero => rfl
  | succ d ih =>
    rw [tableAfter_succ, entryAfter, ih (by omega), getPk_index hv hk hk4 (by omega),
      if_pos (by omega)]
    exact h.back

/-- From there the tables of `vaddr` are read, one after the other. -/
theorem tableAfter_shifted (h : SelfEntry m root) (hv : vaddr < 2 ^ 64) (hk : 1 ≤ k) (hk4 : k ≤ 4)
    {d : Nat} (hd : k + d ≤ 4) :
    tableAfter m root (getPk k vaddr) (k + d) = tableAfter m root vaddr d := by
  induction d with
  | zero => exact tableAfter_self h hv hk hk4 (Nat.le_refl k)
  | succ d ih =>
    have hlevel : 3 - (k + d) + k = 3 - d := by omega
    rw [← Nat.add_assoc, tableAfter_succ, tableAfter_succ, entryAfter, entryAfter, ih (by omega),
      getPk_index hv hk hk4 (by omega), if_neg (by omega), hlevel]

theorem entryAfter_self (h : SelfEntry m root) (hv : vaddr < 2 ^ 64) (hk : 1 ≤ k) (hk4 : k ≤ 4)
    {d : Nat} (hd : d < k) : entryAfter m root (getPk k vaddr) d = root + 511 * 8 := by
  rw [entryAfter, tableAfter_self h hv hk hk4 (Nat.le_of_lt hd), getPk_index hv hk hk4 (by omega),
    if_pos (by omega)]

theorem entryAfter_shifted (h : SelfEntry m root) (hv : vaddr < 2 ^ 64) (hk : 1 ≤ k) (hk4 : k ≤ 4)
    {d : Nat} (hd : k + d ≤ 3) :
    entryAfter m root (getPk k vaddr) (k + d) = entryAfter m root vaddr d := by
  have hlevel : 3 - (k + d) + k = 3 - d := by omega
  rw [entryAfter, entryAfter, tableAfter_shifted h hv hk hk4 (by omega),
    getPk_index hv hk hk4 (by omega), if_neg (by omega), hlevel]

/-- Every entry on the path of the address names a table. -/
theorem descends_getPk (h : SelfEntry m root) (hv : vaddr < 2 ^ 64) (hk : 1 ≤ k) (hk4 : k ≤ 4)
    (hpath : Descends m root vaddr (4 - k)) : Descends m root (getPk k vaddr) 4 := by
  intro d hd
  by_cases hself : d < k
  · rw [entryAfter_self h hv hk hk4 hself]
    exact ⟨h.present, h.table⟩
  · obtain ⟨j, rfl⟩ := Nat.exists_eq_add_of_le (Nat.le_of_not_lt hself)
    rw [entryAfter_shifted h hv hk hk4 (by omega)]
    exact hpath j (by omega)

/-- Where the walk of `get_Pk(vaddr)` ends, and whether it may be written there. -/
theorem translate_getPk_eq (h : SelfEntry m root) (hcanon : canonical vaddr = true) (hk : 1 ≤ k)
    (hk4 : k ≤ 4) (hpath : Descends m root vaddr (4 - k)) :
    translate m root (getPk k vaddr) =
      some ⟨entryAfter m root vaddr (4 - k), pathWritable m root (getPk k vaddr) 4⟩ := by
  have hv : vaddr < 2 ^ 64 := by
    rcases canonical_iff.mp hcanon with hlow | hhigh
    · omega
    · exact hhigh.2
  have hdown := descends_getPk h hv hk hk4 hpath
  have hwalk := Descends.walk (d := 3) (fun i hi => hdown i (by omega)) (Nat.le_refl 3)
  have hlast : Paging.present (m.read64 (tableAfter m root (getPk k vaddr) 3 +
      index 0 (getPk k vaddr) * 8)) = true := (hdown 3 (by decide)).1
  have hframe : frame (m.read64 (tableAfter m root (getPk k vaddr) 3 +
      index 0 (getPk k vaddr) * 8)) (pageSize 0) = tableAfter m root vaddr (4 - k) := by
    have hshift := tableAfter_shifted h hv hk hk4 (d := 4 - k) (by omega)
    rw [Nat.add_sub_cancel' hk4] at hshift
    exact hshift
  have hlevel : 3 - (4 - k) = k - 1 := by omega
  have hentry : entryAfter m root vaddr (4 - k) =
      tableAfter m root vaddr (4 - k) + index (k - 1) vaddr * 8 := by rw [entryAfter, hlevel]
  have hwritable : pathWritable m root (getPk k vaddr) 4 =
      (pathWritable m root (getPk k vaddr) 3 && writable (m.read64 (tableAfter m root (getPk k vaddr) 3 +
        index 0 (getPk k vaddr) * 8))) := rfl
  rw [translate_of_canonical (getPk_canonical hv hk hk4), hwalk, walkFrom, hlast, if_pos rfl, hframe,
    pageSize_zero, getPk_offset hv hk hk4, hentry, hwritable]

/-- **Recursive-slot addresses name the right entries.**  The walk of `get_Pk(vaddr)`
    ends at the level-k entry on the path of `vaddr`. -/
theorem translate_getPk (h : SelfEntry m root) (hcanon : canonical vaddr = true) (hk : 1 ≤ k)
    (hk4 : k ≤ 4) (hpath : Descends m root vaddr (4 - k)) :
    ∃ w, translate m root (getPk k vaddr) = some ⟨entryAfter m root vaddr (4 - k), w⟩ :=
  ⟨_, translate_getPk_eq h hcanon hk hk4 hpath⟩

/-- Writing is allowed if it is on the way to `vaddr` and through the last entry. -/
theorem pathWritable_getPk (h : SelfEntry m root) (hself : writable (m.read64 (root + 511 * 8)) = true)
    (hv : vaddr < 2 ^ 64) (hk : 1 ≤ k) (hk4 : k ≤ 4)
    (hpath : ∀ i, i < 4 - k → writable (m.read64 (entryAfter m root vaddr i)) = true) :
    pathWritable m root (getPk k vaddr) 4 = true := by
  apply pathWritable_of
  intro d hd
  by_cases hlow : d < k
  · rw [entryAfter_self h hv hk hk4 hlow]
    exact hself
  · obtain ⟨j, rfl⟩ := Nat.exists_eq_add_of_le (Nat.le_of_not_lt hlow)
    rw [entryAfter_shifted h hv hk hk4 (by omega)]
    exact hpath j (by omega)

end Walk

/-- A memory in which every entry of every table is the one that `init_page_table_4k`
    puts last, for a top table at `0x1000`. -/
def everyEntry : Mem := fun a => if a % 8 = 0 then 0x63 else if a % 8 = 1 then 0x10 else 0

/-- An address inside the recursive window. -/
theorem translate_getPk_everyEntry : ∃ w, translate everyEntry 0x1000 (getPk 2 0xffffff8012345678) =
    some ⟨entryAfter everyEntry 0x1000 0xffffff8012345678 2, w⟩ :=
  translate_getPk ⟨by decide, by decide, by decide⟩ (by decide) (by decide) (by decide)
    (by unfold Descends; decide)

end Memory

end JudgePenguin
