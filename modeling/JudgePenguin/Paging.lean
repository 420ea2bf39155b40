/-
  JudgePenguin/Paging.lean
  ========================
  **The four-level x86-64 page walk** over a byte-addressed physical memory.

  Tables are 4 KiB blocks of 512 little-endian entries.  Level `0` is the page
  table proper, level `3` the table that CR3 points to; an entry of level `ℓ`
  covers `pageSize ℓ` bytes.  Only the entry bits that decide the translation
  are read: present, writable, the large-page bit of levels `1` and `2`, and the
  frame in bits `12 .. 51`.

  The rules at the end say what one level of the walk does with an entry that is
  absent, that names a table or that maps a page; an entry is written `a + f`,
  an aligned address and its flag bits.
-/
import JudgePenguin.ByteMemory
import Mathlib.Tactic.Linarith

namespace Paging

/-! ## Entries and addresses -/

def present (e : Nat) : Bool := e % 2 == 1
def writable (e : Nat) : Bool := e / 2 % 2 == 1
def large (e : Nat) : Bool := e / 128 % 2 == 1

/-- The physical address in an entry, cut to a multiple of `size`. -/
def frame (e size : Nat) : Nat := e % 2 ^ 52 / size * size

/-- The bytes that one entry of a table of level `level` covers. -/
def pageSize (level : Nat) : Nat := 2 ^ (12 + 9 * level)

theorem pageSize_zero : pageSize 0 = 4096 := rfl
theorem pageSize_one : pageSize 1 = 2097152 := rfl
theorem pageSize_two : pageSize 2 = 1073741824 := rfl
theorem pageSize_three : pageSize 3 = 549755813888 := rfl

def index (level va : Nat) : Nat := va / pageSize level % 512

/-- Bits `48 .. 63` repeat bit `47`. -/
def canonical (va : Nat) : Bool :=
  decide (va < 2 ^ 47) || (decide (2 ^ 64 - 2 ^ 47 ≤ va) && decide (va < 2 ^ 64))

/-! ## The walk -/

/-- Where an access goes, and whether every level allows writing. -/
structure Translation where
  phys : Nat
  writable : Bool
deriving DecidableEq, Repr

/-- The walk from `table` on, a table of level `level`; `w` says whether the
    levels above allow writing.  `none` is a page fault. -/
def walkFrom (m : Mem) : Nat → Nat → Nat → Bool → Option Translation
  | 0, table, va, w =>
    let e := m.read64 (table + index 0 va * 8)
    if present e then some ⟨frame e (pageSize 0) + va % pageSize 0, w && writable e⟩ else none
  | level + 1, table, va, w =>
    let e := m.read64 (table + index (level + 1) va * 8)
    if present e then
      if large e then
        -- the bit is reserved in the top table
        if level < 2 then
          some ⟨frame e (pageSize (level + 1)) + va % pageSize (level + 1), w && writable e⟩
        else none
      else walkFrom m level (frame e (pageSize 0)) va (w && writable e)
    else none

/-- The walk that CR3 = `root` starts. -/
def walk (m : Mem) (root va : Nat) : Option Translation := walkFrom m 3 root va true

/-- The walk behind the check that the processor makes first. -/
def translate (m : Mem) (root va : Nat) : Option Translation :=
  if canonical va then walk m root va else none

theorem canonical_iff {va : Nat} : canonical va = true ↔
    va < 2 ^ 47 ∨ (2 ^ 64 - 2 ^ 47 ≤ va ∧ va < 2 ^ 64) := by
  simp only [canonical, Bool.or_eq_true, Bool.and_eq_true, decide_eq_true_eq]

theorem translate_of_canonical {m : Mem} {root va : Nat} (h : canonical va = true) :
    translate m root va = walk m root va := if_pos h

/-- `a` is the table of level `level` for the span `k` of `pageSize (level + 1)` bytes.
    The last entry of the top table, which may point back to it, is left out. -/
inductive TableAt (m : Mem) (root : Nat) : Nat → Nat → Nat → Prop
  | top : TableAt m root 3 0 root
  | child {level k a i : Nat} : TableAt m root (level + 1) k a → i < 512 → (level = 2 → i < 511) →
      present (m.read64 (a + i * 8)) = true → large (m.read64 (a + i * 8)) = false →
      TableAt m root level (512 * k + i) (frame (m.read64 (a + i * 8)) (pageSize 0))

/-! ## The path of an address -/

/-- The table that the walk of `va` reads after `d` entries. -/
def tableAfter (m : Mem) (root va : Nat) : Nat → Nat
  | 0 => root
  | d + 1 => frame (m.read64 (tableAfter m root va d + index (3 - d) va * 8)) (pageSize 0)

/-- The address of the entry that the walk of `va` reads after `d` entries. -/
def entryAfter (m : Mem) (root va d : Nat) : Nat := tableAfter m root va d + index (3 - d) va * 8

/-- The first `d` entries on the path of `va` name tables. -/
def Descends (m : Mem) (root va d : Nat) : Prop :=
  ∀ i, i < d → present (m.read64 (entryAfter m root va i)) = true ∧
    large (m.read64 (entryAfter m root va i)) = false

theorem tableAfter_succ (m : Mem) (root va d : Nat) :
    tableAfter m root va (d + 1) = frame (m.read64 (entryAfter m root va d)) (pageSize 0) := rfl

/-- One level of the walk, at an entry that names a table. -/
theorem walkFrom_descend {m : Mem} {level table va : Nat} {w : Bool}
    (hp : present (m.read64 (table + index (level + 1) va * 8)) = true)
    (hl : large (m.read64 (table + index (level + 1) va * 8)) = false) :
    walkFrom m (level + 1) table va w =
      walkFrom m level (frame (m.read64 (table + index (level + 1) va * 8)) (pageSize 0)) va
        (w && writable (m.read64 (table + index (level + 1) va * 8))) := by
  simp only [walkFrom, hp, hl, if_true, Bool.false_eq_true, if_false]

/-- Whether the first `d` entries on the path of `va` allow writing. -/
def pathWritable (m : Mem) (root va : Nat) : Nat → Bool
  | 0 => true
  | d + 1 => pathWritable m root va d && writable (m.read64 (entryAfter m root va d))

theorem pathWritable_of {m : Mem} {root va d : Nat}
    (h : ∀ i, i < d → writable (m.read64 (entryAfter m root va i)) = true) :
    pathWritable m root va d = true := by
  induction d with
  | zero => rfl
  | succ d ih =>
    rw [pathWritable, ih fun i hi => h i (by omega), h d (Nat.lt_succ_self d)]
    rfl

/-- The path is the one that the walk takes. -/
theorem Descends.walk {m : Mem} {root va d : Nat} (h : Descends m root va d) (hd : d ≤ 3) :
    walk m root va =
      walkFrom m (3 - d) (tableAfter m root va d) va (pathWritable m root va d) := by
  induction d with
  | zero => rfl
  | succ d ih =>
    have hwalk := ih (fun i hi => h i (by omega)) (by omega)
    obtain ⟨hp, hl⟩ := h d (Nat.lt_succ_self d)
    have hlevel : 3 - d = 3 - (d + 1) + 1 := by omega
    rw [entryAfter, hlevel] at hp hl
    rw [hwalk, tableAfter_succ, pathWritable, entryAfter, hlevel, walkFrom_descend hp hl]

/-! ## Entries of the form `a + f` -/

section Entry

variable {a f : Nat}

theorem present_add (ha : 4096 ∣ a) : present (a + f) = present f := by
  have h : (a + f) % 2 = f % 2 := by omega
  unfold present
  rw [h]

theorem writable_add (ha : 4096 ∣ a) : writable (a + f) = writable f := by
  have h : (a + f) / 2 % 2 = f / 2 % 2 := by omega
  unfold writable
  rw [h]

theorem large_add (ha : 4096 ∣ a) : large (a + f) = large f := by
  have h : (a + f) / 128 % 2 = f / 128 % 2 := by omega
  unfold large
  rw [h]

theorem frame_add {size : Nat} (hsize : 0 < size) (ha : size ∣ a) (hlt : a + f < 2 ^ 52)
    (hf : f < size) : frame (a + f) size = a := by
  obtain ⟨k, rfl⟩ := ha
  unfold frame
  rw [Nat.mod_eq_of_lt hlt, Nat.mul_add_div hsize, Nat.div_eq_of_lt hf, Nat.add_zero, Nat.mul_comm]

end Entry

/-! ## One level of the walk -/

section Step

variable {m : Mem} {level table va a f : Nat} {w : Bool}

theorem walkFrom_absent (h : present (m.read64 (table + index level va * 8)) = false) :
    walkFrom m level table va w = none := by
  cases level with
  | zero => simp [walkFrom, h]
  | succ level => simp [walkFrom, h]

theorem walkFrom_table (he : m.read64 (table + index (level + 1) va * 8) = a + f)
    (ha : 4096 ∣ a) (hlt : a + f < 2 ^ 52) (hf : f < 4096)
    (hp : present f = true) (hl : large f = false) :
    walkFrom m (level + 1) table va w = walkFrom m level a va (w && writable f) := by
  have hframe : frame (a + f) (pageSize 0) = a := frame_add (by decide) ha hlt hf
  simp only [walkFrom, he, present_add ha, hp, large_add ha, hl, writable_add ha, hframe, if_true,
    Bool.false_eq_true, if_false]

theorem walkFrom_page (he : m.read64 (table + index 0 va * 8) = a + f)
    (ha : 4096 ∣ a) (hlt : a + f < 2 ^ 52) (hf : f < 4096) (hp : present f = true) :
    walkFrom m 0 table va w = some ⟨a + va % 4096, w && writable f⟩ := by
  have hframe : frame (a + f) (pageSize 0) = a := frame_add (by decide) ha hlt hf
  simp only [walkFrom, he, present_add ha, hp, writable_add ha, hframe, if_true]
  rfl

/-- A 1 GiB page. -/
theorem walkFrom_gib (he : m.read64 (table + index 2 va * 8) = a + f)
    (ha : 2 ^ 30 ∣ a) (hlt : a + f < 2 ^ 52) (hf : f < 4096)
    (hp : present f = true) (hl : large f = true) :
    walkFrom m 2 table va w = some ⟨a + va % 2 ^ 30, w && writable f⟩ := by
  have ha' : 4096 ∣ a := Nat.dvd_trans (by decide) ha
  have hframe : frame (a + f) (pageSize 2) = a := by
    apply frame_add (by decide) ha hlt
    exact Nat.lt_trans hf (by decide)
  simp only [walkFrom, he, present_add ha', hp, large_add ha', hl, writable_add ha', hframe,
    if_true, show (1 < 2) = True by simp]
  rfl

end Step

end Paging
