/-
  JudgePenguin/DuckCacheFind.lean
  ===============================
  **Lookup in the object cache.**  `cmp_digest` is the comparison of the 256-bit
  numbers that the four words of a digest spell, most significant word first
  (`cmpDigest_neg_iff`, `cmpDigest_eq_zero_iff`).  With the digests strictly
  increasing and every hash equal to the first word of its digest, `find` — two
  binary searches on the first word and a scan of the run between them — is the
  lower bound of the full digest: `find_spec`.
-/
import JudgePenguin.DuckCache

namespace JudgePenguin

open Words ArrayLoops

/-! ## The digest order -/

theorem Digest256.val_injective : Function.Injective Digest256.val := by
  intro d e h
  have hd0 := (d.word 0).toNat_lt
  have hd1 := (d.word 1).toNat_lt
  have hd2 := (d.word 2).toNat_lt
  have hd3 := (d.word 3).toNat_lt
  have he0 := (e.word 0).toNat_lt
  have he1 := (e.word 1).toNat_lt
  have he2 := (e.word 2).toNat_lt
  have he3 := (e.word 3).toNat_lt
  simp only [Digest256.val] at h
  have h0 : d.word 0 = e.word 0 := UInt64.toNat_inj.mp (by omega)
  have h1 : d.word 1 = e.word 1 := UInt64.toNat_inj.mp (by omega)
  have h2 : d.word 2 = e.word 2 := UInt64.toNat_inj.mp (by omega)
  have h3 : d.word 3 = e.word 3 := UInt64.toNat_inj.mp (by omega)
  rcases d with ⟨da⟩
  rcases e with ⟨ea⟩
  simp only [Digest256.mk.injEq]
  apply Vector.ext
  intro i hi
  match i, hi with
  | 0, _ => exact h0
  | 1, _ => exact h1
  | 2, _ => exact h2
  | 3, _ => exact h3

/-- A digest whose first word is smaller is smaller. -/
theorem Digest256.val_lt_of_first {d e : Digest256} (h : d.word 0 < e.word 0) : d.val < e.val := by
  have hd1 := (d.word 1).toNat_lt
  have hd2 := (d.word 2).toNat_lt
  have hd3 := (d.word 3).toNat_lt
  have h' : (d.word 0).toNat < (e.word 0).toNat := UInt64.lt_iff_toNat_lt.mp h
  simp only [Digest256.val]
  omega

theorem cmpDigest_cases (d e : Digest256) :
    (cmpDigest d e = -1 ∧ d.val < e.val) ∨ (cmpDigest d e = 0 ∧ d.val = e.val) ∨
      (cmpDigest d e = 1 ∧ e.val < d.val) := by
  have hd1 := (d.word 1).toNat_lt
  have hd2 := (d.word 2).toNat_lt
  have hd3 := (d.word 3).toNat_lt
  have he1 := (e.word 1).toNat_lt
  have he2 := (e.word 2).toNat_lt
  have he3 := (e.word 3).toNat_lt
  simp only [cmpDigest, cmpDigestFrom, Digest256.val, UInt64.lt_iff_toNat_lt, gt_iff_lt]
  split
  · exact Or.inl ⟨rfl, by omega⟩
  split
  · exact Or.inr (Or.inr ⟨rfl, by omega⟩)
  split
  · exact Or.inl ⟨rfl, by omega⟩
  split
  · exact Or.inr (Or.inr ⟨rfl, by omega⟩)
  split
  · exact Or.inl ⟨rfl, by omega⟩
  split
  · exact Or.inr (Or.inr ⟨rfl, by omega⟩)
  split
  · exact Or.inl ⟨rfl, by omega⟩
  split
  · exact Or.inr (Or.inr ⟨rfl, by omega⟩)
  · exact Or.inr (Or.inl ⟨rfl, by omega⟩)

theorem cmpDigest_neg_iff (d e : Digest256) : cmpDigest d e < 0 ↔ d.val < e.val := by
  rcases cmpDigest_cases d e with ⟨h, hv⟩ | ⟨h, hv⟩ | ⟨h, hv⟩
  · rw [h]
    exact ⟨fun _ => hv, fun _ => by decide⟩
  · rw [h]
    exact ⟨fun hc => absurd hc (by decide), fun hc => by omega⟩
  · rw [h]
    exact ⟨fun hc => absurd hc (by decide), fun hc => by omega⟩

theorem cmpDigest_eq_zero_iff (d e : Digest256) : cmpDigest d e = 0 ↔ d = e := by
  rcases cmpDigest_cases d e with ⟨h, hv⟩ | ⟨h, hv⟩ | ⟨h, hv⟩
  · rw [h]
    exact ⟨fun hc => absurd hc (by decide), fun hc => by rw [hc] at hv; omega⟩
  · rw [h]
    exact ⟨fun _ => Digest256.val_injective hv, fun _ => rfl⟩
  · rw [h]
    exact ⟨fun hc => absurd hc (by decide), fun hc => by rw [hc] at hv; omega⟩

namespace DuckCache

/-! ## The index arrays in step -/

/-- The three arrays describe the same objects, in strictly increasing digest order. -/
structure Indexed (c : DuckCache) : Prop where
  increasing : ∀ i j, i < j → j < c.nCurObjects →
    cmpDigest (c.objDigest i) (c.objDigest j) < 0
  hash : ∀ i, i < c.nCurObjects → c.objHash i = (c.objDigest i).word 0

theorem Indexed.val_lt {c : DuckCache} (h : c.Indexed) {i j : Nat} (hij : i < j)
    (hj : j < c.nCurObjects) : (c.objDigest i).val < (c.objDigest j).val :=
  (cmpDigest_neg_iff _ _).mp (h.increasing i j hij hj)

theorem Indexed.inj {c : DuckCache} (h : c.Indexed) {i j : Nat} (hi : i < c.nCurObjects)
    (hj : j < c.nCurObjects) (hd : c.objDigest i = c.objDigest j) : i = j := by
  rcases Nat.lt_trichotomy i j with hlt | heq | hgt
  · have := h.val_lt hlt hj
    rw [hd] at this
    omega
  · exact heq
  · have := h.val_lt hgt hi
    rw [hd] at this
    omega

/-- The hashes are increasing, weakly. -/
theorem Indexed.hash_le {c : DuckCache} (h : c.Indexed) {i j : Nat} (hij : i ≤ j)
    (hj : j < c.nCurObjects) : ¬ c.objHash j < c.objHash i := by
  rcases Nat.eq_or_lt_of_le hij with rfl | hlt
  · rw [UInt64.lt_iff_toNat_lt]
    omega
  · intro hcon
    rw [h.hash i (by omega), h.hash j hj] at hcon
    have h1 := Digest256.val_lt_of_first hcon
    have h2 := h.val_lt hlt hj
    omega

/-! ## `find` is the lower bound -/

/-- What `find` returns for a digest: the index that separates the smaller stored
    digests from the others, and whether the digest stands there. -/
structure Located (c : DuckCache) (d : Digest256) (r : Bool × Nat) : Prop where
  le : r.2 ≤ c.nCurObjects
  below : ∀ i, i < r.2 → (c.objDigest i).val < d.val
  above : ∀ i, r.2 ≤ i → i < c.nCurObjects → d.val ≤ (c.objDigest i).val
  found : r.1 = true ↔ r.2 < c.nCurObjects ∧ c.objDigest r.2 = d

theorem lowerBound_spec (arr : Nat → UInt64) (v : UInt64) {lo hi : Nat} (h : lo ≤ hi) :
    lo ≤ lowerBound arr lo hi v ∧ lowerBound arr lo hi v ≤ hi ∧
      (∀ i, lo ≤ i → i < lowerBound arr lo hi v → arr i < v) ∧
      (lowerBound arr lo hi v < hi → ¬ arr (lowerBound arr lo hi v) < v) := by
  obtain ⟨h1, h2, h3, h4⟩ := firstNot_spec (fun i => decide (arr i < v)) h
  exact ⟨h1, h2, fun i hi hj => of_decide_eq_true (h3 i hi hj),
    fun hlt => of_decide_eq_false (h4 hlt)⟩

theorem upperBound_spec (arr : Nat → UInt64) (v : UInt64) {lo hi : Nat} (h : lo ≤ hi) :
    lo ≤ upperBound arr lo hi v ∧ upperBound arr lo hi v ≤ hi ∧
      (∀ i, lo ≤ i → i < upperBound arr lo hi v → ¬ v < arr i) ∧
      (upperBound arr lo hi v < hi → v < arr (upperBound arr lo hi v)) := by
  obtain ⟨h1, h2, h3, h4⟩ := firstNot_spec (fun i => decide (¬ v < arr i)) h
  exact ⟨h1, h2, fun i hi hj => of_decide_eq_true (h3 i hi hj),
    fun hlt => Decidable.not_not.mp (of_decide_eq_false (h4 hlt))⟩

/-- The scan, from a position below which every digest is smaller, over a run
    above which every digest is larger. -/
theorem findLoop_located {c : DuckCache} (hc : c.Indexed) (d : Digest256) (lo n : Nat)
    (hn : lo + n ≤ c.nCurObjects)
    (hbelow : ∀ i, i < lo → (c.objDigest i).val < d.val)
    (habove : ∀ i, lo + n ≤ i → i < c.nCurObjects → d.val < (c.objDigest i).val) :
    Located c d (findLoop c d (List.range' lo n) lo) := by
  induction n generalizing lo with
  | zero =>
    refine ⟨hn, hbelow, fun i h1 h2 => Nat.le_of_lt (habove i h1 h2), ?_⟩
    constructor
    · intro h
      simp [findLoop] at h
    · rintro ⟨h1, h2⟩
      have := habove lo (by omega) h1
      simp only [List.range'_zero, findLoop] at h2
      rw [h2] at this
      omega
  | succ n ih =>
    rw [List.range'_succ, findLoop]
    by_cases hr : cmpDigest (c.objDigest lo) d ≥ 0
    · -- the scan stops: `lo` is the first digest that is not smaller
      have hge : d.val ≤ (c.objDigest lo).val := by
        have := (cmpDigest_neg_iff (c.objDigest lo) d).not.mp (by omega)
        omega
      simp only [hr, if_true]
      refine ⟨by simp only; omega, hbelow, ?_, ?_⟩
      · intro i h1 h2
        rcases Nat.eq_or_lt_of_le h1 with rfl | hlt
        · exact hge
        · exact Nat.le_trans hge (Nat.le_of_lt (hc.val_lt hlt h2))
      · simp only [decide_eq_true_eq, cmpDigest_eq_zero_iff]
        exact ⟨fun h => ⟨by omega, h⟩, fun h => h.2⟩
    · have hlt : (c.objDigest lo).val < d.val := (cmpDigest_neg_iff _ _).mp (by omega)
      simp only [hr, if_false]
      apply ih (lo + 1) (by omega)
      · intro i hi
        rcases Nat.lt_succ_iff_lt_or_eq.mp hi with h | rfl
        · exact hbelow i h
        · exact hlt
      · intro i h1 h2
        exact habove i (by omega) h2

/-- **`find` is the lower bound on full digests.** -/
theorem find_spec {c : DuckCache} (hc : c.Indexed) (d : Digest256) :
    Located c d (c.find d) := by
  unfold find
  split
  · rename_i h0
    exact ⟨by simp, fun i hi => by simp at hi, fun i _ hi => by omega, by simp [h0]⟩
  -- the two binary searches delimit the run of equal first words
  obtain ⟨-, hle1, hlt1, -⟩ := lowerBound_spec c.objHash (d.word 0) (Nat.zero_le c.nCurObjects)
  obtain ⟨hle2, hle3, -, hge2⟩ := upperBound_spec c.objHash (d.word 0) hle1
  simp only
  generalize lowerBound c.objHash 0 c.nCurObjects (d.word 0) = idx1 at *
  generalize upperBound c.objHash idx1 c.nCurObjects (d.word 0) = idx2 at *
  apply findLoop_located hc d
  · omega
  · intro i hi
    have hh := hlt1 i (Nat.zero_le _) hi
    rw [hc.hash i (by omega)] at hh
    exact Digest256.val_lt_of_first hh
  · intro i hi hin
    have hh := hge2 (by omega)
    have hmono := hc.hash_le (show idx2 ≤ i by omega) hin
    apply Digest256.val_lt_of_first
    rw [← hc.hash i hin]
    rw [UInt64.lt_iff_toNat_lt] at hh hmono ⊢
    omega

theorem find_of_stored {c : DuckCache} (hc : c.Indexed) {i : Nat} (hi : i < c.nCurObjects) :
    c.find (c.objDigest i) = (true, i) := by
  have h := find_spec hc (c.objDigest i)
  have hidx : (c.find (c.objDigest i)).2 = i := by
    rcases Nat.lt_trichotomy (c.find (c.objDigest i)).2 i with hlt | heq | hgt
    · have h1 := h.above _ (Nat.le_refl _) (by omega)
      have h2 := hc.val_lt hlt hi
      omega
    · exact heq
    · have := h.below i hgt
      omega
  have hfound : (c.find (c.objDigest i)).1 = true := h.found.mpr (by rw [hidx]; exact ⟨hi, rfl⟩)
  exact Prod.ext hfound hidx

theorem find_fst_iff {c : DuckCache} (hc : c.Indexed) (d : Digest256) :
    (c.find d).1 = true ↔ ∃ i, i < c.nCurObjects ∧ c.objDigest i = d := by
  constructor
  · intro h
    exact ⟨_, (find_spec hc d).found.mp h⟩
  · rintro ⟨i, hi, rfl⟩
    rw [find_of_stored hc hi]

/-- A property that holds exactly below a bound is counted by the bound. -/
theorem countP_range_of_threshold (p : Nat → Bool) {r n : Nat} (hr : r ≤ n)
    (hbelow : ∀ i, i < r → p i = true) (habove : ∀ i, r ≤ i → i < n → p i = false) :
    (List.range n).countP p = r := by
  obtain ⟨m, rfl⟩ := Nat.exists_eq_add_of_le hr
  rw [List.range_add, List.countP_append]
  have hlow : (List.range r).countP p = r := by
    rw [List.countP_eq_length.mpr, List.length_range]
    intro i hi
    exact hbelow i (List.mem_range.mp hi)
  have hhigh : ((List.range m).map (r + ·)).countP p = 0 := by
    rw [List.countP_eq_zero]
    intro j hj
    obtain ⟨i, hi, rfl⟩ := List.mem_map.mp hj
    rw [habove (r + i) (Nat.le_add_right r i) (by have := List.mem_range.mp hi; omega)]
    exact Bool.false_ne_true
  rw [hlow, hhigh, Nat.add_zero]

/-- `find` answers whether the digest is stored, and counts the smaller ones. -/
theorem find_counts_smaller {c : DuckCache} (hc : c.Indexed) (d : Digest256) :
    ((c.find d).1 = true ↔ ∃ i, i < c.nCurObjects ∧ c.objDigest i = d) ∧
      (c.find d).2 =
        (List.range c.nCurObjects).countP (fun i => decide (cmpDigest (c.objDigest i) d < 0)) := by
  have hspec := find_spec hc d
  refine ⟨find_fst_iff hc d, (countP_range_of_threshold _ hspec.le ?_ ?_).symm⟩
  · intro i hi
    exact decide_eq_true ((cmpDigest_neg_iff _ _).mpr (hspec.below i hi))
  · intro i h1 h2
    have hge := hspec.above i h1 h2
    apply decide_eq_false
    rw [cmpDigest_neg_iff]
    omega

/-- Three digests with one first word and a fourth above them. -/
def sharedFirstWord : DuckCache where
  cacheSize := 0
  nMaxObjects := 4
  nCurObjects := 4
  freeListAddr := 0
  nFreePages := 0
  nTotalPages := 0
  objHash := fun i => if i < 3 then 7 else 9
  objDigest := fun i => ⟨#v[if i < 3 then 7 else 9, UInt64.ofNat i, 0, 0]⟩
  objMetadata := fun _ => ⟨0, 0, 0⟩
  firstPage := 0
  mem := fun _ => 0

theorem sharedFirstWord_indexed : sharedFirstWord.Indexed := by
  constructor
  · have h : ∀ j, j < 4 → ∀ i, i < j →
        cmpDigest (sharedFirstWord.objDigest i) (sharedFirstWord.objDigest j) < 0 := by decide
    intro i j hij hj
    exact h j hj i hij
  · have h : ∀ i, i < 4 →
        sharedFirstWord.objHash i = (sharedFirstWord.objDigest i).word 0 := by decide
    exact h

/-- The scan passes two digests of the run and stops behind its last one. -/
theorem find_counts_smaller_sharedFirstWord :
    ((sharedFirstWord.find ⟨#v[7, 2, 0, 0]⟩).1 = true ↔
        ∃ i, i < sharedFirstWord.nCurObjects ∧ sharedFirstWord.objDigest i = ⟨#v[7, 2, 0, 0]⟩) ∧
      (sharedFirstWord.find ⟨#v[7, 2, 0, 0]⟩).2 =
        (List.range sharedFirstWord.nCurObjects).countP
          (fun i => decide (cmpDigest (sharedFirstWord.objDigest i) ⟨#v[7, 2, 0, 0]⟩ < 0)) :=
  find_counts_smaller sharedFirstWord_indexed ⟨#v[7, 2, 0, 0]⟩

end DuckCache

end JudgePenguin
