/-
  JudgePenguin/ArrayLoops.lean
  ============================
  **Counted loops over raw arrays.**  A C array of unknown capacity is a function
  on indices of which a prefix of known length is meaningful (`firstN`).  The
  counted loop `for (i = 0; i < n; i++)` is `countUp`, and its one proof rule is
  `countUp_induct`: what every pass preserves, the whole loop preserves.

  Two array idioms are verified once for any element type: keeping the elements
  that pass a test, in order and in place (`compact`), and opening a gap to
  insert one element (`insertAt`).  On the meaningful prefix the first is
  `List.filter` and the second is `List.insertIdx`.
-/
import Mathlib.Data.List.Basic
import Mathlib.Data.List.Flatten
import Mathlib.Logic.Function.Basic

namespace ArrayLoops

variable {σ α β : Type}

/-! ## Counted loops -/

/-- `for (i = 0; i < n; i++) s = body i s`. -/
def countUp (body : Nat → σ → σ) : Nat → σ → σ
  | 0, s => s
  | n + 1, s => body n (countUp body n s)

theorem countUp_induct (body : Nat → σ → σ) (n : Nat) (s : σ) (I : Nat → σ → Prop)
    (h0 : I 0 s) (hstep : ∀ i, i < n → ∀ s, I i s → I (i + 1) (body i s)) :
    I n (countUp body n s) := by
  induction n with
  | zero => exact h0
  | succ n ih =>
    have hn := ih fun i hi => hstep i (by omega)
    exact hstep n (by omega) _ hn

/-- The same loop with a body that can fault; a fault ends it. -/
def countUpM (body : Nat → σ → Option σ) : Nat → σ → Option σ
  | 0, s => some s
  | n + 1, s => (countUpM body n s).bind (body n)

/-- What every pass establishes for the next one, the whole loop establishes; in
    particular it does not fault. -/
theorem countUpM_induct (body : Nat → σ → Option σ) (n : Nat) (s : σ) (I : Nat → σ → Prop)
    (h0 : I 0 s) (hstep : ∀ i, i < n → ∀ s, I i s → ∃ s', body i s = some s' ∧ I (i + 1) s') :
    ∃ s', countUpM body n s = some s' ∧ I n s' := by
  induction n with
  | zero => exact ⟨s, rfl, h0⟩
  | succ n ih =>
    obtain ⟨s1, h1, hI⟩ := ih fun i hi => hstep i (by omega)
    obtain ⟨s2, h2, hI'⟩ := hstep n (by omega) s1 hI
    refine ⟨s2, ?_, hI'⟩
    rw [countUpM, h1]
    exact h2

/-- Two loops whose passes stay related stay related, if the first does not fault. -/
theorem countUpM_related {τ : Type} {body : Nat → σ → Option σ} {body' : Nat → τ → τ}
    {r : σ → τ → Prop} {n : Nat} {s s' : σ} {t : τ}
    (hstep : ∀ i, i < n → ∀ s s' t, r s t → body i s = some s' → r s' (body' i t))
    (h : r s t) (hrun : countUpM body n s = some s') : r s' (countUp body' n t) := by
  induction n generalizing s' with
  | zero =>
    rw [countUpM, Option.some.injEq] at hrun
    rwa [← hrun]
  | succ n ih =>
    rw [countUpM, Option.bind_eq_some_iff] at hrun
    obtain ⟨s1, h1, h2⟩ := hrun
    exact hstep n (by omega) _ _ _ (ih (fun i hi => hstep i (by omega)) h1) h2

/-- A loop whose passes project to those of another loop projects to it. -/
theorem countUpM_map {τ : Type} {body : Nat → σ → Option σ} {body' : Nat → τ → Option τ}
    (f : τ → σ) (hbody : ∀ i t, (body' i t).map f = body i (f t)) (n : Nat) (t : τ) :
    (countUpM body' n t).map f = countUpM body n (f t) := by
  induction n with
  | zero => rfl
  | succ n ih =>
    rw [countUpM, countUpM, ← ih]
    cases countUpM body' n t with
    | none => rfl
    | some t' => exact hbody n t'

/-! ## Partition points -/

/-- The first position of `[lo, hi)` at which `p` fails, or `hi`. -/
def firstNot (p : Nat → Bool) (lo hi : Nat) : Nat :=
  lo + ((List.range' lo (hi - lo)).takeWhile p).length

theorem firstNot_spec (p : Nat → Bool) {lo hi : Nat} (h : lo ≤ hi) :
    lo ≤ firstNot p lo hi ∧ firstNot p lo hi ≤ hi ∧
      (∀ i, lo ≤ i → i < firstNot p lo hi → p i = true) ∧
      (firstNot p lo hi < hi → p (firstNot p lo hi) = false) := by
  obtain ⟨d, rfl⟩ := Nat.exists_eq_add_of_le h
  have hd : lo + d - lo = d := by omega
  induction d generalizing lo with
  | zero =>
    simp only [firstNot, hd, List.range'_zero, List.takeWhile_nil, List.length_nil]
    exact ⟨by omega, by omega, fun i h1 h2 => by omega, fun h => by omega⟩
  | succ d ih =>
    by_cases hp : p lo = true
    · -- `p` holds at `lo`: the answer is the one for the rest of the range
      have hrec : firstNot p lo (lo + (d + 1)) = firstNot p (lo + 1) (lo + 1 + d) := by
        have h1 : lo + 1 + d - (lo + 1) = d := by omega
        simp only [firstNot, hd, h1, List.range'_succ, List.takeWhile_cons, hp, if_true,
          List.length_cons]
        omega
      obtain ⟨h1, h2, h3, h4⟩ := @ih (lo + 1) (by omega) (by omega)
      rw [hrec]
      refine ⟨by omega, by omega, ?_, fun h => h4 (by omega)⟩
      intro i hi1 hi2
      rcases Nat.eq_or_lt_of_le hi1 with rfl | hlt
      · exact hp
      · exact h3 i hlt hi2
    · have hrec : firstNot p lo (lo + (d + 1)) = lo := by
        simp [firstNot, hd, List.range'_succ, hp]
      rw [hrec]
      refine ⟨by omega, by omega, fun i h1 h2 => by omega, fun _ => ?_⟩
      simpa using hp

/-! ## Array prefixes -/

/-- The first `n` elements of an array. -/
def firstN (f : Nat → α) (n : Nat) : List α := (List.range n).map f

@[simp] theorem length_firstN (f : Nat → α) (n : Nat) : (firstN f n).length = n := by
  simp [firstN]

@[simp] theorem getElem_firstN (f : Nat → α) {n i : Nat} (h : i < (firstN f n).length) :
    (firstN f n)[i] = f i := by
  simp [firstN]

theorem mem_firstN {f : Nat → α} {n : Nat} {x : α} :
    x ∈ firstN f n ↔ ∃ i, i < n ∧ f i = x := by
  simp [firstN]

theorem firstN_succ (f : Nat → α) (n : Nat) : firstN f (n + 1) = firstN f n ++ [f n] := by
  simp [firstN, List.range_succ]

theorem firstN_congr {f g : Nat → α} {n : Nat} (h : ∀ i < n, f i = g i) :
    firstN f n = firstN g n := by
  unfold firstN
  apply List.map_congr_left
  intro i hi
  exact h i (List.mem_range.mp hi)

theorem firstN_update_last (f : Nat → α) (n : Nat) (x : α) :
    firstN (Function.update f n x) (n + 1) = firstN f n ++ [x] := by
  rw [firstN_succ, Function.update_self]
  congr 1
  apply firstN_congr
  intro i hi
  exact Function.update_of_ne (by omega) _ _

theorem map_firstN (g : α → β) (f : Nat → α) (n : Nat) :
    (firstN f n).map g = firstN (fun i => g (f i)) n := by
  simp [firstN, Function.comp_def]

/-! ## Compaction -/

/-- One pass of an in-place compaction: element `i` is kept by moving it to
    position `j`. -/
def compactStep (keep : α → Bool) (i : Nat) (s : (Nat → α) × Nat) : (Nat → α) × Nat :=
  if keep (s.1 i) then (Function.update s.1 s.2 (s.1 i), s.2 + 1) else s

/-- In-place compaction keeps exactly the elements that pass, in order. -/
theorem firstN_compact (keep : α → Bool) (f : Nat → α) (n : Nat) :
    let r := countUp (compactStep keep) n (f, 0)
    firstN r.1 r.2 = (firstN f n).filter keep := by
  -- the write position never overtakes the read position, so unread elements are intact
  have h := countUp_induct (compactStep keep) n (f, 0)
    (fun i s => s.2 ≤ i ∧ (∀ k, i ≤ k → s.1 k = f k) ∧
      firstN s.1 s.2 = (firstN f i).filter keep)
    ⟨Nat.le_refl _, fun _ _ => rfl, by simp [firstN]⟩
    (by
      rintro i - ⟨g, j⟩ ⟨hj, hrest, hfilter⟩
      have hgi : g i = f i := hrest i (Nat.le_refl _)
      simp only at hj hrest hfilter
      rw [firstN_succ, List.filter_append]
      by_cases hk : keep (f i) = true
      · have hk' : keep (g i) = true := by rw [hgi]; exact hk
        simp only [compactStep, hk', if_true]
        refine ⟨by omega, ?_, ?_⟩
        · intro k hik
          rw [Function.update_of_ne (by omega)]
          exact hrest k (by omega)
        · rw [firstN_update_last, hfilter, hgi]
          simp [hk]
      · have hk' : ¬ keep (g i) = true := by rw [hgi]; exact hk
        rw [compactStep, if_neg hk']
        refine ⟨by omega, fun k hik => hrest k (by omega), ?_⟩
        simp [hfilter, hk])
  exact h.2.2

/-! ## Insertion -/

/-- `memmove` of the elements `[i, n)` one place up, then a store at `i`. -/
def insertAt (f : Nat → α) (i n : Nat) (x : α) : Nat → α :=
  Function.update (fun k => if i < k ∧ k ≤ n then f (k - 1) else f k) i x

@[simp] theorem insertAt_self (f : Nat → α) (i n : Nat) (x : α) : insertAt f i n x i = x := by
  simp [insertAt]

theorem insertAt_lt (f : Nat → α) {i n k : Nat} (x : α) (h : k < i) :
    insertAt f i n x k = f k := by
  unfold insertAt
  rw [Function.update_of_ne (by omega)]
  exact if_neg (by omega)

theorem insertAt_gt (f : Nat → α) {i n k : Nat} (x : α) (h1 : i < k) (h2 : k ≤ n) :
    insertAt f i n x k = f (k - 1) := by
  unfold insertAt
  rw [Function.update_of_ne (by omega)]
  exact if_pos ⟨h1, h2⟩

theorem firstN_insertAt (f : Nat → α) {i n : Nat} (x : α) (h : i ≤ n) :
    firstN (insertAt f i n x) (n + 1) = (firstN f n).insertIdx i x := by
  apply List.ext_getElem
  · rw [length_firstN, List.length_insertIdx_of_le_length (by simpa using h), length_firstN]
  · intro k hk _
    simp only [length_firstN] at hk
    rw [getElem_firstN]
    rcases Nat.lt_trichotomy k i with hlt | rfl | hgt
    · rw [insertAt_lt f x hlt, List.getElem_insertIdx_of_lt hlt, getElem_firstN]
    · rw [insertAt_self, List.getElem_insertIdx_self]
    · rw [insertAt_gt f x hgt (by omega), List.getElem_insertIdx_of_gt hgt, getElem_firstN]

theorem firstN_insertAt_perm (f : Nat → α) {i n : Nat} (x : α) (h : i ≤ n) :
    (firstN (insertAt f i n x) (n + 1)).Perm (x :: firstN f n) := by
  rw [firstN_insertAt f x h]
  exact List.perm_insertIdx x (firstN f n) (by simpa using h)

end ArrayLoops
