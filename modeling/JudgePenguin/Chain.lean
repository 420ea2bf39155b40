/-
  JudgePenguin/Chain.lean
  =======================
  **Chains of next-pointers.**  An intrusive singly linked list is a function
  `next` on addresses; a list of `n` cells from `a` is what `n` steps of `next`
  visit.  Nothing here asks for a terminator: the length is given from outside,
  so the same notion covers null-terminated lists and chains whose length is
  recorded elsewhere.

  The three rules that programs on such lists use are `follow_add` (a chain is
  cut at any point), `follow_congr` (rewriting pointers off the chain does not
  change it) and `follow_splice` (redirecting the last cell of one chain to the
  head of another concatenates them).
-/
import Mathlib.Data.List.Nodup
import Mathlib.Logic.Function.Iterate

namespace Chain

variable {α : Type} (next next' : α → α)

/-- The first `n` cells of the chain from `a`. -/
def follow : α → Nat → List α
  | _, 0 => []
  | a, n + 1 => a :: follow (next a) n

@[simp] theorem follow_zero (a : α) : follow next a 0 = [] := rfl

@[simp] theorem follow_succ (a : α) (n : Nat) :
    follow next a (n + 1) = a :: follow next (next a) n := rfl

@[simp] theorem length_follow (a : α) (n : Nat) : (follow next a n).length = n := by
  induction n generalizing a with
  | zero => rfl
  | succ n ih => simp [ih]

theorem follow_add (a : α) (m n : Nat) :
    follow next a (m + n) = follow next a m ++ follow next (next^[m] a) n := by
  induction m generalizing a with
  | zero => simp
  | succ m ih =>
    rw [Nat.succ_add, follow_succ, ih (next a)]
    rfl

/-- The cells of a chain are the iterates of `next`. -/
theorem follow_eq_map_iterate (a : α) (n : Nat) :
    follow next a n = (List.range n).map fun k => next^[k] a := by
  induction n with
  | zero => rfl
  | succ n ih =>
    rw [follow_add next a n 1, ih, List.range_succ, List.map_append]
    rfl

theorem mem_follow_iterate (a : α) {k n : Nat} (h : k < n) : next^[k] a ∈ follow next a n := by
  rw [follow_eq_map_iterate]
  exact List.mem_map.mpr ⟨k, List.mem_range.mpr h, rfl⟩

variable {next next'}

/-- Pointers off the chain do not matter. -/
theorem follow_congr {a : α} {n : Nat} (h : ∀ x ∈ follow next a n, next' x = next x) :
    follow next' a n = follow next a n ∧ next'^[n] a = next^[n] a := by
  induction n generalizing a with
  | zero => exact ⟨rfl, rfl⟩
  | succ n ih =>
    have ha : next' a = next a := h a (by simp)
    obtain ⟨h1, h2⟩ := ih (a := next a) fun x hx => h x (by simp [hx])
    constructor
    · rw [follow_succ, follow_succ, ha, h1]
    · rw [Function.iterate_succ_apply, Function.iterate_succ_apply, ha, h2]

/-- Redirecting the last cell of a chain of `n + 1` cells to `t` appends the
    chain from `t` to it. -/
theorem follow_splice {s t : α} {n k : Nat}
    (hnd : (follow next s (n + 1)).Nodup)
    (hlast : next' (next^[n] s) = t)
    (hsame : ∀ x, x ≠ next^[n] s → x ∈ follow next s (n + 1) → next' x = next x)
    (htail : ∀ x ∈ follow next t k, next' x = next x) :
    follow next' s (n + 1 + k) = follow next s (n + 1) ++ follow next t k ∧
      next'^[n + 1 + k] s = next^[k] t := by
  -- the cells before the last one keep their pointers
  have hinit : ∀ x ∈ follow next s n, next' x = next x := by
    intro x hx
    have hmem : x ∈ follow next s (n + 1) := by
      rw [follow_add]
      exact List.mem_append_left _ hx
    refine hsame x ?_ hmem
    rintro rfl
    rw [follow_add] at hnd
    exact List.disjoint_of_nodup_append hnd hx (by simp)
  obtain ⟨hf, hi⟩ := follow_congr hinit
  obtain ⟨hft, hit⟩ := follow_congr htail
  have hstep : next'^[n + 1] s = t := by
    rw [Function.iterate_succ_apply', hi, hlast]
  constructor
  · rw [follow_add next' s (n + 1) k, hstep, hft, follow_add next' s n 1, hf, hi,
      follow_add next s n 1]
    rfl
  · rw [Nat.add_comm (n + 1) k, Function.iterate_add_apply, hstep, hit]

end Chain
