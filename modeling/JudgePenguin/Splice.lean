/-
  JudgePenguin/Splice.lean
  ========================
  **Ranges of a list**: `slice` takes one out and `splice` puts another in its place.

  A list with these two operations is what a buffer is to its clients.  The laws are
  those of a store, element by element: inside the range stands what was spliced in,
  outside it what stood there before, and the length does not change.  `Mem.read_write`
  says that the bytes of a memory from one address on are such a list.
-/
import JudgePenguin.ByteMemory

namespace Splice

variable {α : Type}

/-- The `n` elements from `off` on. -/
def slice (xs : List α) (off n : Nat) : List α := (xs.drop off).take n

/-- `xs` with `ys` in place of as many elements from `off` on. -/
def splice (xs : List α) (off : Nat) (ys : List α) : List α :=
  xs.take off ++ ys ++ xs.drop (off + ys.length)

theorem length_slice {xs : List α} {off n : Nat} (h : off + n ≤ xs.length) :
    (slice xs off n).length = n := by
  simp only [slice, List.length_take, List.length_drop]
  omega

theorem getElem?_slice (xs : List α) (off n i : Nat) :
    (slice xs off n)[i]? = if i < n then xs[off + i]? else none := by
  simp only [slice, List.getElem?_take, List.getElem?_drop]

@[simp] theorem splice_nil (xs : List α) (off : Nat) : splice xs off [] = xs := by
  simp [splice]

theorem length_splice {xs ys : List α} {off : Nat} (h : off + ys.length ≤ xs.length) :
    (splice xs off ys).length = xs.length := by
  simp only [splice, List.length_append, List.length_take, List.length_drop]
  omega

/-- An element inside the range is one of the new ones. -/
theorem getElem?_splice_inside {xs ys : List α} {off i : Nat} (h : off + ys.length ≤ xs.length)
    (h1 : off ≤ i) (h2 : i < off + ys.length) : (splice xs off ys)[i]? = ys[i - off]? := by
  have hfront : (xs.take off).length = off := by
    rw [List.length_take]
    omega
  rw [splice, List.append_assoc, List.getElem?_append_right (by omega), hfront,
    List.getElem?_append_left (by omega)]

/-- An element outside the range is as before. -/
theorem getElem?_splice_outside {xs ys : List α} {off i : Nat} (h : off + ys.length ≤ xs.length)
    (hi : i < off ∨ off + ys.length ≤ i) : (splice xs off ys)[i]? = xs[i]? := by
  have hfront : (xs.take off).length = off := by
    rw [List.length_take]
    omega
  rcases hi with hi | hi
  · rw [splice, List.append_assoc, List.getElem?_append_left (by omega),
      List.getElem?_take_of_lt hi]
  · rw [splice, List.getElem?_append_right (by rw [List.length_append]; omega), List.length_append,
      hfront, List.getElem?_drop]
    congr 1
    omega

end Splice

namespace Mem

open Splice

/-- The bytes from `a` on, after a store among them. -/
theorem read_write (m : Mem) (a : Nat) {off n : Nat} {bs : List UInt8} (h : off + bs.length ≤ n) :
    (m.write (a + off) bs).read a n = splice (m.read a n) off bs := by
  have hlen : off + bs.length ≤ (m.read a n).length := by rwa [length_read]
  apply List.ext_getElem?
  intro i
  by_cases hi : i < n
  · rw [getElem?_read _ _ hi]
    by_cases hin : off ≤ i ∧ i < off + bs.length
    · obtain ⟨d, rfl⟩ := Nat.exists_eq_add_of_le hin.1
      rw [getElem?_splice_inside hlen (by omega) (by omega), Nat.add_sub_cancel_left,
        ← Nat.add_assoc, write_inside m (a + off) bs (by omega), List.getElem?_eq_getElem]
    · rw [getElem?_splice_outside hlen (by omega), getElem?_read _ _ hi,
        write_outside m _ _ (by omega)]
  · rw [List.getElem?_eq_none (by rw [length_read]; omega),
      List.getElem?_eq_none (by rw [length_splice hlen, length_read]; omega)]

end Mem
