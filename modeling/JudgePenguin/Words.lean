/-
  JudgePenguin/Words.lean
  =======================
  **64-bit unsigned arithmetic and rounding.**  A machine word is a natural
  number below `2 ^ 64`; an operation of the program that can wrap carries an
  explicit `wrap64`.  `ceilTo` and `floorTo` are the exact roundings to a
  multiple of `r`, against which wrapping implementations are compared.
-/
import Mathlib.Data.Nat.Basic
import Mathlib.Tactic.Linarith

namespace Words

/-- The value of a 64-bit register after an unsigned operation. -/
def wrap64 (x : Nat) : Nat := x % 2 ^ 64

theorem wrap64_lt (x : Nat) : wrap64 x < 2 ^ 64 := Nat.mod_lt _ (by decide)

theorem wrap64_of_lt {x : Nat} (h : x < 2 ^ 64) : wrap64 x = x := Nat.mod_eq_of_lt h

/-- Unsigned subtraction of two words. -/
def sub64 (x y : Nat) : Nat := wrap64 (x + 2 ^ 64 - y)

theorem sub64_of_le {x y : Nat} (hx : x < 2 ^ 64) (h : y ≤ x) : sub64 x y = x - y := by
  simp only [sub64, wrap64]
  omega

/-- Adding `y` undoes subtracting it. -/
theorem sub64_wrap64_add {x y : Nat} (hx : x < 2 ^ 64) (hy : y < 2 ^ 64) :
    sub64 (wrap64 (x + y)) y = x := by
  simp only [sub64, wrap64]
  omega

/-- Exact rounding up to a multiple of `r`. -/
def ceilTo (x r : Nat) : Nat := (x + r - 1) / r * r

/-- Exact rounding down to a multiple of `r`. -/
def floorTo (x r : Nat) : Nat := x / r * r

section Rounding

variable {x r : Nat}

theorem floorTo_le (x r : Nat) : floorTo x r ≤ x := Nat.div_mul_le_self x r

theorem lt_floorTo_add (x : Nat) (hr : 0 < r) : x < floorTo x r + r := by
  have h := Nat.div_add_mod x r
  have hm := Nat.mod_lt x hr
  unfold floorTo
  rw [Nat.mul_comm] at h
  omega

theorem dvd_ceilTo (x r : Nat) : r ∣ ceilTo x r := Dvd.intro_left _ rfl

theorem ceilTo_eq_floorTo (x r : Nat) : ceilTo x r = floorTo (x + r - 1) r := rfl

theorem le_ceilTo (x : Nat) (hr : 0 < r) : x ≤ ceilTo x r := by
  have h := lt_floorTo_add (x + r - 1) hr
  rw [ceilTo_eq_floorTo]
  omega

theorem ceilTo_lt (x : Nat) (hr : 0 < r) : ceilTo x r < x + r := by
  have h := floorTo_le (x + r - 1) r
  rw [ceilTo_eq_floorTo]
  omega

end Rounding

end Words
