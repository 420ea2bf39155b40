/-
  JudgePenguin/Guarded.lean
  =========================
  **Guarded computations**: straight-line code with early exits and accesses that
  are only defined on some inputs.

  A computation is a value of `Except Stop`.  It stops with `rejected` when the
  program leaves through one of its own checks, and with `stray` when it makes an
  access outside the data it was given.  `bind_eq_ok` turns "the code ran to its
  end" into the list of its checks; `Safe` says that no run is stray, and has one
  rule for each way to build a computation.
-/
import Mathlib.Data.List.Basic

namespace Guarded

/-- Why a computation stopped early. -/
inductive Stop where
  | stray
  | rejected
deriving DecidableEq, Repr

variable {α β σ : Type}

/-- An early exit of the program. -/
def rejectIf (p : Prop) [Decidable p] : Except Stop Unit :=
  if p then .error .rejected else .ok ()

/-- An access that is defined when `p` holds, with its value there. -/
def access (p : Prop) [Decidable p] (a : α) : Except Stop α :=
  if p then .ok a else .error .stray

/-! ## Running to the end -/

theorem bind_eq_ok {m : Except Stop α} {f : α → Except Stop β} {b : β} :
    (m >>= f) = .ok b ↔ ∃ a, m = .ok a ∧ f a = .ok b := by
  cases m with
  | error e =>
    constructor
    · intro h
      cases h
    · rintro ⟨a, h, -⟩
      cases h
  | ok a =>
    constructor
    · intro h
      exact ⟨a, rfl, h⟩
    · rintro ⟨a', h, h'⟩
      cases h
      exact h'

theorem rejectIf_eq_ok {p : Prop} [Decidable p] {u : Unit} : rejectIf p = .ok u ↔ ¬ p := by
  unfold rejectIf
  by_cases hp : p
  · rw [if_pos hp]
    constructor
    · intro h
      cases h
    · exact fun h => absurd hp h
  · rw [if_neg hp]
    exact ⟨fun _ => hp, fun _ => rfl⟩

theorem rejectIf_bind_eq_ok {p : Prop} [Decidable p] {f : Unit → Except Stop β} {b : β} :
    (rejectIf p >>= f) = .ok b ↔ ¬ p ∧ f () = .ok b := by
  rw [bind_eq_ok]
  constructor
  · rintro ⟨u, hu, h⟩
    exact ⟨rejectIf_eq_ok.mp hu, h⟩
  · rintro ⟨hp, h⟩
    exact ⟨(), rejectIf_eq_ok.mpr hp, h⟩

theorem access_eq_ok {p : Prop} [Decidable p] {a b : α} : access p a = .ok b ↔ p ∧ a = b := by
  unfold access
  by_cases hp : p
  · rw [if_pos hp]
    constructor
    · intro h
      cases h
      exact ⟨hp, rfl⟩
    · rintro ⟨-, rfl⟩
      rfl
  · rw [if_neg hp]
    constructor
    · intro h
      cases h
    · exact fun h => absurd h.1 hp

/-- An access is determined by whether it is defined and by its value there. -/
theorem access_congr {p q : Prop} [Decidable p] [Decidable q] {a b : α} (hpq : p ↔ q)
    (hab : p → a = b) : access p a = access q b := by
  unfold access
  by_cases hp : p
  · rw [if_pos hp, if_pos (hpq.mp hp), hab hp]
  · rw [if_neg hp, if_neg fun hq => hp (hpq.mpr hq)]

theorem access_of {p : Prop} [Decidable p] (hp : p) (a : α) : access p a = .ok a :=
  access_eq_ok.mpr ⟨hp, rfl⟩

/-! ## No stray access -/

/-- The computation makes no stray access. -/
def Safe (m : Except Stop α) : Prop := m ≠ .error .stray

theorem Safe.ok (a : α) : Safe (.ok a : Except Stop α) := by
  intro h
  cases h

theorem Safe.rejectIf (p : Prop) [Decidable p] : Safe (rejectIf p) := by
  unfold Guarded.rejectIf
  intro h
  split at h
  · cases h
  · cases h

theorem Safe.access {p : Prop} [Decidable p] (hp : p) (a : α) : Safe (access p a) := by
  rw [access_of hp]
  exact Safe.ok a

theorem Safe.bind {m : Except Stop α} {f : α → Except Stop β} (hm : Safe m)
    (hf : ∀ a, m = .ok a → Safe (f a)) : Safe (m >>= f) := by
  cases m with
  | error e =>
    intro h
    cases h
    exact hm rfl
  | ok a => exact hf a rfl

/-- After a check the rest of the code may rely on it. -/
theorem Safe.rejectIf_bind {p : Prop} [Decidable p] {f : Unit → Except Stop β}
    (hf : ¬ p → Safe (f ())) : Safe (Guarded.rejectIf p >>= f) :=
  (Safe.rejectIf p).bind fun _ h => hf (rejectIf_eq_ok.mp h)

theorem Safe.foldlM {f : σ → α → Except Stop σ} {l : List α}
    (h : ∀ a ∈ l, ∀ s, Safe (f s a)) (s : σ) : Safe (l.foldlM f s) := by
  induction l generalizing s with
  | nil => exact Safe.ok s
  | cons a l ih =>
    rw [List.foldlM_cons]
    exact Safe.bind (h a (by simp) s) fun s' _ => ih (fun b hb => h b (by simp [hb])) s'

/-- A computation without a stray access runs to its end or is rejected. -/
theorem Safe.eq_rejected {m : Except Stop α} (h : Safe m) (hno : ¬ ∃ a, m = .ok a) :
    m = .error .rejected := by
  cases m with
  | error e =>
    cases e with
    | stray => exact absurd rfl h
    | rejected => rfl
  | ok a => exact absurd ⟨a, rfl⟩ hno

end Guarded
