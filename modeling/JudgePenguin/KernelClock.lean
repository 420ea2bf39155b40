/-
  JudgePenguin/KernelClock.lean
  =============================
  **The kernel's clock** (`inc/timer.hpp`).

  `Timer::init` reads the counter for `tsc_epoch` while `IA32_TSC_ADJUST` is what
  the firmware left there, and the first return from a program sets it to zero for
  good.  From then on the clock is off by the adjustment at boot: it never runs
  backwards exactly when that was zero or took the epoch around.
-/
import JudgePenguin.Clocks
import JudgePenguin.TimeStamp

namespace JudgePenguin

open Trap

/-- `Timer::get_tsc` when the free-running counter is at `p`. -/
def getTsc (k : Kernel) (p : UInt64) : UInt64 := p + k.tscAdjust

/-- `Timer::tsc_since_epoch`, where `tsc` is what `get_tsc` reads. -/
def TimerState.tscSinceEpoch (s : TimerState) (tsc : UInt64) : UInt64 :=
  if s.tscEpoch = 0 then -1 else tsc - s.tscEpoch

/-- What the kernel does with the clock. -/
inductive ClockEvent where
  /-- `tsc_since_epoch` with the counter at `p`. -/
  | read (p : UInt64)
  | runUser (u : UserCall)

/-- The successive values of `tsc_since_epoch`. -/
def readings (s : TimerState) (k : Kernel) : List ClockEvent → Option (List UInt64)
  | [] => some []
  | .read p :: es => (readings s k es).map fun rs => s.tscSinceEpoch (getTsc k p) :: rs
  | .runUser u :: es => (runUser64At u k).bind fun r => readings s r.kernel es

/-- Each sequence of a call is gone through between `p` and `q` in its turn. -/
def InOrder : UInt64 → List Times → UInt64 → Prop
  | p, [], q => p ≤ q
  | p, P :: Ps, q =>
    ∃ r, (∀ i, p ≤ P i ∧ P i ≤ r) ∧ (∀ i j, i ≤ j → P i ≤ P j) ∧ InOrder r Ps q

def Trap.UserCall.times (u : UserCall) : List Times :=
  u.enterTimes :: u.returnTimes :: (u.ticks.map Tick.times ++ [u.endTimes])

/-- Events one after another while the counter goes up from `p` and does not wrap; each
    program comes back to the kernel. -/
inductive History : UInt64 → List ClockEvent → Prop
  | nil (p : UInt64) : History p []
  | read {p q : UInt64} {es : List ClockEvent} (hpq : p ≤ q) (rest : History q es) :
      History p (.read q :: es)
  | runUser {p q : UInt64} {u : UserCall} {es : List ClockEvent} (h : u.ending.Caught)
      (hin : InOrder p u.times q) (rest : History q es) : History p (.runUser u :: es)

theorem InOrder.le {p q : UInt64} {Ps : List Times} (h : InOrder p Ps q) : p ≤ q := by
  induction Ps generalizing p with
  | nil => exact h
  | cons P Ps ih =>
    obtain ⟨r, hin, -, hrest⟩ := h
    exact UInt64.le_trans (UInt64.le_trans (hin 0).1 (hin 0).2) (ih hrest)

theorem readings_read (s : TimerState) (k : Kernel) (p : UInt64) (es : List ClockEvent) :
    readings s k (.read p :: es) =
      (readings s k es).map fun rs => s.tscSinceEpoch (getTsc k p) :: rs := rfl

/-- A run leaves no adjustment. -/
theorem readings_runUser (s : TimerState) (k : Kernel) {u : UserCall} (h : u.ending.Caught)
    (es : List ClockEvent) :
    ∃ k', k'.tscAdjust = 0 ∧ readings s k (.runUser u :: es) = readings s k' es := by
  obtain ⟨r, hr, hadjust⟩ := runUser64At_tscAdjust u k h
  refine ⟨r.kernel, hadjust, ?_⟩
  rw [readings, hr, Option.bind_some]

/-! ## Without going backwards -/

/-- The clock goes forward from `p`, and across the first run as well. -/
structure Forward (s : TimerState) (a p : UInt64) : Prop where
  before : ∀ q r, p ≤ q → q ≤ r → s.tscSinceEpoch (q + a) ≤ s.tscSinceEpoch (r + a)
  across : ∀ q, p ≤ q → s.tscSinceEpoch (q + a) ≤ s.tscSinceEpoch q
  after : ∀ q r, p ≤ q → q ≤ r → s.tscSinceEpoch q ≤ s.tscSinceEpoch r

theorem Forward.later {s : TimerState} {a p q : UInt64} (h : Forward s a p) (hpq : p ≤ q) :
    Forward s a q :=
  ⟨fun r t hqr hrt => h.before r t (UInt64.le_trans hpq hqr) hrt,
    fun r hqr => h.across r (UInt64.le_trans hpq hqr),
    fun r t hqr hrt => h.after r t (UInt64.le_trans hpq hqr) hrt⟩

/-- After a run. -/
theorem Forward.settled {s : TimerState} {a p : UInt64} (h : Forward s a p) : Forward s 0 p := by
  refine ⟨fun q r hpq hqr => ?_, fun q _ => ?_, h.after⟩
  · rw [UInt64.add_zero, UInt64.add_zero]
    exact h.after q r hpq hqr
  · rw [UInt64.add_zero]
    exact UInt64.le_refl _

/-- The readings of a history go up, and none is below what the clock says at its start. -/
theorem readings_forward {s : TimerState} {k : Kernel} {p : UInt64} {es : List ClockEvent}
    (hes : History p es) (h : Forward s k.tscAdjust p) :
    ∃ rs, readings s k es = some rs ∧ (∀ r ∈ rs, s.tscSinceEpoch (p + k.tscAdjust) ≤ r) ∧
      rs.Pairwise (· ≤ ·) := by
  induction hes generalizing k with
  | nil p => exact ⟨[], rfl, by simp, List.Pairwise.nil⟩
  | @read p q es hpq rest ih =>
    obtain ⟨rs, hrs, hlow, hpair⟩ := ih (h.later hpq)
    have hfirst := h.before p q (UInt64.le_refl p) hpq
    refine ⟨s.tscSinceEpoch (getTsc k q) :: rs, ?_, ?_, List.pairwise_cons.mpr ⟨hlow, hpair⟩⟩
    · rw [readings_read, hrs, Option.map_some]
    · intro r hr
      rcases List.mem_cons.mp hr with rfl | hr
      · exact hfirst
      · exact UInt64.le_trans hfirst (hlow r hr)
  | @runUser p q u es hu hin rest ih =>
    obtain ⟨k', hadjust, hrun⟩ := readings_runUser s k hu es
    have hpq := hin.le
    have hsettled : Forward s k'.tscAdjust q := by
      rw [hadjust]
      exact h.settled.later hpq
    obtain ⟨rs, hrs, hlow, hpair⟩ := ih hsettled
    rw [hadjust, UInt64.add_zero] at hlow
    refine ⟨rs, hrun.trans hrs, fun r hr => ?_, hpair⟩
    exact UInt64.le_trans (UInt64.le_trans (h.across p (UInt64.le_refl p))
      (h.after p q (UInt64.le_refl p) hpq)) (hlow r hr)

section Epoch

variable {s : TimerState} {a p : UInt64}

theorem tscSinceEpoch_zero (h : s.tscEpoch = 0) (tsc : UInt64) : s.tscSinceEpoch tsc = -1 := if_pos h

theorem tscSinceEpoch_ne (h : s.tscEpoch ≠ 0) (tsc : UInt64) :
    s.tscSinceEpoch tsc = tsc - s.tscEpoch := if_neg h

/-- Readings under one adjustment differ as the counter does. -/
theorem add_sub_add (q p a : UInt64) : q + a - (p + a) = q - p := by
  rw [UInt64.add_comm p, UInt64.sub_eq_add_neg, UInt64.neg_add, UInt64.sub_eq_add_neg (-a),
    ← UInt64.add_assoc, UInt64.add_assoc q, UInt64.add_comm a, UInt64.add_left_neg, UInt64.add_zero,
    ← UInt64.sub_eq_add_neg]

theorem sub_le_sub {e q r : UInt64} (heq : e ≤ q) (hqr : q ≤ r) : q - e ≤ r - e := by
  rw [UInt64.le_iff_toNat_le, UInt64.toNat_sub_of_le q e heq,
    UInt64.toNat_sub_of_le r e (UInt64.le_trans heq hqr)]
  exact Nat.sub_le_sub_right (UInt64.le_iff_toNat_le.mp hqr) _

/-- The epoch is not later than the counter itself, if the adjustment is zero or takes
    it around. -/
theorem epoch_le (h : a = 0 ∨ 2 ^ 64 ≤ p.toNat + a.toNat) : p + a ≤ p := by
  rcases h with rfl | h
  · rw [UInt64.add_zero]
    exact UInt64.le_refl p
  · have hp := p.toNat_lt
    have ha := a.toNat_lt
    rw [UInt64.le_iff_toNat_le, UInt64.toNat_add, Nat.mod_eq_sub_mod h, Nat.mod_eq_of_lt (by omega)]
    omega

theorem forward_of_epoch (hs : s.tscEpoch = p + a) (h : a = 0 ∨ 2 ^ 64 ≤ p.toNat + a.toNat) :
    Forward s a p := by
  by_cases hzero : s.tscEpoch = 0
  · refine ⟨fun q r _ _ => ?_, fun q _ => ?_, fun q r _ _ => ?_⟩
    all_goals
      rw [tscSinceEpoch_zero hzero, tscSinceEpoch_zero hzero]
      exact UInt64.le_refl _
  · have hle := epoch_le h
    refine ⟨fun q r hpq hqr => ?_, fun q hpq => ?_, fun q r hpq hqr => ?_⟩
    all_goals rw [tscSinceEpoch_ne hzero, tscSinceEpoch_ne hzero, hs]
    · rw [add_sub_add, add_sub_add]
      exact sub_le_sub hpq hqr
    · rw [add_sub_add, UInt64.le_iff_toNat_le, UInt64.toNat_sub_of_le q p hpq,
        UInt64.toNat_sub_of_le q (p + a) (UInt64.le_trans hle hpq)]
      exact Nat.sub_le_sub_left (UInt64.le_iff_toNat_le.mp hle) _
    · exact sub_le_sub (UInt64.le_trans hle hpq) hqr

end Epoch

/-- A program that calls `exit` at once. -/
def instantCall (p : UInt64) : UserCall :=
  { entry := 0x400000, rsp := 0x800000, context := idleKernel, start := quiet, finish := quiet
    enterTimes := fun _ => p, returnTimes := fun _ => p, ticks := [], endTimes := fun _ => p
    ending := .syscall (programWith 0x202), returnCode := 0 }

theorem instantCall_caught (p : UInt64) : (instantCall p).ending.Caught := ⟨by decide, by decide⟩

theorem instantCall_inOrder {p q r : UInt64} (hpq : p ≤ q) (hqr : q ≤ r) :
    InOrder p (instantCall q).times r :=
  have hrefl := UInt64.le_refl q
  ⟨q, fun _ => ⟨hpq, hrefl⟩, fun _ _ _ => hrefl, q, fun _ => ⟨hrefl, hrefl⟩, fun _ _ _ => hrefl,
    q, fun _ => ⟨hrefl, hrefl⟩, fun _ _ _ => hrefl, hqr⟩

/-- A reading, a program and another reading. -/
theorem readings_aroundRun (s : TimerState) (k : Kernel) (q r t : UInt64) :
    readings s k [.read q, .runUser (instantCall r), .read t] =
      some [s.tscSinceEpoch (q + k.tscAdjust), s.tscSinceEpoch t] := by
  obtain ⟨k', hadjust, hrun⟩ := readings_runUser s k (instantCall_caught r) [.read t]
  have hlast : getTsc k' t = t := by rw [getTsc, hadjust, UInt64.add_zero]
  rw [readings_read, hrun, readings_read, hlast]
  rfl

/-- **The clock never runs backwards exactly when** the adjustment at boot is zero or
    takes the epoch around: every history of readings and programs after `Timer::init`
    has readings that go up. -/
theorem readings_nondecreasing_iff {c : Cpuid} {s t : TimerState} {k : Kernel} {p : UInt64}
    (h : TimerState.init c (getTsc k p) s = some t) :
    (∀ es, History p es → ∃ rs, readings t k es = some rs ∧ rs.Pairwise (· ≤ ·)) ↔
      k.tscAdjust = 0 ∨ 2 ^ 64 ≤ p.toNat + k.tscAdjust.toNat := by
  have hepoch : t.tscEpoch = p + k.tscAdjust := init_tscEpoch h
  constructor
  · intro hall
    by_contra hnot
    obtain ⟨hadjust, hlt⟩ := not_or.mp hnot
    have hsum : (p + k.tscAdjust).toNat = p.toNat + k.tscAdjust.toNat := by
      rw [UInt64.toNat_add, Nat.mod_eq_of_lt (Nat.lt_of_not_le hlt)]
    have hpos : 0 < k.tscAdjust.toNat := Nat.pos_of_ne_zero fun hz => hadjust (UInt64.toNat_inj.mp hz)
    have hne : t.tscEpoch ≠ 0 := by
      rw [hepoch, ← UInt64.toNat_inj.ne, hsum]
      exact Nat.ne_of_gt (Nat.add_pos_right _ hpos)
    -- both readings are at the value of the epoch
    have hp : p ≤ t.tscEpoch := by
      rw [hepoch, UInt64.le_iff_toNat_le, hsum]
      exact Nat.le_add_right _ _
    have hrefl := UInt64.le_refl t.tscEpoch
    obtain ⟨rs, hrs, hpair⟩ := hall
      [.read t.tscEpoch, .runUser (instantCall t.tscEpoch), .read t.tscEpoch]
      (.read hp (.runUser (instantCall_caught _) (instantCall_inOrder hrefl hrefl)
        (.read hrefl (.nil _))))
    rw [readings_aroundRun, Option.some.injEq] at hrs
    rw [← hrs, List.pairwise_cons, List.forall_mem_singleton, tscSinceEpoch_ne hne,
      tscSinceEpoch_ne hne, UInt64.add_comm, UInt64.add_sub_cancel, UInt64.sub_self,
      UInt64.le_iff_toNat_le] at hpair
    exact absurd hpair.1 (Nat.not_le_of_lt hpos)
  · intro hcond es hes
    obtain ⟨rs, hrs, -, hpair⟩ := readings_forward hes (forward_of_epoch hepoch hcond)
    exact ⟨rs, hrs, hpair⟩

/-- `"AuthenticAMD"`. -/
def authenticAMD : Cpuid :=
  ⟨#v[65, 117, 116, 104, 101, 110, 116, 105, 99, 65, 77, 68], 0, 0, 0⟩

/-- The statics of the kernel where the firmware left 500 in the register. -/
def adjustedBoot : Kernel := { idleStatics with tscAdjust := 500 }

theorem readings_nondecreasing_sample :
    ∃ t, TimerState.init authenticAMD (getTsc adjustedBoot 1000) ⟨0, 0, 0, 0⟩ = some t ∧
      ((∀ es, History 1000 es → ∃ rs, readings t adjustedBoot es = some rs ∧ rs.Pairwise (· ≤ ·)) ↔
        adjustedBoot.tscAdjust = 0 ∨
          2 ^ 64 ≤ (1000 : UInt64).toNat + adjustedBoot.tscAdjust.toNat) := by
  obtain ⟨t, ht, -, -⟩ := init_others (getTsc adjustedBoot 1000) ⟨0, 0, 0, 0⟩
    (show authenticAMD.brand ≠ genuineIntel by decide)
  exact ⟨t, ht, readings_nondecreasing_iff ht⟩

/-- The epoch is read at 1000 as 1500.  A reading at 5000 then gives 4000, a program
    runs, and a reading at 5300 gives 3800. -/
theorem clock_runs_backwards :
    ¬ ∀ (c : Cpuid) (s t : TimerState) (k : Kernel) (p : UInt64) (es : List ClockEvent),
      TimerState.init c (getTsc k p) s = some t → History p es →
        ∃ rs, readings t k es = some rs ∧ rs.Pairwise (· ≤ ·) := by
  intro h
  obtain ⟨t, ht, -, -⟩ := init_others (getTsc adjustedBoot 1000) ⟨0, 0, 0, 0⟩
    (show authenticAMD.brand ≠ genuineIntel by decide)
  obtain ⟨rs, hrs, hpair⟩ := h authenticAMD ⟨0, 0, 0, 0⟩ t adjustedBoot 1000
    [.read 5000, .runUser (instantCall 5100), .read 5300] ht
    (.read (by decide) (.runUser (instantCall_caught 5100)
      (instantCall_inOrder (by decide) (by decide)) (.read (by decide : (5200 : UInt64) ≤ 5300)
        (.nil 5300))))
  have hepoch : t.tscEpoch = 1500 := init_tscEpoch ht
  have hne : t.tscEpoch ≠ 0 := by
    rw [hepoch]
    decide
  rw [readings_aroundRun, Option.some.injEq] at hrs
  rw [← hrs, List.pairwise_cons, List.forall_mem_singleton, tscSinceEpoch_ne hne,
    tscSinceEpoch_ne hne, hepoch] at hpair
  exact absurd hpair.1 (by decide)

end JudgePenguin
