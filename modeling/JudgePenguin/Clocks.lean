/-
  JudgePenguin/Clocks.lean
  ========================
  **Frequencies and time** (`lib/timer.cpp`, `inc/timer.hpp`).

  A tick count is turned into nanoseconds by splitting it at whole seconds, in the
  kernel (`tsc_to_ns`, `clk_to_ns`) and again in the library of the user program
  (`duck_clock_get_time`).  For frequencies from 1 GHz to 18.4 GHz nothing wraps and
  nothing is lost to rounding: `ticksToNs_exact`.  The frequencies come from
  `Timer::init`, which computes them from leaf 0x15 of CPUID: `init_usable_iff`.

  `logger` calls leave no trace here.
-/
import JudgePenguin.UserLib

namespace JudgePenguin

open Words

/-! ## Ticks to nanoseconds -/

/-- Whole seconds and the rest apart lose nothing to rounding. -/
theorem split_seconds (f t : Nat) (hf : 0 < f) (u : Nat) :
    t / f * u + t % f * u / f = t * u / f := by
  have hsplit : t * u = t % f * u + f * (t / f * u) := by
    calc t * u = (t % f + f * (t / f)) * u := by rw [Nat.mod_add_div]
      _ = t % f * u + f * (t / f * u) := by ring
  rw [hsplit, Nat.add_mul_div_left _ _ hf, Nat.add_comm]

/-- The three results that could wrap, for a frequency in range. -/
structure NoWrap (f t : Nat) : Prop where
  quotient : t / f * 1000000000 < 2 ^ 64
  remainder : t % f * 1000000000 < 2 ^ 64
  sum : t / f * 1000000000 + t % f * 1000000000 / f < 2 ^ 64

theorem noWrap {f t : Nat} (hlo : 1000000000 ≤ f) (hhi : f ≤ 18446744073) (ht : t < 2 ^ 64) :
    NoWrap f t := by
  have hpos : 0 < f := by omega
  have hsum : t / f * 1000000000 + t % f * 1000000000 / f ≤ t := by
    rw [split_seconds f t hpos]
    exact Nat.div_le_of_le_mul (by rw [Nat.mul_comm f t]; exact Nat.mul_le_mul_left t hlo)
  have hquot : t / f * 1000000000 ≤ t := Nat.le_trans (Nat.le_add_right _ _) hsum
  have hmod : t % f < f := Nat.mod_lt t hpos
  exact ⟨by omega, by omega, by omega⟩

theorem toNat_ticksToNs {f t : UInt64} (h : NoWrap f.toNat t.toNat) :
    (ticksToNs f t).toNat =
      t.toNat / f.toNat * 1000000000 + t.toNat % f.toNat * 1000000000 / f.toNat := by
  have hbillion : (1000000000 : UInt64).toNat = 1000000000 := rfl
  rw [ticksToNs, UInt64.toNat_add, UInt64.toNat_mul, UInt64.toNat_div, UInt64.toNat_div,
    UInt64.toNat_mul, UInt64.toNat_mod, hbillion, Nat.mod_eq_of_lt h.quotient,
    Nat.mod_eq_of_lt h.remainder, Nat.mod_eq_of_lt h.sum]

/-- What `clock_gettime` leaves behind `tp`. -/
theorem duckClockGetTime_spec (x : UserLib.Statics) (tsc : UInt64) (tp : Nat) (m : Mem)
    (h : NoWrap (m.read64 x.tscFrequency) tsc.toNat) :
    let r := UserLib.duckClockGetTime x tsc UserLib.CLOCK_PROCESS_CPUTIME_ID tp m
    r.ret = 0 ∧ r.mem.read64 tp = tsc.toNat / m.read64 x.tscFrequency ∧
      r.mem.read64 (tp + 8) =
        tsc.toNat % m.read64 x.tscFrequency * 1000000000 / m.read64 x.tscFrequency := by
  have hsec : tsc.toNat / m.read64 x.tscFrequency < 2 ^ 64 :=
    Nat.lt_of_le_of_lt (Nat.div_le_self _ _) tsc.toNat_lt
  have hnsec : tsc.toNat % m.read64 x.tscFrequency * 1000000000 / m.read64 x.tscFrequency < 2 ^ 64 :=
    Nat.lt_of_le_of_lt (Nat.div_le_self _ _) h.remainder
  simp only [UserLib.duckClockGetTime, if_true, wrap64_of_lt h.remainder]
  refine ⟨trivial, ?_, ?_⟩
  · rw [Mem.read64_write64_disjoint _ _ _ (by omega), Mem.read64_write64_self _ _ hsec]
  · rw [Mem.read64_write64_self _ _ hnsec]

/-- **Tick to time conversion is exact, and kernel and user library agree.** -/
theorem ticksToNs_exact (f : UInt64) (hlo : 1000000000 ≤ f.toNat) (hhi : f.toNat ≤ 18446744073) :
    (∀ t : UInt64, NoWrap f.toNat t.toNat ∧
      (ticksToNs f t).toNat = t.toNat * 1000000000 / f.toNat) ∧
      (∀ t t' : UInt64, t ≤ t' → ticksToNs f t ≤ ticksToNs f t') ∧
      (∀ (timer : Timer) (t : UInt64), (timer.tscFreq = f → timer.tscToNs t = ticksToNs f t) ∧
        (timer.clkFreq = f → timer.clkToNs t = ticksToNs f t)) ∧
      ∀ (x : UserLib.Statics) (m : Mem) (tp : Nat) (t : UInt64), m.read64 x.tscFrequency = f.toNat →
        let r := UserLib.duckClockGetTime x t UserLib.CLOCK_PROCESS_CPUTIME_ID tp m
        r.ret = 0 ∧ r.mem.read64 (tp + 8) < 1000000000 ∧
          r.mem.read64 tp * 1000000000 + r.mem.read64 (tp + 8) = (ticksToNs f t).toNat := by
  have hpos : 0 < f.toNat := by omega
  have hnowrap : ∀ t : UInt64, NoWrap f.toNat t.toNat := fun t => noWrap hlo hhi t.toNat_lt
  have hexact : ∀ t : UInt64, (ticksToNs f t).toNat = t.toNat * 1000000000 / f.toNat := by
    intro t
    rw [toNat_ticksToNs (hnowrap t), split_seconds _ _ hpos]
  refine ⟨fun t => ⟨hnowrap t, hexact t⟩, ?_, ?_, ?_⟩
  · intro t t' hle
    rw [UInt64.le_iff_toNat_le, hexact, hexact]
    exact Nat.div_le_div_right (Nat.mul_le_mul_right _ (UInt64.le_iff_toNat_le.mp hle))
  · intro timer t
    exact ⟨fun h => by rw [Timer.tscToNs, h], fun h => by rw [Timer.clkToNs, h]⟩
  · intro x m tp t hf
    have hspec := duckClockGetTime_spec x t tp m (by rw [hf]; exact hnowrap t)
    obtain ⟨hret, hsec, hnsec⟩ := hspec
    rw [hf] at hsec hnsec
    refine ⟨hret, ?_, ?_⟩
    · rw [hnsec]
      have hmod := Nat.mod_lt t.toNat hpos
      exact Nat.div_lt_of_lt_mul (Nat.mul_lt_mul_of_pos_right hmod (by decide))
    · rw [hsec, hnsec, toNat_ticksToNs (hnowrap t)]

/-- A clock of 3.6 GHz. -/
theorem ticksToNs_exact_sample :
    (ticksToNs 3600000000 18446744073709551615).toNat =
      18446744073709551615 * 1000000000 / 3600000000 :=
  ((ticksToNs_exact 3600000000 (by decide) (by decide)).1 18446744073709551615).2

/-! ## `Timer::init` -/

/-- What CPUID answers: the twelve bytes of the vendor string from leaf 0, and the
    registers of leaf 0x15. -/
structure Cpuid where
  brand : Vector UInt8 12
  eax : UInt32
  ebx : UInt32
  ecx : UInt32

/-- `"GenuineIntel"`. -/
def genuineIntel : Vector UInt8 12 := #v[71, 101, 110, 117, 105, 110, 101, 73, 110, 116, 101, 108]

/-- The static variables of the timer. -/
structure TimerState where
  tscFreq : UInt64
  tscEpoch : UInt64
  extFreq : UInt32
  clkFreq : UInt64

/-- `get_tsc_clock_ratio`: `a`, `b` and `ext_freq`, or -1. -/
def getTscClockRatio (c : Cpuid) : Option (UInt32 × UInt32 × UInt32) :=
  if c.ebx = 0 then none else some (c.ebx, c.eax, c.ecx)

/-- The end of `detect_cpu_speed_intel`. -/
def withClkFreq (s : TimerState) : TimerState :=
  { s with clkFreq := UInt64.ofNat (roundDown (s.tscFreq + 50 * 1000000).toNat (100 * 1000000)) }

/-- `detect_cpu_speed_intel`; `none` is a division by zero. -/
def detectCpuSpeedIntel (c : Cpuid) (s : TimerState) : Option TimerState :=
  match getTscClockRatio c with
  | none => some (withClkFreq { s with tscFreq := 3600 * 1000000, extFreq := 1000 * 1000000 })
  | some (a, b, ext) =>
    let extFreq := if ext = 0 then 24 * 1000000 else ext
    if b = 0 then none
    else
      some (withClkFreq
        { s with tscFreq := extFreq.toUInt64 * a.toUInt64 / b.toUInt64, extFreq := extFreq })

def detectCpuSpeedOthers (s : TimerState) : TimerState :=
  { s with tscFreq := 3700 * 1000000, extFreq := 100 * 1000000, clkFreq := 3700 * 1000000 }

/-- `Timer::init`; `tsc` is what `rdtsc` reads for the epoch. -/
def TimerState.init (c : Cpuid) (tsc : UInt64) (s : TimerState) : Option TimerState := do
  let s ← if c.brand = genuineIntel then detectCpuSpeedIntel c s else some (detectCpuSpeedOthers s)
  some { s with tscEpoch := tsc }

/-- A frequency by which `ticksToNs` can divide, and whose remainder product does
    not wrap. -/
def Usable (freq : UInt64) : Prop := freq ≠ 0 ∧ (freq.toNat - 1) * 1000000000 < 2 ^ 64

/-- `Usable` is what every later conversion needs. -/
theorem usable_iff (freq : UInt64) :
    Usable freq ↔ freq ≠ 0 ∧ ∀ t : UInt64, t.toNat % freq.toNat * 1000000000 < 2 ^ 64 := by
  constructor
  · rintro ⟨hne, hlt⟩
    refine ⟨hne, fun t => Nat.lt_of_le_of_lt (Nat.mul_le_mul_right _ ?_) hlt⟩
    have hpos : 0 < freq.toNat := Nat.pos_of_ne_zero fun h => hne (UInt64.toNat_inj.mp h)
    have hmod := Nat.mod_lt t.toNat hpos
    omega
  · rintro ⟨hne, hall⟩
    refine ⟨hne, ?_⟩
    have hpos : 0 < freq.toNat := Nat.pos_of_ne_zero fun h => hne (UInt64.toNat_inj.mp h)
    have hlast := hall (freq - 1)
    have hone : (freq - 1).toNat = freq.toNat - 1 :=
      UInt64.toNat_sub_of_le freq 1 (by rw [UInt64.le_iff_toNat_le]; exact hpos)
    rwa [hone, Nat.mod_eq_of_lt (by omega)] at hlast

theorem usable_iff_range (freq : UInt64) : Usable freq ↔ 1 ≤ freq.toNat ∧ freq.toNat ≤ 18446744074 := by
  have hzero : freq ≠ 0 ↔ 1 ≤ freq.toNat := by
    rw [← UInt64.toNat_inj.ne]
    exact Nat.pos_iff_ne_zero.symm
  rw [Usable, hzero]
  omega

/-- What is asked of `Timer::init`: it does not divide by zero, and leaves two
    frequencies that can be used. -/
def InitUsable (c : Cpuid) (tsc : UInt64) (s : TimerState) : Prop :=
  ∃ s', TimerState.init c tsc s = some s' ∧ Usable s'.tscFreq ∧ Usable s'.clkFreq

/-- The core crystal clock, in Hz. -/
def Cpuid.crystal (c : Cpuid) : Nat := if c.ecx = 0 then 24000000 else c.ecx.toNat

/-- The frequency that leaf 0x15 describes. -/
def Cpuid.frequency (c : Cpuid) : Nat := c.crystal * c.ebx.toNat / c.eax.toNat

theorem toNat_mul32 (a b : UInt32) : (a.toUInt64 * b.toUInt64).toNat = a.toNat * b.toNat := by
  have hlt : a.toNat * b.toNat < 2 ^ 64 := by
    calc a.toNat * b.toNat ≤ (2 ^ 32 - 1) * (2 ^ 32 - 1) :=
          Nat.mul_le_mul (Nat.le_sub_one_of_lt a.toNat_lt) (Nat.le_sub_one_of_lt b.toNat_lt)
      _ < 2 ^ 64 := by decide
  rw [UInt64.toNat_mul, UInt32.toNat_toUInt64, UInt32.toNat_toUInt64, Nat.mod_eq_of_lt hlt]

/-- The frequency rounded to 100 MHz, where the sum does not wrap.  The new value has a
    name here, so that nothing evaluates it. -/
theorem withClkFreq_eq (s : TimerState) (h : s.tscFreq.toNat ≤ 18446744065119617025) :
    ∃ clkFreq, withClkFreq s = ⟨s.tscFreq, s.tscEpoch, s.extFreq, clkFreq⟩ ∧
      clkFreq.toNat = (s.tscFreq.toNat + 50000000) / 100000000 * 100000000 := by
  refine ⟨_, rfl, ?_⟩
  have hc : (50 * 1000000 : UInt64).toNat = 50000000 := rfl
  have hadd : (s.tscFreq + 50 * 1000000).toNat = s.tscFreq.toNat + 50000000 := by
    rw [UInt64.toNat_add, hc, Nat.mod_eq_of_lt (by omega)]
  rw [hadd, UInt64.toNat_ofNat', roundDown, Nat.mod_eq_of_lt (by omega)]

/-- Both frequencies can be used exactly when the first is in range. -/
theorem usable_both {tscFreq clkFreq : UInt64}
    (h : clkFreq.toNat = (tscFreq.toNat + 50000000) / 100000000 * 100000000) :
    Usable tscFreq ∧ Usable clkFreq ↔ 50000000 ≤ tscFreq.toNat ∧ tscFreq.toNat ≤ 18446744074 := by
  rw [usable_iff_range, usable_iff_range, h]
  omega

theorem detectCpuSpeedIntel_noRatio {c : Cpuid} (s : TimerState) (h : c.ebx = 0) :
    ∃ s', detectCpuSpeedIntel c s = some (withClkFreq s') ∧ s'.tscFreq.toNat = 3600000000 := by
  refine ⟨{ s with tscFreq := 3600 * 1000000, extFreq := 1000 * 1000000 }, ?_, rfl⟩
  rw [detectCpuSpeedIntel, getTscClockRatio, if_pos h]

theorem detectCpuSpeedIntel_divZero {c : Cpuid} (s : TimerState) (hb : c.ebx ≠ 0) (ha : c.eax = 0) :
    detectCpuSpeedIntel c s = none := by
  rw [detectCpuSpeedIntel, getTscClockRatio, if_neg hb]
  exact if_pos ha

theorem detectCpuSpeedIntel_ratio {c : Cpuid} (s : TimerState) (hb : c.ebx ≠ 0) (ha : c.eax ≠ 0) :
    ∃ s', detectCpuSpeedIntel c s = some (withClkFreq s') ∧ s'.tscFreq.toNat = c.frequency := by
  obtain ⟨ext, hext⟩ : ∃ ext, (if c.ecx = 0 then 24 * 1000000 else c.ecx) = ext := ⟨_, rfl⟩
  have hcrystal : ext.toNat = c.crystal := by
    rw [← hext, Cpuid.crystal]
    split_ifs
    · rfl
    · rfl
  refine ⟨{ s with tscFreq := ext.toUInt64 * c.ebx.toUInt64 / c.eax.toUInt64, extFreq := ext }, ?_, ?_⟩
  · rw [detectCpuSpeedIntel, getTscClockRatio, if_neg hb]
    dsimp only
    rw [if_neg ha, hext]
  · show (ext.toUInt64 * c.ebx.toUInt64 / c.eax.toUInt64).toNat = c.frequency
    rw [UInt64.toNat_div, toNat_mul32, UInt32.toNat_toUInt64, hcrystal, Cpuid.frequency]

theorem Cpuid.frequency_le (c : Cpuid) : c.frequency ≤ 18446744065119617025 := by
  have hcrystal : c.crystal ≤ 4294967295 := by
    have := c.ecx.toNat_lt
    unfold Cpuid.crystal
    split_ifs
    · decide
    · omega
  have hebx : c.ebx.toNat ≤ 4294967295 := Nat.le_sub_one_of_lt c.ebx.toNat_lt
  calc c.frequency ≤ c.crystal * c.ebx.toNat := Nat.div_le_self _ _
    _ ≤ 4294967295 * 4294967295 := Nat.mul_le_mul hcrystal hebx

theorem init_intel {c : Cpuid} (tsc : UInt64) (s : TimerState) (h : c.brand = genuineIntel) :
    TimerState.init c tsc s = (detectCpuSpeedIntel c s).map fun s => { s with tscEpoch := tsc } := by
  rw [TimerState.init, if_pos h]
  cases detectCpuSpeedIntel c s with
  | none => rfl
  | some s' => rfl

theorem init_others {c : Cpuid} (tsc : UInt64) (s : TimerState) (h : c.brand ≠ genuineIntel) :
    ∃ s', TimerState.init c tsc s = some s' ∧ s'.tscFreq.toNat = 3700000000 ∧
      s'.clkFreq.toNat = 3700000000 := by
  refine ⟨{ detectCpuSpeedOthers s with tscEpoch := tsc }, ?_, rfl, rfl⟩
  rw [TimerState.init, if_neg h]
  rfl

theorem init_tscEpoch {c : Cpuid} {tsc : UInt64} {s t : TimerState}
    (h : TimerState.init c tsc s = some t) : t.tscEpoch = tsc := by
  by_cases hbrand : c.brand = genuineIntel
  · rw [init_intel tsc s hbrand, Option.map_eq_some_iff] at h
    obtain ⟨s', -, hs'⟩ := h
    rw [← hs']
  · rw [TimerState.init, if_neg hbrand] at h
    rw [← Option.some.inj h]

/-- With the outcome of `init` at hand. -/
theorem initUsable_of_some {c : Cpuid} {tsc : UInt64} {s s' : TimerState}
    (h : TimerState.init c tsc s = some s') :
    InitUsable c tsc s ↔ Usable s'.tscFreq ∧ Usable s'.clkFreq := by
  constructor
  · rintro ⟨s1, h1, hu⟩
    rw [h, Option.some.injEq] at h1
    rwa [← h1] at hu
  · intro hu
    exact ⟨s', h, hu⟩

theorem initUsable_withClkFreq {c : Cpuid} {tsc : UInt64} {s s' : TimerState}
    (hbrand : c.brand = genuineIntel) (h : detectCpuSpeedIntel c s = some (withClkFreq s'))
    (hlt : s'.tscFreq.toNat ≤ 18446744065119617025) :
    InitUsable c tsc s ↔ 50000000 ≤ s'.tscFreq.toNat ∧ s'.tscFreq.toNat ≤ 18446744074 := by
  obtain ⟨clkFreq, hs', hclk⟩ := withClkFreq_eq s' hlt
  have hinit : TimerState.init c tsc s = some ⟨s'.tscFreq, tsc, s'.extFreq, clkFreq⟩ := by
    rw [init_intel tsc s hbrand, h, hs', Option.map_some]
  rw [initUsable_of_some hinit]
  exact usable_both hclk

/-- **The detected frequencies are usable exactly when** the processor is not Intel's,
    or leaf 0x15 has no ratio (`EBX = 0`), or it has one whose denominator is not 0 and
    the frequency it describes lies between 50 MHz and 18.4 GHz. -/
theorem init_usable_iff (c : Cpuid) (tsc : UInt64) (s : TimerState) :
    InitUsable c tsc s ↔
      c.brand ≠ genuineIntel ∨ c.ebx = 0 ∨
        (c.eax ≠ 0 ∧ 50000000 ≤ c.frequency ∧ c.frequency ≤ 18446744074) := by
  by_cases hbrand : c.brand = genuineIntel
  · by_cases hebx : c.ebx = 0
    · -- no ratio: the constants are in range
      obtain ⟨s', hs', hfreq⟩ := detectCpuSpeedIntel_noRatio s hebx
      rw [initUsable_withClkFreq hbrand hs' (by omega), hfreq]
      exact ⟨fun _ => Or.inr (Or.inl hebx), fun _ => by omega⟩
    · by_cases heax : c.eax = 0
      · have hnone : TimerState.init c tsc s = none := by
          rw [init_intel tsc s hbrand, detectCpuSpeedIntel_divZero s hebx heax, Option.map_none]
        constructor
        · rintro ⟨s', hs', -⟩
          rw [hnone] at hs'
          exact absurd hs'.symm (Option.some_ne_none s')
        · rintro (h | h | h)
          · exact absurd hbrand h
          · exact absurd h hebx
          · exact absurd heax h.1
      · obtain ⟨s', hs', hfreq⟩ := detectCpuSpeedIntel_ratio s hebx heax
        rw [initUsable_withClkFreq hbrand hs' (by rw [hfreq]; exact c.frequency_le), hfreq]
        constructor
        · exact fun h => Or.inr (Or.inr ⟨heax, h⟩)
        · rintro (h | h | h)
          · exact absurd hbrand h
          · exact absurd h hebx
          · exact h.2
  · obtain ⟨s', hs', htsc, hclk⟩ := init_others tsc s hbrand
    rw [initUsable_of_some hs', usable_iff_range, usable_iff_range, htsc, hclk]
    exact ⟨fun _ => Or.inl hbrand, fun _ => by omega⟩

/-- A virtual processor that gives a numerator and no denominator. -/
def numeratorOnly : Cpuid := ⟨genuineIntel, 0, 150, 24000000⟩

theorem init_divides_by_zero :
    ¬ ∀ (c : Cpuid) (tsc : UInt64) (s : TimerState), InitUsable c tsc s := by
  intro h
  obtain ⟨s', hs', -⟩ := h numeratorOnly 0 ⟨0, 0, 0, 0⟩
  rw [init_intel _ _ rfl, detectCpuSpeedIntel_divZero _ (by decide) rfl, Option.map_none] at hs'
  exact Option.some_ne_none s' hs'.symm

end JudgePenguin
