/-
  JudgePenguin/X86Clock.lean
  ==========================
  **Instructions that take time.**

  The processor has a counter that runs freely, and `rdtsc` reads its value plus
  `IA32_TSC_ADJUST`.  Writing the time-stamp counter moves the adjustment by as much
  (`wrmsrTsc_atTime`), so a sequence of instructions runs at times given from
  outside (`execTimed`), and only what `rdtsc` and `wrmsr` do depends on them.
-/
import JudgePenguin.X86

namespace X86

/-- The machine when the free-running counter is at `p`. -/
def Machine.atTime (m : Machine) (p : UInt64) : Machine := { m with tsc := p + m.tscAdjust }

/-- A sequence of instructions, the `j`-th of them when the counter is at `P j`. -/
def execTimed : (Nat → UInt64) → List Instr → Machine → Option Machine
  | _, [], m => some m
  | P, i :: is, m => (step (m.atTime (P 0)) i).bind (execTimed (fun j => P (j + 1)) is)

def Instr.isRdtsc : Instr → Bool
  | .rdtsc => true
  | _ => false

/-- Neither `rdtsc` nor `wrmsr`. -/
def Instr.isQuiet : Instr → Bool
  | .rdtsc => false
  | .wrmsr => false
  | _ => true

/-- `rax` has what `rdtsc` read. -/
theorem stamp_eq (t : UInt64) : stamp t = t := by
  have hlow : (t &&& 0xffffffff).toNat = t.toNat % 2 ^ 32 := by
    rw [UInt64.toNat_and]
    exact Nat.and_two_pow_sub_one_eq_mod t.toNat 32
  have hhigh : ((t >>> 32) <<< 32).toNat = 2 ^ 32 * (t.toNat / 2 ^ 32) := by
    have h32 : (32 : UInt64).toNat % 64 = 32 := by decide
    have hlt : t.toNat / 2 ^ 32 * 2 ^ 32 < 2 ^ 64 :=
      Nat.lt_of_le_of_lt (Nat.div_mul_le_self _ _) t.toNat_lt
    rw [UInt64.toNat_shiftLeft, UInt64.toNat_shiftRight, h32, Nat.shiftRight_eq_div_pow,
      Nat.shiftLeft_eq, Nat.mod_eq_of_lt hlt, Nat.mul_comm]
  rw [stamp, ← UInt64.toNat_inj, UInt64.toNat_or, hlow, hhigh, Nat.or_comm,
    ← Nat.two_pow_add_eq_or_of_lt (Nat.mod_lt _ (by decide)), Nat.div_add_mod]

/-- The position of the first `rdtsc`. -/
def stampIndex (is : List Instr) : Nat := is.findIdx Instr.isRdtsc

/-- Writing `v` to the counter leaves the adjustment at `v - p`. -/
theorem wrmsrTsc_atTime (m : Machine) (p v : UInt64) :
    (wrmsrTsc (m.atTime p) v).tscAdjust = v - p := by
  have hmove (a : UInt64) : a + (v - (p + a)) = v - p := by
    rw [UInt64.add_comm, UInt64.sub_eq_add_neg v, UInt64.neg_add, UInt64.sub_eq_add_neg,
      UInt64.add_assoc, UInt64.add_assoc, UInt64.add_left_neg, UInt64.add_zero,
      ← UInt64.sub_eq_add_neg]
  exact hmove m.tscAdjust

/-- The machine with another reading and another adjustment. -/
def Machine.setClock (m : Machine) (x a : UInt64) : Machine := { m with tsc := x, tscAdjust := a }

section Quiet

variable {i : Instr} {is : List Instr}

/-- An instruction that does not use the clock leaves it alone and does the same
    whatever it says. -/
theorem step_quiet (h : i.isQuiet = true) (m : Machine) (x a : UInt64) :
    step (m.setClock x a) i = (step m i).map fun n => n.setClock x a := by
  cases i with
  | rdtsc => cases h
  | wrmsr => cases h
  | popq r =>
    simp only [step, Option.map_map]
    rfl
  | load d dst =>
    simp only [step, Option.map_map]
    rfl
  | loadRsp d =>
    simp only [step, Option.map_map]
    rfl
  | addRsp n =>
    simp only [step, Option.map_map]
    rfl
  | fxsave =>
    by_cases ha : m.stack.Aligned
    · have hset : (m.setClock x a).stack.Aligned := ha
      rw [step, step, if_pos ha, if_pos hset]
      rfl
    · have hset : ¬ (m.setClock x a).stack.Aligned := ha
      rw [step, step, if_neg ha, if_neg hset]
      rfl
  | fxrstor =>
    by_cases ha : m.stack.Aligned
    · have hset : (m.setClock x a).stack.Aligned := ha
      rw [step, step, if_pos ha, if_pos hset]
      rfl
    · have hset : ¬ (m.setClock x a).stack.Aligned := ha
      rw [step, step, if_neg ha, if_neg hset]
      rfl
  | _ => rfl

theorem exec_quiet (h : ∀ i ∈ is, i.isQuiet = true) (m : Machine) (x a : UInt64) :
    exec is (m.setClock x a) = (exec is m).map fun n => n.setClock x a := by
  induction is generalizing m with
  | nil => rfl
  | cons i is ih =>
    rw [exec_cons, exec_cons, step_quiet (h i (List.mem_cons_self ..))]
    cases step m i with
    | none => rfl
    | some n => exact ih (fun j hj => h j (List.mem_cons_of_mem i hj)) n

/-- Where nothing uses the clock, time does not matter. -/
theorem execTimed_quiet (h : ∀ i ∈ is, i.isQuiet = true) (P : Nat → UInt64) (m : Machine) :
    ∃ x, execTimed P is m = (exec is m).map fun n => n.setClock x m.tscAdjust := by
  induction is generalizing m P with
  | nil => exact ⟨m.tsc, rfl⟩
  | cons i is ih =>
    have htime : m.atTime (P 0) = m.setClock (P 0 + m.tscAdjust) m.tscAdjust := rfl
    rw [execTimed, exec_cons, htime, step_quiet (h i (List.mem_cons_self ..))]
    cases step m i with
    | none => exact ⟨0, rfl⟩
    | some n =>
      have hrest : ∀ j ∈ is, j.isQuiet = true := fun j hj => h j (List.mem_cons_of_mem i hj)
      obtain ⟨x, hx⟩ := ih hrest (fun j => P (j + 1)) (n.setClock (P 0 + m.tscAdjust) m.tscAdjust)
      refine ⟨x, ?_⟩
      rw [Option.map_some, Option.bind_some, Option.bind_some, hx, exec_quiet hrest, Option.map_map]
      rfl

end Quiet

theorem execTimed_append (P : Nat → UInt64) (is js : List Instr) (m : Machine) :
    execTimed P (is ++ js) m =
      (execTimed P is m).bind (execTimed (fun j => P (is.length + j)) js) := by
  induction is generalizing m P with
  | nil =>
    simp only [List.nil_append, execTimed, Option.bind_some, List.length_nil, Nat.zero_add]
  | cons i is ih =>
    rw [List.cons_append, execTimed, execTimed, Option.bind_assoc]
    refine congrArg _ (funext fun n => ?_)
    rw [ih, List.length_cons]
    refine congrArg _ (congrArg (fun P => execTimed P js) (funext fun j => ?_))
    exact congrArg P (by omega)

section Stamp

variable {before mid after : List Instr}

theorem stampIndex_append (hb : ∀ i ∈ before, i.isQuiet = true) :
    stampIndex (before ++ .rdtsc :: after) = before.length := by
  induction before with
  | nil => rfl
  | cons i is ih =>
    have hfirst : i.isRdtsc = false := by
      have hquiet := hb i (List.mem_cons_self ..)
      cases i with
      | rdtsc => cases hquiet
      | _ => rfl
    have hrest := ih fun j hj => hb j (List.mem_cons_of_mem i hj)
    rw [stampIndex] at hrest
    rw [stampIndex, List.cons_append, List.findIdx_cons, hfirst, cond_false, hrest, List.length_cons]

/-- A sequence that reads the clock once runs as if the time stood still at it. -/
theorem execTimed_stamp (hb : ∀ i ∈ before, i.isQuiet = true) (ha : ∀ i ∈ after, i.isQuiet = true)
    (P : Nat → UInt64) (m : Machine) :
    ∃ x, execTimed P (before ++ .rdtsc :: after) m =
      (exec (before ++ .rdtsc :: after) (m.atTime (P before.length))).map
        fun n => n.setClock x m.tscAdjust := by
  obtain ⟨y, hy⟩ := execTimed_quiet hb P m
  have htime : m.atTime (P before.length) = m.setClock (P before.length + m.tscAdjust) m.tscAdjust :=
    rfl
  rw [execTimed_append, exec_append, hy, htime, exec_quiet hb]
  cases exec before m with
  | none => exact ⟨0, rfl⟩
  | some n => exact execTimed_quiet ha (fun j => P (before.length + (j + 1))) _

/-- One that reads the clock and then sets it: the adjustment is against the time at
    which it is set. -/
theorem execTimed_reset (hb : ∀ i ∈ before, i.isQuiet = true) (hm : ∀ i ∈ mid, i.isQuiet = true)
    (ha : ∀ i ∈ after, i.isQuiet = true) (P : Nat → UInt64) (m : Machine) :
    ∃ x, execTimed P ((before ++ .rdtsc :: mid) ++ .wrmsr :: after) m =
      (exec ((before ++ .rdtsc :: mid) ++ .wrmsr :: after) (m.atTime (P before.length))).map
        fun n => n.setClock x (n.tsc - P (before ++ .rdtsc :: mid).length) := by
  obtain ⟨y, hy⟩ := execTimed_stamp hb hm P m
  rw [execTimed_append, exec_append, hy]
  cases exec (before ++ .rdtsc :: mid) (m.atTime (P before.length)) with
  | none => exact ⟨0, rfl⟩
  | some n =>
    let w := P (before ++ .rdtsc :: mid).length
    let v := edxEax n
    rw [Option.map_some, Option.bind_some, Option.bind_some, execTimed, exec_cons]
    by_cases hrcx : n.get .rcx = IA32_TIME_STAMP_COUNTER
    · have hset : step ((n.setClock y m.tscAdjust).atTime w) .wrmsr = some (n.setClock v (v - w)) := by
        rw [step]
        refine (if_pos hrcx).trans (congrArg some ?_)
        exact congrArg (n.setClock v) (wrmsrTsc_atTime (n.setClock y m.tscAdjust) w v)
      have hfixed : step n .wrmsr = some (n.setClock v (n.tscAdjust + (v - n.tsc))) := if_pos hrcx
      obtain ⟨x, hx⟩ := execTimed_quiet ha
        (fun j => P ((before ++ .rdtsc :: mid).length + (j + 1))) (n.setClock v (v - w))
      refine ⟨x, ?_⟩
      rw [Nat.add_zero, hset, hfixed, Option.bind_some, Option.bind_some, hx, exec_quiet ha,
        exec_quiet ha, Option.map_map, Option.map_map]
      rfl
    · have hset : step ((n.setClock y m.tscAdjust).atTime w) .wrmsr = none := if_neg hrcx
      have hfixed : step n .wrmsr = none := if_neg hrcx
      refine ⟨0, ?_⟩
      rw [Nat.add_zero, hset, hfixed]
      rfl

end Stamp

end X86
