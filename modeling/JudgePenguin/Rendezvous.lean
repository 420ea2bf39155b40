/-
  JudgePenguin/Rendezvous.lean
  ============================
  **The rendezvous of `each_cpu_main`** (`driver/entry.c`).

  Every online CPU runs `each_cpu_main`; they share the counter `call_done`, which
  counts arrivals and whose reset to `0` by CPU 0 releases the others.  A step is
  one atomic action of one CPU, and a run is a list of CPUs, the order in which
  they take their steps; so every interleaving is a list.  The CPUs are any finite
  type `ι`, and `zero` is CPU 0.

  While CPU 0 is in steady mode every other CPU waits with its interrupts off
  (`steady_exclusive`).  But a CPU that does not look at the counter between the
  last arrival and the reset misses both values and spins in the first loop for
  ever (`stranded`); `no_cpu_stranded_iff` says that this is the only way.
-/
import Mathlib.Data.Fintype.Card
import Mathlib.Data.List.Induction

namespace JudgePenguin.Rendezvous

/-! ## The program -/

/-- Where a CPU is in `each_cpu_main`. -/
inductive PC where
  /-- before `local_irq_save` -/
  | entered
  /-- before `atomic_inc` -/
  | arriving
  /-- in `while (call_done != cpus)` -/
  | firstLoop
  /-- in `while (call_done != 0)` -/
  | secondLoop
  /-- CPU 0 inside `jpenguin_main` -/
  | steady
  /-- CPU 0 before `atomic_set(&call_done, 0)` -/
  | resetting
  /-- before `local_irq_restore` -/
  | leaving
  | left
deriving DecidableEq, Repr

structure State (ι : Type) where
  callDone : Nat
  pc : ι → PC
  irqOff : ι → Bool

variable {ι : Type} [Fintype ι] [DecidableEq ι] (zero : ι)

/-- After `module_main` has set the counter and `on_each_cpu` has been called. -/
def start : State ι := ⟨0, fun _ => .entered, fun _ => false⟩

def State.goto (s : State ι) (i : ι) (p : PC) : State ι := { s with pc := Function.update s.pc i p }

/-- The next atomic step of CPU `i`; `num_online_cpus()` is the number of CPUs. -/
def step (s : State ι) (i : ι) : State ι :=
  match s.pc i with
  | .entered => { s.goto i .arriving with irqOff := Function.update s.irqOff i true }
  | .arriving => { s.goto i .firstLoop with callDone := s.callDone + 1 }
  | .firstLoop =>
    if s.callDone ≠ Fintype.card ι then s
    else if i ≠ zero then s.goto i .secondLoop
    else s.goto i .steady
  | .secondLoop => if s.callDone ≠ 0 then s else s.goto i .leaving
  | .steady => s.goto i .resetting
  | .resetting => { s.goto i .leaving with callDone := 0 }
  | .leaving => { s.goto i .left with irqOff := Function.update s.irqOff i false }
  | .left => s

def runFrom (s : State ι) (sched : List ι) : State ι := sched.foldl (step zero) s

/-- The state after the steps of `sched`, in this order. -/
def run (sched : List ι) : State ι := runFrom zero start sched

theorem run_snoc (sched : List ι) (i : ι) : run zero (sched ++ [i]) = step zero (run zero sched) i := by
  simp [run, runFrom]

/-! ## Counting arrivals -/

/-- The CPU has counted itself. -/
def PC.arrived : PC → Bool
  | .entered => false
  | .arriving => false
  | _ => true

def numArrived (pc : ι → PC) : Nat := (Finset.univ.filter fun j => (pc j).arrived = true).card

section Counting

variable {zero} {pc : ι → PC} {i : ι} {p : PC}

omit [DecidableEq ι] in
theorem numArrived_eq_card_iff : numArrived pc = Fintype.card ι ↔ ∀ j, (pc j).arrived = true := by
  unfold numArrived
  rw [← Finset.card_univ, Finset.card_filter_eq_iff]
  simp

/-- A step of a CPU that does not count itself does not change the count. -/
theorem numArrived_update (h : p.arrived = (pc i).arrived) :
    numArrived (Function.update pc i p) = numArrived pc := by
  unfold numArrived
  congr 1
  apply Finset.filter_congr
  intro j _
  by_cases hj : j = i
  · subst hj
    rw [Function.update_self, h]
  · rw [Function.update_of_ne hj]

theorem numArrived_arrive (h : (pc i).arrived = false) (hp : p.arrived = true) :
    numArrived (Function.update pc i p) = numArrived pc + 1 := by
  unfold numArrived
  have hset : (Finset.univ.filter fun j => (Function.update pc i p j).arrived = true) =
      insert i (Finset.univ.filter fun j => (pc j).arrived = true) := by
    ext j
    simp only [Finset.mem_filter, Finset.mem_univ, true_and, Finset.mem_insert]
    by_cases hj : j = i
    · subst hj
      simp [hp]
    · simp [hj]
  rw [hset, Finset.card_insert_of_notMem]
  simp [h]

end Counting

/-! ## The three phases -/

/-- Some CPU has not arrived; the counter counts the others. -/
structure Gathering (s : State ι) : Prop where
  pc : ∀ j, s.pc j = .entered ∨ s.pc j = .arriving ∨ s.pc j = .firstLoop
  count : s.callDone = numArrived s.pc
  missing : ∃ j, (s.pc j).arrived = false

/-- All have arrived, and CPU 0 has not reset the counter. -/
structure Meeting (s : State ι) : Prop where
  count : s.callDone = Fintype.card ι
  boot : s.pc zero = .firstLoop ∨ s.pc zero = .steady ∨ s.pc zero = .resetting
  others : ∀ j, j ≠ zero → s.pc j = .firstLoop ∨ s.pc j = .secondLoop

/-- CPU 0 has executed `atomic_set(&call_done, 0)`. -/
structure Dispersing (s : State ι) : Prop where
  count : s.callDone = 0
  boot : s.pc zero = .leaving ∨ s.pc zero = .left
  others : ∀ j, j ≠ zero → s.pc j = .firstLoop ∨ s.pc j = .secondLoop ∨ s.pc j = .leaving ∨
    s.pc j = .left

section Phases

variable {zero} {s : State ι} {i : ι}

omit [Fintype ι] in
@[simp] theorem goto_pc (p : PC) : (s.goto i p).pc = Function.update s.pc i p := rfl

omit [Fintype ι] in
@[simp] theorem goto_callDone (p : PC) : (s.goto i p).callDone = s.callDone := rfl

omit [Fintype ι] in
@[simp] theorem goto_irqOff (p : PC) : (s.goto i p).irqOff = s.irqOff := rfl

omit [DecidableEq ι] in
theorem Gathering.callDone_ne (h : Gathering s) : s.callDone ≠ Fintype.card ι := by
  intro hcount
  rw [h.count, numArrived_eq_card_iff] at hcount
  obtain ⟨j, hj⟩ := h.missing
  rw [hcount j] at hj
  cases hj

/-- The last arrival starts the meeting. -/
theorem Gathering.step (h : Gathering s) :
    Gathering (step zero s i) ∨ Meeting zero (step zero s i) := by
  rcases h.pc i with hpc | hpc | hpc
  · left
    simp only [Rendezvous.step, hpc]
    refine ⟨?_, ?_, i, ?_⟩
    · intro j
      by_cases hj : j = i
      · subst hj
        simp
      · simpa [hj] using h.pc j
    · exact h.count.trans (numArrived_update (by rw [hpc]; rfl)).symm
    · simp [PC.arrived]
  · have hcount : s.callDone + 1 = numArrived (Function.update s.pc i .firstLoop) := by
      rw [numArrived_arrive (by rw [hpc]; rfl) rfl, h.count]
    have hpcs : ∀ j, Function.update s.pc i .firstLoop j = .entered ∨
        Function.update s.pc i .firstLoop j = .arriving ∨
        Function.update s.pc i .firstLoop j = .firstLoop := by
      intro j
      by_cases hj : j = i
      · subst hj
        simp
      · simpa [hj] using h.pc j
    simp only [Rendezvous.step, hpc]
    by_cases hall : ∀ j, (Function.update s.pc i .firstLoop j).arrived = true
    · right
      have hfirst : ∀ j, Function.update s.pc i .firstLoop j = .firstLoop := by
        intro j
        rcases hpcs j with hj | hj | hj
        · have hcon := hall j
          rw [hj] at hcon
          cases hcon
        · have hcon := hall j
          rw [hj] at hcon
          cases hcon
        · exact hj
      exact ⟨hcount.trans (numArrived_eq_card_iff.mpr hall), Or.inl (hfirst zero),
        fun j _ => Or.inl (hfirst j)⟩
    · left
      refine ⟨hpcs, hcount, ?_⟩
      obtain ⟨j, hj⟩ := not_forall.mp hall
      exact ⟨j, by simpa using hj⟩
  · left
    simp only [Rendezvous.step, hpc]
    rw [if_pos h.callDone_ne]
    exact h

/-- While they meet, only CPU 0's reset ends the meeting. -/
theorem Meeting.step (h : Meeting zero s) :
    Meeting zero (step zero s i) ∨ Dispersing zero (step zero s i) := by
  have hpos : s.callDone ≠ 0 := by
    have hne : Nonempty ι := ⟨zero⟩
    rw [h.count]
    exact Fintype.card_ne_zero
  by_cases hi : i = zero
  · subst hi
    have hrest : ∀ p, ∀ j, j ≠ i → Function.update s.pc i p j = .firstLoop ∨
        Function.update s.pc i p j = .secondLoop := by
      intro p j hj
      simpa [hj] using h.others j hj
    rcases h.boot with hpc | hpc | hpc
    · left
      simp only [Rendezvous.step, hpc, h.count, ne_eq, not_true_eq_false, if_false]
      exact ⟨h.count, by simp, hrest _⟩
    · left
      simp only [Rendezvous.step, hpc]
      exact ⟨h.count, by simp, hrest _⟩
    · right
      simp only [Rendezvous.step, hpc]
      refine ⟨rfl, by simp, fun j hj => ?_⟩
      rcases hrest .leaving j hj with h' | h'
      · exact Or.inl h'
      · exact Or.inr (Or.inl h')
  · left
    rcases h.others i hi with hpc | hpc
    · simp only [Rendezvous.step, hpc, h.count, ne_eq, not_true_eq_false, if_false, hi,
        not_false_eq_true, if_true]
      refine ⟨h.count, ?_, ?_⟩
      · simpa [Ne.symm hi] using h.boot
      · intro j hj
        by_cases hji : j = i
        · subst hji
          simp
        · simpa [hji] using h.others j hj
    · simp only [Rendezvous.step, hpc, if_pos hpos]
      exact h

theorem Dispersing.step (h : Dispersing zero s) : Dispersing zero (step zero s i) := by
  by_cases hi : i = zero
  · subst hi
    rcases h.boot with hpc | hpc
    · simp only [Rendezvous.step, hpc]
      refine ⟨h.count, by simp, fun j hj => ?_⟩
      simpa [hj] using h.others j hj
    · simp only [Rendezvous.step, hpc]
      exact h
  · have hcard : s.callDone ≠ Fintype.card ι := by
      have hne : Nonempty ι := ⟨zero⟩
      rw [h.count]
      exact Fintype.card_ne_zero.symm
    have hmove : ∀ p, p = PC.leaving ∨ p = PC.left → ∀ j, j ≠ zero →
        Function.update s.pc i p j = .firstLoop ∨ Function.update s.pc i p j = .secondLoop ∨
        Function.update s.pc i p j = .leaving ∨ Function.update s.pc i p j = .left := by
      intro p hp j hj
      by_cases hji : j = i
      · subst hji
        rw [Function.update_self]
        rcases hp with hp | hp
        · exact Or.inr (Or.inr (Or.inl hp))
        · exact Or.inr (Or.inr (Or.inr hp))
      · simpa [hji] using h.others j hj
    rcases h.others i hi with hpc | hpc | hpc | hpc
    · simp only [Rendezvous.step, hpc, if_pos hcard]
      exact h
    · simp only [Rendezvous.step, hpc, h.count, ne_eq, not_true_eq_false, if_false]
      exact ⟨h.count, by simpa [Ne.symm hi] using h.boot, hmove _ (Or.inl rfl)⟩
    · simp only [Rendezvous.step, hpc]
      exact ⟨h.count, by simpa [Ne.symm hi] using h.boot, hmove _ (Or.inr rfl)⟩
    · simp only [Rendezvous.step, hpc]
      exact h

end Phases

omit [DecidableEq ι] in
theorem start_gathering (i : ι) : Gathering (start : State ι) := by
  refine ⟨fun j => Or.inl rfl, ?_, i, rfl⟩
  simp [start, numArrived, PC.arrived]

/-- Every interleaving is in one of the three phases. -/
theorem run_phase (sched : List ι) :
    Gathering (run zero sched) ∨ Meeting zero (run zero sched) ∨ Dispersing zero (run zero sched) := by
  induction sched using List.reverseRecOn with
  | nil => exact Or.inl (start_gathering zero)
  | append_singleton sched i ih =>
    rw [run_snoc]
    rcases ih with h | h | h
    · rcases h.step with h' | h'
      · exact Or.inl h'
      · exact Or.inr (Or.inl h')
    · rcases h.step with h' | h'
      · exact Or.inr (Or.inl h')
      · exact Or.inr (Or.inr h')
    · exact Or.inr (Or.inr h.step)

section Frame

variable {zero} {s : State ι} {i j : ι}

/-- A step of one CPU moves no other. -/
theorem step_of_ne (hj : j ≠ i) :
    (step zero s i).pc j = s.pc j ∧ (step zero s i).irqOff j = s.irqOff j := by
  cases hpc : s.pc i with
  | entered => simp [step, hpc, hj]
  | arriving => simp [step, hpc, hj]
  | firstLoop =>
    simp only [step, hpc]
    split
    · exact ⟨rfl, rfl⟩
    · split
      · simp [hj]
      · simp [hj]
  | secondLoop =>
    simp only [step, hpc]
    split
    · exact ⟨rfl, rfl⟩
    · simp [hj]
  | steady => simp [step, hpc, hj]
  | resetting => simp [step, hpc, hj]
  | leaving => simp [step, hpc, hj]
  | left => simp [step, hpc]

theorem step_irqOff (h : s.irqOff i = true ↔ s.pc i ≠ .entered ∧ s.pc i ≠ .left) :
    (step zero s i).irqOff i = true ↔
      (step zero s i).pc i ≠ .entered ∧ (step zero s i).pc i ≠ .left := by
  cases hpc : s.pc i with
  | entered => simp [step, hpc]
  | arriving => simpa [step, hpc] using h
  | firstLoop =>
    have hoff : s.irqOff i = true := by simpa [hpc] using h
    simp only [step, hpc]
    split
    · simp [hpc, hoff]
    · split
      · simp [hoff]
      · simp [hoff]
  | secondLoop =>
    have hoff : s.irqOff i = true := by simpa [hpc] using h
    simp only [step, hpc]
    split
    · simp [hpc, hoff]
    · simp [hoff]
  | steady => simpa [step, hpc] using h
  | resetting => simpa [step, hpc] using h
  | leaving => simp [step, hpc]
  | left => simpa [step, hpc] using h

end Frame

/-- A CPU has its interrupts off from `local_irq_save` to `local_irq_restore`. -/
theorem run_irqOff (sched : List ι) (j : ι) :
    (run zero sched).irqOff j = true ↔
      (run zero sched).pc j ≠ .entered ∧ (run zero sched).pc j ≠ .left := by
  induction sched using List.reverseRecOn with
  | nil => simp [run, runFrom, start]
  | append_singleton sched i ih =>
    rw [run_snoc]
    by_cases hj : j = i
    · subst hj
      exact step_irqOff ih
    · have hframe : (step zero (run zero sched) i).pc j = (run zero sched).pc j ∧
          (step zero (run zero sched) i).irqOff j = (run zero sched).irqOff j := step_of_ne hj
      rw [hframe.1, hframe.2]
      exact ih

/-! ## Steady mode is exclusive -/

/-- CPU 0 has executed `atomic_set(&call_done, 0)`. -/
def Released (s : State ι) : Prop := s.pc zero = .leaving ∨ s.pc zero = .left

instance (s : State ι) : Decidable (Released zero s) := inferInstanceAs (Decidable (_ ∨ _))

section Steady

variable {zero}

theorem dispersing_of_released {sched : List ι} (h : Released zero (run zero sched)) :
    Dispersing zero (run zero sched) := by
  rcases run_phase zero sched with hg | hm | hd
  · rcases hg.pc zero with hpc | hpc | hpc <;> rcases h with h | h <;> rw [hpc] at h <;> cases h
  · rcases hm.boot with hpc | hpc | hpc <;> rcases h with h | h <;> rw [hpc] at h <;> cases h
  · exact hd

theorem meeting_of_steady {sched : List ι} (h : (run zero sched).pc zero = .steady) :
    Meeting zero (run zero sched) := by
  rcases run_phase zero sched with hg | hm | hd
  · rcases hg.pc zero with hpc | hpc | hpc <;> rw [hpc] at h <;> cases h
  · exact hm
  · rcases hd.boot with hpc | hpc <;> rw [hpc] at h <;> cases h

/-- A meeting goes on until CPU 0's reset. -/
theorem Meeting.run {s : State ι} (h : Meeting zero s) (rest : List ι) :
    Meeting zero (runFrom zero s rest) ∨ Dispersing zero (runFrom zero s rest) := by
  induction rest using List.reverseRecOn with
  | nil => exact Or.inl h
  | append_singleton rest i ih =>
    have hsnoc : runFrom zero s (rest ++ [i]) = Rendezvous.step zero (runFrom zero s rest) i := by
      simp [runFrom]
    rw [hsnoc]
    rcases ih with h' | h'
    · exact h'.step
    · exact Or.inr h'.step

theorem run_append (sched rest : List ι) :
    run zero (sched ++ rest) = runFrom zero (run zero sched) rest := by
  simp [run, runFrom]

end Steady

/-- From the moment CPU 0 is inside `jpenguin_main` until it has reset the
    counter, in every interleaving, every other CPU waits in one of the two loops
    with its interrupts off. -/
theorem steady_exclusive (sched rest : List ι) (hin : (run zero sched).pc zero = .steady)
    (hnot : ¬ Released zero (run zero (sched ++ rest))) (j : ι) (hj : j ≠ zero) :
    (run zero (sched ++ rest)).irqOff j = true ∧
      ((run zero (sched ++ rest)).pc j = .firstLoop ∨
        (run zero (sched ++ rest)).pc j = .secondLoop) := by
  have hmeet : Meeting zero (run zero (sched ++ rest)) := by
    rw [run_append] at hnot ⊢
    rcases (meeting_of_steady hin).run rest with h | h
    · exact h
    · exact absurd h.boot hnot
  have hloop := hmeet.others j hj
  refine ⟨(run_irqOff zero _ j).mpr ?_, hloop⟩
  rcases hloop with hpc | hpc
  · rw [hpc]
    exact ⟨by decide, by decide⟩
  · rw [hpc]
    exact ⟨by decide, by decide⟩

/-- Three CPUs; CPU 1 is in the second loop, CPU 2 still in the first. -/
theorem steady_exclusive_three :
    (run (0 : Fin 3) [1, 1, 2, 2, 0, 0, 0, 1]).irqOff 2 = true ∧
      ((run (0 : Fin 3) [1, 1, 2, 2, 0, 0, 0, 1]).pc 2 = .firstLoop ∨
        (run (0 : Fin 3) [1, 1, 2, 2, 0, 0, 0, 1]).pc 2 = .secondLoop) :=
  steady_exclusive 0 [1, 1, 2, 2, 0, 0, 0] [1] (by decide) (by decide) 2 (by decide)

/-! ## Who leaves the first loop -/

/-- In `sched` the CPU `j` takes a step while `call_done == cpus`: between the last
    arrival and the reset. -/
def StepsWhileFull (sched : List ι) (j : ι) : Prop :=
  ∃ before after, sched = before ++ j :: after ∧ (run zero before).callDone = Fintype.card ι

/-- The CPU is past the first loop. -/
def PC.past (p : PC) : Prop := p = .secondLoop ∨ p = .leaving ∨ p = .left

section Past

variable {zero} {i j : ι}

theorem stepsWhileFull_snoc {sched : List ι} :
    StepsWhileFull zero (sched ++ [i]) j ↔ StepsWhileFull zero sched j ∨
      (i = j ∧ (run zero sched).callDone = Fintype.card ι) := by
  constructor
  · rintro ⟨before, after, heq, hfull⟩
    cases after using List.reverseRecOn with
    | nil =>
      have hlast := List.append_inj' heq rfl
      injection hlast.2 with hij
      subst hij
      rw [← hlast.1] at hfull
      exact Or.inr ⟨rfl, hfull⟩
    | append_singleton after k =>
      have heq' : sched ++ [i] = (before ++ j :: after) ++ [k] := by simpa using heq
      exact Or.inl ⟨before, after, (List.append_inj' heq' rfl).1, hfull⟩
  · rintro (⟨before, after, heq, hfull⟩ | ⟨rfl, hfull⟩)
    · exact ⟨before, after ++ [i], by simp [heq], hfull⟩
    · exact ⟨sched, [], rfl, hfull⟩

/-- When the counter is full, a CPU other than CPU 0 leaves the first loop with
    its next step. -/
theorem past_of_full {s : State ι} (h : Meeting zero s) (hj : j ≠ zero) :
    ((step zero s j).pc j).past := by
  have hpos : s.callDone ≠ 0 := by
    have hne : Nonempty ι := ⟨zero⟩
    rw [h.count]
    exact Fintype.card_ne_zero
  rcases h.others j hj with hpc | hpc
  · left
    simp [step, hpc, h.count, hj]
  · left
    simp [step, hpc, hpos]

/-- Without a full counter no CPU leaves the first loop, and none comes back. -/
theorem past_step {s : State ι} (hfull : s.callDone ≠ Fintype.card ι) (hne : s.pc j ≠ .resetting) :
    ((step zero s j).pc j).past ↔ (s.pc j).past := by
  unfold PC.past
  cases hpc : s.pc j with
  | entered => simp [step, hpc]
  | arriving => simp [step, hpc]
  | firstLoop => simp [step, hpc, hfull]
  | secondLoop =>
    simp only [step, hpc]
    split
    · simp [hpc]
    · simp
  | steady => simp [step, hpc]
  | resetting => exact absurd hpc hne
  | leaving => simp [step, hpc]
  | left => simp [step, hpc]

theorem meeting_of_full {sched : List ι} (h : (run zero sched).callDone = Fintype.card ι) :
    Meeting zero (run zero sched) := by
  have hne : Nonempty ι := ⟨zero⟩
  rcases run_phase zero sched with hg | hm | hd
  · exact absurd h hg.callDone_ne
  · exact hm
  · rw [hd.count] at h
    exact absurd h.symm Fintype.card_ne_zero

theorem run_not_resetting (sched : List ι) (hj : j ≠ zero) : (run zero sched).pc j ≠ .resetting := by
  rcases run_phase zero sched with hg | hm | hd
  · rcases hg.pc j with h | h | h <;> rw [h] <;> decide
  · rcases hm.others j hj with h | h <;> rw [h] <;> decide
  · rcases hd.others j hj with h | h | h | h <;> rw [h] <;> decide

/-- A CPU is past the first loop exactly when it has taken a step while the
    counter was full. -/
theorem past_iff_stepsWhileFull (sched : List ι) (hj : j ≠ zero) :
    ((run zero sched).pc j).past ↔ StepsWhileFull zero sched j := by
  induction sched using List.reverseRecOn with
  | nil =>
    constructor
    · rintro (h | h | h) <;> cases h
    · rintro ⟨before, after, heq, -⟩
      simp at heq
  | append_singleton sched i ih =>
    rw [run_snoc, stepsWhileFull_snoc, ← ih]
    by_cases hij : i = j
    · subst hij
      by_cases hfull : (run zero sched).callDone = Fintype.card ι
      · have hpast := past_of_full (meeting_of_full hfull) hj
        exact iff_of_true hpast (Or.inr ⟨rfl, hfull⟩)
      · rw [past_step hfull (run_not_resetting sched hj)]
        simp [hfull]
    · have hframe : (step zero (run zero sched) i).pc j = (run zero sched).pc j :=
        (step_of_ne (Ne.symm hij)).1
      rw [hframe]
      simp [hij]

/-- After the reset, a CPU in the first loop stays there whatever happens. -/
theorem stranded {sched : List ι} (h : Released zero (run zero sched))
    (hj : (run zero sched).pc j = .firstLoop) (rest : List ι) :
    (run zero (sched ++ rest)).pc j = .firstLoop := by
  have hd := dispersing_of_released h
  have hne : Nonempty ι := ⟨zero⟩
  have hrun : Dispersing zero (runFrom zero (run zero sched) rest) ∧
      (runFrom zero (run zero sched) rest).pc j = .firstLoop := by
    induction rest using List.reverseRecOn with
    | nil => exact ⟨hd, hj⟩
    | append_singleton rest i ih =>
      have hsnoc : runFrom zero (run zero sched) (rest ++ [i])
          = step zero (runFrom zero (run zero sched) rest) i := by simp [runFrom]
      rw [hsnoc]
      refine ⟨ih.1.step, ?_⟩
      by_cases hij : j = i
      · subst hij
        have hcard : ¬ 0 = Fintype.card ι := fun h => Fintype.card_ne_zero h.symm
        simp [step, ih.2, ih.1.count, hcard]
      · rw [(step_of_ne hij).1, ih.2]
  rw [run_append]
  exact hrun.2

end Past

/-- Once CPU 0 has reset the counter: no CPU is left in the first loop exactly when
    every CPU but CPU 0 has taken a step while the counter was full. -/
theorem no_cpu_stranded_iff (sched : List ι) (h : Released zero (run zero sched)) :
    (∀ j, (run zero sched).pc j ≠ .firstLoop) ↔ ∀ j, j ≠ zero → StepsWhileFull zero sched j := by
  have hd := dispersing_of_released h
  constructor
  · intro hnone j hj
    rw [← past_iff_stepsWhileFull sched hj]
    rcases hd.others j hj with hpc | hpc | hpc | hpc
    · exact absurd hpc (hnone j)
    · exact Or.inl hpc
    · exact Or.inr (Or.inl hpc)
    · exact Or.inr (Or.inr hpc)
  · intro hall j hpc
    by_cases hj : j = zero
    · subst hj
      rcases h with h | h <;> rw [hpc] at h <;> cases h
    · have hpast := (past_iff_stepsWhileFull sched hj).mpr (hall j hj)
      rw [hpc] at hpast
      rcases hpast with h' | h' | h' <;> cases h'

/-- CPU 1 looks in time: it takes a step when both have arrived. -/
theorem no_cpu_stranded_iff_two :
    Released (0 : Fin 2) (run 0 [1, 1, 0, 0, 1, 0, 0, 0]) ∧
      ∀ j, (run (0 : Fin 2) [1, 1, 0, 0, 1, 0, 0, 0]).pc j ≠ .firstLoop := by
  have hreleased : Released (0 : Fin 2) (run 0 [1, 1, 0, 0, 1, 0, 0, 0]) := by decide
  refine ⟨hreleased, (no_cpu_stranded_iff 0 _ hreleased).mpr fun j hj => ?_⟩
  have hone : j = 1 := Fin.eq_one_of_ne_zero j hj
  subst hone
  exact ⟨[1, 1, 0, 0], [0, 0, 0], rfl, by decide⟩

/-- CPU 1 arrives first, and CPU 0 arrives, runs and resets before CPU 1 looks
    again: CPU 1 stays in the first loop in every continuation. -/
theorem cpu_one_stranded :
    Released (0 : Fin 2) (run 0 [1, 1, 0, 0, 0, 0, 0]) ∧
      (run (0 : Fin 2) [1, 1, 0, 0, 0, 0, 0]).irqOff 1 = true ∧
      ∀ rest, (run (0 : Fin 2) ([1, 1, 0, 0, 0, 0, 0] ++ rest)).pc 1 = .firstLoop :=
  ⟨by decide, by decide, stranded (by decide) (by decide)⟩

end JudgePenguin.Rendezvous
