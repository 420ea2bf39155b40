/-
  JudgePenguin/UserRuns.lean
  ==========================
  **Runs of a program with the library.**

  A run is a program that computes, leaving the library's areas alone, and calls the
  handler now and then.  Its log has each call with the memory at the call, so that
  what a run is asked and what it answers are functions of the log.
-/
import JudgePenguin.UserState

namespace JudgePenguin

open Words

namespace UserLib

/-- A call and the memory in which it was made. -/
structure Entry where
  call : Call
  before : Mem

def Entry.reply (E : Env) (e : Entry) : Reply := syscallHandler E.x E.getauxval e.call e.before

/-- The runs from `m₀` with calls that `A` allows, with their logs. -/
inductive Run (E : Env) (A : Call → Mem → Prop) (m₀ : Mem) : List Entry → Mem → Prop
  | start : Run E A m₀ [] m₀
  | program {log : List Entry} {m m' : Mem} (h : Run E A m₀ log m) (hm : E.Leaves m m') :
      Run E A m₀ log m'
  | call {log : List Entry} {m : Mem} (h : Run E A m₀ log m) (c : Call) (hc : A c m) :
      Run E A m₀ (log ++ [⟨c, m⟩]) (Entry.reply E ⟨c, m⟩).mem

/-- The entries of calls that are made one after the other, and the memory after them. -/
def callsFrom (E : Env) : Mem → List Call → List Entry × Mem
  | m, [] => ([], m)
  | m, c :: cs =>
    let rest := callsFrom E (Entry.reply E ⟨c, m⟩).mem cs
    (⟨c, m⟩ :: rest.1, rest.2)

/-- Each of them is allowed in the memory that those before it leave. -/
def AllowedFrom (E : Env) (A : Call → Mem → Prop) : Mem → List Call → Prop
  | _, [] => True
  | m, c :: cs => A c m ∧ AllowedFrom E A (Entry.reply E ⟨c, m⟩).mem cs

theorem Run.calls {E : Env} {A : Call → Mem → Prop} {m₀ m : Mem} {log : List Entry} {cs : List Call}
    (hrun : Run E A m₀ log m) (h : AllowedFrom E A m cs) :
    Run E A m₀ (log ++ (callsFrom E m cs).1) (callsFrom E m cs).2 := by
  induction cs generalizing log m with
  | nil =>
    rw [callsFrom, List.append_nil]
    exact hrun
  | cons c cs ih =>
    have hrest := ih (hrun.call c h.1) h.2
    rw [List.append_assoc] at hrest
    exact hrest

section Bumps

variable {E : Env} {m : Mem} {L : Lib}

/-- `duck_brk` on a current memory. -/
theorem Current.duckBrk (h : E.Sound) (hm : Current E m L) {addr : Nat} (haddr : addr < 2 ^ 64) :
    (duckBrk E.x addr m).ret = max L.brk addr ∧
      Current E (duckBrk E.x addr m).mem { L with brk := max L.brk addr } := by
  have hbrk : m.read64 E.x.heapBrk = L.brk := hm.cells .heapBrk L.brk rfl
  by_cases hzero : addr = 0
  · rw [UserLib.duckBrk, if_pos hzero, hzero, Nat.max_zero, hbrk]
    exact ⟨rfl, hm⟩
  · rw [UserLib.duckBrk, if_neg hzero, hbrk]
    dsimp only
    by_cases hgt : addr > L.brk
    · have hset := hm.set h (c := .heapBrk) (Or.inr (Or.inl rfl)) haddr
      rw [if_pos hgt, Nat.max_eq_right (Nat.le_of_lt hgt)]
      exact ⟨hset.cells .heapBrk addr rfl, hset⟩
    · rw [if_neg hgt, Nat.max_eq_left (Nat.le_of_not_lt hgt), hbrk]
      exact ⟨rfl, hm⟩

/-- `duck_mmap_temp` on a current memory. -/
theorem Current.duckMmapTemp (h : E.Sound) (hm : Current E m L) (size : Nat) :
    (duckMmapTemp E.x size m).ret = L.mmapP ∧
      Current E (duckMmapTemp E.x size m).mem
        { L with mmapP := wrap64 (L.mmapP + mmapSize size) } := by
  have hp : m.read64 E.x.mmapP = L.mmapP := hm.cells .mmapP L.mmapP rfl
  have hset := hm.set h (c := .mmapP) (Or.inr (Or.inr rfl)) (wrap64_lt (L.mmapP + mmapSize size))
  rw [UserLib.duckMmapTemp, hp]
  exact ⟨rfl, hset⟩

end Bumps

/-! ## Vectors -/

/-- The elements of a vector of `n`, each a base and a length. -/
def iovecs (m : Mem) (iov : Nat) : Nat → List (Nat × Nat)
  | 0 => []
  | n + 1 => (m.read64 iov, m.read64 (iov + 8)) :: iovecs m (iov + 16) n

theorem iovecs_congr {m m' : Mem} {iov n : Nat} (h : ∀ i < 16 * n, m' (iov + i) = m (iov + i)) :
    iovecs m' iov n = iovecs m iov n := by
  induction n generalizing iov with
  | zero => rfl
  | succ n ih =>
    have hbase : m'.read64 iov = m.read64 iov :=
      Mem.read64_congr fun i hi => h i (by omega)
    have hlen : m'.read64 (iov + 8) = m.read64 (iov + 8) := by
      refine Mem.read64_congr fun i hi => ?_
      rw [Nat.add_assoc]
      exact h (8 + i) (by omega)
    have hrest : iovecs m' (iov + 16) n = iovecs m (iov + 16) n := by
      refine ih fun i hi => ?_
      rw [Nat.add_assoc]
      exact h (16 + i) (by omega)
    rw [iovecs, iovecs, hbase, hlen, hrest]

/-- The sum of the lengths. -/
def total (ps : List (Nat × Nat)) : Nat := (ps.map Prod.snd).sum

/-- What each element gets of `rem` bytes. -/
def shares : Nat → List (Nat × Nat) → List (Nat × Nat)
  | _, [] => []
  | rem, p :: ps => (p.1, min p.2 rem) :: shares (rem - p.2) ps

theorem total_cons (p : Nat × Nat) (ps : List (Nat × Nat)) : total (p :: ps) = p.2 + total ps := by
  rw [total, List.map_cons, List.sum_cons]
  rfl

theorem shares_zero {ps : List (Nat × Nat)} {p : Nat × Nat} (h : p ∈ shares 0 ps) : p.2 = 0 := by
  induction ps with
  | nil => cases h
  | cons q ps ih =>
    rw [shares, Nat.zero_sub, Nat.min_zero] at h
    rcases List.mem_cons.mp h with rfl | h
    · rfl
    · exact ih h

/-- No element gets more than its length. -/
theorem exists_of_mem_shares {rem : Nat} {ps : List (Nat × Nat)} {p : Nat × Nat}
    (h : p ∈ shares rem ps) : ∃ q ∈ ps, q.1 = p.1 ∧ p.2 ≤ q.2 := by
  induction ps generalizing rem with
  | nil => cases h
  | cons q ps ih =>
    rw [shares] at h
    rcases List.mem_cons.mp h with rfl | h
    · exact ⟨q, List.mem_cons_self .., rfl, Nat.min_le_left _ _⟩
    · obtain ⟨q', hq', haddr, hle⟩ := ih h
      exact ⟨q', List.mem_cons_of_mem _ hq', haddr, hle⟩

/-- The memory that a call names: a vector, or one buffer. -/
def Call.pieces (c : Call) (m : Mem) : List (Nat × Nat) :=
  if c.number = .readv ∨ c.number = .writev then iovecs m c.a2.toNat c.a3.toNat
  else [(c.a2.toNat, c.a3.toNat)]

/-- The bytes that a call asks to read or write. -/
def Entry.asked (e : Entry) : Nat := total (e.call.pieces e.before)

theorem total_singleton (p : Nat × Nat) : total [p] = p.2 := Nat.add_zero _

/-- A small count is not changed by the cast. -/
theorem asInt_toNat {a : UInt64} (h : a.toNat < 2 ^ 31) : (asInt a).toNat = a.toNat := by
  have hmod : a.toNat % 2 ^ 32 = a.toNat := Nat.mod_eq_of_lt (by omega)
  rw [asInt, hmod, if_pos h]
  rfl

/-- What holds of each entry of a log after those before it. -/
def EachAfter (Q : List Entry → Entry → Prop) (log : List Entry) : Prop :=
  ∀ done e rest, log = done ++ e :: rest → Q done e

theorem eachAfter_nil (Q : List Entry → Entry → Prop) : EachAfter Q [] := by
  intro done e rest h
  cases done <;> cases h

theorem eachAfter_append {Q : List Entry → Entry → Prop} {log : List Entry} {x : Entry} :
    EachAfter Q (log ++ [x]) ↔ EachAfter Q log ∧ Q log x := by
  constructor
  · intro h
    refine ⟨fun done e rest hlog => h done e (rest ++ [x]) ?_, h log x [] rfl⟩
    rw [hlog, List.append_assoc, List.cons_append]
  · rintro ⟨hlog, hx⟩ done e rest heq
    rcases List.eq_nil_or_concat rest with rfl | ⟨rest', y, rfl⟩
    · obtain ⟨rfl, hex⟩ := List.append_inj' heq rfl
      rw [← List.singleton_inj.mp hex]
      exact hx
    · rw [List.concat_eq_append, ← List.cons_append, ← List.append_assoc] at heq
      exact hlog done e rest' (List.append_inj' heq rfl).1

/-! ## A program -/

/-- A program of 16 MiB with small regions. -/
def sampleEnv : Env :=
  { x :=
      { inited := 0x500000, duckinfo := 0x500008, stdoutMaxSize := 0x500010
        stderrMaxSize := 0x500018, stdinCurrPos := 0x500020, tscFrequency := 0x500028
        heapBrk := 0x500030, mmapP := 0x500038, mmapPool := 0x600000, endAddr := 0x1000000 }
    getauxval := fun k => if k = ELF.AT_DUCK then 0x2000000 else if k = ELF.AT_PAGESZ then 4096 else 0
    stdinPtr := 0x3000000, stdinSize := 16, stdoutPtr := 0x4000000, stdoutMax := 16
    stderrPtr := 0x5000000, stderrMax := 16 }

theorem sampleEnv_sound : sampleEnv.Sound := by
  constructor
  · intro s s' h
    cases s <;> cases s' <;> first | exact absurd rfl h | decide
  · intro s
    cases s <;> decide

/-- What the loader leaves. -/
def sampleMem : Mem :=
  sampleEnv.set (sampleEnv.set (sampleEnv.set (sampleEnv.set (sampleEnv.set (sampleEnv.set
    (sampleEnv.set (fun _ => 0) (.field .stdinPtr) 0x3000000) (.field .stdinSize) 16)
    (.field .stdoutPtr) 0x4000000) (.field .stdoutLimit) 16) (.field .stderrPtr) 0x5000000)
    (.field .stderrLimit) 16) .mmapP 0x600000

theorem sampleMem_fresh : Fresh sampleEnv sampleMem := by
  have h := sampleEnv_sound
  constructor
  case inited => simp only [sampleMem, h.inited_set]
  all_goals
    simp only [sampleMem, h.cell_set, if_true, if_false, reduceCtorEq, Cell.field.injEq]
    rfl

theorem sampleMem_mmapP : sampleEnv.cell sampleMem .mmapP = sampleEnv.x.mmapPool := by
  simp only [sampleMem, sampleEnv_sound.cell_set, if_true]
  rfl

end UserLib

end JudgePenguin
