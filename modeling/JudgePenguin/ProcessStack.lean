/-
  JudgePenguin/ProcessStack.lean
  ==============================
  **The initial process stack of the System V ABI**: what a program finds above
  its stack pointer, and how it is read.

  From the stack pointer up stand the argument count, the argument pointers, a null
  word, the environment pointers, a null word, and the auxiliary vector: pairs of a
  key and a value up to the key 0, which needs no value.  Reading goes from word to
  word until it meets the terminators, so it takes the number of words it may look
  at; `read_of_holds` says that every large enough number gives the same contents.
-/
import JudgePenguin.ByteMemory

namespace Mem

/-- The words `ws` stand from address `a` on. -/
def HoldsWords (m : Mem) : Nat → List Nat → Prop
  | _, [] => True
  | a, w :: ws => m.read64 a = w ∧ m.HoldsWords (a + 8) ws

theorem holdsWords_append (m : Mem) (a : Nat) (ws vs : List Nat) :
    m.HoldsWords a (ws ++ vs) ↔ m.HoldsWords a ws ∧ m.HoldsWords (a + 8 * ws.length) vs := by
  induction ws generalizing a with
  | nil => simp [HoldsWords]
  | cons w ws ih =>
    have haddr : a + 8 + 8 * ws.length = a + 8 * (w :: ws).length := by
      rw [List.length_cons]
      omega
    rw [List.cons_append, HoldsWords, ih, HoldsWords, haddr, and_assoc]

/-- Words that stand in memory as bytes. -/
theorem holdsWords_of_read {m : Mem} {a : Nat} {ws : List Nat} (hws : ∀ w ∈ ws, w < 2 ^ 64)
    (h : m.read a (8 * ws.length) = ws.flatMap (leBytes 8)) : m.HoldsWords a ws := by
  induction ws generalizing a with
  | nil => exact trivial
  | cons w ws ih =>
    rw [List.length_cons, Nat.mul_add, Nat.add_comm, read_add, List.flatMap_cons] at h
    have hlen : (m.read a (8 * 1)).length = (leBytes 8 w).length := by
      rw [length_read, length_leBytes]
    obtain ⟨hfirst, hrest⟩ := List.append_inj h hlen
    refine ⟨?_, ih (fun v hv => hws v (List.mem_cons_of_mem _ hv)) hrest⟩
    have hword : m.read64 a = leNat (m.read a (8 * 1)) := rfl
    rw [hword, hfirst, leNat_leBytes]
    exact Nat.mod_eq_of_lt (hws w (List.mem_cons_self ..))

end Mem

namespace ProcessStack

/-! ## Reading -/

/-- The words from `a` up to a null word, and the address behind it. -/
def readPointers (m : Mem) : Nat → Nat → Option (List Nat × Nat)
  | 0, _ => none
  | fuel + 1, a =>
    if m.read64 a = 0 then some ([], a + 8)
    else (readPointers m fuel (a + 8)).map fun r => (m.read64 a :: r.1, r.2)

/-- The pairs from `a` up to the key 0. -/
def readAuxv (m : Mem) : Nat → Nat → Option (List (Nat × Nat))
  | 0, _ => none
  | fuel + 1, a =>
    if m.read64 a = 0 then some []
    else (readAuxv m fuel (a + 16)).map fun rest => (m.read64 a, m.read64 (a + 8)) :: rest

structure Contents where
  argc : Nat
  argv : List Nat
  envp : List Nat
  auxv : List (Nat × Nat)
deriving DecidableEq, Repr

def read (m : Mem) (fuel rsp : Nat) : Option Contents := do
  let (argv, envpAt) ← readPointers m fuel (rsp + 8)
  let (envp, auxvAt) ← readPointers m fuel envpAt
  let auxv ← readAuxv m fuel auxvAt
  return ⟨m.read64 rsp, argv, envp, auxv⟩

/-- `getauxval`: the value of the first pair with the key, and 0 without one. -/
def Contents.getauxval (c : Contents) (key : Nat) : Nat := (c.auxv.lookup key).getD 0

/-! ## Writing -/

def auxvWords (auxv : List (Nat × Nat)) : List Nat := auxv.flatMap fun kv => [kv.1, kv.2]

theorem auxvWords_cons (kv : Nat × Nat) (auxv : List (Nat × Nat)) :
    auxvWords (kv :: auxv) = kv.1 :: kv.2 :: auxvWords auxv := rfl

/-- The words of a stack, from the stack pointer up. -/
def Contents.words (c : Contents) : List Nat :=
  c.argc :: (c.argv ++ 0 :: (c.envp ++ 0 :: (auxvWords c.auxv ++ [0])))

/-- No terminator stands where it would be read too early. -/
structure Contents.WellFormed (c : Contents) : Prop where
  argv : ∀ p ∈ c.argv, p ≠ 0
  envp : ∀ p ∈ c.envp, p ≠ 0
  auxv : ∀ kv ∈ c.auxv, kv.1 ≠ 0

/-! ## Reading what was written -/

theorem readPointers_of_holds {m : Mem} {ps rest : List Nat} (hps : ∀ p ∈ ps, p ≠ 0) {fuel a : Nat}
    (hfuel : ps.length < fuel) (h : m.HoldsWords a (ps ++ 0 :: rest)) :
    readPointers m fuel a = some (ps, a + 8 * (ps.length + 1)) := by
  induction ps generalizing fuel a with
  | nil =>
    obtain ⟨fuel, rfl⟩ := Nat.exists_eq_add_of_lt hfuel
    have hzero : m.read64 a = 0 := h.1
    rw [readPointers, if_pos hzero, List.length_nil]
  | cons p ps ih =>
    obtain ⟨fuel, rfl⟩ := Nat.exists_eq_add_of_lt hfuel
    have hp : m.read64 a = p := h.1
    have hne : p ≠ 0 := hps p (by simp)
    have hrest := ih (fun q hq => hps q (by simp [hq])) (show ps.length < (p :: ps).length + fuel by
      rw [List.length_cons]; omega) h.2
    have haddr : a + 8 + 8 * (ps.length + 1) = a + 8 * ((p :: ps).length + 1) := by
      rw [List.length_cons]
      omega
    rw [readPointers, hp, if_neg hne, hrest, haddr]
    rfl

theorem readAuxv_of_holds {m : Mem} {auxv : List (Nat × Nat)} (hkeys : ∀ kv ∈ auxv, kv.1 ≠ 0)
    {fuel a : Nat} (hfuel : auxv.length < fuel) (h : m.HoldsWords a (auxvWords auxv ++ [0])) :
    readAuxv m fuel a = some auxv := by
  induction auxv generalizing fuel a with
  | nil =>
    obtain ⟨fuel, rfl⟩ := Nat.exists_eq_add_of_lt hfuel
    have hzero : m.read64 a = 0 := h.1
    rw [readAuxv, if_pos hzero]
  | cons kv auxv ih =>
    obtain ⟨fuel, rfl⟩ := Nat.exists_eq_add_of_lt hfuel
    rw [auxvWords_cons, List.cons_append, List.cons_append] at h
    obtain ⟨hkey, hvalue, htail⟩ := h
    have hne : kv.1 ≠ 0 := hkeys kv (by simp)
    have hrest := ih (fun kv' hkv' => hkeys kv' (by simp [hkv']))
      (show auxv.length < (kv :: auxv).length + fuel by rw [List.length_cons]; omega) htail
    rw [readAuxv, hkey, if_neg hne, hvalue, hrest]
    rfl

/-- **A stack is read as it was written.** -/
theorem read_of_holds {m : Mem} {c : Contents} (hc : c.WellFormed) {fuel rsp : Nat}
    (hargv : c.argv.length < fuel) (henvp : c.envp.length < fuel) (hauxv : c.auxv.length < fuel)
    (h : m.HoldsWords rsp c.words) : read m fuel rsp = some c := by
  obtain ⟨hargc, hwords⟩ := h
  have henv := ((m.holdsWords_append _ c.argv _).mp hwords).2.2
  have haux := ((m.holdsWords_append _ c.envp _).mp henv).2.2
  have h1 := readPointers_of_holds hc.argv hargv hwords
  have h2 := readPointers_of_holds hc.envp henvp henv
  have h3 := readAuxv_of_holds hc.auxv hauxv haux
  have hat1 : rsp + 8 + 8 * (c.argv.length + 1) = rsp + 8 + 8 * c.argv.length + 8 := by omega
  rw [← hat1] at h2 h3
  have hat2 : rsp + 8 + 8 * (c.argv.length + 1) + 8 * (c.envp.length + 1) =
      rsp + 8 + 8 * (c.argv.length + 1) + 8 * c.envp.length + 8 := by omega
  rw [← hat2] at h3
  simp only [read, h1, h2, h3, hargc, Option.bind_eq_bind, Option.bind_some, Option.pure_def]

end ProcessStack
