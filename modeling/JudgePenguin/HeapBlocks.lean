/-
  JudgePenguin/HeapBlocks.lean
  ============================
  **The heap and the blocks of `SYS_mmap`** (`duck_brk`, `duck_mmap_temp`).

  Both hand out memory by moving a pointer up.  The heap starts after the program,
  the blocks in the 10 MiB of `__mmap_pool`, whose end nothing checks: a run keeps
  them apart exactly when the pool holds everything that was asked for.
-/
import JudgePenguin.UserRuns

namespace JudgePenguin

open Words

namespace UserLib

/-- A block that a program was given. -/
structure Block where
  addr : Nat
  len : Nat
deriving DecidableEq

/-- A return value between -4095 and -1. -/
def isError (ret : Nat) : Prop := 2 ^ 64 - 4095 ≤ ret

instance (ret : Nat) : Decidable (isError ret) := inferInstanceAs (Decidable (_ ≤ _))

/-- The size that was asked for, rounded up without wrapping. -/
def Entry.size (e : Entry) : Nat := if e.call.number = .mmap then ceilTo e.call.a2.toNat 4096 else 0

/-- The block that a call returns, if it returns one. -/
def Entry.block (E : Env) (e : Entry) : List Block :=
  if 0 < e.size ∧ ¬ isError (e.reply E).ret then [⟨(e.reply E).ret, e.size⟩] else []

def blocks (E : Env) (log : List Entry) : List Block := log.flatMap (Entry.block E)

/-- All that a run has asked for. -/
def requested (log : List Entry) : Nat := (log.map Entry.size).sum

/-- `heap_brk`, as a call would find it. -/
def Env.heapBrk (E : Env) (m : Mem) : Nat := E.cell (ensureInit E.x E.getauxval m) .heapBrk

/-- What the program may rely on. -/
structure Separate (E : Env) (m₀ m : Mem) (bs : List Block) : Prop where
  inPool : ∀ b ∈ bs, E.x.mmapPool ≤ b.addr ∧ b.addr + b.len ≤ E.x.mmapPool + MMAP_POOL_SIZE
  apart : bs.Pairwise fun b c => b.addr + b.len ≤ c.addr ∨ c.addr + c.len ≤ b.addr
  heap : ∀ b ∈ bs, b.addr + b.len ≤ E.heapBrk m₀ ∨ E.heapBrk m ≤ b.addr

/-- Calls of `SYS_brk` and `SYS_mmap` with any arguments. -/
def HeapCall (c : Call) (_ : Mem) : Prop := c.number = .brk ∨ c.number = .mmap

/-- The pool is followed by `_end`, which the address space is not full of. -/
structure Env.PoolBeforeEnd (E : Env) : Prop where
  pageSize : E.getauxval ELF.AT_PAGESZ = 4096
  pool : E.x.mmapPool + MMAP_POOL_SIZE ≤ E.x.endAddr
  fits : E.x.endAddr + 4096 ≤ 2 ^ 64

section Runs

variable {E : Env} {m₀ m : Mem} {log : List Entry} {L : Lib}

theorem Holds.heapBrk (h : E.Sound) (hm : Holds E m L) : E.heapBrk m = L.brk :=
  (hm.ensureInit h).cells .heapBrk L.brk rfl

/-- The heap starts after the pool. -/
theorem Env.PoolBeforeEnd.heapStart (hE : E.PoolBeforeEnd) :
    E.x.mmapPool + MMAP_POOL_SIZE ≤ E.heapStart := by
  have hle := le_ceilTo E.x.endAddr (r := 4096) (by decide)
  have hlt := ceilTo_lt E.x.endAddr (r := 4096) (by decide)
  have hpool := hE.pool
  have hfits := hE.fits
  have hsum : wrap64 (E.x.endAddr + 4096 - 1) = E.x.endAddr + 4096 - 1 := wrap64_of_lt (by omega)
  have hstart : E.heapStart = ceilTo E.x.endAddr 4096 := by
    rw [Env.heapStart, hE.pageSize, hsum]
    exact wrap64_of_lt (Nat.lt_of_lt_of_le hlt hfits)
  rw [hstart]
  exact Nat.le_trans hpool hle

/-- The size as it is computed is the exact one unless the sum wraps. -/
theorem mmapSize_eq {size : Nat} (h : ceilTo size 4096 < 2 ^ 64) : mmapSize size = ceilTo size 4096 := by
  have hle := le_ceilTo size (r := 4096) (by decide)
  have hdvd : (4096 : Nat) ∣ ceilTo size 4096 := dvd_ceilTo size 4096
  have hsum : size + 4095 < 2 ^ 64 := by
    by_contra hcon
    have hceil : ceilTo size 4096 = (size + 4095) / 4096 * 4096 := rfl
    omega
  rw [mmapSize, wrap64_of_lt hsum, ceilTo_eq_floorTo]
  rfl

theorem requested_append (log : List Entry) (e : Entry) :
    requested (log ++ [e]) = requested log + e.size := by
  rw [requested, List.map_append, List.sum_append]
  rfl

theorem blocks_append (E : Env) (log : List Entry) (e : Entry) :
    blocks E (log ++ [e]) = blocks E log ++ e.block E := by
  rw [blocks, List.flatMap_append, List.flatMap_singleton]
  rfl

/-- While the pool holds everything the pointer is behind the blocks, and otherwise one
    of them leaves the pool. -/
structure Bumped (E : Env) (log : List Entry) (L : Lib) : Prop where
  inside : requested log ≤ MMAP_POOL_SIZE →
    L.mmapP = E.x.mmapPool + requested log ∧
      (∀ b ∈ blocks E log, E.x.mmapPool ≤ b.addr ∧ b.addr + b.len ≤ E.x.mmapPool + requested log) ∧
      (blocks E log).Pairwise fun b c => b.addr + b.len ≤ c.addr
  outside : MMAP_POOL_SIZE < requested log →
    ∃ b ∈ blocks E log, E.x.mmapPool + MMAP_POOL_SIZE < b.addr + b.len

/-- A call that asks for nothing. -/
theorem Bumped.same (h : Bumped E log L) {e : Entry} {L' : Lib} (hsize : e.size = 0)
    (hp : L'.mmapP = L.mmapP) : Bumped E (log ++ [e]) L' := by
  have hblock : e.block E = [] := if_neg fun hcon => by omega
  have hblocks : blocks E (log ++ [e]) = blocks E log := by
    rw [blocks_append, hblock, List.append_nil]
  have hrequested : requested (log ++ [e]) = requested log := by
    rw [requested_append, hsize, Nat.add_zero]
  refine ⟨?_, ?_⟩
  · rw [hblocks, hrequested, hp]
    exact h.inside
  · rw [hblocks, hrequested]
    exact h.outside

/-- A block that is given starts where the pointer was. -/
theorem Bumped.next (hE : E.PoolBeforeEnd) (h : Bumped E log L) {e : Entry} {L' : Lib}
    (hret : (e.reply E).ret = L.mmapP)
    (hp : ceilTo e.call.a2.toNat 4096 < 2 ^ 64 → L'.mmapP = wrap64 (L.mmapP + e.size))
    (hmmap : e.call.number = .mmap) : Bumped E (log ++ [e]) L' := by
  have hpool := hE.pool
  have hfits := hE.fits
  have hsize : e.size = ceilTo e.call.a2.toNat 4096 := if_pos hmmap
  have hconst : MMAP_POOL_SIZE = 10485760 := rfl
  -- the block, as long as what came before it is in the pool
  have hblock (hin : requested log ≤ MMAP_POOL_SIZE) (hpos : 0 < e.size) :
      e.block E = [⟨E.x.mmapPool + requested log, e.size⟩] := by
    have hptr := (h.inside hin).1
    have hnoerror : ¬ isError (e.reply E).ret := by
      rw [isError, hret, hptr]
      omega
    rw [Entry.block, if_pos ⟨hpos, hnoerror⟩, hret, hptr]
  refine ⟨fun hle => ?_, fun hlt => ?_⟩
  · rw [requested_append] at hle ⊢
    have hin : requested log ≤ MMAP_POOL_SIZE := Nat.le_trans (Nat.le_add_right _ _) hle
    obtain ⟨hptr, hmem, hordered⟩ := h.inside hin
    have hptr' : L'.mmapP = E.x.mmapPool + (requested log + e.size) := by
      rw [hp (by omega), hptr, wrap64_of_lt (by omega), Nat.add_assoc]
    refine ⟨hptr', ?_⟩
    rw [blocks_append]
    by_cases hpos : 0 < e.size
    · rw [hblock hin hpos]
      refine ⟨fun b hb => ?_, List.pairwise_append.mpr ⟨hordered, List.pairwise_singleton _ _, ?_⟩⟩
      · rcases List.mem_append.mp hb with hb | hb
        · have hb' := hmem b hb
          omega
        · rw [List.mem_singleton.mp hb]
          dsimp only
          omega
      · intro b hb c hc
        rw [List.mem_singleton.mp hc]
        exact (hmem b hb).2
    · have hempty : e.block E = [] := if_neg fun hcon => hpos hcon.1
      rw [hempty, List.append_nil]
      refine ⟨fun b hb => ?_, hordered⟩
      have hb' := hmem b hb
      omega
  · rw [requested_append] at hlt
    rw [blocks_append]
    by_cases hin : requested log ≤ MMAP_POOL_SIZE
    · rw [hblock hin (by omega)]
      refine ⟨_, List.mem_append_right _ (List.mem_singleton_self _), ?_⟩
      dsimp only
      omega
    · obtain ⟨b, hb, hout⟩ := h.outside (Nat.lt_of_not_le hin)
      exact ⟨b, List.mem_append_left _ hb, hout⟩

/-- Every run keeps the pointer where `Bumped` says, and only moves `heap_brk` up. -/
theorem Run.bumped (h : E.Sound) (hE : E.PoolBeforeEnd) {L₀ : Lib} (hm : Holds E m₀ L₀)
    (hp : L₀.mmapP = E.x.mmapPool) (hrun : Run E HeapCall m₀ log m) :
    ∃ L, Holds E m L ∧ L₀.brk ≤ L.brk ∧ Bumped E log L := by
  induction hrun with
  | start =>
    refine ⟨L₀, hm, Nat.le_refl _, fun _ => ⟨hp, ?_, List.Pairwise.nil⟩, fun hlt => ?_⟩
    · intro b hb
      cases hb
    · exact absurd hlt (Nat.not_lt_zero _)
  | program _ hleaves ih =>
    obtain ⟨L, hL, hbrk, hbumped⟩ := ih
    exact ⟨L, hL.leaves hleaves, hbrk, hbumped⟩
  | @call log m _ c hc ih =>
    obtain ⟨L, hL, hbrk, hbumped⟩ := ih
    have hcurrent := hL.ensureInit h
    obtain ⟨number, a1, a2, a3, tsc⟩ := c
    rcases hc with rfl | rfl
    · obtain ⟨-, hnext⟩ := hcurrent.duckBrk h a1.toNat_lt
      exact ⟨_, Or.inl hnext, Nat.le_trans hbrk (Nat.le_max_left _ _), hbumped.same rfl rfl⟩
    · obtain ⟨hret, hnext⟩ := hcurrent.duckMmapTemp h a2.toNat
      refine ⟨_, Or.inl hnext, hbrk, hbumped.next hE hret (fun hlt => ?_) rfl⟩
      exact congrArg (fun size => wrap64 (L.mmapP + size)) (mmapSize_eq hlt)

/-- Apart exactly while the pool holds everything. -/
theorem Bumped.blocks_separate_iff (h : Bumped E log L)
    (hbrk : E.x.mmapPool + MMAP_POOL_SIZE ≤ E.heapBrk m₀) :
    Separate E m₀ m (blocks E log) ↔ requested log ≤ MMAP_POOL_SIZE := by
  constructor
  · intro hsep
    by_contra hcon
    obtain ⟨b, hb, hout⟩ := h.outside (Nat.lt_of_not_le hcon)
    exact absurd (hsep.inPool b hb).2 (Nat.not_le_of_lt hout)
  · intro hle
    obtain ⟨-, hmem, hordered⟩ := h.inside hle
    refine ⟨fun b hb => ?_, hordered.imp fun hbc => Or.inl hbc, fun b hb => Or.inl ?_⟩
    · have hb' := hmem b hb
      omega
    · have hb' := hmem b hb
      omega

/-- **The blocks lie in the pool, apart from each other and from the heap, exactly when**
    the sizes that a run has asked for, each rounded up to whole pages, are together not
    more than the 10 MiB of the pool. -/
theorem Run.separate_iff (h : E.Sound) (hE : E.PoolBeforeEnd) (hm : Fresh E m₀)
    (hp : E.cell m₀ .mmapP = E.x.mmapPool) (hrun : Run E HeapCall m₀ log m) :
    Separate E m₀ m (blocks E log) ↔ requested log ≤ MMAP_POOL_SIZE := by
  have hstart : Holds E m₀ (E.initial m₀) := Or.inr ⟨hm, rfl⟩
  obtain ⟨L, -, -, hbumped⟩ := Run.bumped h hE hstart hp hrun
  refine hbumped.blocks_separate_iff ?_
  rw [hstart.heapBrk h]
  exact hE.heapStart

end Runs

theorem sampleEnv_poolBeforeEnd : sampleEnv.PoolBeforeEnd := ⟨rfl, by decide, by decide⟩

/-- A call of `SYS_mmap` for `size` bytes. -/
def mmapCall (size : UInt64) : Call := ⟨.mmap, 0, size, 3, 0⟩

/-- Two blocks, and in between `SYS_brk` to 8 KiB after the start of the heap. -/
def heapCalls : List Call := [mmapCall 5000, ⟨.brk, 0x1002000, 0, 0, 0⟩, mmapCall 4096]

theorem heapCalls_run :
    Run sampleEnv HeapCall sampleMem (callsFrom sampleEnv sampleMem heapCalls).1
      (callsFrom sampleEnv sampleMem heapCalls).2 := by
  have hallowed : AllowedFrom sampleEnv HeapCall sampleMem heapCalls :=
    ⟨.inr rfl, .inl rfl, .inr rfl, trivial⟩
  exact Run.calls .start hallowed

theorem Run.separate_sample :
    let run := callsFrom sampleEnv sampleMem heapCalls
    Separate sampleEnv sampleMem run.2 (blocks sampleEnv run.1) ∧
      blocks sampleEnv run.1 = [⟨0x600000, 8192⟩, ⟨0x602000, 4096⟩] ∧
      sampleEnv.heapBrk sampleMem = 0x1000000 ∧ sampleEnv.heapBrk run.2 = 0x1002000 := by
  intro run
  have hall : requested run.1 ≤ MMAP_POOL_SIZE := by decide
  have hsep := (Run.separate_iff sampleEnv_sound sampleEnv_poolBeforeEnd sampleMem_fresh
    sampleMem_mmapP heapCalls_run).mpr hall
  exact ⟨hsep, by decide +kernel, by decide +kernel, by decide +kernel⟩

/-- The 50 MiB of the `hello` program reach past the pool. -/
theorem hello_leaves_pool :
    ¬ ∀ (E : Env) (m₀ m : Mem) (log : List Entry), E.Sound → E.PoolBeforeEnd → Fresh E m₀ →
      E.cell m₀ .mmapP = E.x.mmapPool → Run E HeapCall m₀ log m →
        Separate E m₀ m (blocks E log) := by
  intro hall
  have hrun : Run sampleEnv HeapCall sampleMem ([] ++ [⟨mmapCall 52428800, sampleMem⟩])
      (Entry.reply sampleEnv ⟨mmapCall 52428800, sampleMem⟩).mem := .call .start _ (Or.inr rfl)
  have hsep := hall sampleEnv sampleMem _ _ sampleEnv_sound sampleEnv_poolBeforeEnd sampleMem_fresh
    sampleMem_mmapP hrun
  have hstart : Holds sampleEnv sampleMem (sampleEnv.initial sampleMem) := Or.inr ⟨sampleMem_fresh, rfl⟩
  obtain ⟨L, -, -, hbumped⟩ := Run.bumped sampleEnv_sound sampleEnv_poolBeforeEnd hstart
    sampleMem_mmapP hrun
  obtain ⟨b, hb, hout⟩ := hbumped.outside (by decide)
  exact absurd (hsep.inPool b hb).2 (Nat.not_le_of_lt hout)

end UserLib

end JudgePenguin
