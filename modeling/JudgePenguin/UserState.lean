/-
  JudgePenguin/UserState.lean
  ===========================
  **The library's variables as cells.**

  What the library keeps in memory are words: its static variables and the members
  of `DuckInfo`.  Setting one leaves the others and the regions (`cell_set`), so a
  state of the library (`Lib`) is what the cells and the regions hold (`Current`).
  Each function is then a step on `Lib`, and what the program does on its own keeps
  it, because it leaves the areas alone.
-/
import JudgePenguin.UserLib

namespace JudgePenguin

open Words

namespace UserLib

/-! ## Cells -/

/-- The members of `DuckInfo_t` that the library uses. -/
inductive Field where
  | stdinPtr
  | stdinSize
  | stdoutPtr
  | stdoutLimit
  | stdoutSize
  | stderrPtr
  | stderrLimit
  | stderrSize
  | tscFrequency
deriving DecidableEq

def Field.offset : Field → Nat
  | .stdinPtr => 8
  | .stdinSize => 16
  | .stdoutPtr => 24
  | .stdoutLimit => 32
  | .stdoutSize => 40
  | .stderrPtr => 48
  | .stderrLimit => 56
  | .stderrSize => 64
  | .tscFrequency => 104

theorem Field.offset_le (f : Field) : f.offset + 8 ≤ ELF.DUCKINFO_SIZE := by
  cases f <;> decide

theorem Field.apart {f f' : Field} (h : f ≠ f') :
    f.offset + 8 ≤ f'.offset ∨ f'.offset + 8 ≤ f.offset := by
  cases f <;> cases f' <;> first | exact absurd rfl h | decide

/-- The words that the library keeps. -/
inductive Cell where
  | duckinfo
  | stdoutMaxSize
  | stderrMaxSize
  | stdinCurrPos
  | tscFrequency
  | heapBrk
  | mmapP
  | field (f : Field)
deriving DecidableEq

def Cell.slot : Cell → Slot
  | .duckinfo => .duckinfo
  | .stdoutMaxSize => .stdoutMaxSize
  | .stderrMaxSize => .stderrMaxSize
  | .stdinCurrPos => .stdinCurrPos
  | .tscFrequency => .tscFrequency
  | .heapBrk => .heapBrk
  | .mmapP => .mmapP
  | .field _ => .info

/-- Every cell is in a variable. -/
theorem Cell.slot_ne (c : Cell) : c.slot ≠ .stdin ∧ c.slot ≠ .stdout ∧ c.slot ≠ .stderr := by
  cases c <;> exact ⟨Slot.noConfusion, Slot.noConfusion, Slot.noConfusion⟩

def Cell.offset : Cell → Nat
  | .field f => f.offset
  | _ => 0

namespace Env

variable (E : Env)

def addr (c : Cell) : Nat := E.start c.slot + c.offset

/-- The value of a cell, and a memory with another value in it. -/
def cell (m : Mem) (c : Cell) : Nat := m.read64 (E.addr c)

def set (m : Mem) (c : Cell) (v : Nat) : Mem := m.write64 (E.addr c) v

section Cells

variable {E} {m m' : Mem} {c c' : Cell} {s : Slot} {v a n : Nat}

theorem addr_inside (E : Env) (c : Cell) :
    E.start c.slot ≤ E.addr c ∧ E.addr c + 8 ≤ E.start c.slot + E.size c.slot := by
  refine ⟨Nat.le_add_right _ _, ?_⟩
  have hsize : c.offset + 8 ≤ E.size c.slot := by
    cases c with
    | field f => exact f.offset_le
    | _ => exact Nat.le_refl 8
  rw [addr, Nat.add_assoc]
  exact Nat.add_le_add_left hsize _

/-- Two cells do not overlap. -/
theorem Sound.addr_apart (h : E.Sound) (hne : c ≠ c') :
    E.addr c + 8 ≤ E.addr c' ∨ E.addr c' + 8 ≤ E.addr c := by
  have hc := addr_inside E c
  have hc' := addr_inside E c'
  by_cases hslot : c.slot = c'.slot
  · -- two members of `DuckInfo`
    have hfields : ∃ f f', c = .field f ∧ c' = .field f' := by
      cases c <;> cases c' <;> first | exact ⟨_, _, rfl, rfl⟩ | exact absurd rfl hne | cases hslot
    obtain ⟨f, f', rfl, rfl⟩ := hfields
    have hoffset := Field.apart fun hff => hne (congrArg Cell.field hff)
    simp only [addr, Cell.slot, Cell.offset]
    omega
  · have hdis := h.disjoint hslot
    omega

/-- What a cell holds after another, or it, is set. -/
theorem Sound.cell_set (h : E.Sound) (m : Mem) (c c' : Cell) (v : Nat) :
    E.cell (E.set m c v) c' = if c' = c then v % 2 ^ 64 else E.cell m c' := by
  by_cases hc : c' = c
  · rw [if_pos hc, hc]
    exact Mem.read64_write64_mod m _ v
  · rw [if_neg hc]
    exact Mem.read64_write64_disjoint m _ v (h.addr_apart hc)

/-- Setting a cell leaves the other areas. -/
theorem Sound.read_set (h : E.Sound) (hs : c.slot ≠ s) (ha : E.start s ≤ a)
    (ha' : a + n ≤ E.start s + E.size s) : (E.set m c v).read a n = m.read a n := by
  have hc := addr_inside E c
  have hdis := h.disjoint hs
  exact Mem.read_write64_disjoint m _ v (by omega)

/-- Setting a cell leaves everything but the variables. -/
theorem set_other (m : Mem) (c : Cell) (v : Nat) {a : Nat} (ha : ¬ E.Variable a) :
    (E.set m c v) a = m a := by
  have hc := addr_inside E c
  refine Mem.write64_outside m _ v ?_
  by_contra hcon
  exact ha ⟨c.slot, c.slot_ne, by omega, by omega⟩

theorem set_program (m : Mem) (c : Cell) (v : Nat) {a : Nat} (ha : ¬ E.Owned a) :
    (E.set m c v) a = m a := set_other m c v fun hvar => ha hvar.owned

theorem cell_lt (E : Env) (m : Mem) (c : Cell) : E.cell m c < 2 ^ 64 := Mem.read64_lt m _

theorem Leaves.cell (h : E.Leaves m m') (c : Cell) : E.cell m' c = E.cell m c :=
  h.read64 (addr_inside E c).1 (addr_inside E c).2

end Cells

end Env

/-! ## The state of the library -/

/-- What the library has done so far: the bytes of stdin it has delivered, the output
    it has kept, and the ends of the memory it has handed out. -/
structure Lib where
  stdin : List UInt8
  pos : Nat
  out : List UInt8
  err : List UInt8
  brk : Nat
  mmapP : Nat

/-- What a cell holds in a state; the library relies on no other. -/
def Lib.value (E : Env) (L : Lib) : Cell → Option Nat
  | .duckinfo => some E.info
  | .stdoutMaxSize => some E.stdoutMax
  | .stderrMaxSize => some E.stderrMax
  | .stdinCurrPos => some L.pos
  | .heapBrk => some L.brk
  | .mmapP => some L.mmapP
  | .field .stdinPtr => some E.stdinPtr
  | .field .stdinSize => some E.stdinSize
  | .field .stdoutPtr => some E.stdoutPtr
  | .field .stdoutSize => some L.out.length
  | .field .stderrPtr => some E.stderrPtr
  | .field .stderrSize => some L.err.length
  | _ => none

/-- The memory after `init` holds the state `L`. -/
structure Current (E : Env) (m : Mem) (L : Lib) : Prop where
  inited : m E.x.inited ≠ 0
  cells : ∀ c v, L.value E c = some v → E.cell m c = v
  stdin : m.read E.stdinPtr E.stdinSize = L.stdin
  out : m.read E.stdoutPtr L.out.length = L.out
  err : m.read E.stderrPtr L.err.length = L.err
  outLe : L.out.length ≤ E.stdoutMax
  errLe : L.err.length ≤ E.stderrMax

/-- The memory before `init`, where the loader has set up `DuckInfo`. -/
structure Fresh (E : Env) (m : Mem) : Prop where
  inited : m E.x.inited = 0
  stdinPtr : E.cell m (.field .stdinPtr) = E.stdinPtr
  stdinSize : E.cell m (.field .stdinSize) = E.stdinSize
  stdoutPtr : E.cell m (.field .stdoutPtr) = E.stdoutPtr
  stdoutLimit : E.cell m (.field .stdoutLimit) = E.stdoutMax
  stderrPtr : E.cell m (.field .stderrPtr) = E.stderrPtr
  stderrLimit : E.cell m (.field .stderrLimit) = E.stderrMax

/-- What `init` sets `heap_brk` to. -/
def Env.heapStart (E : Env) : Nat :=
  wrap64 (wrap64 (E.x.endAddr + E.getauxval ELF.AT_PAGESZ - 1) / E.getauxval ELF.AT_PAGESZ *
    E.getauxval ELF.AT_PAGESZ)

/-- The state that `init` leaves. -/
def Env.initial (E : Env) (m : Mem) : Lib :=
  { stdin := m.read E.stdinPtr E.stdinSize, pos := 0, out := [], err := []
    brk := E.heapStart, mmapP := E.cell m .mmapP }

/-- The state of the library, `init` having been called or not. -/
def Holds (E : Env) (m : Mem) (L : Lib) : Prop := Current E m L ∨ Fresh E m ∧ L = E.initial m

section Leaves

variable {E : Env} {m m' : Mem} {L : Lib}

theorem Env.Leaves.inited (h : E.Leaves m m') : m' E.x.inited = m E.x.inited :=
  h _ (Env.owned_of_area (E := E) (s := .inited) (Nat.le_refl _) (Nat.lt_succ_self _))

theorem Env.Leaves.stdin (h : E.Leaves m m') :
    m'.read E.stdinPtr E.stdinSize = m.read E.stdinPtr E.stdinSize :=
  h.read (s := .stdin) (Nat.le_refl _) (Nat.le_refl _)

theorem Current.leaves (hm : Current E m L) (h : E.Leaves m m') : Current E m' L where
  inited := h.inited ▸ hm.inited
  cells c v hv := (h.cell c).trans (hm.cells c v hv)
  stdin := h.stdin.trans hm.stdin
  out := (h.read (s := .stdout) (Nat.le_refl _) (Nat.add_le_add_left hm.outLe _)).trans hm.out
  err := (h.read (s := .stderr) (Nat.le_refl _) (Nat.add_le_add_left hm.errLe _)).trans hm.err
  outLe := hm.outLe
  errLe := hm.errLe

theorem Fresh.leaves (hm : Fresh E m) (h : E.Leaves m m') : Fresh E m' where
  inited := h.inited.trans hm.inited
  stdinPtr := (h.cell _).trans hm.stdinPtr
  stdinSize := (h.cell _).trans hm.stdinSize
  stdoutPtr := (h.cell _).trans hm.stdoutPtr
  stdoutLimit := (h.cell _).trans hm.stdoutLimit
  stderrPtr := (h.cell _).trans hm.stderrPtr
  stderrLimit := (h.cell _).trans hm.stderrLimit

/-- What the program does on its own. -/
theorem Holds.leaves (hm : Holds E m L) (h : E.Leaves m m') : Holds E m' L := by
  rcases hm with hm | ⟨hm, rfl⟩
  · exact Or.inl (hm.leaves h)
  · refine Or.inr ⟨hm.leaves h, ?_⟩
    rw [Env.initial, Env.initial, h.stdin, h.cell]

end Leaves

/-! ## `init` -/

section Init

variable {E : Env} {m : Mem} {L : Lib}

theorem Cell.slot_ne_inited (c : Cell) : c.slot ≠ .inited := by cases c <;> exact Slot.noConfusion

theorem Env.Sound.inited_set (h : E.Sound) (m : Mem) (c : Cell) (v : Nat) :
    (E.set m c v) E.x.inited = m E.x.inited := by
  have hc := Env.addr_inside E c
  have hdis := h.disjoint c.slot_ne_inited
  have hstart : E.start .inited = E.x.inited := rfl
  have hsize : E.size .inited = 1 := rfl
  exact Mem.write64_outside m _ v (by omega)

theorem Env.Sound.cell_inited (h : E.Sound) (m : Mem) (c : Cell) (b : UInt8) :
    E.cell (m.write E.x.inited [b]) c = E.cell m c := by
  have hc := Env.addr_inside E c
  have hdis := h.disjoint c.slot_ne_inited
  have hstart : E.start .inited = E.x.inited := rfl
  have hsize : E.size .inited = 1 := rfl
  have hlen : [b].length = 1 := rfl
  exact Mem.read64_write_disjoint m _ _ (by omega)

theorem Env.Sound.stdin_set (h : E.Sound) (m : Mem) (c : Cell) (v : Nat) :
    (E.set m c v).read E.stdinPtr E.stdinSize = m.read E.stdinPtr E.stdinSize :=
  h.read_set c.slot_ne.1 (Nat.le_refl _) (Nat.le_refl _)

theorem Env.Sound.info_lt (h : E.Sound) : E.info < 2 ^ 64 := by
  have hinside := h.inside .info
  have hsize : E.size .info = 112 := rfl
  have hstart : E.start .info = E.info := rfl
  omega

/-- `init` sets cells. -/
theorem Env.Sound.init_eq (h : E.Sound) (m : Mem) :
    init E.x E.getauxval m =
      E.set (E.set (E.set (E.set (E.set (E.set (E.set (E.set (m.write E.x.inited [1])
        .duckinfo E.info) .stdinCurrPos 0)
        .stdoutMaxSize (E.cell m (.field .stdoutLimit))) (.field .stdoutSize) 0)
        .stderrMaxSize (E.cell m (.field .stderrLimit))) (.field .stderrSize) 0)
        .heapBrk E.heapStart) .tscFrequency (E.cell m (.field .tscFrequency)) := by
  have hauxv : E.getauxval ELF.AT_DUCK = E.info := rfl
  have hinfo : E.info % 2 ^ 64 = E.info := Nat.mod_eq_of_lt h.info_lt
  -- the accesses of the source are cells
  have hset (m : Mem) (v : Nat) :
      m.write64 E.x.duckinfo v = E.set m .duckinfo v ∧
      m.write64 E.x.stdinCurrPos v = E.set m .stdinCurrPos v ∧
      m.write64 E.x.stdoutMaxSize v = E.set m .stdoutMaxSize v ∧
      m.write64 (E.info + 40) v = E.set m (.field .stdoutSize) v ∧
      m.write64 E.x.stderrMaxSize v = E.set m .stderrMaxSize v ∧
      m.write64 (E.info + 64) v = E.set m (.field .stderrSize) v ∧
      m.write64 E.x.heapBrk v = E.set m .heapBrk v ∧
      m.write64 E.x.tscFrequency v = E.set m .tscFrequency v :=
    ⟨rfl, rfl, rfl, rfl, rfl, rfl, rfl, rfl⟩
  have hcell (m : Mem) :
      m.read64 E.x.duckinfo = E.cell m .duckinfo ∧
      m.read64 (E.info + 32) = E.cell m (.field .stdoutLimit) ∧
      m.read64 (E.info + 56) = E.cell m (.field .stderrLimit) ∧
      m.read64 (E.info + 104) = E.cell m (.field .tscFrequency) := ⟨rfl, rfl, rfl, rfl⟩
  simp only [init, hauxv, hset, hcell, h.cell_set, h.cell_inited, hinfo, if_true, if_false,
    reduceCtorEq, Cell.field.injEq]
  rfl

/-- `ensureInit` leaves everything but the variables. -/
theorem Env.Sound.ensureInit_other (h : E.Sound) (m : Mem) {a : Nat} (ha : ¬ E.Variable a) :
    ensureInit E.x E.getauxval m a = m a := by
  have hne : a < E.x.inited ∨ E.x.inited + 1 ≤ a := by
    by_contra hcon
    have hsize : E.size .inited = 1 := rfl
    have hstart : E.start .inited = E.x.inited := rfl
    exact ha ⟨.inited, ⟨Slot.noConfusion, Slot.noConfusion, Slot.noConfusion⟩, by omega, by omega⟩
  rw [ensureInit]
  split_ifs
  · rw [h.init_eq]
    simp only [Env.set_other _ _ _ ha]
    exact Mem.write_outside m _ _ hne
  · rfl

theorem Env.Sound.ensureInit_program (h : E.Sound) (m : Mem) {a : Nat} (ha : ¬ E.Owned a) :
    ensureInit E.x E.getauxval m a = m a := h.ensureInit_other m fun hvar => ha hvar.owned

/-- `init` takes a fresh memory to the initial state. -/
theorem Fresh.init (h : E.Sound) (hm : Fresh E m) :
    Current E (init E.x E.getauxval m) (E.initial m) := by
  have hinfo : E.info % 2 ^ 64 = E.info := Nat.mod_eq_of_lt h.info_lt
  have hcell (c : Cell) : E.cell m c % 2 ^ 64 = E.cell m c := Nat.mod_eq_of_lt (Env.cell_lt E m c)
  have hstart : E.heapStart % 2 ^ 64 = E.heapStart := Nat.mod_eq_of_lt (wrap64_lt _)
  have hbyte : (m.write E.x.inited [1]) E.x.inited = 1 :=
    Mem.write_inside m E.x.inited [1] (i := 0) (by decide)
  have hdis := h.disjoint (show Slot.inited ≠ .stdin from Slot.noConfusion)
  rw [h.init_eq]
  refine ⟨?_, fun c v hv => ?_, ?_, rfl, rfl, Nat.zero_le _, Nat.zero_le _⟩
  · simp only [h.inited_set, hbyte]
    decide
  · simp only [h.cell_set, h.cell_inited, hinfo, hcell, hstart]
    rw [← Option.some.injEq, ← hv]
    cases c with
    | field f =>
      cases f with
      | stdinPtr => exact congrArg some hm.stdinPtr
      | stdinSize => exact congrArg some hm.stdinSize
      | stdoutPtr => exact congrArg some hm.stdoutPtr
      | stderrPtr => exact congrArg some hm.stderrPtr
      | stdoutSize => rfl
      | stderrSize => rfl
      | _ => cases hv
    | stdoutMaxSize => exact congrArg some hm.stdoutLimit
    | stderrMaxSize => exact congrArg some hm.stderrLimit
    | tscFrequency => cases hv
    | _ => rfl
  · simp only [h.stdin_set]
    exact Mem.read_write_disjoint m _ _ hdis.symm

/-- Every call starts from the current state. -/
theorem Holds.ensureInit (h : E.Sound) (hm : Holds E m L) :
    Current E (ensureInit E.x E.getauxval m) L := by
  rcases hm with hm | ⟨hm, rfl⟩
  · rw [UserLib.ensureInit, if_neg hm.inited]
    exact hm
  · rw [UserLib.ensureInit, if_pos hm.inited]
    exact hm.init h

end Init

/-! ## Setting a variable -/

section Variables

variable {E : Env} {m : Mem} {L : Lib}

theorem Env.Sound.stdout_set (h : E.Sound) (m : Mem) (c : Cell) (v : Nat) {n : Nat}
    (hn : n ≤ E.stdoutMax) : (E.set m c v).read E.stdoutPtr n = m.read E.stdoutPtr n :=
  h.read_set c.slot_ne.2.1 (Nat.le_refl _) (Nat.add_le_add_left hn _)

theorem Env.Sound.stderr_set (h : E.Sound) (m : Mem) (c : Cell) (v : Nat) {n : Nat}
    (hn : n ≤ E.stderrMax) : (E.set m c v).read E.stderrPtr n = m.read E.stderrPtr n :=
  h.read_set c.slot_ne.2.2 (Nat.le_refl _) (Nat.add_le_add_left hn _)

/-- The three variables that are not about output. -/
def Lib.set (L : Lib) : Cell → Nat → Lib
  | .stdinCurrPos, v => { L with pos := v }
  | .heapBrk, v => { L with brk := v }
  | .mmapP, v => { L with mmapP := v }
  | _, _ => L

theorem Lib.value_set {c : Cell} (hc : c = .stdinCurrPos ∨ c = .heapBrk ∨ c = .mmapP)
    (E : Env) (L : Lib) (v : Nat) (c' : Cell) :
    (L.set c v).value E c' = if c' = c then some v else L.value E c' := by
  rcases hc with rfl | rfl | rfl
  · cases c' with
    | field f => cases f <;> rfl
    | _ => rfl
  · cases c' with
    | field f => cases f <;> rfl
    | _ => rfl
  · cases c' with
    | field f => cases f <;> rfl
    | _ => rfl

theorem Lib.set_rest {c : Cell} (hc : c = .stdinCurrPos ∨ c = .heapBrk ∨ c = .mmapP) (L : Lib)
    (v : Nat) :
    (L.set c v).stdin = L.stdin ∧ (L.set c v).out = L.out ∧ (L.set c v).err = L.err := by
  rcases hc with rfl | rfl | rfl
  · exact ⟨rfl, rfl, rfl⟩
  · exact ⟨rfl, rfl, rfl⟩
  · exact ⟨rfl, rfl, rfl⟩

/-- Setting one of them is a step of the state. -/
theorem Current.set (h : E.Sound) (hm : Current E m L) {c : Cell} {v : Nat}
    (hc : c = .stdinCurrPos ∨ c = .heapBrk ∨ c = .mmapP) (hv : v < 2 ^ 64) :
    Current E (E.set m c v) (L.set c v) := by
  obtain ⟨hin, hout, herr⟩ := Lib.set_rest hc L v
  refine ⟨?_, fun c' w hw => ?_, ?_, ?_, ?_, ?_, ?_⟩
  · rw [h.inited_set]
    exact hm.inited
  · rw [Lib.value_set hc] at hw
    rw [h.cell_set]
    split_ifs at hw ⊢ with heq
    · rw [Nat.mod_eq_of_lt hv]
      exact Option.some.inj hw
    · exact hm.cells c' w hw
  · rw [h.stdin_set, hin]
    exact hm.stdin
  · rw [hout, h.stdout_set m c v hm.outLe]
    exact hm.out
  · rw [herr, h.stderr_set m c v hm.errLe]
    exact hm.err
  · rw [hout]
    exact hm.outLe
  · rw [herr]
    exact hm.errLe

end Variables

end UserLib

end JudgePenguin
