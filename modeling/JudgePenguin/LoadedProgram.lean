/-
  JudgePenguin/LoadedProgram.lean
  ===============================
  **The library in a program that was loaded.**

  The loader and the library meet at `DuckInfo`: the loader puts the record at the
  top of the stack page and its address into the auxiliary vector, the library looks
  the address up and reads the members.  The variables of the library are where the
  linker put them in the segments, a page below the stack, and the regions follow
  each other behind it, so nothing overlaps (`Linked.sound`).
-/
import JudgePenguin.AuxVector
import JudgePenguin.OutputDelivery

namespace JudgePenguin

open Words

namespace UserLib

/-! ## Linking -/

/-- The slots that are static variables. -/
def Slot.linked : Slot → Bool
  | .info | .stdin | .stdout | .stderr => false
  | _ => true

def Statics.addr (x : Statics) : Slot → Nat
  | .inited => x.inited
  | .duckinfo => x.duckinfo
  | .stdoutMaxSize => x.stdoutMaxSize
  | .stderrMaxSize => x.stderrMaxSize
  | .stdinCurrPos => x.stdinCurrPos
  | .tscFrequency => x.tscFrequency
  | .heapBrk => x.heapBrk
  | .mmapP => x.mmapP
  | _ => 0

/-- The size of a static variable. -/
def Slot.bytes : Slot → Nat
  | .inited => 1
  | _ => 8

/-- The library is linked into the program `f`: its variables are parts of the
    segments and do not overlap. -/
structure Linked (x : Statics) (f : ELF.ElfFile) : Prop where
  inside : ∀ s : Slot, s.linked = true →
    ∃ p ∈ f.loads, p.vaddr ≤ x.addr s ∧ x.addr s + s.bytes ≤ p.vaddr + p.memsz
  apart : ∀ s s' : Slot, s.linked = true → s'.linked = true → s ≠ s' →
    x.addr s + s.bytes ≤ x.addr s' ∨ x.addr s' + s'.bytes ≤ x.addr s

/-- The process `app` with the library, when the C library has read `c` from the
    initial stack. -/
def Env.ofApp (x : Statics) (c : ProcessStack.Contents) (app : ELF.App) : Env where
  x := x
  getauxval := c.getauxval
  stdinPtr := app.duckinfoOrig.stdinPtr
  stdinSize := app.duckinfoOrig.stdinSize
  stdoutPtr := app.duckinfoOrig.stdoutPtr
  stdoutMax := app.duckinfoOrig.stdoutLimit
  stderrPtr := app.duckinfoOrig.stderrPtr
  stderrMax := app.duckinfoOrig.stderrLimit

theorem Env.area_linked (E : Env) {s : Slot} (hs : s.linked = true) :
    E.start s = E.x.addr s ∧ E.size s = s.bytes := by
  cases s <;> first | exact ⟨rfl, rfl⟩ | cases hs

/-- The variables below `DuckInfo`, and the regions behind it in their order. -/
theorem Linked.sound_of {E : Env} {f : ELF.ElfFile} (hx : Linked E.x f)
    (hsegs : ∀ p ∈ f.loads, p.vaddr + p.memsz ≤ E.start .info)
    (hinfo : E.start .info + E.size .info ≤ E.start .stdin)
    (hstdin : E.start .stdin + E.size .stdin ≤ E.start .stdout)
    (hstdout : E.start .stdout + E.size .stdout ≤ E.start .stderr)
    (hstderr : E.start .stderr + E.size .stderr ≤ 2 ^ 64) : E.Sound := by
  have hbelow {s : Slot} (hs : s.linked = true) : E.start s + E.size s ≤ E.start .info := by
    obtain ⟨p, hp, -, hend⟩ := hx.inside s hs
    obtain ⟨hstart, hsize⟩ := E.area_linked hs
    rw [hstart, hsize]
    exact Nat.le_trans hend (hsegs p hp)
  have hbehind {s : Slot} (hs : s.linked ≠ true) :
      E.start .info ≤ E.start s ∧ E.start s + E.size s ≤ 2 ^ 64 := by
    cases s
    case info => omega
    case stdin => omega
    case stdout => omega
    case stderr => omega
    all_goals exact absurd rfl hs
  constructor
  · intro s s' hne
    by_cases hs : s.linked = true
    · by_cases hs' : s'.linked = true
      · obtain ⟨hstart, hsize⟩ := E.area_linked hs
        obtain ⟨hstart', hsize'⟩ := E.area_linked hs'
        rw [hstart, hsize, hstart', hsize']
        exact hx.apart s s' hs hs' hne
      · exact .inl (Nat.le_trans (hbelow hs) (hbehind hs').1)
    · by_cases hs' : s'.linked = true
      · exact .inr (Nat.le_trans (hbelow hs') (hbehind hs).1)
      · cases s <;> cases s' <;> first
          | exact absurd rfl hne
          | exact absurd rfl hs
          | exact absurd rfl hs'
          | omega
  · intro s
    by_cases hs : s.linked = true
    · have hlow := hbelow hs
      omega
    · exact (hbehind hs).2

section Loaded

variable {x : Statics} {f : ELF.ElfFile} {config : ELF.AppConfig} {b : MemoryBreaks}
  {tscFreq : UInt64} {umem : Mem} {c : ProcessStack.Contents}

/-- Nothing that the library relies on overlaps. -/
theorem Linked.sound (hx : Linked x f) (h : ELF.Accepts f config b.vaddrBreak)
    (hc : c.getauxval ELF.AT_DUCK = (f.loaded config tscFreq umem).app.duckinfoPtr) :
    (Env.ofApp x c (f.loaded config tscFreq umem).app).Sound := by
  have hlower := b.lower
  have hptr := hc.trans (h.rsp_eq tscFreq umem).2
  obtain ⟨hpos, -, -, -, -, htop⟩ := h.layout_top
  have g1 := le_ceilTo (r := 4096) config.stdinSize.toNat (by decide)
  have g2 := le_ceilTo (r := 4096) config.stdoutMaxSize.toNat (by decide)
  have g3 := le_ceilTo (r := 4096) config.stderrMaxSize.toNat (by decide)
  have hinfo : (Env.ofApp x c (f.loaded config tscFreq umem).app).start .info =
      config.layout.loadVaddrBreak - 112 := hptr
  simp only [ELF.AppConfig.layout] at hpos htop
  refine hx.sound_of (fun p hp => ?_) ?_ ?_ ?_ ?_
  · have hbound := (h.segment_bounds p hp).2
    rw [hinfo]
    omega
  · show _ + 112 ≤ config.layout.stdin.vaddr
    rw [hinfo]
    simp only [ELF.AppConfig.layout]
    omega
  · show config.layout.stdin.vaddr + config.stdinSize.toNat ≤ config.layout.stdout.vaddr
    simp only [ELF.AppConfig.layout]
    omega
  · show config.layout.stdout.vaddr + config.stdoutMaxSize.toNat ≤ config.layout.stderr.vaddr
    simp only [ELF.AppConfig.layout]
    omega
  · show config.layout.stderr.vaddr + config.stderrMaxSize.toNat ≤ 2 ^ 64
    simp only [ELF.AppConfig.layout]
    omega

/-- The record that the library finds. -/
theorem loaded_infoSet (h : ELF.Accepts f config b.vaddrBreak) (tscFreq : UInt64) (umem : Mem)
    (x : Statics)
    (hc : c.getauxval ELF.AT_DUCK = (f.loaded config tscFreq umem).app.duckinfoPtr) :
    InfoSet (Env.ofApp x c (f.loaded config tscFreq umem).app)
      (umem.apply (f.loaded config tscFreq umem).writes) := by
  obtain ⟨r, hr⟩ : ∃ r, f.loaded config tscFreq umem = r := ⟨_, rfl⟩
  have hload : ELF.load f config tscFreq b umem = .ok r := ELF.load_eq_ok.mpr ⟨h, hr.symm⟩
  obtain ⟨range, l, -, -, hconf⟩ := (ELF.load_confined f config tscFreq b umem).2 r hload
  have hbytes := hconf.duckInfo
  have horig : r.app.duckinfoOrig = ELF.duckInfo config config.layout tscFreq := by
    rw [← hr]
    rfl
  have hwords : ∀ w ∈ r.app.duckinfoOrig.words, w < 2 ^ 64 := by
    have hlower := b.lower
    obtain ⟨-, -, -, -, -, htop⟩ := h.layout_top
    have hstdin := config.stdinSize.toNat_lt
    have hstdout := config.stdoutMaxSize.toNat_lt
    have hstderr := config.stderrMaxSize.toNat_lt
    have hIB := config.IBSize.toNat_lt
    have hOB := config.OBSize.toNat_lt
    have htsc := tscFreq.toNat_lt
    have habi : ELF.ABI_VERSION = 40 := rfl
    rw [horig]
    simp only [ELF.DuckInfo.words, ELF.duckInfo, List.forall_mem_cons, ELF.AppConfig.layout] at htop ⊢
    refine ⟨?_, ?_, ?_, ?_, ?_, ?_, ?_, ?_, ?_, ?_, ?_, ?_, ?_, ?_, List.forall_mem_nil _⟩ <;> omega
  have hholds := Mem.holdsWords_of_read hwords hbytes
  rw [hr] at hc ⊢
  rw [← hc] at hholds
  obtain ⟨-, h8, h16, h24, h32, h40, h48, h56, h64, -⟩ := hholds
  have h40' := h40.trans (congrArg ELF.DuckInfo.stdoutSize horig)
  have h64' := h64.trans (congrArg ELF.DuckInfo.stderrSize horig)
  refine ⟨h8, h16, fun s => ?_, fun s => ?_, fun s => ?_⟩
  · cases s
    · exact h24
    · exact h48
  · cases s
    · exact h32
    · exact h56
  · cases s
    · exact h40'
    · exact h64'

end Loaded

end UserLib

end JudgePenguin
