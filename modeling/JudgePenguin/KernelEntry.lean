/-
  JudgePenguin/KernelEntry.lean
  =============================
  **What is on the way into the kernel, and what it leaves behind.**

  `entry` and `duck_entry` do the same with two stacks: they push the registers of the
  caller and keep the stack pointer in a word of the image, which every address space
  on the way has, at one of two addresses (`SeesImage`).  `entry_spec`,
  `enterSwitch_entered` and `duckEntry_spec` say what each piece leaves in memory, and
  `Trail` collects what the way back needs of it: two stacks and three words.
-/
import JudgePenguin.KernelVisit

namespace JudgePenguin

namespace Wrapper

open X86 (Reg Regs Mmu calleeSaved)
open X86.Paged
open Driver (DriverState Firmware MEM_START MEM_SIZE KERNEL_SIZE KERNEL_STACK_SIZE KERNEL_OFFSET
  PAGE_TABLE_SIZE)

/-! ## The image, from either address -/

/-- With this CR3 the image is found at `b`. -/
structure SeesImage (linux : Nat → Option Nat) (memVirt : Nat) (f : Firmware) (cr3 b : UInt64) :
    Prop where
  maps : ∀ o n, o + n ≤ KERNEL_OFFSET + f.size →
    Maps (mmu linux) cr3 (TablesHold memVirt f) (b.toNat + o) (IMAGE + o) n
  bound : b.toNat + (KERNEL_OFFSET + f.size) < 2 ^ 64

/-- The bytes of a word of the image. -/
def CellBytes (a : UInt64) (x : Nat) : Prop := IMAGE + a.toNat ≤ x ∧ x < IMAGE + a.toNat + 8

theorem behind_of_le {x : Nat} (h : IMAGE ≤ x) : BehindTables x := by
  rintro ⟨-, hx⟩
  omega

section Image

variable {memVirt : Nat} {linux : Nat → Option Nat} {f : Firmware} {l : Link} {I : Trap.Image}
  {cr3 b a : UInt64} {m : Core}

theorem seesImage_window (h : Window memVirt linux) (hl : l.Fits f I)
    (hb : b.toNat = memVirt + PAGE_TABLE_SIZE) : SeesImage linux memVirt f cr3 b := by
  obtain ⟨hsize, hstack, hoffset, hpts, hmem, hmemsize, hsbase, hwords, himage, -⟩ := sizes
  have hbelow := hl.below
  have hroom := h.bound
  refine ⟨fun o n hon => ?_, by omega⟩
  have hva : b.toNat + o = memVirt + (PAGE_TABLE_SIZE + o) := by omega
  rw [hva]
  exact h.image hl hon

theorem seesImage_low (hl : l.Fits f I) (hb : b.toNat = PAGE_TABLE_SIZE) :
    SeesImage linux memVirt f CR3_PHYS b := by
  obtain ⟨hsize, hstack, hoffset, hpts, hmem, hmemsize, hsbase, hwords, himage, -⟩ := sizes
  have hbelow := hl.below
  refine ⟨fun o n hon => ?_, by omega⟩
  have hplace : IMAGE + o = MEM_START + (b.toNat + o) := by omega
  rw [hplace]
  exact maps_low (by omega)

theorem SeesImage.toNat_add (h : SeesImage linux memVirt f cr3 b)
    (ha : a.toNat ≤ KERNEL_OFFSET + f.size) : (b + a).toNat = b.toNat + a.toNat := by
  have hbound := h.bound
  rw [UInt64.toNat_add]
  omega

theorem SeesImage.cell (h : SeesImage linux memVirt f cr3 b) {n : Nat}
    (ha : a.toNat + n ≤ KERNEL_OFFSET + f.size) :
    Maps (mmu linux) cr3 (TablesHold memVirt f) (b + a).toNat (IMAGE + a.toNat) n := by
  rw [h.toNat_add (by omega)]
  exact h.maps _ _ ha

/-- The code of the image runs there. -/
theorem SeesImage.runAt (h : SeesImage linux memVirt f cr3 b)
    (ha : a.toNat < KERNEL_OFFSET + f.size) (hrip : m.rip = b + a) (hc : m.cr3 = cr3)
    (hg : TablesHold memVirt f m.phys) :
    m.At (mmu linux) IMAGE a ∧
      ∀ is, X86.Paged.runAt (mmu linux) IMAGE a is m = exec (mmu linux) b is m := by
  have hat : m.At (mmu linux) IMAGE a :=
    (h.cell (n := 1) ha).place (by decide) hc hg (by rw [hrip])
  exact ⟨hat, runAt_eq hat hrip⟩

/-- A member of the header, from its link address. -/
theorem SeesImage.header (h : SeesImage linux memVirt f cr3 b) (hl : l.Fits f I) {a : UInt64} {n : Nat}
    (ha : a.toNat + n ≤ KERNEL_OFFSET + HEADER_SIZE) :
    Maps (mmu linux) cr3 (TablesHold memVirt f) (b + a).toNat (IMAGE + a.toNat) n := by
  have hheader := hl.header
  exact h.cell (by omega)

/-- The words of the kernel stack are next to each other. -/
theorem words_stack {i j x : Nat} (h : Words stackWord i j x) :
    MEM_START + STACK_BASE + 8 * i ≤ x ∧ x < MEM_START + STACK_BASE + 8 * j := by
  obtain ⟨k, h1, h2, h3, h4⟩ := h
  unfold stackWord at h3 h4
  omega

/-- A word of the image and a word of the kernel stack have no byte in common. -/
theorem cell_stack_apart (hl : l.Fits f I) (ha : a.toNat + 8 ≤ KERNEL_OFFSET + f.size) {k : Nat} :
    Mem.Apart64 (stackWord k) (IMAGE + a.toNat) := by
  obtain ⟨hsize, hstack, hoffset, hpts, hmem, hmemsize, hsbase, hwords, himage, -⟩ := sizes
  have hbelow := hl.below
  unfold Mem.Apart64 stackWord
  omega

end Image

/-! ## The stack of Linux -/

/-- Seven words of the stack that Linux runs on, outside of the reserved memory. -/
structure LinuxStack (linux : Nat → Option Nat) (memVirt : Nat) (f : Firmware) (cr3 : UInt64)
    (lo : Nat) (place : Nat → Nat) : Prop where
  stack : StackAt (mmu linux) cr3 (TablesHold memVirt f) BehindTables lo 7 place
  outside : ∀ k < 7, place k + 8 ≤ MEM_START ∨ MEM_START + MEM_SIZE ≤ place k

/-- A byte of the reserved memory is none of the stack of Linux. -/
theorem LinuxStack.not_words {linux : Nat → Option Nat} {memVirt : Nat} {f : Firmware} {cr3 : UInt64}
    {lo : Nat} {place : Nat → Nat} (h : LinuxStack linux memVirt f cr3 lo place) {x : Nat}
    (h1 : MEM_START ≤ x) (h2 : x < MEM_START + MEM_SIZE) : ¬ Words place 0 7 x := by
  rintro ⟨k, -, hk, h3, h4⟩
  have hout := h.outside k hk
  omega

section Entry

variable {memVirt lo : Nat} {linux : Nat → Option Nat} {f : Firmware} {l : Link} {I : Trap.Image}
  {cr3 b ret : UInt64} {m : Core} {place : Nat → Nat}

theorem entrySaved_nodup : entrySaved.Nodup := by decide
theorem duckSaved_nodup : duckSaved.Nodup := by decide

/-- Nor is a byte of the header. -/
theorem LinuxStack.not_header (hL : LinuxStack linux memVirt f cr3 lo place) {j x : Nat}
    (h1 : IMAGE ≤ x) (h2 : x < IMAGE + 400) : ¬ Words place j 7 x := by
  obtain ⟨-, -, -, -, hmem, hmemsize, -, -, himage, -⟩ := sizes
  rw [himage] at h1 h2
  clear himage
  rintro ⟨k, h3, h4, h5⟩
  exact hL.not_words (x := x) (by omega) (by omega) ⟨k, Nat.zero_le k, h4, h5⟩

/-- What `init_memory` lays out. -/
structure LaidOut (memVirt : Nat) (d : DriverState) : Prop where
  kernelBase : d.kernelBase = PAGE_TABLE_SIZE
  kernelBaseLinux : d.kernelBaseLinux = memVirt + PAGE_TABLE_SIZE
  kernelStackTop : d.kernelStackTop = KERNEL_SIZE
  kernelStackTopLinux : d.kernelStackTopLinux = memVirt + KERNEL_SIZE

/-- `jpenguin_main` fills in the header and calls `entry` by the address that the image
    gives. -/
theorem jpenguinMain_spec (ret : UInt64) (hw : Window memVirt linux) (hl : l.Fits f I)
    (hL : LinuxStack linux memVirt f cr3 lo place) {d : DriverState} (hd : LaidOut memVirt d)
    (hb : b = UInt64.ofNat d.kernelBaseLinux) (hbto : b.toNat = memVirt + PAGE_TABLE_SIZE)
    (hc : m.cr3 = cr3) (hg : TablesHold memVirt f m.phys)
    (hentry : m.phys.read64 (IMAGE + 360) = l.entry.toNat) (hrsp : m.rsp.toNat = lo + 56) :
    ∃ phys, jpenguinMain (mmu linux) d ret m =
        some { m with regs := Function.update m.regs .rdi (UInt64.ofNat d.kernelStackTopLinux)
                      rsp := m.rsp - 8, rip := b + l.entry, phys := phys } ∧
      (m.rsp - 8).toNat = lo + 48 ∧ TablesHold memVirt f phys ∧ Holds place phys 6 [ret] ∧
      phys.read64 (IMAGE + 368) = PAGE_TABLE_SIZE ∧ phys.read64 (IMAGE + 376) = KERNEL_SIZE ∧
      Mem.EqOff (fun x => Words place 6 7 x ∨ (IMAGE + 368 ≤ x ∧ x < IMAGE + 384)) m.phys phys := by
  obtain ⟨hsize, hstack, hoffset, hpts, hmem, hmemsize, hsbase, hwords, himage, hheader⟩ := sizes
  have hkeeps := tablesHold_keeps memVirt f
  have hsees : SeesImage linux memVirt f cr3 b := seesImage_window hw hl hbto
  have hmember : (UInt64.ofNat KERNEL_OFFSET + HEADER_ENTRY).toNat = 360 ∧
      (UInt64.ofNat KERNEL_OFFSET + HEADER_KERNEL_BASE).toNat = 368 ∧
      (UInt64.ofNat KERNEL_OFFSET + HEADER_KERNEL_STACK_TOP).toNat = 376 := by decide
  obtain ⟨hmember0, hmember1, hmember2⟩ := hmember
  -- the two stores
  have hstore1 := (hsees.header hl (a := UInt64.ofNat KERNEL_OFFSET + HEADER_KERNEL_BASE) (n := 8)
    (by decide)).store hc hg rfl (UInt64.ofNat d.kernelBase)
  rw [hmember1, hd.kernelBase] at hstore1
  have hoff1 : Mem.EqOff (fun x => IMAGE + 368 ≤ x ∧ x < IMAGE + 376) m.phys
      (m.phys.write64 (IMAGE + 368) (UInt64.ofNat PAGE_TABLE_SIZE).toNat) :=
    Mem.EqOff.write64 _ _ _ fun x h1 h2 => ⟨h1, h2⟩
  have hword1 : (m.phys.write64 (IMAGE + 368) (UInt64.ofNat PAGE_TABLE_SIZE).toNat).read64 (IMAGE + 368)
      = PAGE_TABLE_SIZE := Mem.read64_write64_self _ _ (by decide)
  generalize m.phys.write64 (IMAGE + 368) (UInt64.ofNat PAGE_TABLE_SIZE).toNat = phys1
    at hstore1 hoff1 hword1
  have hg1 : TablesHold memVirt f phys1 :=
    hkeeps _ _ hg (hoff1.mono fun x hx => behind_of_le (by omega))
  have hstore2 := (hsees.header hl (a := UInt64.ofNat KERNEL_OFFSET + HEADER_KERNEL_STACK_TOP) (n := 8)
    (by decide)).store (m := { m with phys := phys1 }) hc hg1 rfl (UInt64.ofNat d.kernelStackTop)
  rw [hmember2, hd.kernelStackTop] at hstore2
  have hoff2 : Mem.EqOff (fun x => IMAGE + 376 ≤ x ∧ x < IMAGE + 384) phys1
      (phys1.write64 (IMAGE + 376) (UInt64.ofNat KERNEL_SIZE).toNat) :=
    Mem.EqOff.write64 _ _ _ fun x h1 h2 => ⟨h1, h2⟩
  have hword2 : (phys1.write64 (IMAGE + 376) (UInt64.ofNat KERNEL_SIZE).toNat).read64 (IMAGE + 376)
      = KERNEL_SIZE := Mem.read64_write64_self _ _ (by decide)
  dsimp only at hstore2
  generalize phys1.write64 (IMAGE + 376) (UInt64.ofNat KERNEL_SIZE).toNat = phys2
    at hstore2 hoff2 hword2
  have hg2 : TablesHold memVirt f phys2 :=
    hkeeps _ _ hg1 (hoff2.mono fun x hx => behind_of_le (by omega))
  -- the load, which they do not touch
  have hload := (hsees.header hl (a := UInt64.ofNat KERNEL_OFFSET + HEADER_ENTRY) (n := 8)
    (by decide)).load (m := { m with phys := phys2 }) hc hg2 rfl
  have hentry2 : phys2.read64 (IMAGE + 360) = l.entry.toNat := by
    rw [hoff2.read64 fun i hi hx => by omega, hoff1.read64 fun i hi hx => by omega, hentry]
  rw [hmember0] at hload
  dsimp only at hload
  rw [hentry2, UInt64.ofNat_toNat] at hload
  -- the call
  let regs := Function.update m.regs .rdi (UInt64.ofNat d.kernelStackTopLinux)
  obtain ⟨hpush, hto⟩ := hL.stack.push (k := 6) (m := { m with regs := regs, phys := phys2 })
    (by decide) hrsp hc hg2 ret
  have hoff3 : Mem.EqOff (Words place 6 7) phys2 (phys2.write64 (place 6) ret.toNat) :=
    Mem.EqOff.write64 _ _ _ fun x h1 h2 => ⟨6, by decide, by decide, h1, h2⟩
  refine ⟨phys2.write64 (place 6) ret.toNat, ?_, hto, ?_, ⟨?_, trivial⟩, ?_, ?_, ?_⟩
  · have haddr : ∀ a : UInt64, UInt64.ofNat (d.kernelBaseLinux + KERNEL_OFFSET) + a =
        b + (UInt64.ofNat KERNEL_OFFSET + a) := by
      intro a
      rw [hb, UInt64.ofNat_add, UInt64.add_assoc]
    have hset : Core.set { m with phys := phys2 } .rdi (UInt64.ofNat d.kernelStackTopLinux) =
        { m with regs := regs, phys := phys2 } := rfl
    rw [jpenguinMain]
    simp only [haddr, hd.kernelBase, hd.kernelStackTop, hstore1, hstore2, hload, hset, hpush,
      Option.bind_eq_bind, Option.bind_some]
    rw [← hb, UInt64.add_comm l.entry]
    rfl
  · exact hkeeps _ _ hg2 (hL.stack.eqOff (by decide) phys2 _)
  · exact Mem.read64_write64_self _ _ ret.toNat_lt
  · rw [hoff3.read64 fun i hi => hL.not_header (by omega) (by omega), hoff2.read64 fun i hi hx => by omega,
      hword1]
  · rw [hoff3.read64 fun i hi => hL.not_header (by omega) (by omega), hword2]
  · refine Mem.EqOff.trans (hoff1.mono ?_) (Mem.EqOff.trans (hoff2.mono ?_) (hoff3.mono ?_))
    · exact fun x hx => Or.inr ⟨hx.1, by omega⟩
    · exact fun x hx => Or.inr ⟨by omega, hx.2⟩
    · exact fun x hx => Or.inl hx

/-- `entry` up to the call of `switch_linux`. -/
theorem entry_spec (hw : Window memVirt linux) (hl : l.Fits f I)
    (hL : LinuxStack linux memVirt f cr3 lo place) (hb : b.toNat = memVirt + PAGE_TABLE_SIZE)
    (hc : m.cr3 = cr3) (hg : TablesHold memVirt f m.phys) (hrip : m.rip = b + l.entry)
    (hrdi : (m.regs .rdi).toNat = memVirt + KERNEL_SIZE) (hrsp : m.rsp.toNat = lo + 48)
    (hret : Holds place m.phys 6 [ret]) :
    ∃ rsp phys, runAt (mmu linux) IMAGE l.entry l.entryCode m =
        some { m with rsp := rsp, rip := b + l.switchLinux, phys := phys } ∧
      rsp.toNat = memVirt + STACK_BASE + 8 * (STACK_WORDS - 1) ∧ TablesHold memVirt f phys ∧
      Holds place phys 0 (ret :: entrySaved.map m.regs) ∧
      phys.read64 (IMAGE + l.linuxRsp.toNat) = lo ∧
      Holds stackWord phys (STACK_WORDS - 1) [b + l.entryReturn] ∧
      Mem.EqOff (fun x => Words place 0 6 x ∨ CellBytes l.linuxRsp x ∨
        Words stackWord (STACK_WORDS - 1) STACK_WORDS x) m.phys phys := by
  obtain ⟨hsize, hstack, hoffset, hpts, hmem, hmemsize, hsbase, hwords, himage, -⟩ := sizes
  have hbelow := hl.below
  have hsees : SeesImage linux memVirt f cr3 b := seesImage_window hw hl hb
  have hcell := (hl.cell l.linuxRsp (by simp [Link.cells])).2
  obtain ⟨-, hrun⟩ := hsees.runAt (hl.code l.entry (by simp [Link.codes])) hrip hc hg
  obtain ⟨rsp, phys, hsave, hrsp1, hg1, hregs, hword, hoff⟩ := hL.stack.exec_save
    (tablesHold_keeps memVirt f) b entrySaved (j := 0) (hsees.cell hcell)
    (fun x h1 _ => behind_of_le (by omega))
    (fun k hk => by
      have hout := hL.outside k hk
      unfold Mem.Apart64
      omega)
    (show 0 + entrySaved.length ≤ 7 by decide) hrsp hc hg
  -- the call pushes onto the new stack
  have hkernel := hw.stack f cr3
  obtain ⟨hpush, hto⟩ := hkernel.push (k := STACK_WORDS - 1)
    (m := { m with rsp := m.regs .rdi, phys := phys }) (by omega) (by dsimp only; omega) hc hg1
    (b + l.entryReturn)
  have hoff2 : Mem.EqOff (Words stackWord (STACK_WORDS - 1) STACK_WORDS) phys
      (phys.write64 (stackWord (STACK_WORDS - 1)) (b + l.entryReturn).toNat) :=
    Mem.EqOff.write64 _ _ _ fun x h1 h2 => ⟨STACK_WORDS - 1, by omega, by omega, h1, h2⟩
  refine ⟨m.regs .rdi - 8,
    phys.write64 (stackWord (STACK_WORDS - 1)) (b + l.entryReturn).toNat, ?_, hto, ?_, ⟨?_, ?_⟩, ?_,
    ⟨?_, trivial⟩, ?_⟩
  · rw [hrun, Link.entryCode, hsave]
    simp only [exec, step, Option.bind_some, hpush, Option.map_some]
  · exact tablesHold_keeps memVirt f _ _ hg1 (hkernel.eqOff (by omega) phys _)
  · -- the return address of `entry`
    have hlen : (entrySaved.map m.regs).length = 6 := rfl
    rw [hlen, ← hret.1]
    apply Mem.read64_congr
    intro i hi
    have hout := hL.outside 6 (by decide)
    have hzero : place (0 + 6) = place 6 := rfl
    rw [hzero, hoff2 _ fun hx => by have hw := words_stack hx; omega]
    apply hoff
    rintro (⟨k, h1, h2, h3, h4⟩ | ⟨h1, h2⟩)
    · have hk6 : k < 6 := h2
      have hapart := hL.stack.apart k (by omega) 6 (by decide) (by omega)
      unfold Mem.Apart64 at hapart
      omega
    · omega
  · refine hregs.frame fun x hx => hoff2 x fun hstackx => ?_
    obtain ⟨h1, h2⟩ := words_stack hstackx
    refine hL.not_words (x := x) (by omega) (by omega) ?_
    obtain ⟨j, h5, h6, h7, h8⟩ := hx
    exact ⟨j, h5, Nat.lt_of_lt_of_le h6 (Nat.le_succ 6), h7, h8⟩
  · have hword' : phys.read64 (IMAGE + l.linuxRsp.toNat) = lo := hword
    rw [← hword']
    refine hoff2.read64 fun i hi hx => ?_
    have hw := words_stack hx
    omega
  · exact Mem.read64_write64_self _ _ (UInt64.toNat_lt _)
  · refine Mem.EqOff.trans (hoff.mono ?_) (hoff2.mono fun x hx => Or.inr (Or.inr hx))
    rintro x (hx | hx)
    · exact Or.inl hx
    · exact Or.inr (Or.inl hx)

end Entry

/-! ## `switch_linux` -/

section Switch

variable {memVirt : Nat} {linux : Nat → Option Nat} {f : Firmware} {l : Link} {I : Trap.Image}
  {cr3 b : UInt64} {c : Compiled}

/-- A compiled function finds its frame and its return address. -/
theorem epilogue_spec {mmu : Mmu} {G : Mem → Prop} {S : Nat → Prop} {lo n : Nat} {place : Nat → Nat}
    (h : StackAt mmu cr3 G S lo n place) {m : Core} {r : UInt64} {ws : List UInt64} {j : Nat}
    (hholds : Holds place m.phys j (r :: ws)) (hws : ws.length = c.words) (hj : j + c.words + 1 ≤ n)
    (hrsp : m.rsp.toNat = lo + 8 * j) (hc : m.cr3 = cr3) (hg : G m.phys) :
    ∃ rsp, epilogue mmu c m =
        some { m with regs := c.unspill m.regs ws, rsp := rsp, rip := r } ∧
      rsp.toNat = lo + 8 * (j + c.words + 1) := by
  obtain ⟨hret, hframe⟩ := hholds
  obtain ⟨rsp, hpops, hrsp'⟩ := h.popAll hframe (by omega) hrsp hc hg
  obtain ⟨hpop, hto⟩ := h.pop (m := { m with regs := c.unspill m.regs ws, rsp := rsp })
    (k := j + ws.length) (by omega) hrsp' hc hg
  refine ⟨rsp + 8, ?_, hto.trans (by omega)⟩
  rw [epilogue, ← hws, hpops, Option.bind_some]
  dsimp only
  rw [hpop, Option.map_some]
  dsimp only
  rw [hret, UInt64.ofNat_toNat]

theorem dynlinkPtr_spec {mmu : Mmu} {G : Mem → Prop} {m : Core} {ptr : UInt64} {p : Nat}
    (offset : UInt64) (h : Maps mmu cr3 G ptr.toNat p 8) (hc : m.cr3 = cr3) (hg : G m.phys) :
    dynlinkPtr mmu offset m ptr =
      some { m with phys := Trap.dynlinkPtr offset.toNat m.phys p } := by
  have hlt := m.phys.read64_lt p
  have hto : (UInt64.ofNat (m.phys.read64 p)).toNat = m.phys.read64 p :=
    UInt64.toNat_ofNat_of_lt' hlt
  rw [dynlinkPtr, h.load hc hg rfl, Option.bind_some, Trap.dynlinkPtr]
  by_cases hzero : m.phys.read64 p = 0
  · have hv : ¬ UInt64.ofNat (m.phys.read64 p) ≠ 0 := by
      rw [hzero]
      decide
    rw [if_neg hv, if_neg (not_not_intro hzero)]
  · have hv : UInt64.ofNat (m.phys.read64 p) ≠ 0 := by
      intro hcon
      rw [hcon] at hto
      exact hzero hto.symm
    rw [if_pos hv, if_pos hzero, h.store hc hg rfl, UInt64.toNat_add, hto]
    rfl

/-- The pointers of the image in physical memory. -/
def relocate (I : Trap.Image) (phys : Mem) : Mem :=
  I.slots.foldl (fun phys s => Trap.dynlinkPtr I.kernelBase phys (MEM_START + s)) phys

def SlotBytes (I : Trap.Image) (x : Nat) : Prop :=
  ∃ s ∈ I.slots, MEM_START + s ≤ x ∧ x < MEM_START + s + 8

theorem dynlinkPtr_eqOff (offset : Nat) (phys : Mem) (p : Nat) :
    Mem.EqOff (fun x => p ≤ x ∧ x < p + 8) phys (Trap.dynlinkPtr offset phys p) := by
  rw [Trap.dynlinkPtr]
  split
  · exact Mem.EqOff.write64 _ _ _ fun x h1 h2 => ⟨h1, h2⟩
  · exact Mem.EqOff.refl _ _

/-- `fake_dynlink` through either address of the image. -/
theorem fakeDynlink_spec (hl : l.Fits f I) (hsees : SeesImage linux memVirt f cr3 b) {m : Core}
    (offset : UInt64) (hoffset : offset.toNat = PAGE_TABLE_SIZE) (hc : m.cr3 = cr3)
    (hg : TablesHold memVirt f m.phys) :
    fakeDynlink (mmu linux) I b offset m = some { m with phys := relocate I m.phys } ∧
      Mem.EqOff (SlotBytes I) m.phys (relocate I m.phys) := by
  obtain ⟨-, -, -, hpts, hmem, -, -, -, himage, -⟩ := sizes
  have hbase := hl.base
  suffices H : ∀ slots : List Nat, (∀ s ∈ slots, s ∈ I.slots) → ∀ m : Core, m.cr3 = cr3 →
      TablesHold memVirt f m.phys →
      slots.foldlM (fun m slot => dynlinkPtr (mmu linux) offset m
          (b + UInt64.ofNat (slot - I.kernelBase))) m =
        some { m with phys := slots.foldl (fun phys s =>
          Trap.dynlinkPtr I.kernelBase phys (MEM_START + s)) m.phys } ∧
      Mem.EqOff (SlotBytes I) m.phys (slots.foldl (fun phys s =>
          Trap.dynlinkPtr I.kernelBase phys (MEM_START + s)) m.phys) from
    H I.slots (fun s hs => hs) m hc hg
  intro slots hslots
  induction slots with
  | nil => exact fun m _ _ => ⟨rfl, Mem.EqOff.refl _ _⟩
  | cons s slots ih =>
    intro m hc hg
    have hs := hslots s List.mem_cons_self
    obtain ⟨h1, h2⟩ := hl.slot s hs
    have hlink : (UInt64.ofNat (s - I.kernelBase)).toNat = s - PAGE_TABLE_SIZE := by
      rw [hbase]
      apply UInt64.toNat_ofNat_of_lt'
      have hbound := hsees.bound
      exact Nat.lt_of_le_of_lt (by omega) hbound
    have hplace : IMAGE + (UInt64.ofNat (s - I.kernelBase)).toNat = MEM_START + s := by omega
    have hcell := hsees.cell (a := UInt64.ofNat (s - I.kernelBase)) (n := 8) (by omega)
    rw [hplace] at hcell
    have hstep := dynlinkPtr_spec offset hcell hc hg
    rw [hoffset, ← hbase] at hstep
    have hoff := dynlinkPtr_eqOff I.kernelBase m.phys (MEM_START + s)
    have hg' : TablesHold memVirt f (Trap.dynlinkPtr I.kernelBase m.phys (MEM_START + s)) :=
      tablesHold_keeps memVirt f _ _ hg (hoff.mono fun x hx => behind_of_le (by omega))
    rw [List.foldlM_cons, List.foldl_cons, hstep, Option.bind_eq_bind, Option.bind_some]
    generalize Trap.dynlinkPtr I.kernelBase m.phys (MEM_START + s) = phys at hoff hg' ⊢
    have hslot : Mem.EqOff (SlotBytes I) m.phys phys := by
      refine hoff.mono fun x hx => ?_
      exact ⟨s, hs, hx.1, hx.2⟩
    obtain ⟨hrun, hoff'⟩ := ih (fun s hs => hslots s (List.mem_cons_of_mem _ hs))
      { m with phys := phys } hc hg'
    exact ⟨hrun, hslot.trans hoff'⟩

/-- The pointers lie behind the header, and not in the words of the wrapper. -/
theorem SlotBytes.bounds (hl : l.Fits f I) {x : Nat} (h : SlotBytes I x) :
    IMAGE + (KERNEL_OFFSET + HEADER_SIZE) ≤ x ∧ x < IMAGE + (KERNEL_OFFSET + f.size) := by
  obtain ⟨-, -, -, hpts, hmem, -, -, -, himage, -⟩ := sizes
  obtain ⟨s, hs, h1, h2⟩ := h
  have hslot := hl.slot s hs
  omega

theorem SlotBytes.not_cell (hl : l.Fits f I) {x : Nat} (h : SlotBytes I x) {a : UInt64}
    (ha : a ∈ l.cells) : ¬ CellBytes a x := by
  obtain ⟨-, -, -, hpts, hmem, -, -, -, himage, -⟩ := sizes
  obtain ⟨s, hs, h1, h2⟩ := h
  have hapart := hl.slot_cell s hs a ha
  rintro ⟨h3, h4⟩
  unfold Mem.Apart64 at hapart
  omega

/-- The frame of `switch_linux` below its return address. -/
theorem frame_spec (hw : Window memVirt linux) {m : Core} {r : UInt64} (hc : m.cr3 = cr3)
    (hg : TablesHold memVirt f m.phys)
    (hrsp : m.rsp.toNat = memVirt + STACK_BASE + 8 * (STACK_WORDS - 1))
    (hret : Holds stackWord m.phys (STACK_WORDS - 1) [r]) (vs : List UInt64)
    (hvs : vs.length ≤ 4096) :
    ∃ rsp phys, m.pushAll (mmu linux) vs = some { m with rsp := rsp, phys := phys } ∧
      rsp.toNat = memVirt + STACK_BASE + 8 * (STACK_WORDS - 1 - vs.length) ∧
      TablesHold memVirt f phys ∧ Holds stackWord phys (STACK_WORDS - 1 - vs.length) (r :: vs) ∧
      Mem.EqOff (Words stackWord (STACK_WORDS - 1 - vs.length) (STACK_WORDS - 1)) m.phys phys := by
  obtain ⟨-, -, -, -, -, -, -, hwords, -, -⟩ := sizes
  have hj : STACK_WORDS - 1 - vs.length + vs.length = STACK_WORDS - 1 := by omega
  obtain ⟨rsp, phys, hrun, hrsp', hg', hholds, hoff⟩ := (hw.stack f cr3).pushAll
    (j := STACK_WORDS - 1 - vs.length) (tablesHold_keeps memVirt f) vs (by omega)
    (by rw [hj]; exact hrsp) hc hg
  rw [hj] at hoff
  refine ⟨rsp, phys, hrun, hrsp', hg', ⟨?_, hholds⟩, hoff⟩
  rw [hj, ← hret.1]
  refine hoff.read64 fun i hi hx => ?_
  have hin := words_stack hx
  unfold stackWord at hin
  have hnil : ([] : List UInt64).length = 0 := rfl
  omega

/-- `save_linux` refuses: `switch_linux` returns `-1` and has changed nothing. -/
theorem enterSwitch_refused (hw : Window memVirt linux) (hl : l.Fits f I)
    (hb : b.toNat = memVirt + PAGE_TABLE_SIZE) {m : Machine} {r : UInt64} (hc : m.core.cr3 = cr3)
    (hg : TablesHold memVirt f m.core.phys) (hrip : m.core.rip = b + l.switchLinux)
    (hrsp : m.core.rsp.toNat = memVirt + STACK_BASE + 8 * (STACK_WORDS - 1))
    (hret : Holds stackWord m.core.phys (STACK_WORDS - 1) [r]) (htr : m.sys.cpu.tr / 8 ≥ 16) :
    ∃ core s, enterSwitch (mmu linux) c I l m = some (.refused ⟨core, s⟩) ∧
      s.cpu = m.sys.cpu ∧ core.rip = r ∧ core.cr3 = cr3 ∧ core.regs .rax = 0xffffffff ∧
      (∀ q ∈ calleeSaved, core.regs q = m.core.regs q) ∧ TablesHold memVirt f core.phys ∧
      Mem.EqOff (Words stackWord (STACK_WORDS - 1 - c.words) (STACK_WORDS - 1)) m.core.phys
        core.phys := by
  obtain ⟨-, -, -, -, -, -, -, hwords, -, -⟩ := sizes
  have hsmall := c.small
  have hsees : SeesImage linux memVirt f cr3 b := seesImage_window hw hl hb
  obtain ⟨hat, -⟩ := hsees.runAt (hl.code l.switchLinux (by simp [Link.codes])) hrip hc hg
  obtain ⟨rsp, phys, hpush, hrsp1, hg1, hholds, hoff⟩ := frame_spec hw hc hg hrsp hret
    (c.spill m.core.regs) (by rw [c.length_spill]; exact hsmall)
  rw [c.length_spill] at hrsp1 hholds hoff
  obtain ⟨s, hsave, hcpu⟩ := saveLinux_refused htr
  let regs := Function.update (c.atCall m.core.regs 0) .rax (0xffffffff : UInt64)
  have hkept : ∀ q ∈ calleeSaved, regs q = c.atCall m.core.regs 0 q := by
    intro q hq
    have hne : q ≠ .rax := by
      rintro rfl
      exact absurd hq (by decide)
    exact Function.update_of_ne hne _ _
  obtain ⟨hrax, hsaved⟩ := c.returns m.core.regs 0 regs hkept
  obtain ⟨rsp', hepi, -⟩ := epilogue_spec (c := c) (hw.stack f cr3)
    (m := { m.core with regs := regs, rsp := rsp, phys := phys }) hholds (c.length_spill _)
    (by omega) hrsp1 hc hg1
  refine ⟨{ m.core with regs := c.unspill regs (c.spill m.core.regs), rsp := rsp', rip := r,
                        phys := phys }, s, ?_, hcpu, rfl, hc, ?_, hsaved, hg1, hoff⟩
  · have hne : (-1 : Int32) ≠ 0 := by decide
    rw [enterSwitch, if_neg (not_not_intro hat)]
    simp only [hpush, hsave, Option.bind_eq_bind, Option.bind_some]
    rw [if_pos hne, hepi, Option.map_some]
  · exact hrax.trans (Function.update_self ..)

/-- `switch_linux` keeps its frame on the kernel stack and the CR3 of Linux in the image. -/
theorem switchFrame_spec (hw : Window memVirt linux) (hl : l.Fits f I)
    (hb : b.toNat = memVirt + PAGE_TABLE_SIZE) {m : Core} {r : UInt64} (hc : m.cr3 = cr3)
    (hg : TablesHold memVirt f m.phys)
    (hrsp : m.rsp.toNat = memVirt + STACK_BASE + 8 * (STACK_WORDS - 1))
    (hret : Holds stackWord m.phys (STACK_WORDS - 1) [r]) :
    ∃ rsp phys₁ phys,
      m.pushAll (mmu linux) (c.spill m.regs) = some { m with rsp := rsp, phys := phys₁ } ∧
      Core.store (mmu linux) { m with rsp := rsp, phys := phys₁ } (b + l.linuxCr3) cr3 =
        some { m with rsp := rsp, phys := phys } ∧
      rsp.toNat = memVirt + STACK_BASE + 8 * (STACK_WORDS - 1 - c.words) ∧
      TablesHold memVirt f phys ∧
      Holds stackWord phys (STACK_WORDS - 1 - c.words) (r :: c.spill m.regs) ∧
      phys.read64 (IMAGE + l.linuxCr3.toNat) = cr3.toNat ∧
      Mem.EqOff (fun x => Words stackWord (STACK_WORDS - 1 - c.words) (STACK_WORDS - 1) x ∨
        CellBytes l.linuxCr3 x) m.phys phys := by
  obtain ⟨hsize, hstack, hoffset, hpts, hmem, hmemsize, hsbase, hwords, himage, -⟩ := sizes
  have hbelow := hl.below
  obtain ⟨-, hcell⟩ := hl.cell l.linuxCr3 (by simp [Link.cells])
  have hsees : SeesImage linux memVirt f cr3 b := seesImage_window hw hl hb
  obtain ⟨rsp, phys1, hpush, hrsp1, hg1, hholds, hoff1⟩ := frame_spec hw hc hg hrsp hret
    (c.spill m.regs) (by rw [c.length_spill]; exact c.small)
  rw [c.length_spill] at hrsp1 hholds hoff1
  have hstore := (hsees.cell hcell).store (m := { m with rsp := rsp, phys := phys1 }) hc hg1 rfl cr3
  have hoff2 : Mem.EqOff (CellBytes l.linuxCr3) phys1
      (phys1.write64 (IMAGE + l.linuxCr3.toNat) cr3.toNat) :=
    Mem.EqOff.write64 _ _ _ fun x h1 h2 => ⟨h1, h2⟩
  refine ⟨rsp, phys1, _, hpush, hstore, hrsp1, ?_, hholds.frame fun x hx => hoff2 x fun h => ?_,
    Mem.read64_write64_self _ _ cr3.toNat_lt, ?_⟩
  · exact tablesHold_keeps memVirt f _ _ hg1
      (hoff2.mono fun x hx => behind_of_le (by unfold CellBytes at hx; omega))
  · have hin := words_stack hx
    unfold CellBytes at h
    omega
  · exact (hoff1.mono fun x hx => Or.inl hx).trans (hoff2.mono fun x hx => Or.inr hx)

/-- What `switch_linux` does with the image once the page tables of the kernel are loaded:
    the pointers are relocated by `kernel_base` and the magic number is written, which
    leaves `kernel_stack_top` readable. -/
theorem prepareImage_spec (hl : l.Fits f I) (hsees : SeesImage linux memVirt f cr3 b) {m : Core}
    (hc : m.cr3 = cr3) (hg : TablesHold memVirt f m.phys)
    (hkbase : m.phys.read64 (IMAGE + 368) = PAGE_TABLE_SIZE)
    (hktop : m.phys.read64 (IMAGE + 376) = KERNEL_SIZE) :
    ∃ phys, m.load (mmu linux) (b + (UInt64.ofNat KERNEL_OFFSET + HEADER_KERNEL_BASE)) =
        some (UInt64.ofNat PAGE_TABLE_SIZE) ∧
      fakeDynlink (mmu linux) I b (UInt64.ofNat PAGE_TABLE_SIZE) m =
        some { m with phys := relocate I m.phys } ∧
      Core.write (mmu linux) { m with phys := relocate I m.phys }
        (b + (UInt64.ofNat KERNEL_OFFSET + HEADER_MAGIC)) (Mem.leBytes 4 0xabcd1234) =
        some { m with phys := phys } ∧
      Core.load (mmu linux) { m with phys := phys }
        (b + (UInt64.ofNat KERNEL_OFFSET + HEADER_KERNEL_STACK_TOP)) = some (UInt64.ofNat KERNEL_SIZE) ∧
      TablesHold memVirt f phys ∧ (∀ x, SlotBytes I x → phys x = relocate I m.phys x) ∧
      Mem.EqOff (fun x => SlotBytes I x ∨ (IMAGE + 384 ≤ x ∧ x < IMAGE + 388)) m.phys phys := by
  obtain ⟨-, -, hoffset, -, hmem, -, -, -, himage, hheader⟩ := sizes
  have hkeeps := tablesHold_keeps memVirt f
  have hmember : (UInt64.ofNat KERNEL_OFFSET + HEADER_KERNEL_BASE).toNat = 368 ∧
      (UInt64.ofNat KERNEL_OFFSET + HEADER_KERNEL_STACK_TOP).toNat = 376 ∧
      (UInt64.ofNat KERNEL_OFFSET + HEADER_MAGIC).toNat = 384 := by decide
  obtain ⟨hmember1, hmember2, hmember3⟩ := hmember
  have hbase := (hsees.header hl (a := UInt64.ofNat KERNEL_OFFSET + HEADER_KERNEL_BASE) (n := 8)
    (by decide)).load hc hg rfl
  rw [hmember1, hkbase] at hbase
  -- the pointers
  obtain ⟨hdyn, hoff1⟩ := fakeDynlink_spec hl hsees (UInt64.ofNat PAGE_TABLE_SIZE) (by decide) hc hg
  have hg1 : TablesHold memVirt f (relocate I m.phys) :=
    hkeeps _ _ hg (hoff1.mono fun x hx => behind_of_le (by have hin := hx.bounds hl; omega))
  -- the magic number, in front of them
  have hmagic := (hsees.header hl (a := UInt64.ofNat KERNEL_OFFSET + HEADER_MAGIC) (n := 4)
    (by decide)).write (m := { m with phys := relocate I m.phys }) (by decide) hc hg1 rfl
    (Mem.leBytes 4 0xabcd1234) rfl
  rw [hmember3] at hmagic
  have hoff2 : Mem.EqOff (fun x => IMAGE + 384 ≤ x ∧ x < IMAGE + 388) (relocate I m.phys)
      ((relocate I m.phys).write (IMAGE + 384) (Mem.leBytes 4 0xabcd1234)) :=
    Mem.EqOff.write _ _ _ fun x h1 h2 => ⟨h1, h2⟩
  dsimp only at hmagic
  generalize (relocate I m.phys).write (IMAGE + 384) (Mem.leBytes 4 0xabcd1234) = phys
    at hmagic hoff2
  have hg2 : TablesHold memVirt f phys :=
    hkeeps _ _ hg1 (hoff2.mono fun x hx => behind_of_le (by omega))
  have htop := (hsees.header hl (a := UInt64.ofNat KERNEL_OFFSET + HEADER_KERNEL_STACK_TOP) (n := 8)
    (by decide)).load (m := { m with phys := phys }) hc hg2 rfl
  have hktop2 : phys.read64 (IMAGE + 376) = KERNEL_SIZE := by
    rw [hoff2.read64 fun i hi hx => by omega, hoff1.read64 fun i hi hx => by
      have hin := hx.bounds hl
      omega, hktop]
  rw [hmember2] at htop
  dsimp only at htop
  rw [hktop2] at htop
  refine ⟨phys, hbase, hdyn, hmagic, htop, hg2, fun x hx => hoff2 x fun h => ?_, ?_⟩
  · have hin := hx.bounds hl
    omega
  · exact (hoff1.mono fun x hx => Or.inl hx).trans (hoff2.mono fun x hx => Or.inr hx)

/-- The bytes that `switch_linux` changes on the way to `duck_entry`. -/
def SwitchBytes (l : Link) (I : Trap.Image) (c : Compiled) (x : Nat) : Prop :=
  Words stackWord (STACK_WORDS - 2 - c.words) (STACK_WORDS - 1) x ∨ CellBytes l.linuxCr3 x ∨
    SlotBytes I x ∨ (IMAGE + 384 ≤ x ∧ x < IMAGE + 388)

/-- What `switch_linux` leaves for `duck_entry` and for its own end, from a memory
    `before`: its frame below the two return addresses, CR3, and relocated pointers. -/
structure Entered (linux : Nat → Option Nat) (memVirt : Nat) (f : Firmware) (l : Link)
    (I : Trap.Image) (c : Compiled) (b r cr3 : UInt64) (regs : Regs) (before phys : Mem) : Prop where
  tables : TablesHold memVirt f phys
  stack : Holds stackWord phys (STACK_WORDS - 2 - c.words)
    ((r :: c.spill regs) ++ [b + l.switchReturn])
  linuxCr3 : phys.read64 (IMAGE + l.linuxCr3.toNat) = cr3.toNat
  relocated : ∃ m : Mem, (∀ x, SlotBytes I x → m x = before x) ∧
    ∀ x, SlotBytes I x → phys x = relocate I m x
  off : Mem.EqOff (SwitchBytes l I c) before phys

/-- The kernel's own task descriptor can be loaded: `switch_linux` calls `duck_entry`. -/
theorem enterSwitch_entered (hw : Window memVirt linux) (hl : l.Fits f I)
    (hb : b.toNat = memVirt + PAGE_TABLE_SIZE) {m : Machine} {r : UInt64} (hc : m.core.cr3 = cr3)
    (hsync : m.sys.cpu.cr3 = cr3) (hg : TablesHold memVirt f m.core.phys)
    (hrip : m.core.rip = b + l.switchLinux)
    (hrsp : m.core.rsp.toNat = memVirt + STACK_BASE + 8 * (STACK_WORDS - 1))
    (hret : Holds stackWord m.core.phys (STACK_WORDS - 1) [r])
    (hkbase : m.core.phys.read64 (IMAGE + 368) = PAGE_TABLE_SIZE)
    (hktop : m.core.phys.read64 (IMAGE + 376) = KERNEL_SIZE) (htr : m.sys.cpu.tr / 8 < 16)
    (hown : Available (m.sys.gdt 2 &&& ~~~DESC_TSS_BUSY)) :
    ∃ rsp phys, enterSwitch (mmu linux) c I l m =
        some (.entered ⟨{ regs := c.atCall m.core.regs (UInt64.ofNat KERNEL_SIZE - m.core.regs .rdi)
                          rsp := rsp, rip := b + l.duckEntry, cr3 := CR3_PHYS, phys := phys },
          entered m.sys⟩) ∧
      rsp.toNat = memVirt + STACK_BASE + 8 * (STACK_WORDS - 2 - c.words) ∧
      Entered linux memVirt f l I c b r cr3 m.core.regs m.core.phys phys := by
  obtain ⟨hsize, hstack, hoffset, hpts, hmem, hmemsize, hsbase, hwords, himage, hheader⟩ := sizes
  have hsmall := c.small
  have hbelow := hl.below
  have hfileheader := hl.header
  have hcell := hl.cell l.linuxCr3 (by simp [Link.cells])
  have hsees : SeesImage linux memVirt f cr3 b := seesImage_window hw hl hb
  have hsees' : SeesImage linux memVirt f CR3_PHYS b := seesImage_window hw hl hb
  have hkeeps := tablesHold_keeps memVirt f
  have hcode := hl.code l.switchLinux (by simp [Link.codes])
  obtain ⟨hat, -⟩ := hsees.runAt hcode hrip hc hg
  obtain ⟨rsp, phys1, phys2, hpush, hstore, hrsp1, hg2, hholds, hcr3, hoff2⟩ :=
    switchFrame_spec (c := c) hw hl hb hc hg hrsp hret
  have hsave := saveLinux_ok (UInt16.not_le.mpr htr) hown
  -- neither the frame nor CR3 lies in the header
  have hheader2 : ∀ x, IMAGE ≤ x → x < IMAGE + 384 → phys2 x = m.core.phys x := by
    intro x h1 h2
    refine hoff2 x ?_
    rintro (h | ⟨h3, h4⟩)
    · have hin := words_stack h
      omega
    · omega
  have hkbase2 : phys2.read64 (IMAGE + 368) = PAGE_TABLE_SIZE := by
    rw [← hkbase]
    exact Mem.read64_congr fun i hi => hheader2 _ (by omega) (by omega)
  have hktop2 : phys2.read64 (IMAGE + 376) = KERNEL_SIZE := by
    rw [← hktop]
    exact Mem.read64_congr fun i hi => hheader2 _ (by omega) (by omega)
  have hbefore : ∀ x, SlotBytes I x → phys2 x = m.core.phys x := by
    intro x hx
    have hbounds := hx.bounds hl
    refine hoff2 x ?_
    rintro (h | h)
    · have hin := words_stack h
      omega
    · exact hx.not_cell hl (by simp [Link.cells]) h
  -- the image is still there, with the new CR3
  have haddr : ∀ a : UInt64, b + UInt64.ofNat KERNEL_OFFSET + a = b + (UInt64.ofNat KERNEL_OFFSET + a) :=
    fun a => UInt64.add_assoc _ _ _
  obtain ⟨hat', -⟩ := hsees'.runAt
    (m := { m.core with rsp := rsp, phys := phys2, cr3 := CR3_PHYS }) hcode hrip rfl hg2
  obtain ⟨phys3, hbase, hdyn, hmagic, htop, hg3, hslots, hoff3⟩ := prepareImage_spec hl hsees'
    (m := { m.core with rsp := rsp, phys := phys2, cr3 := CR3_PHYS }) rfl hg2 hkbase2 hktop2
  dsimp only at hbase hdyn hmagic htop hslots hoff3
  -- the call
  let regs := c.atCall m.core.regs (UInt64.ofNat KERNEL_SIZE - m.core.regs .rdi)
  have hkernel := hw.stack f CR3_PHYS
  obtain ⟨hcall, hrsp4⟩ := hkernel.push (k := STACK_WORDS - 2 - c.words)
    (m := { m.core with rsp := rsp, regs := regs, phys := phys3, cr3 := CR3_PHYS }) (by omega)
    (by dsimp only; omega) rfl hg3 (b + l.switchReturn)
  have hoff4 : Mem.EqOff (Words stackWord (STACK_WORDS - 2 - c.words) (STACK_WORDS - 1 - c.words)) phys3
      (phys3.write64 (stackWord (STACK_WORDS - 2 - c.words)) (b + l.switchReturn).toNat) :=
    Mem.EqOff.write64 _ _ _ fun x h1 h2 => ⟨STACK_WORDS - 2 - c.words, by omega, by omega, h1, h2⟩
  have hword4 := Mem.read64_write64_self phys3 (stackWord (STACK_WORDS - 2 - c.words))
    (b + l.switchReturn).toNat_lt
  dsimp only at hcall
  generalize phys3.write64 (stackWord (STACK_WORDS - 2 - c.words)) (b + l.switchReturn).toNat = phys4
    at hcall hoff4 hword4
  have hg4 : TablesHold memVirt f phys4 :=
    hkeeps _ _ hg3 (hoff4.mono fun x hx => behind_of_le (by have hin := words_stack hx; omega))
  refine ⟨rsp - 8, phys4, ?_, hrsp4, hg4, ?_, ?_, ⟨phys2, hbefore, ?_⟩, ?_⟩
  · have hlink : b + l.switchLinux - l.switchLinux = b := UInt64.add_sub_cancel _ _
    have hzero : ¬ (0 : Int32) ≠ 0 := by decide
    have hcr3' : (entered m.sys).cpu.cr3 = CR3_PHYS := rfl
    have hdata : (entered m.sys).data.cr3 = cr3 := hsync
    rw [enterSwitch, if_neg (not_not_intro hat), hrip, hlink]
    simp only [hpush, hsave, Option.bind_eq_bind, Option.bind_some]
    rw [if_neg hzero, hdata, hstore, Option.bind_some, hcr3', if_neg (not_not_intro hat')]
    simp only [haddr, hbase, hdyn, hmagic, htop, Option.bind_some]
    rw [step, hcall]
    rfl
  · -- the frame is still there
    rw [Holds.append]
    refine ⟨?_, hword4, trivial⟩
    have hindex : STACK_WORDS - 2 - c.words + [b + l.switchReturn].length
        = STACK_WORDS - 1 - c.words := by
      have hone : [b + l.switchReturn].length = 1 := rfl
      omega
    rw [hindex]
    refine hholds.frame fun x hx => ?_
    have hin := words_stack hx
    have hlen : (r :: c.spill m.core.regs).length = c.words + 1 := by
      rw [List.length_cons, c.length_spill]
    rw [hoff4 x fun h => by have h' := words_stack h; omega, hoff3 x ?_]
    rintro (h | h)
    · have h' := h.bounds hl
      omega
    · omega
  · rw [← hcr3]
    rw [hoff4.read64 fun i hi h => by have h' := words_stack h; omega, hoff3.read64]
    rintro i hi (h | h)
    · exact h.not_cell hl (a := l.linuxCr3) (by simp [Link.cells]) ⟨by omega, by omega⟩
    · omega
  · intro x hx
    have hin := hx.bounds hl
    rw [hoff4 x fun h => by have h' := words_stack h; omega, hslots x hx]
  · refine Mem.EqOff.trans (hoff2.mono ?_) (Mem.EqOff.trans (hoff3.mono ?_) (hoff4.mono ?_))
    · rintro x (⟨k, h1, h2, h3⟩ | h)
      · exact Or.inl ⟨k, by omega, h2, h3⟩
      · exact Or.inr (Or.inl h)
    · exact fun x hx => Or.inr (Or.inr hx)
    · rintro x ⟨k, h1, h2, h3⟩
      exact Or.inl ⟨k, h1, by omega, h3⟩

end Switch

/-! ## `duck_entry` and `kern_loader` -/

section Low

variable {memVirt : Nat} {linux : Nat → Option Nat} {f : Firmware} {l : Link} {I : Trap.Image}
  {b kb : UInt64} {m : Core}

/-- The difference of the two addresses of the stack is that of any two addresses. -/
theorem add_delta {top v : UInt64} {y : Nat} (htop : top.toNat = memVirt + KERNEL_SIZE)
    (hv : v.toNat = memVirt + y) : (v + (UInt64.ofNat KERNEL_SIZE - top)).toNat = y := by
  have hsize : (UInt64.ofNat KERNEL_SIZE).toNat = 4194304 := by decide
  have hkernel : KERNEL_SIZE = 4194304 := by decide
  have hlt := v.toNat_lt
  have hlt' := top.toNat_lt
  rw [UInt64.toNat_add, UInt64.toNat_sub, hsize]
  omega

/-- `duck_entry`, and the move to the low addresses. -/
theorem duckEntry_spec (hw : Window memVirt linux) (hl : l.Fits f I)
    (hb : b.toNat = memVirt + PAGE_TABLE_SIZE) (hkb : kb.toNat = PAGE_TABLE_SIZE) {top : UInt64} {j : Nat}
    (hj : j + 6 ≤ STACK_WORDS) (hc : m.cr3 = CR3_PHYS) (hg : TablesHold memVirt f m.phys)
    (hrip : m.rip = b + l.duckEntry) (hrsp : m.rsp.toNat = memVirt + STACK_BASE + 8 * (j + 6))
    (htop : top.toNat = memVirt + KERNEL_SIZE) (hrdi : m.regs .rdi = UInt64.ofNat KERNEL_SIZE - top) :
    ∃ core, runAt (mmu linux) IMAGE l.duckEntry l.duckEntryCode m = some core ∧
      core.rip = kb + l.kernLoader ∧ core.cr3 = CR3_PHYS ∧ core.rsp.toNat = STACK_BASE + 8 * j ∧
      TablesHold memVirt f core.phys ∧ Holds stackWord core.phys j (duckSaved.map m.regs) ∧
      core.phys.read64 (IMAGE + l.wrapperRsp.toNat) = memVirt + STACK_BASE + 8 * j ∧
      Mem.EqOff (fun x => Words stackWord j (j + 6) x ∨ CellBytes l.wrapperRsp x) m.phys
        core.phys := by
  have hsees : SeesImage linux memVirt f CR3_PHYS b := seesImage_window hw hl hb
  have hcell := (hl.cell l.wrapperRsp (by simp [Link.cells])).2
  obtain ⟨-, hrun⟩ := hsees.runAt (hl.code l.duckEntry (by simp [Link.codes])) hrip hc hg
  obtain ⟨rsp, phys, hsave, hrsp1, hg1, hregs, hword, hoff⟩ := (hw.stack f CR3_PHYS).exec_save
    (tablesHold_keeps memVirt f) b duckSaved (j := j) (hsees.cell hcell)
    (fun x h1 _ => behind_of_le (by omega)) (fun k _ => cell_stack_apart hl hcell) hj hrsp hc hg
  have hbase : b + m.regs .rdi = kb := by
    apply UInt64.toNat_inj.mp
    rw [hrdi, add_delta htop hb, hkb]
  have hcontrol : b + l.kernLoader + m.regs .rdi = kb + l.kernLoader := by
    rw [← hbase, UInt64.add_assoc, UInt64.add_comm l.kernLoader, ← UInt64.add_assoc]
  have hne : Reg.rdi ≠ Reg.r15 := by decide
  refine ⟨{ m with
    regs := Function.update (Function.update m.regs .r15 (b + l.kernLoader)) .r15 (kb + l.kernLoader)
    rsp := rsp + m.regs .rdi, rip := kb + l.kernLoader, phys := phys }, ?_, rfl, hc, ?_, hg1, hregs,
    hword, hoff⟩
  · rw [hrun, Link.duckEntryCode, hsave]
    simp only [exec, step, Option.bind_some, Core.set, Function.update_self,
      Function.update_of_ne hne, hcontrol]
  · show (rsp + m.regs .rdi).toNat = _
    rw [hrdi]
    exact add_delta htop (by omega)

/-- `kern_loader` at its low address: an empty vector for the C library. -/
theorem kernLoader_spec (hl : l.Fits f I) (hkb : kb.toNat = PAGE_TABLE_SIZE) {j : Nat}
    (hj : j + 4 ≤ STACK_WORDS) (hc : m.cr3 = CR3_PHYS) (hg : TablesHold memVirt f m.phys)
    (hrip : m.rip = kb + l.kernLoader) (hrsp : m.rsp.toNat = STACK_BASE + 8 * (j + 4)) :
    ∃ core, runAt (mmu linux) IMAGE l.kernLoader l.kernLoaderCode m = some core ∧
      core.rip = kb + l.start ∧ core.cr3 = CR3_PHYS ∧ core.rsp.toNat = STACK_BASE + 8 * j ∧
      TablesHold memVirt f core.phys ∧ Holds stackWord core.phys j [0, 0, 0, 0] ∧
      Mem.EqOff (Words stackWord j (j + 4)) m.phys core.phys := by
  have hsees : SeesImage linux memVirt f CR3_PHYS kb := seesImage_low hl hkb
  obtain ⟨-, hrun⟩ := hsees.runAt (hl.code l.kernLoader (by simp [Link.codes])) hrip hc hg
  obtain ⟨rsp, phys, hpush, hrsp', hg', hholds, hoff⟩ :=
    (stack_low memVirt linux f).pushAll
      (tablesHold_keeps memVirt f) [0, 0, 0, 0] hj hrsp hc hg
  refine ⟨{ m with rsp := rsp, rip := kb + l.start, phys := phys }, ?_, rfl, hc, hrsp', hg', hholds,
    hoff⟩
  have hcode : l.kernLoaderCode = [0, 0, 0, 0].map .pushImm ++ [.jmp l.start] := rfl
  rw [hrun, hcode, exec_pushImms, hpush]
  rfl

end Low

end Wrapper

end JudgePenguin
