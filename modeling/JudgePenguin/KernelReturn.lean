/-
  JudgePenguin/KernelReturn.lean
  ==============================
  **A visit to the kernel** — whatever the kernel does between its start and
  `duck_exit`, Linux gets control back where it called `entry`.

  What has to survive the kernel is a `Trail`: the frames of `duck_entry`,
  `switch_linux` and `entry` on the two stacks and three words of the image.  A kernel
  that leaves these bytes and its page tables alone (`Behaves`) comes back through
  them, in each of the three address spaces with the address that the stack pointer
  has there.  `kernel_visit` is about every state that the driver reaches and every
  such kernel.
-/
import JudgePenguin.KernelEntry

namespace JudgePenguin

namespace Wrapper

open X86 (Reg Regs Mmu calleeSaved)
open X86.Paged
open Driver (DriverState Firmware MEM_START MEM_SIZE KERNEL_SIZE KERNEL_STACK_SIZE KERNEL_OFFSET
  PAGE_TABLE_SIZE)

/-! ## The trail -/

/-- What the way in leaves for the way back, for the registers at the entry of `entry`
    and of `duck_entry`. -/
structure Trail (memVirt lo : Nat) (l : Link) (c : Compiled) (place : Nat → Nat)
    (b ret cr3 : UInt64) (regs regs' : Regs) (phys : Mem) : Prop where
  linux : Holds place phys 0 (ret :: entrySaved.map regs)
  linuxRsp : phys.read64 (IMAGE + l.linuxRsp.toNat) = lo
  stack : Holds stackWord phys (STACK_WORDS - 8 - c.words)
    ((((b + l.entryReturn) :: c.spill regs) ++ [b + l.switchReturn]) ++ duckSaved.map regs')
  linuxCr3 : phys.read64 (IMAGE + l.linuxCr3.toNat) = cr3.toNat
  wrapperRsp : phys.read64 (IMAGE + l.wrapperRsp.toNat) =
    memVirt + STACK_BASE + 8 * (STACK_WORDS - 8 - c.words)

/-- Where it is. -/
def TrailBytes (l : Link) (c : Compiled) (place : Nat → Nat) (x : Nat) : Prop :=
  Words place 0 7 x ∨ Words stackWord (STACK_WORDS - 8 - c.words) STACK_WORDS x ∨
    ∃ a ∈ l.cells, CellBytes a x

section Frame

variable {memVirt lo : Nat} {l : Link} {c : Compiled} {place : Nat → Nat} {b kb ret cr3 : UInt64}
  {regs regs' : Regs} {phys phys' : Mem} {linux : Nat → Option Nat} {f : Firmware} {I : Trap.Image}

theorem read64_cell {a : UInt64} (ha : a ∈ l.cells)
    (hsame : ∀ x, TrailBytes l c place x → phys' x = phys x) :
    phys'.read64 (IMAGE + a.toNat) = phys.read64 (IMAGE + a.toNat) := by
  apply Mem.read64_congr
  intro i hi
  exact hsame _ (Or.inr (Or.inr ⟨a, ha, by omega, by omega⟩))

theorem Trail.frame (h : Trail memVirt lo l c place b ret cr3 regs regs' phys)
    (hsame : ∀ x, TrailBytes l c place x → phys' x = phys x) :
    Trail memVirt lo l c place b ret cr3 regs regs' phys' where
  linux := h.linux.frame fun x hx => hsame x (Or.inl hx)
  linuxRsp := (read64_cell (by simp [Link.cells]) hsame).trans h.linuxRsp
  stack := by
    have hsmall := c.small
    have hwords := sizes.2.2.2.2.2.2.2.1
    refine h.stack.frame fun x hx => hsame x (Or.inr (Or.inl ?_))
    have hlen : ((((b + l.entryReturn) :: c.spill regs) ++ [b + l.switchReturn]) ++
        duckSaved.map regs').length = c.words + 8 := by
      rw [List.length_append, List.length_append, List.length_cons, c.length_spill]
      rfl
    rw [hlen] at hx
    obtain ⟨k, h1, h2, h3⟩ := hx
    exact ⟨k, h1, by omega, h3⟩
  linuxCr3 := (read64_cell (by simp [Link.cells]) hsame).trans h.linuxCr3
  wrapperRsp := (read64_cell (by simp [Link.cells]) hsame).trans h.wrapperRsp

/-! ## The way in -/

/-- All that the way in changes. -/
def WayBytes (l : Link) (I : Trap.Image) (c : Compiled) (place : Nat → Nat) (x : Nat) : Prop :=
  Words place 0 7 x ∨ Words stackWord (STACK_WORDS - 12 - c.words) STACK_WORDS x ∨
    (∃ a ∈ l.cells, CellBytes a x) ∨ SlotBytes I x ∨ (IMAGE + 368 ≤ x ∧ x < IMAGE + 388)

/-- A byte of a word of the wrapper lies behind the header and in the file. -/
theorem cell_bounds (hl : l.Fits f I) {a : UInt64} (ha : a ∈ l.cells) {x : Nat} (h : CellBytes a x) :
    IMAGE + 388 ≤ x ∧ x < IMAGE + (KERNEL_OFFSET + f.size) := by
  obtain ⟨h1, h2⟩ := hl.cell a ha
  obtain ⟨-, -, hoffset, -, -, -, -, -, -, hheader⟩ := sizes
  unfold CellBytes at h
  omega

/-- The words of the wrapper have no byte in common. -/
theorem cells_apart (hl : l.Fits f I) :
    (∀ x, CellBytes l.linuxRsp x → ¬ CellBytes l.linuxCr3 x) ∧
      (∀ x, CellBytes l.linuxRsp x → ¬ CellBytes l.wrapperRsp x) ∧
      ∀ x, CellBytes l.linuxCr3 x → ¬ CellBytes l.wrapperRsp x := by
  have hapart := hl.apart
  simp only [Link.cells, List.map_cons, List.map_nil, List.pairwise_cons, List.mem_cons,
    List.not_mem_nil, or_false, forall_eq_or_imp, forall_eq] at hapart
  obtain ⟨⟨h1, h2⟩, h3, -⟩ := hapart
  unfold Mem.Apart64 at h1 h2 h3
  unfold CellBytes
  refine ⟨fun x hx hx' => ?_, fun x hx hx' => ?_, fun x hx hx' => ?_⟩ <;> omega

/-- The addresses that `init_memory` gives are those of the window. -/
theorem LaidOut.toNat {d : DriverState} (hd : LaidOut memVirt d) (hw : Window memVirt linux)
    (hb : b = UInt64.ofNat d.kernelBaseLinux) :
    b.toNat = memVirt + PAGE_TABLE_SIZE ∧
      (UInt64.ofNat d.kernelStackTopLinux).toNat = memVirt + KERNEL_SIZE := by
  have hwindow := hw.bound
  obtain ⟨hsize, hstack, hoffset, hpts, hmem, hmemsize, hsbase, hwords, himage, hheader⟩ := sizes
  constructor
  · have hlt : d.kernelBaseLinux < UInt64.size := by
      rw [hd.kernelBaseLinux]
      exact Nat.lt_of_le_of_lt (by omega) hwindow
    rw [hb, UInt64.toNat_ofNat_of_lt' hlt, hd.kernelBaseLinux]
  · have hlt : d.kernelStackTopLinux < UInt64.size := by
      rw [hd.kernelStackTopLinux]
      exact Nat.lt_of_le_of_lt (by omega) hwindow
    rw [UInt64.toNat_ofNat_of_lt' hlt, hd.kernelStackTopLinux]

/-- What is there when the C library starts. -/
structure Started (linux : Nat → Option Nat) (memVirt lo : Nat) (f : Firmware) (l : Link)
    (I : Trap.Image) (c : Compiled) (place : Nat → Nat) (b kb ret : UInt64) (regs : Regs)
    (m : Machine) (core : Core) : Prop where
  rip : core.rip = kb + l.start
  cr3 : core.cr3 = CR3_PHYS
  rsp : core.rsp.toNat = STACK_BASE + 8 * (STACK_WORDS - 12 - c.words)
  tables : TablesHold memVirt f core.phys
  vector : Holds stackWord core.phys (STACK_WORDS - 12 - c.words) [0, 0, 0, 0]
  trail : ∃ regs', Trail memVirt lo l c place b ret m.core.cr3 regs (c.atCall regs regs') core.phys
  kernelBase : core.phys.read64 (IMAGE + 368) = PAGE_TABLE_SIZE
  kernelStackTop : core.phys.read64 (IMAGE + 376) = KERNEL_SIZE
  relocated : ∃ before : Mem, (∀ x, SlotBytes I x → before x = m.core.phys x) ∧
    ∀ x, SlotBytes I x → core.phys x = relocate I before x
  off : Mem.EqOff (WayBytes l I c place) m.core.phys core.phys

/-- A byte of the kernel's window is none of the stack of Linux. -/
theorem not_linux (hL : LinuxStack linux memVirt f cr3 lo place) {x : Nat} (h1 : IMAGE ≤ x)
    (h2 : x < MEM_START + KERNEL_SIZE) : ¬ Words place 0 7 x := by
  obtain ⟨hsize, -, -, -, hmem, hmemsize, -, -, himage, -⟩ := sizes
  rw [himage] at h1
  clear himage
  exact hL.not_words (by omega) (by omega)

/-- The stack lies behind the file. -/
theorem stack_bounds (hl : l.Fits f I) {i j x : Nat} (hj : j ≤ STACK_WORDS)
    (h : Words stackWord i j x) :
    IMAGE + (KERNEL_OFFSET + f.size) ≤ x ∧ x < MEM_START + KERNEL_SIZE := by
  obtain ⟨hsize, -, -, hpts, hmem, -, hsbase, hwords, himage, -⟩ := sizes
  have hbelow := hl.below
  have hin := words_stack h
  omega

/-- `switch_linux` changes the kernel's window behind the first members of the header. -/
theorem switchBytes_bounds (hl : l.Fits f I) {x : Nat} (h : SwitchBytes l I c x) :
    IMAGE + 384 ≤ x ∧ x < MEM_START + KERNEL_SIZE := by
  obtain ⟨hsize, -, hoffset, hpts, hmem, -, hsbase, hwords, himage, hheader⟩ := sizes
  have hbelow := hl.below
  have hsmall := c.small
  have hfile := hl.header
  have hend : IMAGE + (KERNEL_OFFSET + f.size) ≤ MEM_START + KERNEL_SIZE := by omega
  rcases h with hstack | hcell | hslot | hmagic
  · have hin := stack_bounds hl (by omega) hstack
    omega
  · have hin := cell_bounds hl (by simp [Link.cells]) hcell
    omega
  · have hin := hslot.bounds hl
    rw [hoffset, hheader] at hin
    rw [hoffset] at hend
    exact ⟨le_trans (Nat.add_le_add_left (by decide) _) hin.1, hin.2.trans_le hend⟩
  · have hfirst : IMAGE + 388 ≤ IMAGE + (KERNEL_OFFSET + f.size) :=
      Nat.add_le_add_left (by omega) _
    exact ⟨hmagic.1, hmagic.2.trans_le (hfirst.trans hend)⟩

/-- What `duck_entry` and `kern_loader` change. -/
def DuckBytes (l : Link) (c : Compiled) (x : Nat) : Prop :=
  Words stackWord (STACK_WORDS - 12 - c.words) (STACK_WORDS - 2 - c.words) x ∨ CellBytes l.wrapperRsp x

theorem duckBytes_bounds (hl : l.Fits f I) {x : Nat} (h : DuckBytes l c x) :
    IMAGE + 388 ≤ x ∧ x < MEM_START + KERNEL_SIZE := by
  obtain ⟨hsize, -, hoffset, hpts, hmem, -, hsbase, hwords, himage, hheader⟩ := sizes
  have hbelow := hl.below
  have hfile := hl.header
  rcases h with hstack | hcell
  · have hin := stack_bounds hl (by omega) hstack
    omega
  · have hin := cell_bounds hl (by simp [Link.cells]) hcell
    omega

/-- The changes of `duck_entry` and `kern_loader` miss what the way back reads in the image. -/
theorem DuckBytes.not_image (hl : l.Fits f I) {x : Nat} (h : DuckBytes l c x) :
    ¬ CellBytes l.linuxRsp x ∧ ¬ CellBytes l.linuxCr3 x ∧ ¬ SlotBytes I x := by
  obtain ⟨hsize, hstack, hoffset, hpts, hmem, hmemsize, hsbase, hwords, himage, -⟩ := sizes
  have hfile := hl.below
  obtain ⟨-, hrsp, hcr3⟩ := cells_apart hl
  rcases h with h | h
  · have hin := stack_bounds hl (by omega) h
    refine ⟨fun hx => ?_, fun hx => ?_, fun hx => ?_⟩
    · have hcell := cell_bounds hl (by simp [Link.cells]) hx
      omega
    · have hcell := cell_bounds hl (by simp [Link.cells]) hx
      omega
    · have hslot := hx.bounds hl
      omega
  · exact ⟨fun hx => hrsp x hx h, fun hx => hcr3 x hx h,
      fun hx => hx.not_cell hl (by simp [Link.cells]) h⟩

/-- Those of `switch_linux` miss the stack pointer of Linux. -/
theorem SwitchBytes.not_linuxRsp (hl : l.Fits f I) {x : Nat} (h : SwitchBytes l I c x) :
    ¬ CellBytes l.linuxRsp x := by
  obtain ⟨hsize, hstack, hoffset, hpts, hmem, hmemsize, hsbase, hwords, himage, hheader⟩ := sizes
  have hfile := hl.below
  intro hx
  have hin := cell_bounds hl (by simp [Link.cells]) hx
  rcases h with h | h | h | h
  · have hstackx := stack_bounds hl (by omega) h
    omega
  · exact (cells_apart hl).1 x hx h
  · exact h.not_cell hl (by simp [Link.cells]) hx
  · omega

/-- From the call of `duck_entry` to the start of the C library. -/
theorem duck_started (hw : Window memVirt linux) (hl : l.Fits f I)
    (hb : b.toNat = memVirt + PAGE_TABLE_SIZE) (hkb : kb.toNat = PAGE_TABLE_SIZE) {top r : UInt64}
    {before : Mem} {regs : Regs} {m : Core} (hc : m.cr3 = CR3_PHYS)
    (hrip : m.rip = b + l.duckEntry)
    (hrsp : m.rsp.toNat = memVirt + STACK_BASE + 8 * (STACK_WORDS - 2 - c.words))
    (htop : top.toNat = memVirt + KERNEL_SIZE) (hrdi : m.regs .rdi = UInt64.ofNat KERNEL_SIZE - top)
    (he : Entered linux memVirt f l I c b r cr3 regs before m.phys) :
    ∃ core₁ core, runAt (mmu linux) IMAGE l.duckEntry l.duckEntryCode m = some core₁ ∧
      runAt (mmu linux) IMAGE l.kernLoader l.kernLoaderCode core₁ = some core ∧
      core.rip = kb + l.start ∧ core.cr3 = CR3_PHYS ∧
      core.rsp.toNat = STACK_BASE + 8 * (STACK_WORDS - 12 - c.words) ∧
      TablesHold memVirt f core.phys ∧
      Holds stackWord core.phys (STACK_WORDS - 12 - c.words) [0, 0, 0, 0] ∧
      Holds stackWord core.phys (STACK_WORDS - 8 - c.words)
        (((r :: c.spill regs) ++ [b + l.switchReturn]) ++ duckSaved.map m.regs) ∧
      core.phys.read64 (IMAGE + l.wrapperRsp.toNat) =
        memVirt + STACK_BASE + 8 * (STACK_WORDS - 8 - c.words) ∧
      Mem.EqOff (DuckBytes l c) m.phys core.phys := by
  obtain ⟨hsize, hstack, hoffset, hpts, hmem, hmemsize, hsbase, hwords, himage, hheader⟩ := sizes
  have hsmall := c.small
  obtain ⟨core₁, hrun₁, hrip₁, hc₁, hrsp₁, hg₁, hsaved₁, hword₁, hoff₁⟩ :=
    duckEntry_spec (j := STACK_WORDS - 8 - c.words) hw hl hb hkb (by omega) hc he.tables hrip
      (by rw [hrsp]; omega) htop hrdi
  obtain ⟨core, hrun, hrip', hc', hrsp', hg', hvector, hoff⟩ :=
    kernLoader_spec (j := STACK_WORDS - 12 - c.words) hl hkb (by omega) hc₁ hg₁ hrip₁
      (by rw [hrsp₁]; omega)
  -- the loader only pushes its vector
  have hsame : ∀ x, ¬ Words stackWord (STACK_WORDS - 12 - c.words) (STACK_WORDS - 8 - c.words) x →
      core.phys x = core₁.phys x := by
    intro x hx
    refine hoff x fun ⟨k, h1, h2, h3⟩ => hx ⟨k, h1, by omega, h3⟩
  have hbelow : ∀ x, Words stackWord (STACK_WORDS - 12 - c.words) (STACK_WORDS - 8 - c.words) x →
      x < MEM_START + STACK_BASE + 8 * (STACK_WORDS - 8 - c.words) := fun x hx => (words_stack hx).2
  refine ⟨core₁, core, hrun₁, hrun, hrip', hc', hrsp', hg', hvector, ?_, ?_, ?_⟩
  · rw [Holds.append]
    have hlen : (duckSaved.map m.regs).length = 6 := rfl
    have hindex : STACK_WORDS - 8 - c.words + 6 = STACK_WORDS - 2 - c.words := by omega
    rw [hlen, hindex]
    refine ⟨he.stack.frame fun x hx => ?_, hsaved₁.frame fun x hx => ?_⟩
    · have hin := words_stack hx
      rw [hsame x fun h => by have h' := hbelow x h; omega]
      refine hoff₁ x ?_
      rintro (h | h)
      · have h' := words_stack h
        omega
      · have h' := cell_bounds hl (by simp [Link.cells]) h
        have hfile := hl.below
        omega
    · have hin := words_stack hx
      exact hsame x fun h => by have h' := hbelow x h; omega
  · rw [← hword₁]
    apply Mem.read64_congr
    intro i hi
    refine hsame _ fun h => ?_
    have hcell := hl.cell l.wrapperRsp (by simp [Link.cells])
    have hin := stack_bounds hl (by omega) h
    omega
  · refine Mem.EqOff.trans (hoff₁.mono ?_) (hoff.mono ?_)
    · rintro x (⟨k, h1, h2, h3⟩ | h)
      · exact Or.inl ⟨k, by omega, by omega, h3⟩
      · exact Or.inr h
    · rintro x ⟨k, h1, h2, h3⟩
      exact Or.inl ⟨k, h1, by omega, h3⟩

/-- `rdi` carries the argument of `entry`; the caller does not expect it back. -/
theorem update_rdi_saved {r : Reg} (hr : r ∈ calleeSaved) (regs : Regs) (v : UInt64) :
    Function.update regs .rdi v r = regs r := by
  apply Function.update_of_ne
  rintro rfl
  exact absurd hr (by decide)

/-- What `entry` leaves for `switch_linux` and for its own end, from a memory `before`: the
    registers on the stack of Linux, the address of these, and a return address. -/
structure Called (memVirt lo : Nat) (f : Firmware) (l : Link) (place : Nat → Nat)
    (b ret : UInt64) (regs : Regs) (before phys : Mem) : Prop where
  tables : TablesHold memVirt f phys
  saved : Holds place phys 0 (ret :: entrySaved.map regs)
  linuxRsp : phys.read64 (IMAGE + l.linuxRsp.toNat) = lo
  back : Holds stackWord phys (STACK_WORDS - 1) [b + l.entryReturn]
  kernelBase : phys.read64 (IMAGE + 368) = PAGE_TABLE_SIZE
  kernelStackTop : phys.read64 (IMAGE + 376) = KERNEL_SIZE
  off : Mem.EqOff (fun x => Words place 0 7 x ∨ CellBytes l.linuxRsp x ∨
    Words stackWord (STACK_WORDS - 1) STACK_WORDS x ∨ (IMAGE + 368 ≤ x ∧ x < IMAGE + 384)) before phys

/-- From `jpenguin_main` to the call of `switch_linux`. -/
theorem entry_called (ret : UInt64) (hw : Window memVirt linux) (hl : l.Fits f I) {m : Core}
    (hL : LinuxStack linux memVirt f m.cr3 lo place) {d : DriverState} (hd : LaidOut memVirt d)
    (hb : b = UInt64.ofNat d.kernelBaseLinux) (hg : TablesHold memVirt f m.phys)
    (hentry : m.phys.read64 (IMAGE + 360) = l.entry.toNat) (hrsp : m.rsp.toNat = lo + 56)
    {regs : Regs} (hregs : Function.update m.regs .rdi (UInt64.ofNat d.kernelStackTopLinux) = regs) :
    ∃ core rsp phys, jpenguinMain (mmu linux) d ret m = some core ∧
      runAt (mmu linux) IMAGE l.entry l.entryCode core =
        some { m with regs := regs, rsp := rsp, rip := b + l.switchLinux, phys := phys } ∧
      rsp.toNat = memVirt + STACK_BASE + 8 * (STACK_WORDS - 1) ∧
      Called memVirt lo f l place b ret regs m.phys phys := by
  obtain ⟨hsize, hstack, hoffset, hpts, hmem, hmemsize, hsbase, hwords, himage, hheader⟩ := sizes
  obtain ⟨hbto, htop⟩ := hd.toNat hw hb
  obtain ⟨phys1, hmain, hrsp1, hg1, hret1, hkbase1, hktop1, hoff1⟩ :=
    jpenguinMain_spec ret hw hl hL hd hb hbto rfl hg hentry hrsp
  rw [hregs] at hmain
  have hrdi : regs .rdi = UInt64.ofNat d.kernelStackTopLinux := by
    rw [← hregs]
    exact Function.update_self ..
  obtain ⟨rsp2, phys2, hrun2, hrsp2, hg2, hlinux2, hword2, hret2, hoff2⟩ := entry_spec
    (m := { m with regs := regs, rsp := m.rsp - 8, rip := b + l.entry, phys := phys1 })
    hw hl hL hbto rfl hg1 rfl (by rw [← htop, ← hrdi]) hrsp1 hret1
  dsimp only at hrun2 hoff2
  -- `entry` writes behind the header only
  have hheader2 : ∀ x, IMAGE ≤ x → x < IMAGE + 388 → phys2 x = phys1 x := by
    intro x h1 h2
    refine hoff2 x ?_
    rintro (h | h | h)
    · obtain ⟨k, h3, h4, h5⟩ := h
      exact hL.not_header h1 (by omega) ⟨k, h3, by omega, h5⟩
    · have hin := cell_bounds hl (by simp [Link.cells]) h
      omega
    · have hin := stack_bounds hl (by omega) h
      have hfile := hl.header
      omega
  have hmember2 : ∀ o, o + 8 ≤ 388 → phys2.read64 (IMAGE + o) = phys1.read64 (IMAGE + o) := by
    intro o ho
    apply Mem.read64_congr
    intro i hi
    exact hheader2 _ (by omega) (by omega)
  refine ⟨_, rsp2, phys2, hmain, hrun2, hrsp2, hg2, hlinux2, hword2, hret2,
    (hmember2 368 (by omega)).trans hkbase1, (hmember2 376 (by omega)).trans hktop1, ?_⟩
  refine Mem.EqOff.trans (hoff1.mono ?_) (hoff2.mono ?_)
  · rintro x (⟨k, h1, h2, h3⟩ | h)
    · exact Or.inl ⟨k, by omega, h2, h3⟩
    · exact Or.inr (Or.inr (Or.inr h))
  · rintro x (⟨k, h1, h2, h3⟩ | h | h)
    · exact Or.inl ⟨k, h1, by omega, h3⟩
    · exact Or.inr (Or.inl h)
    · exact Or.inr (Or.inr (Or.inl h))

/-- The pointers of the image are as they were: `entry` writes to none of them. -/
theorem Called.slots (hl : l.Fits f I) (hL : LinuxStack linux memVirt f cr3 lo place)
    {regs : Regs} {before phys : Mem} (h : Called memVirt lo f l place b ret regs before phys) {x : Nat}
    (hx : SlotBytes I x) : phys x = before x := by
  obtain ⟨hsize, hstack, hoffset, hpts, hmem, hmemsize, hsbase, hwords, himage, hheader⟩ := sizes
  have hin := hx.bounds hl
  have hfile := hl.below
  refine h.off x ?_
  rintro (h | h | h | h)
  · exact not_linux hL (by omega) (by omega) h
  · exact hx.not_cell hl (by simp [Link.cells]) h
  · have hstackx := stack_bounds hl le_rfl h
    omega
  · omega

/-- From `jpenguin_main` to the start of the C library. -/
theorem enterKernel_entered (ret : UInt64) (hw : Window memVirt linux) (hl : l.Fits f I) {m : Machine}
    (hL : LinuxStack linux memVirt f m.core.cr3 lo place) {d : DriverState} (hd : LaidOut memVirt d)
    (hb : b = UInt64.ofNat d.kernelBaseLinux) (hkb : kb.toNat = PAGE_TABLE_SIZE)
    (hsync : m.sys.cpu.cr3 = m.core.cr3) (hg : TablesHold memVirt f m.core.phys)
    (hentry : m.core.phys.read64 (IMAGE + 360) = l.entry.toNat) (hrsp : m.core.rsp.toNat = lo + 56)
    (htr : m.sys.cpu.tr / 8 < 16) (hown : Available (m.sys.gdt 2 &&& ~~~DESC_TSS_BUSY)) :
    ∃ core, enterKernel (mmu linux) c I l d ret m = some (.entered ⟨core, entered m.sys⟩) ∧
      Started linux memVirt lo f l I c place b kb ret
        (Function.update m.core.regs .rdi (UInt64.ofNat d.kernelStackTopLinux)) m core := by
  obtain ⟨hsize, hstack, hoffset, hpts, hmem, hmemsize, hsbase, hwords, himage, hheader⟩ := sizes
  have hsmall := c.small
  obtain ⟨hbto, htop⟩ := hd.toNat hw hb
  generalize hregs : Function.update m.core.regs .rdi (UInt64.ofNat d.kernelStackTopLinux) = regs
  have hrdi : regs .rdi = UInt64.ofNat d.kernelStackTopLinux := by
    rw [← hregs]
    exact Function.update_self ..
  obtain ⟨core1, rsp2, phys2, hmain, hrun2, hrsp2, hcall⟩ :=
    entry_called ret hw hl hL hd hb hg hentry hrsp hregs
  obtain ⟨rsp3, phys3, hrun3, hrsp3, he⟩ := enterSwitch_entered (c := c)
    (m := ⟨{ m.core with regs := regs, rsp := rsp2, rip := b + l.switchLinux, phys := phys2 },
      m.sys⟩) hw hl hbto rfl hsync hcall.tables rfl hrsp2 hcall.back hcall.kernelBase
    hcall.kernelStackTop htr hown
  dsimp only at hrun3 he
  obtain ⟨core4, core, hrun4, hrun, hrip, hc, hrsp', hg', hvector, hframes, hwrapper, hoff⟩ :=
    duck_started
      (m := { regs := c.atCall regs (UInt64.ofNat KERNEL_SIZE - regs .rdi), rsp := rsp3
              rip := b + l.duckEntry, cr3 := CR3_PHYS, phys := phys3 })
      hw hl hbto hkb rfl rfl hrsp3 htop (by rw [hrdi]; exact c.atCall_rdi _ _) he
  dsimp only at hoff
  -- what `switch_linux` and `duck_entry` change lies behind the addresses in the header
  have hwindow : ∀ x, ¬ (IMAGE + 384 ≤ x ∧ x < MEM_START + KERNEL_SIZE) → core.phys x = phys2 x := by
    intro x hx
    rw [hoff x fun h => hx ?_, he.off x fun h => hx (switchBytes_bounds hl h)]
    have hin := duckBytes_bounds hl h
    exact ⟨by omega, hin.2⟩
  have hmember : ∀ o, o + 8 ≤ 384 → core.phys.read64 (IMAGE + o) = phys2.read64 (IMAGE + o) := by
    intro o ho
    apply Mem.read64_congr
    intro i hi
    exact hwindow _ (by omega)
  have hlinuxRsp : ∀ x, CellBytes l.linuxRsp x → core.phys x = phys2 x := by
    intro x hx
    rw [hoff x fun h => (h.not_image hl).1 hx, he.off x fun h => h.not_linuxRsp hl hx]
  refine ⟨core, ?_, ?_⟩
  · rw [enterKernel]
    simp only [hmain, hrun2, hrun3, hrun4, hrun, Option.bind_eq_bind, Option.bind_some]
    rfl
  · refine ⟨hrip, hc, hrsp', hg', hvector, ⟨_, ?_, ?_, hframes, ?_, hwrapper⟩, ?_, ?_, ?_, ?_⟩
    · refine hcall.saved.frame fun x hx => hwindow x fun h => ?_
      exact not_linux hL (by omega) h.2 hx
    · rw [← hcall.linuxRsp]
      apply Mem.read64_congr
      intro i hi
      exact hlinuxRsp _ ⟨by omega, by omega⟩
    · rw [← he.linuxCr3]
      apply Mem.read64_congr
      intro i hi
      exact hoff _ fun h => (h.not_image hl).2.1 ⟨by omega, by omega⟩
    · exact (hmember 368 (by omega)).trans hcall.kernelBase
    · exact (hmember 376 (by omega)).trans hcall.kernelStackTop
    · obtain ⟨before, hbefore, hafter⟩ := he.relocated
      refine ⟨before, fun x hx => ?_, fun x hx => ?_⟩
      · rw [hbefore x hx, hcall.slots hl hL hx]
      · rw [hoff x fun h => (h.not_image hl).2.2 hx, hafter x hx]
    · refine Mem.EqOff.trans (hcall.off.mono ?_) (Mem.EqOff.trans (he.off.mono ?_) (hoff.mono ?_))
      · rintro x (h | h | ⟨k, h1, h2, h3⟩ | h)
        · exact Or.inl h
        · exact Or.inr (Or.inr (Or.inl ⟨_, by simp [Link.cells], h⟩))
        · exact Or.inr (Or.inl ⟨k, by omega, h2, h3⟩)
        · exact Or.inr (Or.inr (Or.inr (Or.inr ⟨h.1, by omega⟩)))
      · rintro x (⟨k, h1, h2, h3⟩ | h | h | h)
        · exact Or.inr (Or.inl ⟨k, by omega, by omega, h3⟩)
        · exact Or.inr (Or.inr (Or.inl ⟨_, by simp [Link.cells], h⟩))
        · exact Or.inr (Or.inr (Or.inr (Or.inl h)))
        · exact Or.inr (Or.inr (Or.inr (Or.inr ⟨by omega, h.2⟩)))
      · rintro x (⟨k, h1, h2, h3⟩ | h)
        · exact Or.inr (Or.inl ⟨k, h1, by omega, h3⟩)
        · exact Or.inr (Or.inr (Or.inl ⟨_, by simp [Link.cells], h⟩))

/-! ## The way back -/

theorem mem_entrySaved {r : Reg} : r ∈ entrySaved ↔ r ∈ calleeSaved := by
  cases r <;> decide

/-- What `entry` returns to: the registers, the stack and the page tables of its caller. -/
structure BackIn (ret : UInt64) (m m' : Core) : Prop where
  rip : m'.rip = ret
  rsp : m'.rsp = m.rsp
  saved : ∀ r ∈ calleeSaved, m'.regs r = m.regs r
  cr3 : m'.cr3 = m.cr3

/-- `entry` behind the call of `switch_linux`. -/
theorem entryReturn_spec (hw : Window memVirt linux) (hl : l.Fits f I)
    (hL : LinuxStack linux memVirt f cr3 lo place) (hb : b.toNat = memVirt + PAGE_TABLE_SIZE)
    {m : Core} (hc : m.cr3 = cr3) (hg : TablesHold memVirt f m.phys)
    (hrip : m.rip = b + l.entryReturn) (hholds : Holds place m.phys 0 (ret :: entrySaved.map regs))
    (hword : m.phys.read64 (IMAGE + l.linuxRsp.toNat) = lo) :
    ∃ core, runAt (mmu linux) IMAGE l.entryReturn l.entryReturnCode m = some core ∧
      core.rip = ret ∧ core.rsp.toNat = lo + 56 ∧ core.cr3 = cr3 ∧ core.phys = m.phys ∧
      core.regs .rax = m.regs .rax ∧ ∀ r ∈ calleeSaved, core.regs r = regs r := by
  have hsees : SeesImage linux memVirt f cr3 b := seesImage_window hw hl hb
  have hcell := (hl.cell l.linuxRsp (by simp [Link.cells])).2
  obtain ⟨-, hrun⟩ := hsees.runAt (hl.code l.entryReturn (by simp [Link.codes])) hrip hc hg
  obtain ⟨hret, hregs⟩ := hholds
  obtain ⟨rsp, regs1, hpops, hrsp, hin, hout⟩ := hL.stack.exec_restore b (j := 0)
    entrySaved_nodup (hsees.cell hcell) hword hregs (by decide) hc hg
  obtain ⟨hpop, hto⟩ := hL.stack.pop (m := { m with rsp := rsp, regs := regs1 }) (k := 6)
    (by decide) hrsp hc hg
  have hzero : 0 + (entrySaved.map regs).length = 6 := rfl
  rw [hzero] at hret
  refine ⟨{ m with regs := regs1, rsp := rsp + 8, rip := ret }, ?_, rfl, hto, hc, rfl, ?_, ?_⟩
  · rw [hrun, Link.entryReturnCode, hpops]
    simp only [exec, step, hpop, Option.map_some, Option.bind_some, hret, UInt64.ofNat_toNat]
  · exact hout .rax (by decide)
  · exact fun r hr => hin r (mem_entrySaved.mpr hr)

/-- `duck_exit`, called from the low addresses. -/
theorem duckExit_spec (hw : Window memVirt linux) (hl : l.Fits f I) (hkb : kb.toNat = PAGE_TABLE_SIZE)
    {m : Core} {r : UInt64} {j : Nat} (hj : j + 7 ≤ STACK_WORDS) (hc : m.cr3 = CR3_PHYS)
    (hg : TablesHold memVirt f m.phys) (hrip : m.rip = kb + l.duckExit)
    (hholds : Holds stackWord m.phys j (r :: duckSaved.map regs))
    (hword : m.phys.read64 (IMAGE + l.wrapperRsp.toNat) = memVirt + STACK_BASE + 8 * j) :
    ∃ core, runAt (mmu linux) IMAGE l.duckExit l.duckExitCode m = some core ∧
      core.rip = r ∧ core.rsp.toNat = memVirt + STACK_BASE + 8 * (j + 7) ∧ core.cr3 = CR3_PHYS ∧
      core.phys = m.phys ∧ core.regs .rax = m.regs .rdi ∧
      ∀ q ∈ calleeSaved, core.regs q = regs q := by
  have hsees : SeesImage linux memVirt f CR3_PHYS kb := seesImage_low hl hkb
  have hcell := (hl.cell l.wrapperRsp (by simp [Link.cells])).2
  have hkernel := hw.stack f CR3_PHYS
  obtain ⟨-, hrun⟩ := hsees.runAt (hl.code l.duckExit (by simp [Link.codes])) hrip hc hg
  obtain ⟨hret, hregs⟩ := hholds
  obtain ⟨rsp, regs1, hpops, hrsp, hin, hout⟩ := hkernel.exec_restore kb
    duckSaved_nodup (hsees.cell hcell) hword hregs
    (show j + duckSaved.length ≤ STACK_WORDS from Nat.le_of_succ_le hj) hc hg
  let regs2 := Function.update regs1 .rax (regs1 .rdi)
  obtain ⟨hpop, hto⟩ := hkernel.pop (m := { m with rsp := rsp, regs := regs2 }) (k := j + 6)
    (by omega) hrsp hc hg
  have hsix : j + (duckSaved.map regs).length = j + 6 := rfl
  rw [hsix] at hret
  refine ⟨{ m with regs := regs2, rsp := rsp + 8, rip := r }, ?_, rfl, hto, hc, rfl, ?_, ?_⟩
  · rw [hrun, Link.duckExitCode, hpops]
    simp only [exec, step, Core.set, Option.bind_some]
    rw [hpop]
    simp only [Option.map_some, hret, UInt64.ofNat_toNat, Option.bind_some]
  · have hrax : regs2 .rax = regs1 .rdi := Function.update_self ..
    exact hrax.trans (hout .rdi (by decide))
  · intro q hq
    have hne : q ≠ .rax := by
      rintro rfl
      exact absurd hq (by decide)
    exact (Function.update_of_ne hne _ _).trans (hin q hq)

variable (segBase : State → UInt16 → UInt64 → UInt64)

/-- All registers but `ss`, which is the kernel's. -/
structure RestoredBySwitch (s s' : State) (cpu : Cpu) : Prop where
  restored : Restored s { s' with cpu := { s'.cpu with ss := s.cpu.ss } }
  ss : s'.cpu.ss = cpu.ss

/-- `restore_linux`, with whatever the kernel leaves in the registers. -/
theorem restoreLinux_entered {s : State} (cpu : Cpu) (h : TaskDescribed s.cpu.tr s.linuxGdt) :
    ∃ s', restoreLinux segBase { entered s with cpu := cpu } = .ok s' ∧
      RestoredBySwitch s s' cpu := by
  obtain ⟨t, hltr, hcpu, hdata, hgdt, hstores⟩ := patched_ltr (s := { entered s with cpu := cpu }) h
  refine ⟨restoreRegisters segBase t, ?_, ?_⟩
  · rw [restoreLinux_eq segBase rfl, hltr]
    rfl
  · have hinside := h.inside
    obtain ⟨cpu', data, linuxCr3, gdtAddr, gdt, gdtStores, linuxGdt⟩ := t
    dsimp only at hcpu hdata hgdt hstores
    subst hcpu hdata hgdt hstores
    refine ⟨⟨rfl, rfl, rfl, rfl, rfl, rfl, rfl, rfl, rfl, rfl, rfl, rfl, rfl, rfl, rfl, rfl, rfl,
      rfl, rfl, rfl, fun i hi => ?_⟩, rfl⟩
    have hnum : NUM_GDT_DESC = 16 := rfl
    rw [hnum]
    rcases List.mem_cons.mp hi with rfl | hi
    · exact .inr (Nat.succ_lt_succ hinside)
    rcases List.mem_cons.mp hi with rfl | hi
    · exact .inr (Nat.lt_succ_of_lt hinside)
    rcases List.mem_cons.mp hi with rfl | hi
    · exact .inr (by decide)
    · exact .inl hi

/-- `switch_linux` behind the call of `duck_entry`. -/
theorem leaveSwitch_spec (hw : Window memVirt linux) (hl : l.Fits f I)
    (hb : b.toNat = memVirt + PAGE_TABLE_SIZE) {m : Machine} {s : State} {cpu : Cpu} {r v : UInt64}
    (hsys : m.sys = { entered s with cpu := cpu }) (h : TaskDescribed s.cpu.tr s.linuxGdt)
    (hc : m.core.cr3 = CR3_PHYS) (hg : TablesHold memVirt f m.core.phys)
    (hrip : m.core.rip = b + l.switchReturn)
    (hrsp : m.core.rsp.toNat = memVirt + STACK_BASE + 8 * (STACK_WORDS - 1 - c.words))
    (hholds : Holds stackWord m.core.phys (STACK_WORDS - 1 - c.words) (r :: c.spill regs))
    (hcr3 : m.core.phys.read64 (IMAGE + l.linuxCr3.toNat) = s.cpu.cr3.toNat)
    (hregs : ∀ q ∈ calleeSaved, m.core.regs q = c.atCall regs v q) :
    ∃ core s', leaveSwitch (mmu linux) segBase c l m = some ⟨core, s'⟩ ∧
      RestoredBySwitch s s' cpu ∧ core.rip = r ∧ core.cr3 = s.cpu.cr3 ∧
      core.phys = m.core.phys ∧ core.regs .rax = m.core.regs .rax ∧
      ∀ q ∈ calleeSaved, core.regs q = regs q := by
  obtain ⟨-, -, -, -, -, -, -, hwords, -, -⟩ := sizes
  have hsmall := c.small
  have hsees : SeesImage linux memVirt f CR3_PHYS b := seesImage_window hw hl hb
  have hsees' : SeesImage linux memVirt f s.cpu.cr3 b := seesImage_window hw hl hb
  have hcode := hl.code l.switchReturn (by simp [Link.codes])
  have hcell := (hl.cell l.linuxCr3 (by simp [Link.cells])).2
  obtain ⟨hat, -⟩ := hsees.runAt hcode hrip hc hg
  obtain ⟨hat', -⟩ := hsees'.runAt (m := { m.core with cr3 := s.cpu.cr3 }) hcode hrip rfl hg
  have hload := (hsees.cell hcell).load hc hg rfl
  rw [hcr3, UInt64.ofNat_toNat] at hload
  obtain ⟨s', hrestore, hrestored⟩ := restoreLinux_entered segBase cpu h
  have hsame : { m.sys with linuxCr3 := s.cpu.cr3 } = { entered s with cpu := cpu } := by
    rw [hsys]
    rfl
  obtain ⟨hrax, hsaved⟩ := c.returns regs v m.core.regs hregs
  obtain ⟨rsp, hepi, -⟩ := epilogue_spec (c := c) (hw.stack f s.cpu.cr3)
    (m := { m.core with cr3 := s.cpu.cr3 }) hholds (c.length_spill _) (by omega) hrsp rfl hg
  refine ⟨{ m.core with regs := c.unspill m.core.regs (c.spill regs), rsp := rsp, rip := r
                        cr3 := s.cpu.cr3 }, s', ?_, hrestored, rfl, rfl, rfl, hrax, hsaved⟩
  · have hlink : b + l.switchReturn - l.switchReturn = b := UInt64.add_sub_cancel _ _
    rw [leaveSwitch, if_neg (not_not_intro hat), hrip, hlink]
    simp only [hload, hsame, hrestore, Option.bind_eq_bind, Option.bind_some]
    rw [if_neg (not_not_intro hat'), hepi, Option.bind_some]
    rfl

/-! ## Both ways -/

/-- `save_linux` refuses: `entry` returns `-1`. -/
theorem enterKernel_refused (hw : Window memVirt linux) (hl : l.Fits f I) {m : Machine}
    (hL : LinuxStack linux memVirt f m.core.cr3 lo place) {d : DriverState} (hd : LaidOut memVirt d)
    (hg : TablesHold memVirt f m.core.phys)
    (hentry : m.core.phys.read64 (IMAGE + 360) = l.entry.toNat) (hrsp : m.core.rsp.toNat = lo + 56)
    (htr : m.sys.cpu.tr / 8 ≥ 16) :
    ∃ m', enterKernel (mmu linux) c I l d ret m = some (.refused m') ∧
      BackIn ret m.core m'.core ∧ m'.sys.cpu = m.sys.cpu ∧ m'.core.regs .rax = 0xffffffff := by
  obtain ⟨hbto, -⟩ := hd.toNat hw rfl
  have hsmall := c.small
  generalize hb : UInt64.ofNat d.kernelBaseLinux = b at hbto
  generalize hregs : Function.update m.core.regs .rdi (UInt64.ofNat d.kernelStackTopLinux) = regs
  obtain ⟨core1, rsp2, phys2, hmain, hrun2, hrsp2, hcall⟩ :=
    entry_called ret hw hl hL hd hb.symm hg hentry hrsp hregs
  obtain ⟨core3, s, hrun3, hcpu, hrip3, hc3, hrax3, hsaved3, hg3, hoff3⟩ :=
    enterSwitch_refused (c := c)
      (m := ⟨{ m.core with regs := regs, rsp := rsp2, rip := b + l.switchLinux, phys := phys2 },
        m.sys⟩) hw hl hbto rfl hcall.tables rfl hrsp2 hcall.back htr
  dsimp only at hrun3 hoff3
  -- the frame of `switch_linux` is not where the registers of Linux are
  have hframe : ∀ x, x < IMAGE + (KERNEL_OFFSET + f.size) ∨ MEM_START + KERNEL_SIZE ≤ x →
      core3.phys x = phys2 x := by
    intro x hx
    refine hoff3 x fun h => ?_
    have hin := stack_bounds hl (by omega) h
    omega
  obtain ⟨core, hrun, hrip, hrsp', hc, -, hrax, hsaved⟩ := entryReturn_spec
    (m := core3) hw hl hL hbto hc3 hg3 hrip3
    (hcall.saved.frame fun x hx => hframe x (by
      by_contra hcon
      rw [not_or, not_lt, not_le] at hcon
      exact not_linux hL (le_trans (Nat.le_add_right _ _) hcon.1) hcon.2 hx))
    (by
      rw [← hcall.linuxRsp]
      apply Mem.read64_congr
      intro i hi
      have hcell := hl.cell l.linuxRsp (by simp [Link.cells])
      exact hframe _ (Or.inl (by omega)))
  refine ⟨⟨core, s⟩, ?_, ⟨hrip, ?_, fun r hr => ?_, hc⟩, hcpu, hrax.trans hrax3⟩
  · rw [enterKernel]
    simp only [hmain, hrun2, hrun3, hrun, Option.bind_eq_bind, Option.bind_some]
    rfl
  · exact UInt64.toNat_inj.mp (hrsp'.trans hrsp.symm)
  · rw [hsaved r hr, ← hregs]
    exact update_rdi_saved hr _ _

/-- The kernel, from its start to `duck_exit`: it leaves its page tables, the trail and
    the data of the wrapper alone. -/
structure Behaves (memVirt : Nat) (f : Firmware) (l : Link) (c : Compiled) (place : Nat → Nat)
    (kb : UInt64) (m₁ m₂ : Machine) : Prop where
  rip : m₂.core.rip = kb + l.duckExit
  cr3 : m₂.core.cr3 = CR3_PHYS
  tables : TablesHold memVirt f m₂.core.phys
  trail : ∀ x, TrailBytes l c place x → m₂.core.phys x = m₁.core.phys x
  sys : m₂.sys = { m₁.sys with cpu := m₂.sys.cpu }

/-- From `duck_exit` to the return of `entry`. -/
theorem leaveKernel_back (hw : Window memVirt linux) (hl : l.Fits f I) {m m₂ : Machine} {core : Core}
    (hL : LinuxStack linux memVirt f m.core.cr3 lo place)
    (hb : b.toNat = memVirt + PAGE_TABLE_SIZE) (hkb : kb.toNat = PAGE_TABLE_SIZE)
    (hsync : m.sys.cpu.cr3 = m.core.cr3) (hrsp : m.core.rsp.toNat = lo + 56)
    (hregs : ∀ r ∈ calleeSaved, regs r = m.core.regs r)
    (hs : Started linux memVirt lo f l I c place b kb ret regs m core)
    (hk : Behaves memVirt f l c place kb ⟨core, entered m.sys⟩ m₂)
    (h : TaskDescribed m.sys.cpu.tr m.sys.linuxGdt) :
    ∃ m', leaveKernel (mmu linux) segBase c l m₂ = some m' ∧ BackIn ret m.core m'.core ∧
      m'.core.regs .rax = m₂.core.regs .rdi ∧ m'.core.phys = m₂.core.phys ∧
      RestoredBySwitch m.sys m'.sys m₂.sys.cpu := by
  obtain ⟨-, -, -, -, -, -, -, hwords, -, -⟩ := sizes
  have hsmall := c.small
  obtain ⟨v, htrail⟩ := hs.trail
  obtain ⟨hlinux, hlinuxRsp, hstack, hlinuxCr3, hwrapper⟩ := htrail.frame hk.trail
  -- the frames of `duck_entry` and of `switch_linux`
  have hlen : (duckSaved.map (c.atCall regs v)).length = 6 := rfl
  obtain ⟨hswitch, hduck⟩ := Holds.append.mp hstack
  rw [hlen] at hswitch
  obtain ⟨hframe, hreturn⟩ := Holds.append.mp hswitch
  have hindex : STACK_WORDS - 8 - c.words + 6 + [b + l.switchReturn].length
      = STACK_WORDS - 1 - c.words := by
    have hone : [b + l.switchReturn].length = 1 := rfl
    omega
  rw [hindex] at hframe
  obtain ⟨core1, hrun1, hrip1, hrsp1, hc1, hphys1, hrax1, hsaved1⟩ := duckExit_spec
    (j := STACK_WORDS - 8 - c.words) (r := b + l.switchReturn) hw hl hkb
    (by omega) hk.cr3 hk.tables hk.rip ⟨hreturn.1, hduck⟩ hwrapper
  obtain ⟨core2, s', hrun2, hrestored, hrip2, hc2, hphys2, hrax2, hsaved2⟩ := leaveSwitch_spec
    segBase (m := ⟨core1, m₂.sys⟩) (r := b + l.entryReturn) hw hl hb hk.sys h hc1
    (by rw [hphys1]; exact hk.tables) hrip1 (by rw [hrsp1]; omega) (by rw [hphys1]; exact hframe)
    (by rw [hphys1, hsync]; exact hlinuxCr3) hsaved1
  have hphys : core2.phys = m₂.core.phys := hphys2.trans hphys1
  obtain ⟨core3, hrun3, hrip3, hrsp3, hc3, hphys3, hrax3, hsaved3⟩ := entryReturn_spec
    (m := core2) hw hl hL hb (hc2.trans hsync)
    (by rw [hphys]; exact hk.tables) hrip2 (by rw [hphys]; exact hlinux)
    (by rw [hphys]; exact hlinuxRsp)
  refine ⟨⟨core3, s'⟩, ?_, ⟨hrip3, ?_, fun r hr => ?_, hc3⟩, ?_, hphys3.trans hphys, hrestored⟩
  · rw [leaveKernel]
    simp only [hrun1, hrun2, hrun3, Option.bind_eq_bind, Option.bind_some]
    rfl
  · exact UInt64.toNat_inj.mp (hrsp3.trans hrsp.symm)
  · rw [hsaved3 r hr, hregs r hr]
  · exact hrax3.trans (hrax2.trans hrax1)

end Frame

end Wrapper

end JudgePenguin
