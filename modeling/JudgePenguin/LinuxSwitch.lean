/-
  JudgePenguin/LinuxSwitch.lean
  =============================
  **Leaving and re-entering Linux** (`wrapper/switch.cpp`, `wrapper/asm.hpp`).

  `save_linux` keeps the registers of the processor in `data` and installs those of
  the wrapper, `duck_entry` does with them what it likes, and `restore_linux` brings
  the kept ones back.  The state has the registers, the wrapper's own data and the
  Linux GDT.  A load of a selector that Linux had loaded is taken to succeed; `ltr`
  alone has its checks, since it is what the patched GDT is for, and so has the
  access to `data`, which only the Linux page tables map.  A fault ends a run in
  `error` with the state in which it is raised.
-/
import Mathlib.Logic.Function.Basic

namespace JudgePenguin

namespace Wrapper

/-! ## The processor -/

structure DescTableReg where
  limit : UInt16
  base : UInt64

structure Cpu where
  gdtr : DescTableReg
  idtr : DescTableReg
  tr : UInt16
  /-- The descriptor that `ltr` read, which the processor keeps. -/
  tss : UInt64 × UInt64
  cs : UInt16
  ds : UInt16
  es : UInt16
  ss : UInt16
  fs : UInt16
  gs : UInt16
  fsBase : UInt64
  gsBase : UInt64
  kernelGsBase : UInt64
  cr0 : UInt64
  cr3 : UInt64
  cr4 : UInt64
  efer : UInt64
  lstar : UInt64
  cstar : UInt64
  star : UInt64
  sfmask : UInt64

/-- `struct linux_data`. -/
structure LinuxData where
  gdtr : DescTableReg
  idtr : DescTableReg
  csSelector : UInt16
  dsSelector : UInt16
  esSelector : UInt16
  fsSelector : UInt16
  fsBase : UInt64
  gsSelector : UInt16
  gsBase : UInt64
  tssSelector : UInt16
  cr0 : UInt64
  cr3 : UInt64
  cr4 : UInt64
  efer : UInt64
  lstar : UInt64
  cstar : UInt64
  star : UInt64
  sfmask : UInt64

/-- The processor, the wrapper's statics and the Linux GDT.  Elements of `gdt` from 16
    on are whatever lies behind the array, and `gdtStores` lists the elements that
    have been stored to. -/
structure State where
  cpu : Cpu
  data : LinuxData
  linuxCr3 : UInt64
  gdtAddr : UInt64
  gdt : Nat → UInt64
  gdtStores : List Nat
  linuxGdt : Nat → UInt64

/-! ## `asm.hpp` -/

def NUM_GDT_DESC : Nat := 16
def GDT_DESC_CODE : UInt16 := 1
def GDT_DESC_TSS : UInt16 := 2
def DESC_TSS_BUSY : UInt64 := (1 : UInt64) <<< 41
def CR3_PHYS : UInt64 := 0x40000000

/-- The wrapper's `gdt` as it is loaded. -/
def initialGdt (i : Nat) : UInt64 :=
  if i = 1 then
    ((1 : UInt64) <<< 43) ||| ((1 : UInt64) <<< 44) ||| ((1 : UInt64) <<< 47) |||
      ((1 : UInt64) <<< 53)
  else if i = 2 then 0x0000890000000000
  else 0

/-- A present descriptor of a task that is not busy. -/
def Available (desc : UInt64) : Prop := (desc >>> 40) &&& 0x9f = 0x89

instance (desc : UInt64) : Decidable (Available desc) := inferInstanceAs (Decidable (_ = _))

namespace State

def storeGdt (s : State) (i : Nat) (v : UInt64) : State :=
  { s with gdt := Function.update s.gdt i v, gdtStores := i :: s.gdtStores }

/-- `lgdtq(&dtr)` after `dtr` is set to the wrapper's table. -/
def lgdtWrapper (s : State) : State :=
  { s with cpu := { s.cpu with gdtr := ⟨UInt16.ofNat (NUM_GDT_DESC * 8 - 1), s.gdtAddr⟩ } }

/-- The table that the processor reads descriptors from. -/
def table (s : State) : Nat → UInt64 :=
  if s.cpu.gdtr.base = s.gdtAddr then s.gdt else s.linuxGdt

def markBusy (s : State) (i : Nat) : State :=
  if s.cpu.gdtr.base = s.gdtAddr then
    { s with gdt := Function.update s.gdt i (s.gdt i ||| DESC_TSS_BUSY) }
  else { s with linuxGdt := Function.update s.linuxGdt i (s.linuxGdt i ||| DESC_TSS_BUSY) }

/-- A selector that is not null and is one of the GDT. -/
def Global (selector : UInt16) : Prop := selector / 8 ≠ 0 ∧ selector &&& 4 = 0

instance (selector : UInt16) : Decidable (Global selector) :=
  inferInstanceAs (Decidable (_ ∧ _))

/-- `ltr`: the 16 bytes of the descriptor have to be inside the table, and the task must
    not be busy, which it is afterwards. -/
def ltr (s : State) (selector : UInt16) : Except State State :=
  let i := (selector / 8).toNat
  if Global selector ∧ 8 * i + 15 ≤ s.cpu.gdtr.limit.toNat ∧ Available (s.table i) then
    let tss := (s.table i ||| DESC_TSS_BUSY, s.table (i + 1))
    let s := s.markBusy i
    .ok { s with cpu := { s.cpu with tr := selector, tss := tss } }
  else .error s

end State

/-! ## `save_linux` -/

def saveLinux (s : State) : Except State (State × Int32) :=
  let cpu := s.cpu
  let s := { s with
    data := { s.data with gdtr := cpu.gdtr, idtr := cpu.idtr, tssSelector := cpu.tr } }
  if s.data.tssSelector / 8 ≥ 16 then .ok (s, -1)
  else
    let s := { s with
      data := { s.data with
        csSelector := cpu.cs, dsSelector := cpu.ds, esSelector := cpu.es
        fsSelector := cpu.fs, fsBase := cpu.fsBase, gsSelector := cpu.gs, gsBase := cpu.gsBase
        cr0 := cpu.cr0, cr4 := cpu.cr4, cr3 := cpu.cr3
        efer := cpu.efer, lstar := cpu.lstar, cstar := cpu.cstar, star := cpu.star
        sfmask := cpu.sfmask }
      linuxCr3 := cpu.cr3 }
    let s := s.lgdtWrapper
    let s := { s with cpu := { s.cpu with cs := GDT_DESC_CODE * 8, ds := 0, es := 0, ss := 0 } }
    let s := s.storeGdt 2 (s.gdt 2 &&& ~~~DESC_TSS_BUSY)
    (s.ltr (GDT_DESC_TSS * 8)).map fun s =>
      ({ s with cpu := { s.cpu with cr4 := s.data.cr4 ||| (1 : UInt64) <<< 16, cr3 := CR3_PHYS } }, 0)

/-! ## `restore_linux` and `switch_linux` -/

section Switch

-- the base that the processor takes for a selector loaded into `fs` or `gs`, which had
-- the given base
variable (segBase : State → UInt16 → UInt64 → UInt64)

/-- `mov %0, %%fs`. -/
def State.loadFs (s : State) (selector : UInt16) : State :=
  { s with cpu := { s.cpu with fs := selector, fsBase := segBase s selector s.cpu.fsBase } }

def State.loadGs (s : State) (selector : UInt16) : State :=
  { s with cpu := { s.cpu with gs := selector, gsBase := segBase s selector s.cpu.gsBase } }

def State.swapgs (s : State) : State :=
  { s with cpu := { s.cpu with gsBase := s.cpu.kernelGsBase, kernelGsBase := s.cpu.gsBase } }

/-- What follows the `ltr`. -/
def restoreRegisters (s : State) : State :=
  let d := s.data
  let s := { s with cpu := { s.cpu with gdtr := d.gdtr, idtr := d.idtr, cs := d.csSelector
                                        ds := d.dsSelector, es := d.esSelector } }
  let s := s.loadFs segBase d.fsSelector
  let s := ((s.swapgs).loadGs segBase d.gsSelector).swapgs
  { s with cpu := { s.cpu with
      fsBase := d.fsBase, gsBase := d.gsBase, efer := d.efer, lstar := d.lstar
      cstar := d.cstar, star := d.star, sfmask := d.sfmask } }

/-- `restore_linux`.  `data` is mapped by the page tables that `cr3` held when it was
    written. -/
def restoreLinux (s : State) : Except State State :=
  let s := { s with cpu := { s.cpu with cr3 := s.linuxCr3 } }
  if s.cpu.cr3 ≠ s.data.cr3 then .error s
  else
    let s := { s with cpu := { s.cpu with cr0 := s.data.cr0, cr4 := s.data.cr4 } }
    let s := s.lgdtWrapper
    let i := (s.data.tssSelector / 8).toNat
    let s := s.storeGdt i (s.linuxGdt i &&& ~~~DESC_TSS_BUSY)
    let s := s.storeGdt (i + 1) (s.linuxGdt (i + 1))
    (s.ltr s.data.tssSelector).map (restoreRegisters segBase)

/-- `switch_linux`, where `duckEntry` is what `duck_entry` does to the registers and
    returns.  The pointers that `fake_dynlink` adjusts and the `magic` of the header
    are not registers. -/
def switchLinux (duckEntry : Cpu → Cpu × Int32) (s : State) : Except State (State × Int32) :=
  match saveLinux s with
  | .error s => .error s
  | .ok (s, ret) =>
    if ret ≠ 0 then .ok (s, ret)
    else
      let r := duckEntry s.cpu
      (restoreLinux segBase { s with cpu := r.1 }).map fun s => (s, r.2)

end Switch

/-- What `Trap::init` of the kernel leaves in the registers, for the addresses of its
    tables and of `__syscall_entry`. -/
def trapInit (gdt idt task syscallEntry : UInt64) (cpu : Cpu) : Cpu :=
  { cpu with
    idtr := ⟨4095, idt⟩
    gdtr := ⟨95, gdt⟩
    tr := 80
    tss := (task, 0)
    efer := cpu.efer ||| 1
    lstar := syscallEntry
    cstar := syscallEntry
    star := ((8 : UInt64) <<< 32) ||| ((24 : UInt64) <<< 48)
    sfmask := 0x200 }

/-! ## What each part leaves -/

namespace State

theorem limit_eq : (UInt16.ofNat (NUM_GDT_DESC * 8 - 1)).toNat = 127 := rfl

/-- `ltr` from the wrapper's table: the busy bit is set there and nowhere else. -/
theorem ltr_wrapper {s : State} {selector : UInt16} (hbase : s.cpu.gdtr = s.lgdtWrapper.cpu.gdtr) :
    s.ltr selector =
      if Global selector ∧ (selector / 8).toNat < 15 ∧ Available (s.gdt (selector / 8).toNat) then
        .ok { s with
          cpu := { s.cpu with
            tr := selector
            tss := (s.gdt (selector / 8).toNat ||| DESC_TSS_BUSY,
              s.gdt ((selector / 8).toNat + 1)) }
          gdt := Function.update s.gdt (selector / 8).toNat
            (s.gdt (selector / 8).toNat ||| DESC_TSS_BUSY) }
      else .error s := by
  have haddr : s.cpu.gdtr.base = s.gdtAddr := by
    rw [hbase]
    rfl
  have hlimit : s.cpu.gdtr.limit.toNat = 127 := by
    rw [hbase]
    exact limit_eq
  have htable : s.table = s.gdt := if_pos haddr
  have hcond : (Global selector ∧ 8 * (selector / 8).toNat + 15 ≤ s.cpu.gdtr.limit.toNat ∧
      Available (s.table (selector / 8).toNat)) ↔
      Global selector ∧ (selector / 8).toNat < 15 ∧ Available (s.gdt (selector / 8).toNat) := by
    rw [hlimit, htable]
    refine and_congr_right fun _ => and_congr_left fun _ => ?_
    omega
  rw [ltr, if_congr hcond rfl rfl, markBusy, if_pos haddr, htable]

end State

/-- What `save_linux` keeps. -/
def savedData (cpu : Cpu) : LinuxData :=
  { gdtr := cpu.gdtr, idtr := cpu.idtr, csSelector := cpu.cs, dsSelector := cpu.ds
    esSelector := cpu.es, fsSelector := cpu.fs, fsBase := cpu.fsBase, gsSelector := cpu.gs
    gsBase := cpu.gsBase, tssSelector := cpu.tr, cr0 := cpu.cr0, cr3 := cpu.cr3, cr4 := cpu.cr4
    efer := cpu.efer, lstar := cpu.lstar, cstar := cpu.cstar, star := cpu.star
    sfmask := cpu.sfmask }

/-- The state in which `duck_entry` is called. -/
def entered (s : State) : State :=
  let tss := s.gdt 2 &&& ~~~DESC_TSS_BUSY
  { s with
    cpu := { s.cpu with
      gdtr := s.lgdtWrapper.cpu.gdtr, cs := GDT_DESC_CODE * 8, ds := 0, es := 0, ss := 0
      tr := GDT_DESC_TSS * 8, tss := (tss ||| DESC_TSS_BUSY, s.gdt 3)
      cr4 := s.cpu.cr4 ||| (1 : UInt64) <<< 16, cr3 := CR3_PHYS }
    data := savedData s.cpu
    linuxCr3 := s.cpu.cr3
    gdt := Function.update (Function.update s.gdt 2 tss) 2 (tss ||| DESC_TSS_BUSY)
    gdtStores := 2 :: s.gdtStores }

/-- The check of the selector. -/
theorem saveLinux_refused {s : State} (h : s.cpu.tr / 8 ≥ 16) :
    ∃ s', saveLinux s = .ok (s', -1) ∧ s'.cpu = s.cpu :=
  ⟨_, if_pos h, rfl⟩

theorem saveLinux_ok {s : State} (h : ¬ s.cpu.tr / 8 ≥ 16)
    (hown : Available (s.gdt 2 &&& ~~~DESC_TSS_BUSY)) : saveLinux s = .ok (entered s, 0) := by
  refine (if_neg h).trans ?_
  rw [State.ltr_wrapper rfl, if_pos ⟨by decide, by decide, hown⟩]
  rfl

theorem saveLinux_available {s s' : State} {ret : Int32} (h : ¬ s.cpu.tr / 8 ≥ 16)
    (hs : saveLinux s = .ok (s', ret)) : Available (s.gdt 2 &&& ~~~DESC_TSS_BUSY) := by
  by_contra hown
  have hs' := (if_neg h).symm.trans hs
  rw [State.ltr_wrapper rfl, if_neg fun hc => hown hc.2.2] at hs'
  cases hs'

section Restore

variable (segBase : State → UInt16 → UInt64 → UInt64)

/-- The state in which `restore_linux` loads the task register. -/
def patched (s : State) : State :=
  let i := (s.data.tssSelector / 8).toNat
  { s with
    cpu := { s.cpu with
      cr0 := s.data.cr0, cr3 := s.linuxCr3, cr4 := s.data.cr4, gdtr := s.lgdtWrapper.cpu.gdtr }
    gdt := Function.update (Function.update s.gdt i (s.linuxGdt i &&& ~~~DESC_TSS_BUSY)) (i + 1)
      (s.linuxGdt (i + 1))
    gdtStores := (i + 1) :: i :: s.gdtStores }

theorem restoreLinux_eq {s : State} (hcr3 : s.linuxCr3 = s.data.cr3) :
    restoreLinux segBase s =
      ((patched s).ltr s.data.tssSelector).map (restoreRegisters segBase) :=
  if_neg (not_not_intro hcr3)

/-- What the processor asks of the Linux GDT for the task register that Linux had. -/
structure TaskDescribed (selector : UInt16) (linuxGdt : Nat → UInt64) : Prop where
  ofGdt : State.Global selector
  inside : (selector / 8).toNat < 15
  available : Available (linuxGdt (selector / 8).toNat &&& ~~~DESC_TSS_BUSY)

theorem patched_low (s : State) :
    (patched s).gdt (s.data.tssSelector / 8).toNat =
      s.linuxGdt (s.data.tssSelector / 8).toNat &&& ~~~DESC_TSS_BUSY := by
  rw [patched]
  dsimp only
  rw [Function.update_of_ne (Nat.succ_ne_self _).symm, Function.update_self]

theorem patched_high (s : State) :
    (patched s).gdt ((s.data.tssSelector / 8).toNat + 1) =
      s.linuxGdt ((s.data.tssSelector / 8).toNat + 1) := Function.update_self _ _ _

/-- The load of the task register, with the descriptor that was patched in. -/
theorem patched_ltr {s : State} (h : TaskDescribed s.data.tssSelector s.linuxGdt) :
    ∃ t, (patched s).ltr s.data.tssSelector = .ok t ∧
      t.cpu = { (patched s).cpu with
        tr := s.data.tssSelector
        tss := ((s.linuxGdt (s.data.tssSelector / 8).toNat &&& ~~~DESC_TSS_BUSY) |||
            DESC_TSS_BUSY,
          s.linuxGdt ((s.data.tssSelector / 8).toNat + 1)) } ∧
      t.data = s.data ∧ t.linuxGdt = s.linuxGdt ∧ t.gdtStores = (patched s).gdtStores := by
  have hcond : State.Global s.data.tssSelector ∧ (s.data.tssSelector / 8).toNat < 15 ∧
      Available ((patched s).gdt (s.data.tssSelector / 8).toNat) :=
    ⟨h.ofGdt, h.inside, by rw [patched_low]; exact h.available⟩
  rw [State.ltr_wrapper rfl, if_pos hcond, patched_low, patched_high]
  exact ⟨_, rfl, rfl, rfl, rfl, rfl⟩

theorem taskDescribed_of_ltr {s t : State}
    (h : (patched s).ltr s.data.tssSelector = .ok t) :
    TaskDescribed s.data.tssSelector s.linuxGdt := by
  rw [State.ltr_wrapper rfl] at h
  split at h
  · rename_i hcond
    exact ⟨hcond.1, hcond.2.1, by rw [← patched_low]; exact hcond.2.2⟩
  · cases h

end Restore

/-! ## The whole switch -/

/-- Linux finds the machine as it left it. -/
structure Restored (s s' : State) : Prop where
  gdtr : s'.cpu.gdtr = s.cpu.gdtr
  idtr : s'.cpu.idtr = s.cpu.idtr
  tr : s'.cpu.tr = s.cpu.tr
  cs : s'.cpu.cs = s.cpu.cs
  ds : s'.cpu.ds = s.cpu.ds
  es : s'.cpu.es = s.cpu.es
  ss : s'.cpu.ss = s.cpu.ss
  fs : s'.cpu.fs = s.cpu.fs
  gs : s'.cpu.gs = s.cpu.gs
  fsBase : s'.cpu.fsBase = s.cpu.fsBase
  gsBase : s'.cpu.gsBase = s.cpu.gsBase
  cr0 : s'.cpu.cr0 = s.cpu.cr0
  cr3 : s'.cpu.cr3 = s.cpu.cr3
  cr4 : s'.cpu.cr4 = s.cpu.cr4
  efer : s'.cpu.efer = s.cpu.efer
  lstar : s'.cpu.lstar = s.cpu.lstar
  cstar : s'.cpu.cstar = s.cpu.cstar
  star : s'.cpu.star = s.cpu.star
  sfmask : s'.cpu.sfmask = s.cpu.sfmask
  linuxGdt : s'.linuxGdt = s.linuxGdt
  stores : ∀ i ∈ s'.gdtStores, i ∈ s.gdtStores ∨ i < NUM_GDT_DESC

section Switch

variable (segBase : State → UInt16 → UInt64 → UInt64) (duckEntry : Cpu → Cpu × Int32)
  (s : State)

/-- The switch does what it is for: if the selector passes the check, it comes back to a
    restored machine, and if `save_linux` refuses, nothing has changed. -/
def SwitchesBack : Prop :=
  (s.cpu.tr / 8 < 16 →
    ∃ s' ret, switchLinux segBase duckEntry s = .ok (s', ret) ∧ Restored s s') ∧
  ∀ s', saveLinux s = .ok (s', -1) → s'.cpu = s.cpu

/-- What is needed for it: the wrapper's own task descriptor and that of Linux can be
    loaded, the second half of the latter has a place in the wrapper's table, and the
    kernel leaves in `ss` what Linux had there. -/
structure Restorable : Prop where
  own : Available (s.gdt 2 &&& ~~~DESC_TSS_BUSY)
  task : TaskDescribed s.cpu.tr s.linuxGdt
  ss : (duckEntry (entered s).cpu).1.ss = s.cpu.ss

variable {s}

/-- What `restore_linux` starts from. -/
theorem switchLinux_of_saved (h : ¬ s.cpu.tr / 8 ≥ 16)
    (hown : Available (s.gdt 2 &&& ~~~DESC_TSS_BUSY)) :
    switchLinux segBase duckEntry s =
      (((patched { entered s with cpu := (duckEntry (entered s).cpu).1 }).ltr s.cpu.tr).map
        (restoreRegisters segBase)).map fun s' => (s', (duckEntry (entered s).cpu).2) := by
  have hzero : ¬ (0 : Int32) ≠ 0 := by decide
  rw [switchLinux, saveLinux_ok h hown]
  dsimp only
  rw [if_neg hzero, restoreLinux_eq segBase rfl]
  rfl

theorem switchLinux_restored (hsel : s.cpu.tr / 8 < 16) (h : Restorable duckEntry s) :
    ∃ s' ret, switchLinux segBase duckEntry s = .ok (s', ret) ∧ Restored s s' := by
  obtain ⟨t, hltr, hcpu, hdata, hgdt, hstores⟩ :=
    patched_ltr (s := { entered s with cpu := (duckEntry (entered s).cpu).1 }) h.task
  refine ⟨restoreRegisters segBase t, (duckEntry (entered s).cpu).2, ?_, ?_⟩
  · rw [switchLinux_of_saved segBase duckEntry (UInt16.not_le.mpr hsel) h.own]
    exact congrArg (fun r => (r.map (restoreRegisters segBase)).map fun s' =>
      (s', (duckEntry (entered s).cpu).2)) hltr
  · obtain ⟨cpu, data, linuxCr3, gdtAddr, gdt, gdtStores, linuxGdt⟩ := t
    dsimp only at hcpu hdata hgdt hstores
    subst hcpu hdata hgdt hstores
    refine ⟨rfl, rfl, rfl, rfl, rfl, rfl, h.ss, rfl, rfl, rfl, rfl, rfl, rfl, rfl, rfl, rfl,
      rfl, rfl, rfl, rfl, fun i hi => ?_⟩
    have hinside := h.task.inside
    have hnum : NUM_GDT_DESC = 16 := rfl
    rcases List.mem_cons.mp hi with rfl | hi
    · right
      rw [hnum]
      exact Nat.succ_lt_succ hinside
    rcases List.mem_cons.mp hi with rfl | hi
    · right
      rw [hnum]
      exact Nat.lt_succ_of_lt hinside
    rcases List.mem_cons.mp hi with rfl | hi
    · right
      decide
    · exact .inl hi

/-- The register that `restore_linux` leaves alone. -/
theorem restoreRegisters_ss (t : State) : (restoreRegisters segBase t).cpu.ss = t.cpu.ss := rfl

/-- What a run that comes back tells about its beginning and about `ss`. -/
theorem switchLinux_ok {s' : State} {ret : Int32} (hsel : s.cpu.tr / 8 < 16)
    (hs : switchLinux segBase duckEntry s = .ok (s', ret)) :
    Available (s.gdt 2 &&& ~~~DESC_TSS_BUSY) ∧ TaskDescribed s.cpu.tr s.linuxGdt ∧
      s'.cpu.ss = (duckEntry (entered s).cpu).1.ss := by
  have hge : ¬ s.cpu.tr / 8 ≥ 16 := UInt16.not_le.mpr hsel
  have hown : Available (s.gdt 2 &&& ~~~DESC_TSS_BUSY) := by
    cases hsave : saveLinux s with
    | error t =>
      rw [switchLinux, hsave] at hs
      cases hs
    | ok p => exact saveLinux_available hge hsave
  rw [switchLinux_of_saved segBase duckEntry hge hown] at hs
  cases hltr : (patched { entered s with cpu := (duckEntry (entered s).cpu).1 }).ltr s.cpu.tr with
  | error t =>
    rw [hltr] at hs
    cases hs
  | ok t =>
    have htask : TaskDescribed s.cpu.tr s.linuxGdt := taskDescribed_of_ltr hltr
    obtain ⟨t', hltr', hcpu, -⟩ :=
      patched_ltr (s := { entered s with cpu := (duckEntry (entered s).cpu).1 }) htask
    cases hltr.symm.trans hltr'
    rw [hltr] at hs
    cases hs
    refine ⟨hown, htask, ?_⟩
    rw [restoreRegisters_ss, hcpu]
    rfl

/-- The exact condition under which leaving and re-entering Linux restores the machine. -/
theorem switchesBack_iff :
    SwitchesBack segBase duckEntry s ↔ (s.cpu.tr / 8 < 16 → Restorable duckEntry s) := by
  constructor
  · rintro ⟨hback, -⟩ hsel
    obtain ⟨s', ret, hs, hrestored⟩ := hback hsel
    obtain ⟨hown, htask, hss⟩ := switchLinux_ok segBase duckEntry hsel hs
    exact ⟨hown, htask, hss.symm.trans hrestored.ss⟩
  · intro h
    refine ⟨fun hsel => switchLinux_restored segBase duckEntry hsel (h hsel), fun s' hs => ?_⟩
    by_cases hge : s.cpu.tr / 8 ≥ 16
    · obtain ⟨t, ht, hcpu⟩ := saveLinux_refused hge
      rw [ht] at hs
      cases hs
      exact hcpu
    · rw [saveLinux_ok hge (saveLinux_available hge hs)] at hs
      cases hs

end Switch

/-- Linux in a system call: `ss` is its data segment and the GDT has a busy task. -/
def linuxState (tr : UInt16) : State :=
  { cpu :=
      { gdtr := ⟨127, 0xfffffe0000001000⟩, idtr := ⟨4095, 0xfffffe0000000000⟩, tr := tr
        tss := (0x00008b0000004087, 0xfffffe00), cs := 0x10, ds := 0, es := 0, ss := 0x18, fs := 0
        gs := 0, fsBase := 0x7f0000000000, gsBase := 0xffff888000000000, kernelGsBase := 0
        cr0 := 0x80050033, cr3 := 0x1000, cr4 := 0x3406e0, efer := 0xd01, lstar := 0xffffffff81a00000
        cstar := 0xffffffff81a01000, star := 0x23001000000000, sfmask := 0x47700 }
    data := savedData
      { gdtr := ⟨0, 0⟩, idtr := ⟨0, 0⟩, tr := 0, tss := (0, 0), cs := 0, ds := 0, es := 0
        ss := 0, fs := 0, gs := 0, fsBase := 0, gsBase := 0, kernelGsBase := 0, cr0 := 0, cr3 := 0
        cr4 := 0, efer := 0, lstar := 0, cstar := 0, star := 0, sfmask := 0 }
    linuxCr3 := 0
    gdtAddr := 0xffffffffc0000000
    gdt := initialGdt
    gdtStores := []
    linuxGdt := fun i => if i = (tr / 8).toNat then 0x00008b0000004087 else 0 }

/-- What the kernel leaves: the registers of `Trap::init`. -/
def duckInit (cpu : Cpu) : Cpu × Int32 :=
  (trapInit 0x40010000 0x40011000 0x40012000 0x40001000 cpu, 233)

/-- The stack segment of Linux is lost, and with the last selector that the check
    accepts the element after the array is stored to before `ltr` faults. -/
theorem stack_segment_lost :
    ¬ SwitchesBack (fun _ _ base => base) duckInit (linuxState 0x40) ∧
      ∃ t, switchLinux (fun _ _ base => base) duckInit (linuxState 0x78) = .error t ∧
        16 ∈ t.gdtStores := by
  constructor
  · rintro ⟨hback, -⟩
    obtain ⟨s', ret, hs, hrestored⟩ := hback (by decide)
    obtain ⟨-, -, hss⟩ := switchLinux_ok _ _ (by decide) hs
    have hlost : (0 : UInt16) = 0x18 := hss.symm.trans hrestored.ss
    exact absurd hlost (by decide)
  · have hge : ¬ (linuxState 0x78).cpu.tr / 8 ≥ 16 := by decide
    have hown : Available ((linuxState 0x78).gdt 2 &&& ~~~DESC_TSS_BUSY) := by decide
    have hlast : ¬ ((linuxState 0x78).cpu.tr / 8).toNat < 15 := by decide
    rw [switchLinux_of_saved _ _ hge hown, State.ltr_wrapper rfl, if_neg fun hc => hlast hc.2.1]
    exact ⟨_, rfl, List.mem_cons_self⟩

end Wrapper

end JudgePenguin
