/-
  JudgePenguin/InterruptDelivery.lean
  ===================================
  **Every vector leads to its stub** (`kern/trap.cpp`).

  The statics that the processor reads are written by `fake_dynlink`, by `Trap::init`
  and at the start of every user program.  What they hold after each of these is an
  invariant of all runs, and from it follows what the processor does with an interrupt
  or a `syscall`, of which it sees nothing but these bytes and its own registers.
-/
import JudgePenguin.KernelTables

namespace JudgePenguin

open Words X86

namespace Trap

/-! ## What holds after every event -/

variable {I : Image} {s s' : Platform}

/-- What the statics hold from the start on. -/
structure Linkage (I : Image) (m : Mem) : Prop where
  traps : I.Relocated m
  gdt : ∀ i < 10, m.read64 (I.gdtSlot i) = (gdtInitial.getD i 0).toNat

/-- What the processor reads once the tables are made. -/
structure Installed (I : Image) (s : Platform) : Prop where
  gates : ∀ n < 256, s.mem.read (I.gate n) sizeofInterruptDescriptor = (I.finalGate n).bytes
  rsp : s.mem.read64 (I.rspSlot 0) = I.stackTop 0
  ist : ∀ i, 1 ≤ i → i ≤ 7 → s.mem.read64 (I.istSlot i) = I.stackTop i
  syscallStack : s.mem.read64 (I.addr .syscallStack) = I.stackTop 0
  tables : s.tables = ⟨I.idtDesc, I.gdtDesc, ⟨I.addr .taskState, sizeofTaskState - 1⟩⟩
  msrs : ∃ r, s.msrs = initSyscall I r

/-- The invariant of every run. -/
structure Consistent (I : Image) (s : Platform) : Prop where
  linkage : Linkage I s.mem
  installed : s.booted = true → Installed I s

theorem linkage_of_loaded {m : Mem} (hI : I.Linked) (h : I.Loaded m) :
    Linkage I (fakeDynlink I m) := by
  constructor
  · intro n hn
    obtain ⟨hne, hbound⟩ := I.stubs n hn
    rw [read64_fakeDynlink hI (trapSlot_mem hn), h.traps n hn, relocated, if_pos hne,
      wrap64_of_lt (by omega), Nat.add_comm]
  · intro i hi
    rw [read64_fakeDynlink_other ?_, h.gdt i hi]
    have hin := I.gdtSlot_within (show i < 12 by omega)
    unfold Image.Within at hin
    intro a ha
    unfold Mem.Apart64
    rcases List.mem_append.mp ha with hlib | htrap
    · have hapart := hI.gdt_apart a hlib
      omega
    · obtain ⟨n, hn, rfl⟩ := List.mem_map.mp htrap
      have hslot := I.trapSlot_within (List.mem_range.mp hn)
      have hapart := I.apart .gdt .traps (by decide)
      unfold Image.Within at hslot
      omega

/-- The statics of the kernel outside of the one that is stored to. -/
theorem Linkage.frame {m m' : Mem} {x : Static} (h : Linkage I m)
    (hoff : Mem.EqOff (I.In x) m m') (htraps : x ≠ .traps) (hgdt : x ≠ .gdt) : Linkage I m' := by
  constructor
  · intro n hn
    rw [Image.read64_other hoff htraps (I.trapSlot_within hn), h.traps n hn]
  · intro i hi
    rw [Image.read64_other hoff hgdt (I.gdtSlot_within (by omega)), h.gdt i hi]

/-- Words 10 and 11 of the GDT are not in the initialiser. -/
theorem Linkage.store_tss {m : Mem} (h : Linkage I m) {i v : Nat} (h10 : 10 ≤ i) (h12 : i < 12) :
    Linkage I (m.write64 (I.gdtSlot i) v) := by
  have hoff : Mem.EqOff (I.In .gdt) m (m.write64 (I.gdtSlot i) v) :=
    Image.eqOff_write64 (I.gdtSlot_within h12)
  constructor
  · intro n hn
    rw [Image.read64_other hoff (by decide) (I.trapSlot_within hn), h.traps n hn]
  · intro j hj
    rw [Mem.read64_write64_disjoint _ _ _ (by simp only [Image.gdtSlot]; omega), h.gdt j hj]

/-- The gates and the stacks, as long as they are not stored to. -/
theorem gates_frame {m m' : Mem} {x : Static} (hoff : Mem.EqOff (I.In x) m m') (hx : x ≠ .idt)
    {n : Nat} (hn : n < 256) :
    m'.read (I.gate n) sizeofInterruptDescriptor = m.read (I.gate n) sizeofInterruptDescriptor :=
  Image.read_other hoff hx (I.gate_within hn 0 _ (le_refl _))

theorem fixTss_words (I : Image) (m : Mem) :
    (fixTss I m).read64 (I.gdtSlot 10) = (tssDescriptor (UInt64.ofNat (I.addr .taskState))).toNat ∧
      (fixTss I m).read64 (I.gdtSlot 11) =
        (UInt64.ofNat (I.addr .taskState) >>> 32).toNat := by
  have hindex : GDT_TSS.toNat / 8 = 10 := rfl
  simp only [fixTss, hindex]
  constructor
  · rw [Mem.read64_write64_disjoint _ _ _ (by simp only [Image.gdtSlot]; omega),
      Mem.read64_write64_self _ _ (UInt64.toNat_lt _)]
  · exact Mem.read64_write64_self _ _ (UInt64.toNat_lt _)

theorem taskState_toNat (I : Image) :
    (UInt64.ofNat (I.addr .taskState)).toNat = I.addr .taskState := by
  have hbound := I.bound .taskState
  rw [UInt64.toNat_ofNat']
  omega

/-- `ltr` accepts the descriptor, and the task register then has the task state. -/
theorem ltr_fixTss (I : Image) (m : Mem) (t : Tables) (hgdt : t.gdtr = I.gdtDesc) :
    ltr (fixTss I m) t GDT_TSS.toNat =
      some ((fixTss I m).write64 (I.gdtSlot 10)
          ((tssDescriptor (UInt64.ofNat (I.addr .taskState))).toNat + 2 ^ 41),
        { t with tss := ⟨I.addr .taskState, sizeofTaskState - 1⟩ }) := by
  obtain ⟨hlo, hhi⟩ := fixTss_words I m
  obtain ⟨htype, hsystem, hpresent⟩ :=
    descriptorOf_tssDescriptor (UInt64.ofNat (I.addr .taskState))
  obtain ⟨hbase, hlimit⟩ := systemBase_tssDescriptor (UInt64.ofNat (I.addr .taskState))
  have hslot : t.gdtr.base + GDT_TSS.toNat / 8 * 8 = I.gdtSlot 10 := by
    rw [hgdt]
    rfl
  have hslot' : I.gdtSlot 10 + 8 = I.gdtSlot 11 := rfl
  have hsize : t.gdtr.limit = 95 := by
    rw [hgdt]
    rfl
  have hfits : 8 ≤ GDT_TSS.toNat ∧ GDT_TSS.toNat / 4 % 2 = 0 ∧
      GDT_TSS.toNat / 8 * 8 + 7 ≤ t.gdtr.limit := by
    rw [hsize]
    decide
  have hfits' : GDT_TSS.toNat / 8 * 8 + 15 ≤ t.gdtr.limit := by
    rw [hsize]
    decide
  have hword : gdtWord (fixTss I m) t GDT_TSS.toNat =
      some (tssDescriptor (UInt64.ofNat (I.addr .taskState))).toNat := by
    rw [gdtWord, if_pos hfits, hslot, hlo]
  simp only [ltr, hword, hslot, hslot', hhi, hbase, hlimit, taskState_toNat,
    if_pos (And.intro hfits' (And.intro hsystem (And.intro htype hpresent)))]

/-- **`Trap::init` does not fault**, and the tables are then as they should be. -/
theorem init_spec (h : Linkage I s.mem) :
    ∃ s', init I s = some s' ∧ s'.booted = true ∧ Linkage I s'.mem ∧ Installed I s' := by
  obtain ⟨hidt, hstubs⟩ := initIdt_loop h.traps (le_refl 256)
  have hgates := fun n hn => patchIdt_gate (I := I) (n := n) hstubs hn
  have htss := initTaskState_off I (patchIdt I (initIdt I s.mem))
  obtain ⟨hrsp, hist⟩ := initTaskState_stacks I (patchIdt I (initIdt I s.mem))
  set m1 := patchIdt I (initIdt I s.mem) with hm1
  set m2 := initTaskState I m1 with hm2
  have hlink1 : Linkage I m1 :=
    (h.frame hidt (by decide) (by decide)).frame (patchIdt_off I _) (by decide) (by decide)
  have hlink2 : Linkage I m2 := hlink1.frame htss (by decide) (by decide)
  have hlink3 : Linkage I (fixTss I m2) :=
    (hlink2.store_tss (by decide) (by decide)).store_tss (by decide) (by decide)
  have hgdt3 : Mem.EqOff (I.In .gdt) m2 (fixTss I m2) :=
    (Image.eqOff_write64 (I.gdtSlot_within (by decide))).trans
      (Image.eqOff_write64 (I.gdtSlot_within (by decide)))
  have hltr := ltr_fixTss I m2 { s.tables with idtr := I.idtDesc, gdtr := I.gdtDesc } rfl
  set m4 := (fixTss I m2).write64 (I.gdtSlot 10)
    ((tssDescriptor (UInt64.ofNat (I.addr .taskState))).toNat + 2 ^ 41) with hm4
  have hlink4 : Linkage I m4 := hlink3.store_tss (by decide) (by decide)
  have hgdt4 : Mem.EqOff (I.In .gdt) m2 m4 :=
    hgdt3.trans (Image.eqOff_write64 (I.gdtSlot_within (by decide)))
  set m5 := m4.write64 (I.addr .syscallStack) (m4.read64 (I.rspSlot 0)) with hm5
  have hstack5 : Mem.EqOff (I.In .syscallStack) m4 m5 := Image.eqOff_write64 I.syscallStack_within
  have hrsp4 : m4.read64 (I.rspSlot 0) = I.stackTop 0 := by
    rw [Image.read64_other hgdt4 (by decide) (I.rspSlot_within (by decide)), hrsp]
  refine ⟨⟨m5, ⟨I.idtDesc, I.gdtDesc, ⟨I.addr .taskState, sizeofTaskState - 1⟩⟩,
    initSyscall I s.msrs, true⟩, ?_, rfl, hlink4.frame hstack5 (by decide) (by decide), ?_⟩
  · simp only [init, hltr, Option.map_some, ← hm1, ← hm2]
    rfl
  · constructor
    · intro n hn
      rw [gates_frame hstack5 (by decide) hn, gates_frame hgdt4 (by decide) hn,
        gates_frame htss (by decide) hn]
      exact hgates n hn
    · rw [Image.read64_other hstack5 (by decide) (I.rspSlot_within (by decide)), hrsp4]
    · intro i h1 h7
      rw [Image.read64_other hstack5 (by decide) (I.istSlot_within (by omega)),
        Image.read64_other hgdt4 (by decide) (I.istSlot_within (by omega)), hist i h1 h7]
    · rw [hm5, hrsp4, Mem.read64_write64_self _ _ (I.stackTop_lt (by decide))]
    · rfl
    · exact ⟨s.msrs, rfl⟩

/-- The two stores of a run of a program write what is there. -/
theorem runUserTables_spec (h : Linkage I s.mem) (hs : Installed I s) :
    Linkage I (runUserTables I s).mem ∧ Installed I (runUserTables I s) := by
  have hindex : GDT_USER32_TLS.toNat / 8 = 7 := rfl
  set m1 := s.mem.write64 (I.gdtSlot 7) 0 with hm1
  have hgdt : Mem.EqOff (I.In .gdt) s.mem m1 :=
    Image.eqOff_write64 (I.gdtSlot_within (by decide))
  have htraps : m1.read64 (I.trapSlot 0x80) = I.kernelBase + I.stub 0x80 := by
    rw [Image.read64_other hgdt (by decide) (I.trapSlot_within (by decide)),
      h.traps 0x80 (by decide)]
  have hidt : Mem.EqOff (I.In .idt) m1 (setIdt I m1 0x80 (I.kernelBase + I.stub 0x80)) :=
    setIdt_off I m1 (by decide) _
  have hmem : (runUserTables I s).mem = setIdt I m1 0x80 (I.kernelBase + I.stub 0x80) := by
    simp only [runUserTables, hindex, ← hm1, htraps]
  have hlink1 : Linkage I m1 := by
    constructor
    · intro n hn
      rw [Image.read64_other hgdt (by decide) (I.trapSlot_within hn), h.traps n hn]
    · intro i hi
      by_cases h7 : i = 7
      · subst h7
        exact Mem.read64_write64_self _ _ (by decide)
      · rw [hm1, Mem.read64_write64_disjoint _ _ _ (by simp only [Image.gdtSlot]; omega),
          h.gdt i hi]
  refine ⟨hmem ▸ hlink1.frame hidt (by decide) (by decide), ?_⟩
  constructor
  · intro n hn
    rw [hmem]
    by_cases h80 : n = 0x80
    · subst h80
      rw [setIdt_self, finalGate_other (by decide) (by decide)]
      rfl
    · rw [setIdt_other I _ h80, gates_frame hgdt (by decide) hn, hs.gates n hn]
  · rw [hmem, Image.read64_other hidt (by decide) (I.rspSlot_within (by decide)),
      Image.read64_other hgdt (by decide) (I.rspSlot_within (by decide)), hs.rsp]
  · intro i h1 h7
    rw [hmem, Image.read64_other hidt (by decide) (I.istSlot_within (by omega)),
      Image.read64_other hgdt (by decide) (I.istSlot_within (by omega)), hs.ist i h1 h7]
  · rw [hmem, Image.read64_other hidt (by decide) I.syscallStack_within,
      Image.read64_other hgdt (by decide) I.syscallStack_within, hs.syscallStack]
  · simp only [runUserTables, hs.tables]
  · exact hs.msrs

theorem store_spec {a : Nat} {bs : List UInt8} (hout : I.Elsewhere a bs.length)
    (h : Consistent I s) : Consistent I { s with mem := s.mem.write a bs } := by
  constructor
  · constructor
    · intro n hn
      rw [Image.read64_elsewhere hout (I.trapSlot_within hn), h.linkage.traps n hn]
    · intro i hi
      rw [Image.read64_elsewhere hout (I.gdtSlot_within (by omega)), h.linkage.gdt i hi]
  · intro hbooted
    have hs := h.installed hbooted
    constructor
    · intro n hn
      exact (Image.read_elsewhere hout (I.gate_within hn 0 _ (le_refl _))).trans (hs.gates n hn)
    · rw [Image.read64_elsewhere hout (I.rspSlot_within (by decide)), hs.rsp]
    · intro i h1 h7
      rw [Image.read64_elsewhere hout (I.istSlot_within (by omega)), hs.ist i h1 h7]
    · rw [Image.read64_elsewhere hout I.syscallStack_within, hs.syscallStack]
    · exact hs.tables
    · exact hs.msrs

theorem consistent_inductive (hI : I.Linked) : (platform I).Inductive (Consistent I) where
  start s := by
    rintro ⟨⟨m, hm, hmem⟩, hbooted⟩
    constructor
    · rw [hmem]
      exact linkage_of_loaded hI hm
    · intro hyes
      rw [hbooted] at hyes
      cases hyes
  step s l s' h hstep := by
    cases hstep with
    | init hinit =>
      obtain ⟨t, ht, -, hlink, hinst⟩ := init_spec h.linkage
      obtain rfl : t = s' := Option.some.inj (ht.symm.trans hinit)
      exact ⟨hlink, fun _ => hinst⟩
    | runUser hbooted =>
      obtain ⟨hlink, hinst⟩ := runUserTables_spec h.linkage (h.installed hbooted)
      exact ⟨hlink, fun _ => hinst⟩
    | store hout => exact store_spec hout h

/-! ## What the processor does -/

/-- The stack on which the stub of a vector starts. -/
def entryStack (I : Image) (n : Nat) (c : Interrupted) : Nat :=
  if n = TRAP_RUN_USER.toNat then I.stackTop 7
  else if c.cpl = 0 then c.rsp - c.rsp % 16
  else I.stackTop 0

theorem Image.stackTop_aligned (I : Image) (i : Nat) : I.stackTop i % 16 = 0 := by
  obtain ⟨k, hk⟩ := I.stack_aligned
  simp only [Image.stackTop, STACK_SIZE] at hk ⊢
  omega

section Delivery

variable {n : Nat} {c : Interrupted}

/-- The gate of a vector, as the processor reads it. -/
theorem Installed.gateAt (hs : Installed I s) (hn : n < 256) :
    idtGateAt s.mem (s.tables.idtr.base + 16 * n) =
      { offset := I.kernelBase + I.stub n
        selector := 8
        ist := if n = 233 then 7 else 0
        type := INTERRUPT_GATE
        dpl := if n = 3 then 3 else 0
        present := true } := by
  have hbase : s.tables.idtr.base + 16 * n = I.gate n := by
    rw [hs.tables]
    rfl
  have hoffset : (I.finalGate n).ptrLow.toNat + 2 ^ 16 * (I.finalGate n).ptrMid.toNat +
      2 ^ 32 * (I.finalGate n).ptrHigh.toNat = I.kernelBase + I.stub n := by
    have hbound := (I.stubs n hn).2
    have hspelt := gateTo_offset (UInt64.ofNat (I.kernelBase + I.stub n))
    rw [UInt64.toNat_ofNat', Nat.mod_eq_of_lt (by omega)] at hspelt
    exact hspelt
  have hist : (I.finalGate n).ist.toNat % 8 = if n = 233 then 7 else 0 := by
    simp only [Image.finalGate]
    split <;> rfl
  have hoptions : (I.finalGate n).options = if n = 3 then 0xee else 0x8e := rfl
  have hselector : (I.finalGate n).selector.toNat = 8 := rfl
  rw [hbase, idtGateAt_of_bytes (hs.gates n hn), hoffset, hist, hoptions, hselector]
  by_cases h3 : n = 3
  · simp only [if_pos h3]
    rfl
  · simp only [if_neg h3]
    rfl

/-- A word of the GDT, by its selector. -/
theorem gdtWord_eq (hlink : Linkage I s.mem) (hs : Installed I s) {i selector : Nat} (h0 : 0 < i)
    (hi : i < 10) (hindex : selector / 8 = i) (hti : selector / 4 % 2 = 0) :
    gdtWord s.mem s.tables selector = some (gdtInitial.getD i 0).toNat := by
  have htables : s.tables.gdtr = I.gdtDesc := by rw [hs.tables]
  have hlimit : s.tables.gdtr.limit = 95 := by
    rw [htables]
    rfl
  have hslot : s.tables.gdtr.base + i * 8 = I.gdtSlot i := by
    rw [htables, Nat.mul_comm]
    rfl
  rw [gdtWord, if_pos ⟨by omega, hti, by omega⟩, hindex, hslot, hlink.gdt i hi]

theorem kernelCode : (descriptorOf (gdtInitial.getD 1 0).toNat).Code64 ∧
    (descriptorOf (gdtInitial.getD 1 0).toNat).dpl = 0 := by
  decide

theorem Installed.stack (hs : Installed I s) (n : Nat) (c : Interrupted) :
    ∃ rsp, newStack s.mem s.tables (if n = 233 then 7 else 0) 0 c = some rsp ∧
      rsp - rsp % 16 = entryStack I n c := by
  have hlimit : s.tables.tss.limit = 111 := by
    rw [hs.tables]
    rfl
  have hbase : s.tables.tss.base = I.addr .taskState := by rw [hs.tables]
  have haligned (i : Nat) : I.stackTop i - I.stackTop i % 16 = I.stackTop i := by
    rw [I.stackTop_aligned, Nat.sub_zero]
  have hlast : TRAP_RUN_USER.toNat = 233 := rfl
  simp only [entryStack, hlast]
  by_cases h233 : n = 233
  · refine ⟨I.stackTop 7, ?_, ?_⟩
    · rw [if_pos h233, newStack_ist (by decide) (by omega), hbase]
      exact congrArg some (hs.ist 7 (by decide) (by decide))
    · rw [if_pos h233, haligned]
  · by_cases hcpl : c.cpl = 0
    · refine ⟨c.rsp, ?_, ?_⟩
      · rw [if_neg h233, newStack_same (by omega)]
      · rw [if_neg h233, if_pos hcpl]
    · refine ⟨I.stackTop 0, ?_, ?_⟩
      · rw [if_neg h233, newStack_inner (by omega) (by omega), hbase]
        exact congrArg some hs.rsp
      · rw [if_neg h233, if_neg hcpl, haligned]

end Delivery

/-- **Whatever the kernel and the programs have done, a vector leads to its stub**: in
    ring 0, with interrupts held off, on the stack for it, unless a program uses an
    `int` that is not `int3`. -/
theorem interrupt_delivered (hI : I.Linked) (hs : (platform I).Reachable s)
    (hbooted : s.booted = true) {n : Nat} (hn : n < 256) {c : Interrupted} (hcpl : c.cpl ≤ 3) :
    deliver s.mem s.tables n c =
      if c.software = true ∧ c.cpl ≠ 0 ∧ n ≠ 3 then none
      else
        some
          { rip := I.kernelBase + I.stub n
            cs := GDT_KERNEL_CS.toNat
            cpl := 0
            rsp := entryStack I n c
            masked := true } := by
  obtain ⟨hlink, hinst⟩ := (consistent_inductive hI).reachable hs
  have hs := hinst hbooted
  have hgate := hs.gateAt hn
  split
  · next hrefused =>
    obtain ⟨hsoft, hcpl0, h3⟩ := hrefused
    apply deliver_refused hsoft
    rw [hgate, if_neg h3]
    exact Nat.pos_of_ne_zero hcpl0
  · next hallowed =>
    obtain ⟨rsp, hnew, hrsp⟩ := hs.stack n c
    have hlimit : 16 * n + 15 ≤ s.tables.idtr.limit := by
      rw [hs.tables]
      show 16 * n + 15 ≤ 4095
      omega
    have husable : (idtGateAt s.mem (s.tables.idtr.base + 16 * n)).Usable c := by
      rw [hgate]
      refine ⟨Or.inl rfl, rfl, ?_, Or.inl (I.stubs n hn).2⟩
      intro hsoft
      show c.cpl ≤ if n = 3 then 3 else 0
      split
      · exact hcpl
      · next h3 =>
        by_contra hnot
        exact hallowed ⟨hsoft, by omega, h3⟩
    have hword : gdtWord s.mem s.tables
        (idtGateAt s.mem (s.tables.idtr.base + 16 * n)).selector =
          some (gdtInitial.getD 1 0).toNat := by
      rw [hgate]
      show gdtWord s.mem s.tables 8 = some (gdtInitial.getD 1 0).toNat
      exact gdtWord_eq hlink hs (by decide) (by decide) rfl rfl
    have hstack : newStack s.mem s.tables (idtGateAt s.mem (s.tables.idtr.base + 16 * n)).ist
        (descriptorOf (gdtInitial.getD 1 0).toNat).dpl c = some rsp := by
      rw [hgate, kernelCode.2]
      exact hnew
    rw [deliver_eq hlimit husable hword kernelCode.1 (by rw [kernelCode.2]; exact Nat.zero_le _)
      hstack, hgate, kernelCode.2, hrsp]
    simp only [decide_true]
    rfl

/-- How a program leaves the kernel and enters it again without a gate. -/
structure SyscallPath (I : Image) (s : Platform) : Prop where
  enabled : s.msrs.efer &&& 1 = 1
  entry : s.msrs.lstar = UInt64.ofNat I.syscallEntry ∧ s.msrs.cstar = UInt64.ofNat I.syscallEntry
  /-- Interrupts are held off from the first instruction on. -/
  masked : s.msrs.sfmask &&& Flags.IF = Flags.IF
  enters : Segments s.mem s.tables 0 (syscallSelectors s.msrs.star)
  leaves : Segments s.mem s.tables 3 (sysretSelectors s.msrs.star)
  /-- The frame of `make_trapframe` has the selectors that `sysretq` loads. -/
  frame : ∀ rflags rip rsp,
    ((makeTrapframe rflags rip rsp).cs.toNat, (makeTrapframe rflags rip rsp).ss.toNat) =
      sysretSelectors s.msrs.star
  /-- `__syscall_entry` uses the stack of the traps of programs. -/
  stack : ∀ (n : Nat) (c : Interrupted), n ≠ TRAP_RUN_USER.toNat → c.cpl ≠ 0 →
    s.mem.read64 (I.addr .syscallStack) = entryStack I n c

/-- **The way of a system call fits the GDT and the frames**, whatever has happened. -/
theorem syscall_path (hI : I.Linked) (hs : (platform I).Reachable s) (hbooted : s.booted = true) :
    SyscallPath I s := by
  obtain ⟨hlink, hinst⟩ := (consistent_inductive hI).reachable hs
  have hs := hinst hbooted
  obtain ⟨r, hr⟩ := hs.msrs
  have hstar : s.msrs.star = 0x0018000800000000 := by
    rw [hr]
    show (GDT_KERNEL_CS.toUInt64 <<< 32) ||| (GDT_USER32_CS.toUInt64 <<< 48) = 0x0018000800000000
    decide
  have henters : syscallSelectors s.msrs.star = (8, 16) := by
    rw [hstar]
    decide
  have hleaves : sysretSelectors s.msrs.star = (43, 35) := by
    rw [hstar]
    decide
  constructor
  · rw [hr]
    show (r.efer ||| 1) &&& 1 = 1
    apply UInt64.toNat_inj.mp
    rw [UInt64.toNat_and, UInt64.toNat_or, UInt64.toNat_one, Nat.and_one_is_mod]
    simp
  · rw [hr]
    exact ⟨rfl, rfl⟩
  · rw [hr]
    show SFMASK &&& Flags.IF = Flags.IF
    decide
  · rw [henters]
    exact ⟨_, _, gdtWord_eq hlink hs (i := 1) (by decide) (by decide) rfl rfl,
      gdtWord_eq hlink hs (i := 2) (by decide) (by decide) rfl rfl, by decide⟩
  · rw [hleaves]
    exact ⟨_, _, gdtWord_eq hlink hs (i := 5) (by decide) (by decide) rfl rfl,
      gdtWord_eq hlink hs (i := 4) (by decide) (by decide) rfl rfl, by decide⟩
  · intro rflags rip rsp
    rw [hleaves]
    rfl
  · intro n c hn hcpl
    rw [hs.syscallStack, entryStack, if_neg hn, if_neg hcpl]

/-! ## A kernel in a small memory -/

def sampleAddr : Static → Nat
  | .idt => 0x10000
  | .gdt => 0x11000
  | .taskState => 0x11100
  | .syscallStack => 0x11200
  | .traps => 0x12000

def sampleImage : Image where
  kernelBase := 0x1000000
  addr := sampleAddr
  interruptStack := 0x20000
  syscallEntry := 0x1003000
  stub n := 0x2000 + 16 * n
  symbols :=
    { initArrayStart := 0x30000, initArrayEnd := 0x30010, finiArrayStart := 0x30010
      finiArrayEnd := 0x30020, stdoutFile := 0x31000, stdout := 0x30100, stdoutUsed := 0x30108
      stderrFile := 0x32000, stderr := 0x30110, stderrUsed := 0x30118 }
  bound x := by cases x <;> decide
  apart x y h := by cases x <;> cases y <;> first | exact absurd rfl h | decide
  stack_bound := by decide
  stack_aligned := ⟨0x20, rfl⟩
  entry_bound := by decide
  stubs n hn := ⟨by omega, by omega⟩

/-- The image as the linker makes it. -/
def sampleLoaded : Mem := fun x =>
  if 0x12000 ≤ x ∧ x < 0x12800 then
    UInt8.ofNat ((0x2000 + 16 * ((x - 0x12000) / 8)) / 256 ^ ((x - 0x12000) % 8))
  else if 0x11000 ≤ x ∧ x < 0x11060 then
    UInt8.ofNat ((gdtInitial.getD ((x - 0x11000) / 8) 0).toNat / 256 ^ ((x - 0x11000) % 8))
  else 0

theorem sampleImage_loaded : sampleImage.Loaded sampleLoaded where
  traps := by decide +kernel
  gdt := by decide +kernel

theorem sampleImage_linked : sampleImage.Linked where
  slots_apart := by decide +kernel
  traps_apart := by decide +kernel
  gdt_apart := by decide +kernel

/-- The kernel before `main`. -/
def sampleStart : Platform :=
  { mem := fakeDynlink sampleImage sampleLoaded
    tables := ⟨⟨0, 0⟩, ⟨0, 0⟩, ⟨0, 0⟩⟩
    msrs := ⟨0, 0, 0, 0, 0⟩
    booted := false }

theorem sample_booted : ∃ s, (platform sampleImage).Reachable s ∧ s.booted = true := by
  have hlink : Linkage sampleImage sampleStart.mem := by
    simp only [sampleStart]
    exact linkage_of_loaded sampleImage_linked sampleImage_loaded
  obtain ⟨s, hinit, hbooted, -, -⟩ := init_spec (s := sampleStart) hlink
  have hstart : (platform sampleImage).start sampleStart :=
    ⟨⟨sampleLoaded, sampleImage_loaded, by simp only [sampleStart]⟩, rfl⟩
  exact ⟨s, ⟨sampleStart, [.init], hstart, .cons (.init hinit) (.nil s)⟩, hbooted⟩

/-- A general protection fault of a program. -/
theorem interrupt_delivered_sample : ∃ s, (platform sampleImage).Reachable s ∧
    deliver s.mem s.tables 13 ⟨3, 0x7ffe0008, false⟩ =
      some ⟨0x10020d0, 8, 0, 0x21000, true⟩ := by
  obtain ⟨s, hs, hbooted⟩ := sample_booted
  refine ⟨s, hs, ?_⟩
  have h := interrupt_delivered sampleImage_linked hs hbooted (n := 13) (by decide)
    (c := ⟨3, 0x7ffe0008, false⟩) (le_refl 3)
  rw [h]
  rfl

theorem syscall_path_sample :
    ∃ s, (platform sampleImage).Reachable s ∧ SyscallPath sampleImage s := by
  obtain ⟨s, hs, hbooted⟩ := sample_booted
  exact ⟨s, hs, syscall_path sampleImage_linked hs hbooted⟩

end Trap

end JudgePenguin
