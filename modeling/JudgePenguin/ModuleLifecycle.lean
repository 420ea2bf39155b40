/-
  JudgePenguin/ModuleLifecycle.lean
  =================================
  **What `init_module` leaves held.**

  `init_device` undoes its first registration when the second fails, and
  `cleanup_module` gives everything back; but `init_module` returns an error of
  `init_memory` or `load_firmware` without calling either `exit_device` or
  `free_memory`.  So a failed load gives everything back exactly when it fails in
  `init_device`.
-/
import JudgePenguin.KernelMapping

namespace JudgePenguin.Driver

/-! ## Resources -/

def acquired (es : List Event) (r : Resource) : Nat := es.count (.acquire r)

def released (es : List Event) (r : Resource) : Nat := es.count (.release r)

/-- A failed `init_module` holds nothing; after a successful one `cleanup_module`
    completes exactly one release of each resource. -/
def ReleasesAll (o : Outcome) : Prop :=
  (o.ret ≠ 0 → ∀ r, released o.state.events r = acquired o.state.events r) ∧
  (o.ret = 0 → ∀ r, acquired o.state.events r = 1 ∧
    released (cleanupModule o.state).events r = 1)

/-- What Linux guarantees of its answers: an error is not `0`, and a VM area lies
    in the vmalloc area. -/
structure ModuleCalls.Linux (c : ModuleCalls) : Prop where
  root : ∀ e, c.device.rootDeviceRegister = some e → e ≠ 0
  area : ∀ a, c.memory.getVmArea = some a → KernelWindow a
  request : ∀ e, c.firmware = .error e → e ≠ 0

/-- `root_device_register` or `misc_register` fails. -/
def DeviceCalls.Fail (c : DeviceCalls) : Prop :=
  c.rootDeviceRegister ≠ none ∨ c.miscRegister ≠ 0

def MemoryCalls.Ok (c : MemoryCalls) : Prop := ∃ memVirt, c.Succeed memVirt

/-- `request_firmware` delivers an image that passes both checks. -/
def FirmwareOk (request : Except Int Firmware) : Prop := ∃ f, request = .ok f ∧ f.Accepted

/-! ## The three functions -/

section Calls

variable {d : DriverState}

theorem minus_one_ne : (-1 : Int) ≠ 0 := by decide

theorem einval_ne : -EINVAL ≠ 0 := by decide

theorem enomem_ne : -ENOMEM ≠ 0 := by decide

theorem initDevice_fail {c : DeviceCalls} (hroot : ∀ e, c.rootDeviceRegister = some e → e ≠ 0)
    (h : c.Fail) : (initDevice c d).ret ≠ 0 ∧
      ((initDevice c d).state.events = d.events ∨
        (initDevice c d).state.events = d.events ++ [.acquire .rootDevice] ++ [.release .rootDevice]) := by
  unfold initDevice
  cases hr : c.rootDeviceRegister with
  | some e => exact ⟨hroot e hr, Or.inl rfl⟩
  | none =>
    have hmisc : c.miscRegister ≠ 0 := by
      rcases h with h | h
      · exact absurd hr h
      · exact h
    simp only [if_pos hmisc]
    exact ⟨hmisc, Or.inr rfl⟩

theorem initDevice_ok {c : DeviceCalls} (h : ¬ c.Fail) :
    initDevice c d = ⟨0, (d.acquire .rootDevice).acquire .miscDevice⟩ := by
  have hroot : c.rootDeviceRegister = none := by
    by_contra hcon
    exact h (Or.inl hcon)
  have hmisc : c.miscRegister = 0 := by
    by_contra hcon
    exact h (Or.inr hcon)
  simp only [initDevice, hroot, hmisc]
  rfl

/-- A failure of `init_memory` releases nothing that was held before it. -/
theorem initMemory_fail {c : MemoryCalls} (h : ¬ c.Ok) :
    ∃ o es, initMemory c d = some o ∧ o.ret ≠ 0 ∧ o.state.events = d.events ++ es ∧
      Event.release .rootDevice ∉ es := by
  unfold initMemory
  by_cases hsym : c.symbol = false
  · rw [if_pos hsym]
    exact ⟨_, [], rfl, einval_ne, by simp, by simp⟩
  · rw [if_neg hsym]
    by_cases hreg : c.requestMemRegion = false
    · rw [if_pos hreg]
      exact ⟨_, [], rfl, minus_one_ne, by simp, by simp⟩
    · rw [if_neg hreg]
      cases hvm : c.getVmArea with
      | none => exact ⟨_, [.acquire .memRegion], rfl, minus_one_ne, rfl, by decide⟩
      | some a =>
        by_cases hmap : c.ioremapPageRange = 0
        · exact absurd ⟨a, ⟨by simpa using hsym, by simpa using hreg, hvm, hmap⟩⟩ h
        · simp only [if_pos hmap]
          refine ⟨_, [.acquire .memRegion, .acquire .vmArea, .release .vmArea], rfl, minus_one_ne, ?_,
            by decide⟩
          simp [DriverState.acquire, DriverState.release]

/-- A successful `init_memory` holds the region and the VM area. -/
theorem initMemory_ok {c : MemoryCalls} {memVirt : Nat} (hw : KernelWindow memVirt)
    (hc : c.Succeed memVirt) :
    ∃ d' hlt, initMemory c d = some ⟨0, d'⟩ ∧
      d'.events = d.events ++ [.acquire .memRegion] ++ [.acquire .vmArea] ∧
      d'.memRes = true ∧ d'.memVirt = memVirt ∧
      Reloaded memVirt hlt (fun _ => False) d' (fun _ _ => none) := by
  have hlt : memVirt < 2 ^ 64 := hw.lt (o := 0) (by decide)
  obtain ⟨s, hs, hr⟩ := initPageTable_reserved hlt c.memory
    (DriverState.acquire { DriverState.acquire { d with memRes := true } .memRegion with
      memVirt := memVirt } .vmArea)
  refine ⟨_, hlt, initMemory_eq hc hs, rfl, rfl, rfl, hr⟩

/-- `load_firmware` gives its image back on every path. -/
theorem loadFirmware_events {memVirt : Nat} {hlt : memVirt < 2 ^ 64} {fs : Firmware → Prop}
    {node : Nodes} (hw : KernelWindow memVirt) (h : Reloaded memVirt hlt fs d node)
    (request : Except Int Firmware) (hreq : ∀ e, request = .error e → e ≠ 0) :
    ∃ o, loadFirmware request d = some o ∧ (o.ret = 0 ↔ FirmwareOk request) ∧
      (o.state.events = d.events ∧ ¬ FirmwareOk request ∨
        o.state.events = d.events ++ [.acquire .firmware] ++ [.release .firmware]) ∧
      o.state.memRes = d.memRes ∧ o.state.memVirt = d.memVirt := by
  cases request with
  | error e =>
    have hnot : ¬ FirmwareOk (.error e) := by
      rintro ⟨f, hf, -⟩
      cases hf
    refine ⟨⟨e, d⟩, rfl, ?_, Or.inl ⟨rfl, hnot⟩, rfl, rfl⟩
    exact iff_of_false (hreq e rfl) hnot
  | ok f =>
    have hok : FirmwareOk (.ok f) ↔ f.Accepted := by
      constructor
      · rintro ⟨f', hf', hacc⟩
        injection hf' with hf'
        subst hf'
        exact hacc
      · intro hacc
        exact ⟨f, rfl, hacc⟩
    have hstat : Statics memVirt (d.acquire .firmware) :=
      ⟨h.statics.pageTableSize, h.statics.base, h.statics.top⟩
    have hlimit := size_limit hstat
    unfold loadFirmware
    dsimp only
    rw [hlimit, hok]
    by_cases hsigned : f.signed = false
    · rw [if_pos hsigned]
      refine ⟨_, rfl, iff_of_false einval_ne ?_, Or.inr rfl, rfl, rfl⟩
      rintro ⟨hs, -⟩
      rw [hsigned] at hs
      cases hs
    · rw [if_neg hsigned]
      by_cases hsize : f.size > KERNEL_SIZE - KERNEL_STACK_SIZE - PAGE_TABLE_SIZE
      · rw [if_pos hsize]
        refine ⟨_, rfl, iff_of_false enomem_ne ?_, Or.inr rfl, rfl, rfl⟩
        rintro ⟨-, hle⟩
        exact absurd hle (Nat.not_le_of_gt hsize)
      · rw [if_neg hsize]
        have hacc : f.Accepted := ⟨by simpa using hsigned, Nat.le_of_not_gt hsize⟩
        obtain ⟨s3, s4, s, node4, node', hplace, -⟩ := placeFirmware_spec hlt hw hstat h.loaded hacc
        rw [hplace]
        exact ⟨_, rfl, iff_of_true rfl hacc, Or.inr rfl, rfl, rfl⟩

end Calls

/-! ## The whole life cycle -/

/-- An error after `init_device` leaves the root device registered. -/
theorem not_releasesAll {o : Outcome} (es : List Event) (hret : o.ret ≠ 0)
    (hes : o.state.events = [.acquire .rootDevice] ++ [.acquire .miscDevice] ++ es)
    (hnot : Event.release .rootDevice ∉ es) : ¬ ReleasesAll o := by
  rintro ⟨hfail, -⟩
  have hroot := hfail hret .rootDevice
  have hzero : released o.state.events .rootDevice = 0 := by
    unfold released
    rw [List.count_eq_zero, hes]
    simp [hnot]
  have hone : 1 ≤ acquired o.state.events .rootDevice := by
    unfold acquired
    rw [hes]
    apply List.one_le_count_iff.mpr
    simp
  omega

/-- `init_module` returns, and gives everything back exactly when it fails in
    `init_device` or does not fail. -/
theorem initModule_releases_iff (c : ModuleCalls) (hc : c.Linux) (mem : Mem) :
    ∃ o, initModule c (DriverState.fresh mem) = some o ∧
      (ReleasesAll o ↔ c.device.Fail ∨ (c.memory.Ok ∧ FirmwareOk c.firmware)) := by
  by_cases hdev : c.device.Fail
  · obtain ⟨hret, hes⟩ := initDevice_fail (d := DriverState.fresh mem) hc.root hdev
    refine ⟨initDevice c.device (DriverState.fresh mem), if_pos hret, iff_of_true ?_ (Or.inl hdev)⟩
    refine ⟨fun _ r => ?_, fun h => absurd h hret⟩
    rcases hes with hes | hes
    · rw [hes]
      rfl
    · rw [hes]
      cases r <;> rfl
  · have hinit := initDevice_ok (d := DriverState.fresh mem) hdev
    unfold initModule
    rw [hinit]
    dsimp only
    rw [if_neg (by simp)]
    by_cases hmem : c.memory.Ok
    · obtain ⟨memVirt, hsucc⟩ := hmem
      have hw := hc.area memVirt hsucc.getVmArea
      obtain ⟨d1, hlt, h1, hes1, hres1, hvirt1, hr1⟩ := initMemory_ok
        (d := ((DriverState.fresh mem).acquire .rootDevice).acquire .miscDevice) hw hsucc
      obtain ⟨o, ho, hiff, hes2, hres2, hvirt2⟩ := loadFirmware_events hw hr1 c.firmware hc.request
      rw [h1, Option.bind_eq_bind, Option.bind_some]
      dsimp only
      rw [if_neg (by simp), ho, Option.bind_some]
      by_cases hfw : FirmwareOk c.firmware
      · have hret := hiff.mpr hfw
        have hnz : memVirt ≠ 0 := by
          rintro rfl
          exact absurd rfl (hw.free 0 (by decide)).1
        rw [if_neg (by simpa using hret)]
        refine ⟨_, rfl, iff_of_true ?_ (Or.inr ⟨⟨memVirt, hsucc⟩, hfw⟩)⟩
        refine ⟨fun h => absurd rfl h, fun _ r => ?_⟩
        rcases hes2 with ⟨-, hnot⟩ | hes2
        · exact absurd hfw hnot
        · have hes : o.state.events = [.acquire .rootDevice, .acquire .miscDevice, .acquire .memRegion,
              .acquire .vmArea, .acquire .firmware, .release .firmware] := by
            rw [hes2, hes1]
            rfl
          have hclean : (cleanupModule o.state).events = o.state.events ++
              [.release .memRegion, .release .vmArea, .release .miscDevice, .release .rootDevice] := by
            simp [cleanupModule, freeMemory, exitDevice, DriverState.release, hres2, hres1, hvirt2,
              hvirt1, hnz]
          rw [hclean, hes]
          cases r <;> exact ⟨rfl, rfl⟩
      · have hret : o.ret ≠ 0 := fun h => hfw (hiff.mp h)
        rw [if_pos hret]
        refine ⟨_, rfl, iff_of_false ?_ ?_⟩
        · rcases hes2 with ⟨hes2, -⟩ | hes2
          · refine not_releasesAll [.acquire .memRegion, .acquire .vmArea] hret ?_ (by decide)
            rw [hes2, hes1]
            rfl
          · refine not_releasesAll [.acquire .memRegion, .acquire .vmArea, .acquire .firmware,
              .release .firmware] hret ?_ (by decide)
            rw [hes2, hes1]
            rfl
        · rintro (h | ⟨-, h⟩)
          · exact hdev h
          · exact hfw h
    · obtain ⟨o, es, ho, hret, hes, hnot⟩ := initMemory_fail
        (d := ((DriverState.fresh mem).acquire .rootDevice).acquire .miscDevice) hmem
      rw [ho, Option.bind_eq_bind, Option.bind_some, if_pos hret]
      refine ⟨_, rfl, iff_of_false (not_releasesAll es hret hes hnot) ?_⟩
      rintro (h | ⟨h, -⟩)
      · exact hdev h
      · exact hmem h

/-- Everything succeeds. -/
def sampleCalls : ModuleCalls where
  device := ⟨none, 0⟩
  memory := ⟨true, true, some 0xffffc90000000000, 0, fun _ => 0xcc⟩
  firmware := .ok sampleFirmware

theorem sampleCalls_linux : sampleCalls.Linux := by
  refine ⟨?_, ?_, ?_⟩
  · intro e he
    cases he
  · intro a ha
    injection ha with ha
    subst ha
    exact kernelWindow_sample
  · intro e he
    cases he

theorem initModule_releases_iff_sample :
    ∃ o, initModule sampleCalls (DriverState.fresh fun _ => 0) = some o ∧
      (ReleasesAll o ↔
        sampleCalls.device.Fail ∨ (sampleCalls.memory.Ok ∧ FirmwareOk sampleCalls.firmware)) :=
  initModule_releases_iff sampleCalls sampleCalls_linux _

/-- The memory region is taken: the module is refused and both devices stay
    registered. -/
def regionBusy : ModuleCalls where
  device := ⟨none, 0⟩
  memory := ⟨true, false, none, 0, fun _ => 0⟩
  firmware := .error (-2)

theorem regionBusy_leaks :
    ∃ o, initModule regionBusy (DriverState.fresh fun _ => 0) = some o ∧ o.ret ≠ 0 ∧
      released o.state.events .rootDevice = 0 ∧ acquired o.state.events .rootDevice = 1 ∧
      ¬ ReleasesAll o := by
  refine ⟨_, rfl, minus_one_ne, rfl, rfl, ?_⟩
  rintro ⟨hfail, -⟩
  have hroot := hfail minus_one_ne .rootDevice
  cases hroot

end JudgePenguin.Driver
