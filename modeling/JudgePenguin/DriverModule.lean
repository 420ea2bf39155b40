/-
  JudgePenguin/DriverModule.lean
  ==============================
  **The Linux module** (`driver/entry.c`, `memory.c`, `device.c`, `firmware.c`):
  what `init_module`, `load_firmware` and `cleanup_module` do with the answers of
  the Linux calls they make.

  The state holds the statics of the four files, the page tables with the
  reserved memory, and the list of acquisitions and releases of Linux resources
  made so far, oldest first.  A Linux call is its answer, given by the caller of
  the model; `none` stands for an access of the driver outside the window that
  Linux mapped for it.
-/
import JudgePenguin.PageTable

namespace JudgePenguin.Driver

open Words ArrayLoops

def MEM_START : Nat := 0x40000000
def MEM_SIZE : Nat := 0x20000000
def KERNEL_SIZE : Nat := 0x400000
def KERNEL_STACK_SIZE : Nat := 0x10000
def KERNEL_OFFSET : Nat := 0x160

def EINVAL : Int := 22
def ENOMEM : Int := 12

/-! ## State -/

inductive Resource where
  | rootDevice | miscDevice | memRegion | vmArea | firmware
deriving DecidableEq, Repr

inductive Event where
  | acquire (r : Resource)
  | release (r : Resource)
deriving DecidableEq, Repr

structure DriverState where
  tables : PageTables
  memRes : Bool
  memVirt : Nat
  pageTableSize : Nat
  kernelBase : Nat
  kernelBaseLinux : Nat
  kernelStackTop : Nat
  kernelStackTopLinux : Nat
  events : List Event

namespace DriverState

def acquire (d : DriverState) (r : Resource) : DriverState :=
  { d with events := d.events ++ [.acquire r] }

def release (d : DriverState) (r : Resource) : DriverState :=
  { d with events := d.events ++ [.release r] }

/-- The module as it is loaded: its statics are zero. -/
def fresh (mem : Mem) : DriverState := ⟨⟨0, 0, 0, 0, 0, 0, mem⟩, false, 0, 0, 0, 0, 0, 0, []⟩

end DriverState

/-- What a function of the driver returns, and the state it leaves. -/
structure Outcome where
  ret : Int
  state : DriverState

/-! ## Devices -/

/-- The answers of `root_device_register` (an error pointer or not) and of
    `misc_register`. -/
structure DeviceCalls where
  rootDeviceRegister : Option Int
  miscRegister : Int

def initDevice (c : DeviceCalls) (d : DriverState) : Outcome :=
  match c.rootDeviceRegister with
  | some err => ⟨err, d⟩
  | none =>
    let d := d.acquire .rootDevice
    if c.miscRegister ≠ 0 then ⟨c.miscRegister, d.release .rootDevice⟩
    else ⟨0, d.acquire .miscDevice⟩

def exitDevice (d : DriverState) : DriverState := (d.release .miscDevice).release .rootDevice

/-! ## Memory -/

/-- The answers of the calls of `init_memory`, and what the reserved memory holds
    after `test_memory`. -/
structure MemoryCalls where
  symbol : Bool
  requestMemRegion : Bool
  getVmArea : Option Nat
  ioremapPageRange : Int
  memory : Mem

/-- The addresses that `init_memory` derives from the page tables. -/
def DriverState.layOut (d : DriverState) (memVirt : Nat) (s : PageTables) : DriverState :=
  let pageTableSize := sub64 s.pageTableBreak MEM_START
  { d with
    tables := s
    pageTableSize := pageTableSize
    kernelBase := pageTableSize
    kernelBaseLinux := wrap64 (memVirt + pageTableSize)
    kernelStackTop := KERNEL_SIZE
    kernelStackTopLinux := wrap64 (memVirt + KERNEL_SIZE) }

def initMemory (c : MemoryCalls) (d : DriverState) : Option Outcome :=
  if c.symbol = false then some ⟨-EINVAL, d⟩
  else if c.requestMemRegion = false then some ⟨-1, { d with memRes := false }⟩
  else
    let d := DriverState.acquire { d with memRes := true } .memRegion
    match c.getVmArea with
    | none => some ⟨-1, d⟩
    | some addr =>
      let d := DriverState.acquire { d with memVirt := addr } .vmArea
      -- `vunmap` gives the area back; `mem_virt` and the region stay as they are
      if c.ioremapPageRange ≠ 0 then some ⟨-1, d.release .vmArea⟩
      else (initPageTable MEM_START addr MEM_SIZE c.memory).map fun s => ⟨0, d.layOut addr s⟩

def freeMemory (d : DriverState) : DriverState :=
  let d := if d.memRes then d.release .memRegion else d
  let d := { d with memRes := false }
  let d := if d.memVirt ≠ 0 then d.release .vmArea else d
  { d with memVirt := 0 }

/-! ## Firmware -/

/-- `struct firmware`: the image, and what follows it in memory. -/
structure Firmware where
  size : Nat
  data : Mem

/-- The first eight bytes of the image are `"JPenguin"`. -/
def Firmware.signed (f : Firmware) : Bool :=
  decide (f.data.read 0 8 = [0x4a, 0x50, 0x65, 0x6e, 0x67, 0x75, 0x69, 0x6e])

/-- The loop `for (i = 0; i < n; i++) map_page(phys + i * PAGE_SIZE, virt + i * PAGE_SIZE)`;
    what `map_page` returns is not looked at. -/
def mapPages (phys virt n : Nat) (s : PageTables) : Option PageTables :=
  countUpM (fun i s => (mapPage (wrap64 (phys + i * PAGE_SIZE)) (wrap64 (virt + i * PAGE_SIZE)) s).map
    MapResult.state) n s

/-- `load_firmware` after its checks. -/
def placeFirmware (f : Firmware) (d : DriverState) : Option PageTables := do
  let base := d.kernelBaseLinux
  let s ← d.tables.memset base 0 KERNEL_OFFSET
  let s ← s.memcpy (wrap64 (base + KERNEL_OFFSET)) (f.data.read 0 f.size)
  let s ← s.memset (wrap64 (base + KERNEL_OFFSET + f.size)) 0
    (sub64 (sub64 KERNEL_SIZE f.size) KERNEL_OFFSET)
  let s ← mapPages (wrap64 (MEM_START + d.pageTableSize)) base
    (wrap64 (f.size + KERNEL_OFFSET + PAGE_SIZE - 1) / PAGE_SIZE) s
  mapPages (MEM_START + KERNEL_SIZE - KERNEL_STACK_SIZE)
    (sub64 d.kernelStackTopLinux KERNEL_STACK_SIZE) (KERNEL_STACK_SIZE / PAGE_SIZE) s

/-- `load_firmware` on the answer of `request_firmware`: its error or the image. -/
def loadFirmware (request : Except Int Firmware) (d : DriverState) : Option Outcome :=
  match request with
  | .error err => some ⟨err, d⟩
  | .ok f =>
    let d := d.acquire .firmware
    if f.signed = false then some ⟨-EINVAL, d.release .firmware⟩
    else if f.size > sub64 (KERNEL_SIZE - KERNEL_STACK_SIZE) d.pageTableSize then
      some ⟨-ENOMEM, d.release .firmware⟩
    else (placeFirmware f d).map fun s => ⟨0, DriverState.release { d with tables := s } .firmware⟩

/-- Any number of `load_firmware` calls: the first by `init_module`, the others by
    the ioctl. -/
def loadFirmwares : List (Except Int Firmware) → DriverState → Option DriverState
  | [], d => some d
  | request :: rest, d => (loadFirmware request d).bind fun o => loadFirmwares rest o.state

/-! ## The module -/

structure ModuleCalls where
  device : DeviceCalls
  memory : MemoryCalls
  firmware : Except Int Firmware

/-- `init_module`.  `module_main`, its last call, returns `0` and holds nothing. -/
def initModule (c : ModuleCalls) (d : DriverState) : Option Outcome :=
  let o := initDevice c.device d
  if o.ret ≠ 0 then some o
  else do
    let o ← initMemory c.memory o.state
    if o.ret ≠ 0 then return o
    else do
      let o ← loadFirmware c.firmware o.state
      if o.ret ≠ 0 then return o
      else return ⟨0, o.state⟩

def cleanupModule (d : DriverState) : DriverState := exitDevice (freeMemory d)

end JudgePenguin.Driver
