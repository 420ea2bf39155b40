/-
  JudgePenguin/PageTable.lean
  ===========================
  **The driver's page tables** (`driver/page_table.c`).

  The driver owns `[phys_base_addr, phys_base_addr + total_size)` of physical
  memory, reaches it through the window that Linux maps at `virt_base_addr`, and
  builds the kernel's page tables at its start.  Blocks of 4 KiB are handed out
  in order up to `page_table_break`; `init_page_table` builds the initial address
  space, `map_page` adds one page to it.

  The static variables of the file and the physical memory are the state
  `PageTables`.  An access outside the window is a fault of the host and ends the
  computation with `none`.
-/
import JudgePenguin.ArrayLoops
import JudgePenguin.ByteMemory
import JudgePenguin.Memory

namespace JudgePenguin.Driver

open Words ArrayLoops

def PT_ENTRIES : Nat := PAGE_SIZE / 8
def P3_PAGE_SIZE : Nat := 1 <<< 30

def PTE_P : Nat := 1
def PTE_W : Nat := 1 <<< 1
def PTE_U : Nat := 1 <<< 2
def PTE_A : Nat := 1 <<< 5
def PTE_D : Nat := 1 <<< 6
def PTE_H : Nat := 1 <<< 7

/-! ## State and memory access -/

structure PageTables where
  physBaseAddr : Nat
  virtBaseAddr : Nat
  totalSize : Nat
  nextBlockPhysAddr : Nat
  P4Base : Nat
  pageTableBreak : Nat
  mem : Mem

namespace PageTables

variable (s : PageTables)

def physToVirt (physAddr : Nat) : Nat := wrap64 (sub64 physAddr s.physBaseAddr + s.virtBaseAddr)

/-- The physical address behind `n` bytes at the Linux address `v`. -/
def behind (v n : Nat) : Option Nat :=
  let off := sub64 v s.virtBaseAddr
  if off + n ≤ s.totalSize then some (s.physBaseAddr + off) else none

def load (v : Nat) : Option Nat := (s.behind v 8).map s.mem.read64

def store (v x : Nat) : Option PageTables :=
  (s.behind v 8).map fun p => { s with mem := s.mem.write64 p x }

def memset (v : Nat) (b : UInt8) (n : Nat) : Option PageTables :=
  (s.behind v n).map fun p => { s with mem := s.mem.fill p n b }

def memcpy (v : Nat) (bytes : List UInt8) : Option PageTables :=
  (s.behind v bytes.length).map fun p => { s with mem := s.mem.write p bytes }

/-- The address of entry `index` of a block; the low bits of the block address
    may hold flags. -/
def PTE (blockPhysAddr index : Nat) : Nat :=
  s.physToVirt ((blockPhysAddr &&& (2 ^ 64 - 1 - 0xfff)) ||| index * 8)

end PageTables

def P4Index (virtAddr : Nat) : Nat := virtAddr >>> 39 &&& 0x1ff
def P3Index (virtAddr : Nat) : Nat := virtAddr >>> 30 &&& 0x1ff
def P2Index (virtAddr : Nat) : Nat := virtAddr >>> 21 &&& 0x1ff
def P1Index (virtAddr : Nat) : Nat := virtAddr >>> 12 &&& 0x1ff

def divRoundUp (x y : Nat) : Nat := wrap64 (x + y - 1) / y

/-! ## Blocks -/

/-- The blocks `init_page_table_break` counts: 50 in reserve, the tables of
    levels 1 and 2, and three of levels 3 and 4. -/
def numBlocks (totalSize : Nat) : Nat :=
  50 + divRoundUp totalSize (PAGE_SIZE * PT_ENTRIES)
    + divRoundUp totalSize (PAGE_SIZE * PT_ENTRIES * PT_ENTRIES) + 3

def initPageTableBreak (s : PageTables) : PageTables :=
  { s with pageTableBreak := wrap64 (s.physBaseAddr + numBlocks s.totalSize * PAGE_SIZE) }

/-- A block address returned by a function, and the state it leaves. -/
structure Block where
  addr : Nat
  state : PageTables

/-- `alloc_block`: past the break it returns `0`, having moved on all the same. -/
def allocBlock (s : PageTables) : Option Block :=
  let next := wrap64 (s.nextBlockPhysAddr + PAGE_SIZE)
  if next > s.pageTableBreak then some ⟨0, { s with nextBlockPhysAddr := next }⟩
  else
    (PageTables.memset { s with nextBlockPhysAddr := next } (s.physToVirt s.nextBlockPhysAddr) 0
      PAGE_SIZE).map fun s' => ⟨s.nextBlockPhysAddr, s'⟩

/-! ## The initial address space -/

/-- An address with the flags that every entry of the tables carries. -/
def mapped (physAddr : Nat) : Nat := physAddr ||| PTE_P ||| PTE_W ||| PTE_D ||| PTE_A

/-- One pass of the loop over a P1 block. -/
def fillP1 (P3Idx P2Idx P1 P1Idx : Nat) (s : PageTables) : Option PageTables :=
  let P0 := P3Idx * P3_PAGE_SIZE + P2Idx * HUGE_PAGE_SIZE + P1Idx * PAGE_SIZE
  s.store (s.PTE P1 P1Idx) (mapped (wrap64 (P0 + s.physBaseAddr)))

/-- The trip counts of the three nested loops. -/
def P0Num (totalSize P3Idx P2Idx : Nat) : Nat :=
  min (divRoundUp (sub64 (sub64 totalSize (P3Idx * P3_PAGE_SIZE)) (P2Idx * HUGE_PAGE_SIZE))
    PAGE_SIZE) PT_ENTRIES

def P1Num (totalSize P3Idx : Nat) : Nat :=
  min (divRoundUp (sub64 totalSize (P3Idx * P3_PAGE_SIZE)) (PAGE_SIZE * PT_ENTRIES)) PT_ENTRIES

def P2Num (totalSize : Nat) : Nat := divRoundUp totalSize (PAGE_SIZE * PT_ENTRIES * PT_ENTRIES)

/-- One pass of the loop over a P2 block. -/
def fillP2 (P3Idx P2 P2Idx : Nat) (s : PageTables) : Option PageTables := do
  let P1 ← allocBlock s
  let s ← P1.state.store (P1.state.PTE P2 P2Idx) (mapped P1.addr)
  countUpM (fillP1 P3Idx P2Idx P1.addr) (P0Num s.totalSize P3Idx P2Idx) s

/-- One pass of the loop over the low P3 block. -/
def fillP3 (P3Low P3Idx : Nat) (s : PageTables) : Option PageTables := do
  let P2 ← allocBlock s
  let s ← P2.state.store (P2.state.PTE P3Low P3Idx) (mapped P2.addr ||| PTE_U)
  countUpM (fillP2 P3Idx P2.addr) (P1Num s.totalSize P3Idx) s

/-- One pass of the loop that maps all physical memory by 1 GiB pages. -/
def fillP3Upp (P3Upp i : Nat) (s : PageTables) : Option PageTables :=
  s.store (s.PTE P3Upp i) (mapped (i * P3_PAGE_SIZE) ||| PTE_H)

def initPageTable4k (s : PageTables) : Option Block := do
  let P4 ← allocBlock s
  let s ← P4.state.store (P4.state.PTE P4.addr (PT_ENTRIES - 1)) (mapped P4.addr)
  let P3Upp ← allocBlock s
  let s ← P3Upp.state.store (P3Upp.state.PTE P4.addr (PT_ENTRIES - 2)) (mapped P3Upp.addr)
  let s ← countUpM (fillP3Upp P3Upp.addr) PT_ENTRIES s
  let P3Low ← allocBlock s
  let s ← P3Low.state.store (P3Low.state.PTE P4.addr 0) (mapped P3Low.addr ||| PTE_U)
  let s ← countUpM (fillP3 P3Low.addr) (P2Num s.totalSize) s
  return ⟨P4.addr, s⟩

/-- `init_page_table` on a machine with memory `mem`; the statics are zero at
    first.  Its return value is the state's `pageTableBreak`. -/
def initPageTable (physAddr virtAddr size : Nat) (mem : Mem) : Option PageTables := do
  let s := initPageTableBreak ⟨physAddr, virtAddr, size, 0, 0, 0, mem⟩
  let P4 ← initPageTable4k { s with nextBlockPhysAddr := physAddr }
  return { P4.state with P4Base := P4.addr }

/-! ## Adding a page -/

/-- `if (!(*P & PTE_P)) *P = alloc_block() | …;` for the entry at the Linux
    address `P`. -/
def ensureTable (P : Nat) (s : PageTables) : Option PageTables := do
  let e ← s.load P
  if e &&& PTE_P = 0 then do
    let block ← allocBlock s
    block.state.store P (mapped block.addr)
  else return s

/-- What `map_page` returns, and the state it leaves. -/
structure MapResult where
  ret : Int
  state : PageTables

/-- The last step of `map_page`: `-1`, and nothing mapped, when the page is mapped
    already. -/
def mapLeaf (physAddr P0 : Nat) (s : PageTables) : Option MapResult := do
  let e0 ← s.load P0
  if e0 &&& PTE_P = 0 then do
    let s ← s.store P0 (mapped physAddr)
    return ⟨0, s⟩
  else return ⟨-1, s⟩

def mapPage (physAddr virtAddr : Nat) (s : PageTables) : Option MapResult := do
  let P3 := s.PTE s.P4Base (P4Index virtAddr)
  let s ← ensureTable P3 s
  let e3 ← s.load P3
  let P2 := s.PTE e3 (P3Index virtAddr)
  let s ← ensureTable P2 s
  let e2 ← s.load P2
  let P1 := s.PTE e2 (P2Index virtAddr)
  let s ← ensureTable P1 s
  let e1 ← s.load P1
  mapLeaf physAddr (s.PTE e1 (P1Index virtAddr)) s

end JudgePenguin.Driver
