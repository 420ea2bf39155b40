/-
  JudgePenguin/FirmwareImage.lean
  ===============================
  **What the kernel finds at its address** — the bytes behind the page tables after
  any number of `load_firmware` calls.

  A call copies the image, clears what is around it and then maps pages, which takes
  blocks from the reserve and stores entries.  Both stay inside the page tables
  (`mapPages_off`), so that the bytes behind them are those of the copy.  An image
  that is loaded over a longer one leaves nothing of it, and one that is refused
  leaves the memory alone: what the kernel sees through CR3 is always the last image
  that was accepted, followed by zeros (`kernel_sees_image`).
-/
import JudgePenguin.KernelMapping

namespace JudgePenguin.Driver

open Words ArrayLoops Paging

/-! ## Stores into the page tables -/

/-- The bytes that the blocks of a region take. -/
def Region.InTables (R : Region) (x : Nat) : Prop :=
  R.phys ≤ x ∧ x < R.phys + 4096 * R.blocks

section Frame

variable {R : Region} {t : Tables} {s s' : PageTables}

theorem Rep.store_off (h : Rep R t s) {b i f v : Nat} (hb : b < R.blocks) (hi : i < 512)
    (hf : f < 4096) (hs : s.store (s.PTE (R.block b + f) i) v = some s') :
    Mem.EqOff R.InTables s.mem s'.mem := by
  rw [PageTables.store, h.behind_pte hb hi hf, Option.map_some, Option.some.injEq] at hs
  subst hs
  apply Mem.EqOff.write64
  intro x hlow hx
  unfold Region.block at hlow hx
  exact ⟨by omega, by omega⟩

theorem Rep.alloc_off (h : Rep R t s) (hroom : t.next < R.blocks) {B : Block}
    (hB : allocBlock s = some B) : Mem.EqOff R.InTables s.mem B.state.mem := by
  have hfit := R.room
  have hpage : PAGE_SIZE = 4096 := rfl
  have hwin : ∀ next, PageTables.behind { s with nextBlockPhysAddr := next }
      (s.physToVirt (R.block t.next)) PAGE_SIZE = some (R.block t.next) := by
    intro next
    exact h.behind_physToVirt (show 4096 * t.next + PAGE_SIZE ≤ R.size by omega)
  rw [allocBlock] at hB
  split at hB
  · rw [Option.some.injEq] at hB
    subst hB
    exact Mem.EqOff.refl _ _
  · rw [h.next, PageTables.memset, hwin, Option.map_some, Option.map_some, Option.some.injEq] at hB
    subst hB
    apply Mem.EqOff.fill
    intro x hlow hx
    unfold Region.block at hlow hx
    exact ⟨by omega, by omega⟩

variable {cands : Finset (Nat × Nat)} {node : Nodes}

theorem ensureTable_off (hm : Maps R cands s node) (hcard : cands.card ≤ 50) {l k b i f : Nat}
    (hs : Slot R node (l + 1) k b i) (hk : (l, k) ∈ cands) (hf : f < 4096)
    (h : ensureTable (s.PTE (R.block b + f) i) s = some s') :
    Mem.EqOff R.InTables s.mem s'.mem := by
  obtain ⟨t, dom, hr, ht, hsub⟩ := hm
  have hblocks := R.blocks_eq
  have hcount := ht.count
  have hle := Finset.card_le_card hsub
  have hfirst : R.firstBlock = 3 + R.numP1 + R.numP2 := rfl
  have hb : b < R.blocks := by
    rcases ht.slot_block hs with ⟨rfl, -⟩ | ⟨-, h2⟩
    · omega
    · omega
  have hload : s.load (s.PTE (R.block b + f) i) = some (enc (node (l + 1) k)) := by
    rw [hr.load hb hs.index_lt hf, ht.entry hs]
  rw [ensureTable, hload, Option.bind_eq_bind, Option.bind_some] at h
  split at h
  · rename_i habsent
    have hnode : node (l + 1) k = none := by
      cases hcase : node (l + 1) k with
      | none => rfl
      | some a =>
        obtain ⟨c, rfl, -, -⟩ := ht.block _ _ _ hcase
        rw [hcase] at habsent
        exact absurd habsent (enc_some_present (R.block_aligned c))
    -- the new node is one of the candidates and was not counted yet
    have hnot : (l, k) ∉ dom := by
      rw [ht.mem_dom]
      simp [hnode]
    have hlt : dom.card < cands.card := by
      apply Finset.card_lt_card
      exact ⟨hsub, fun hcon => hnot (hcon hk)⟩
    have hnext : t.next < R.blocks := by omega
    obtain ⟨s1, h1, r1⟩ := hr.alloc hnext
    have hoff1 := hr.alloc_off hnext h1
    rw [h1, Option.bind_eq_bind, Option.bind_some, ← hr.PTE_eq r1] at h
    exact hoff1.trans (r1.store_off hb hs.index_lt hf h)
  · rw [Option.pure_def, Option.some.injEq] at h
    subst h
    exact Mem.EqOff.refl _ _

theorem mapLeaf_off (hm : Maps R cands s node) (hcard : cands.card ≤ 50) {k b i phys : Nat}
    (hs : Slot R node 0 k b i) {r : MapResult}
    (h : mapLeaf phys (s.PTE (R.block b + 0x63) i) s = some r) :
    Mem.EqOff R.InTables s.mem r.state.mem := by
  obtain ⟨t, dom, hr, ht, hsub⟩ := hm
  have hle := Finset.card_le_card hsub
  have hb : b < R.blocks := by
    cases hs with
    | below _ hn => exact ht.block_lt (by omega) hn
  rw [mapLeaf, hr.load hb hs.index_lt (by decide), Option.bind_eq_bind, Option.bind_some] at h
  split at h
  · rw [Option.bind_eq_bind, Option.bind_eq_some_iff] at h
    obtain ⟨s1, h1, h2⟩ := h
    rw [Option.pure_def, Option.some.injEq] at h2
    subst h2
    exact hr.store_off hb hs.index_lt (by decide) h1
  · rw [Option.pure_def, Option.some.injEq] at h
    subst h
    exact Mem.EqOff.refl _ _

/-- `map_page` stores into the page tables only. -/
theorem mapPage_off (hm : Maps R cands s node) (hcard : cands.card ≤ 50) {va p : Nat}
    (h1 : 1 ≤ index 3 va) (h509 : index 3 va ≤ 509)
    (hc3 : (2, spanOf 3 va) ∈ cands) (hc2 : (1, spanOf 2 va) ∈ cands)
    (hc1 : (0, spanOf 1 va) ∈ cands) {r : MapResult} (h : mapPage p va s = some r) :
    Mem.EqOff R.InTables s.mem r.state.mem := by
  have hroot : s.P4Base = R.block 0 + 0 := by
    obtain ⟨t, dom, hr, ht, -⟩ := hm
    rw [hr.root, ht.root]
    rfl
  have hs3 : Slot R node 3 (spanOf 3 va) 0 (index 3 va) := by
    rw [spanOf_top]
    exact Slot.top h1 h509
  obtain ⟨s3, n3, b3, e3, m3, l3, hn3, -⟩ := ensureTable_spec hm hcard hs3 hc3 (f := 0) (by decide)
  have hs2 : Slot R n3 2 (spanOf 2 va) b3 (index 2 va) := by
    rw [← spanOf_mod va (by decide)]
    exact Slot.below (by decide) (by rw [spanOf_div va (by decide)]; exact hn3)
  obtain ⟨s2, n2, b2, e2, m2, l2, hn2, -⟩ := ensureTable_spec m3 hcard hs2 hc2 (f := 0x63)
    (by decide)
  have hs1 : Slot R n2 1 (spanOf 1 va) b2 (index 1 va) := by
    rw [← spanOf_mod va (by decide)]
    exact Slot.below (by decide) (by rw [spanOf_div va (by decide)]; exact hn2)
  obtain ⟨s1, n1, b1, e1, m1, l1, hn1, -⟩ := ensureTable_spec m2 hcard hs1 hc1 (f := 0x63)
    (by decide)
  have hs0 : Slot R n1 0 (spanOf 0 va) b1 (index 0 va) := by
    rw [← spanOf_mod va (by decide)]
    exact Slot.below (by decide) (by rw [spanOf_div va (by decide)]; exact hn1)
  have hleaf : mapLeaf p (s1.PTE (R.block b1 + 0x63) (index 0 va)) s1 = some r := by
    rw [← h]
    unfold mapPage
    rw [P4Index_eq, P3Index_eq, P2Index_eq, P1Index_eq, hroot]
    dsimp only
    rw [e3, Option.bind_eq_bind, Option.bind_some, l3, Option.bind_eq_bind, Option.bind_some, e2,
      Option.bind_some, l2, Option.bind_some, e1, Option.bind_some, l1, Option.bind_some]
  have o3 := ensureTable_off hm hcard hs3 hc3 (by decide) e3
  have o2 := ensureTable_off m3 hcard hs2 hc2 (by decide) e2
  have o1 := ensureTable_off m2 hcard hs1 hc1 (by decide) e1
  exact ((o3.trans o2).trans o1).trans (mapLeaf_off m1 hcard hs0 hleaf)

/-- The loops of `load_firmware` do. -/
theorem mapPages_off {memVirt : Nat} (hw : KernelWindow memVirt) (h : Loaded R memVirt s node)
    {o n : Nat} (ho : o + 4096 * n ≤ KERNEL_SIZE) (hal : 4096 ∣ o)
    (hrun : mapPages (MEM_START + o) (memVirt + o) n s = some s') :
    Mem.EqOff R.InTables s.mem s'.mem := by
  have hsize : KERNEL_SIZE = 4194304 := by decide
  have hstart : MEM_START = 1073741824 := by decide
  obtain ⟨s'', hrun', -, hoff⟩ := countUpM_induct
    (fun i s => (mapPage (wrap64 (MEM_START + o + i * PAGE_SIZE))
      (wrap64 (memVirt + o + i * PAGE_SIZE)) s).map MapResult.state) n s
    (fun _ s1 => (∃ node', Loaded R memVirt s1 node') ∧ Mem.EqOff R.InTables s.mem s1.mem)
    ⟨⟨node, h⟩, Mem.EqOff.refl _ _⟩ (by
      rintro i hi s1 ⟨⟨node1, hl1⟩, hoff1⟩
      have hoff : o + 4096 * i < KERNEL_SIZE := by omega
      have hlt := hw.lt hoff
      have hphys : wrap64 (MEM_START + o + i * PAGE_SIZE) = MEM_START + (o + 4096 * i) := by
        rw [mul_page, wrap64_of_lt (by omega), Nat.add_assoc]
      have hvirt : wrap64 (memVirt + o + i * PAGE_SIZE) = memVirt + (o + 4096 * i) := by
        rw [mul_page, wrap64_of_lt (by omega), Nat.add_assoc]
      obtain ⟨htop1, htop2⟩ := hw.index_top hoff
      obtain ⟨hc3, hc2, hc1⟩ := hw.mem_cands hoff
      obtain ⟨r, node2, hr, hl2, -, -⟩ := mapPage_window hw hl1 hoff (by omega)
      refine ⟨r.state, ?_, ⟨node2, hl2⟩, hoff1.trans ?_⟩
      · rw [hphys, hvirt, hr]
        rfl
      · exact mapPage_off hl1.1 (card_windowCands memVirt) htop1 htop2 hc3 hc2 hc1 hr)
  cases hrun'.symm.trans hrun
  exact hoff

end Frame

/-! ## The bytes of the kernel -/

/-- What an accepted image makes of the `KERNEL_SIZE` bytes from `kernel_base` on: the
    file `KERNEL_OFFSET` bytes behind it, and zeros around. -/
def Firmware.image (f : Firmware) (o : Nat) : UInt8 :=
  if KERNEL_OFFSET ≤ o ∧ o < KERNEL_OFFSET + f.size then f.data (o - KERNEL_OFFSET) else 0

/-- `m` holds the kernel that `f` is. -/
def Firmware.InPlace (f : Firmware) (m : Mem) : Prop :=
  ∀ o < KERNEL_SIZE, m (MEM_START + PAGE_TABLE_SIZE + o) = f.image o

/-- The bytes that `load_firmware` may store to. -/
def Footprint (R : Region) (x : Nat) : Prop :=
  R.InTables x ∨ (MEM_START + PAGE_TABLE_SIZE ≤ x ∧ x < MEM_START + PAGE_TABLE_SIZE + KERNEL_SIZE)

section Place

variable {memVirt : Nat} {d : DriverState} {node : Nodes} {f : Firmware}

theorem copied_inside (f : Firmware) (hfit : KERNEL_OFFSET + f.size ≤ KERNEL_SIZE) (m : Mem) (b : Nat)
    {o : Nat} (ho : o < KERNEL_SIZE) : f.copied m b (b + o) = f.image o := by
  have hlen : (f.data.read 0 f.size).length = f.size := Mem.length_read ..
  unfold Firmware.copied Firmware.image
  generalize KERNEL_OFFSET = k at hfit ⊢
  generalize KERNEL_SIZE = n at hfit ho ⊢
  by_cases hbefore : o < k
  · rw [if_neg (by omega), Mem.fill_outside _ _ (by omega),
      Mem.write_outside _ _ _ (by omega), Mem.fill_inside _ _ (by omega) (by omega)]
  by_cases hin : o < k + f.size
  · have hindex : b + o - (b + k) = o - k := by omega
    rw [if_pos ⟨by omega, hin⟩, Mem.fill_outside _ _ (by omega),
      Mem.write_inside_getD _ _ _ (by omega) (by omega), hindex, Mem.getD_read _ _ (by omega),
      Nat.zero_add]
  · rw [if_neg (by omega), Mem.fill_inside _ _ (by omega) (by omega)]

theorem copied_outside (f : Firmware) (hfit : KERNEL_OFFSET + f.size ≤ KERNEL_SIZE) (m : Mem) (b : Nat)
    {x : Nat} (hx : x < b ∨ b + KERNEL_SIZE ≤ x) : f.copied m b x = m x := by
  have hlen : (f.data.read 0 f.size).length = f.size := Mem.length_read ..
  unfold Firmware.copied
  generalize KERNEL_OFFSET = k at hfit ⊢
  generalize KERNEL_SIZE = n at hfit hx ⊢
  rw [Mem.fill_outside _ _ (by omega), Mem.write_outside _ _ _ (by omega),
    Mem.fill_outside _ _ (by omega)]

/-- `load_firmware` behind its checks puts the kernel in place. -/
theorem Stages.inPlace {hlt : memVirt < 2 ^ 64} (hw : KernelWindow memVirt) (hf : f.Accepted)
    {s3 s4 s : PageTables} {node4 node' : Nodes}
    (h : Stages memVirt hlt f d node s3 s4 s node4 node') :
    f.InPlace s.mem ∧ Mem.EqOff (Footprint (reserved memVirt hlt)) d.tables.mem s.mem := by
  have hsize : KERNEL_SIZE = 4194304 := by decide
  have hstack : KERNEL_STACK_SIZE = 65536 := by decide
  have hoffset : KERNEL_OFFSET = 352 := by decide
  have hpts : PAGE_TABLE_SIZE = 1269760 := by decide
  have hmem : MEM_START = 1073741824 := by decide
  have hblocks : (reserved memVirt hlt).blocks = 310 := rfl
  have hphys : (reserved memVirt hlt).phys = MEM_START := rfl
  have hfit : f.size ≤ 2859008 := by
    have := hf.2
    omega
  have o4 := mapPages_off hw h.place (by omega) (by omega) h.image
  have o5 := mapPages_off hw h.imageLoaded (by omega) (by omega) h.stack
  have hoff : Mem.EqOff (reserved memVirt hlt).InTables s3.mem s.mem := o4.trans o5
  refine ⟨?_, ?_⟩
  · intro o ho
    rw [hoff _ (by unfold Region.InTables; omega), h.copied]
    exact copied_inside f (by omega) _ _ ho
  · intro x hx
    rw [Footprint, not_or] at hx
    rw [hoff x hx.1, h.copied]
    exact copied_outside f (by omega) _ _ (by omega)

end Place

/-! ## Any number of calls -/

instance (f : Firmware) : Decidable f.Accepted := inferInstanceAs (Decidable (_ ∧ _))

/-- The image that is in place after a request. -/
def accept (current : Option Firmware) : Except Int Firmware → Option Firmware
  | .error _ => current
  | .ok f => if f.Accepted then some f else current

/-- The last image of some requests that was accepted. -/
def lastAccepted (requests : List (Except Int Firmware)) : Option Firmware :=
  requests.foldl accept none

/-- The current image, if there is one, is in place. -/
def Held (current : Option Firmware) (m : Mem) : Prop := ∀ f, current = some f → f.InPlace m

section Calls

variable {memVirt : Nat} {d : DriverState} {node : Nodes} {current : Option Firmware}

theorem loadFirmware_image (hlt : memVirt < 2 ^ 64) (hw : KernelWindow memVirt)
    {fs : Firmware → Prop} (h : Reloaded memVirt hlt fs d node) (hheld : Held current d.tables.mem)
    {request : Except Int Firmware} {o : Outcome} (ho : loadFirmware request d = some o) :
    Held (accept current request) o.state.tables.mem ∧
      Mem.EqOff (Footprint (reserved memVirt hlt)) d.tables.mem o.state.tables.mem := by
  cases request with
  | error err =>
    cases ho
    exact ⟨hheld, Mem.EqOff.refl _ _⟩
  | ok f =>
    have hstat : Statics memVirt (d.acquire .firmware) :=
      ⟨h.statics.pageTableSize, h.statics.base, h.statics.top⟩
    have hrefused : ¬ f.Accepted → Held (accept current (.ok f)) d.tables.mem := by
      intro hnot
      rw [accept, if_neg hnot]
      exact hheld
    rw [loadFirmware, size_limit hstat] at ho
    split at ho
    · rename_i hsigned
      cases ho
      refine ⟨hrefused fun hacc => ?_, Mem.EqOff.refl _ _⟩
      exact absurd (hsigned.symm.trans hacc.1) (by decide)
    · rename_i hsigned
      split at ho
      · rename_i hsize
        cases ho
        exact ⟨hrefused fun hacc => absurd hacc.2 (Nat.not_le_of_gt hsize), Mem.EqOff.refl _ _⟩
      · rename_i hsize
        have hacc : f.Accepted := ⟨by simpa using hsigned, Nat.le_of_not_gt hsize⟩
        obtain ⟨s3, s4, s, node4, node', hplace, hst⟩ :=
          placeFirmware_spec hlt hw hstat h.loaded hacc
        rw [hplace] at ho
        cases ho
        obtain ⟨himage, hoff⟩ := hst.inPlace hw hacc
        refine ⟨?_, hoff⟩
        intro f' hf'
        rw [accept, if_pos hacc, Option.some.injEq] at hf'
        subst hf'
        exact himage

theorem loadFirmwares_image (hlt : memVirt < 2 ^ 64) (hw : KernelWindow memVirt)
    {fs : Firmware → Prop} (h : Reloaded memVirt hlt fs d node) (hheld : Held current d.tables.mem)
    {requests : List (Except Int Firmware)} {d' : DriverState}
    (hrun : loadFirmwares requests d = some d') :
    Held (requests.foldl accept current) d'.tables.mem ∧
      Mem.EqOff (Footprint (reserved memVirt hlt)) d.tables.mem d'.tables.mem := by
  induction requests generalizing d node fs current with
  | nil =>
    cases hrun
    exact ⟨hheld, Mem.EqOff.refl _ _⟩
  | cons request rest ih =>
    obtain ⟨o, node1, hstep, h1⟩ := loadFirmware_step hlt hw h request
    rw [loadFirmwares, hstep, Option.bind_some] at hrun
    obtain ⟨hheld1, hoff1⟩ := loadFirmware_image hlt hw h hheld hstep
    obtain ⟨hheld', hoff'⟩ := ih h1 hheld1 hrun
    exact ⟨hheld', hoff1.trans hoff'⟩

end Calls

/-- The last image that was accepted is one of those that were asked for. -/
theorem foldl_accept {requests : List (Except Int Firmware)} {current : Option Firmware} {f : Firmware}
    (h : requests.foldl accept current = some f) :
    current = some f ∨ (.ok f ∈ requests ∧ f.Accepted) := by
  induction requests generalizing current with
  | nil => exact Or.inl h
  | cons request rest ih =>
    rcases ih h with hcur | ⟨hmem, hacc⟩
    · cases request with
      | error err => exact Or.inl hcur
      | ok f' =>
        rw [accept] at hcur
        split at hcur
        · rename_i hacc
          rw [Option.some.injEq] at hcur
          subst hcur
          exact Or.inr ⟨List.mem_cons_self, hacc⟩
        · exact Or.inl hcur
    · exact Or.inr ⟨List.mem_cons_of_mem _ hmem, hacc⟩

/-- The byte that a processor with these tables finds at the address `va`. -/
def PageTables.seen (s : PageTables) (va : Nat) : Option UInt8 :=
  (translate s.mem s.P4Base va).map fun t => s.mem t.phys

/-- The tables do not depend on the bytes around them. -/
theorem Maps.of_tables {R : Region} {s : PageTables} {node : Nodes} {cands : Finset (Nat × Nat)}
    (h : Maps R cands s node) (hcard : cands.card ≤ 50) {m : Mem}
    (hm : ∀ x, R.InTables x → m x = s.mem x) : Maps R cands { s with mem := m } node := by
  let m1 : Mem := fun x => if x < R.phys + 4096 * R.blocks then s.mem x else m x
  obtain ⟨t, dom, hr, ht, hsub⟩ := h.of_mem hcard (m := m1) fun x hx => if_pos hx
  refine ⟨t, dom, ⟨hr.phys, hr.virt, hr.size, hr.brk, hr.next, hr.root, ?_⟩, ht, hsub⟩
  intro b i hi
  rw [← hr.entry b i hi]
  apply Mem.read64_congr
  intro j hj
  show m _ = if _ then _ else _
  split
  · rename_i hlow
    exact hm _ ⟨by unfold Region.block; omega, hlow⟩
  · rfl

/-- After `init_memory` and any `load_firmware` calls the processor with the new CR3 finds
    the last image that was accepted at `kernel_base`, with zeros up to `KERNEL_SIZE`
    behind it, and the pages of the image at `kernel_base_linux` as well.  No byte
    besides the page tables and these has changed since `init_memory`. -/
theorem kernel_sees_image {memVirt : Nat} {c : MemoryCalls} (hw : KernelWindow memVirt)
    (hc : c.Succeed memVirt) (d0 : DriverState) {requests : List (Except Int Firmware)} {f : Firmware}
    (hf : lastAccepted requests = some f) :
    ∃ d d', initMemory c d0 = some ⟨0, d⟩ ∧ loadFirmwares requests d = some d' ∧
      (∀ o < KERNEL_SIZE, d'.tables.seen (PAGE_TABLE_SIZE + o) = some (f.image o)) ∧
      (∀ o < ceilTo (KERNEL_OFFSET + f.size) 4096,
        d'.tables.seen (memVirt + (PAGE_TABLE_SIZE + o)) = some (f.image o)) ∧
      ∀ x, ¬ (MEM_START ≤ x ∧ x < MEM_START + PAGE_TABLE_SIZE + KERNEL_SIZE) →
        d'.tables.mem x = d.tables.mem x := by
  have hlt : memVirt < 2 ^ 64 := hw.lt (o := 0) (by decide)
  obtain ⟨d, hinit, hr⟩ := initMemory_spec hlt hc d0
  obtain ⟨d', node, hrun, hr'⟩ := loadFirmwares_run hlt hw hr requests
  have hnone : Held none d.tables.mem := by rintro f' ⟨⟩
  obtain ⟨hheld, hoff⟩ := loadFirmwares_image hlt hw hr hnone hrun
  obtain ⟨-, hlow, hhigh⟩ := hr'.translate hw
  have himage : f.InPlace d'.tables.mem := hheld f hf
  have hsize : KERNEL_SIZE = 4194304 := by decide
  have hpts : PAGE_TABLE_SIZE = 1269760 := by decide
  have hmem : MEM_SIZE = 536870912 := by decide
  refine ⟨d, d', hinit, hrun, ?_, ?_, ?_⟩
  · intro o ho
    rw [PageTables.seen, hlow _ (by omega), Option.map_some, ← Nat.add_assoc, himage o ho]
  · intro o ho
    rcases foldl_accept hf with hnone | ⟨hmemf, hacc⟩
    · cases hnone
    · have hcov : f.Covers (PAGE_TABLE_SIZE + o) := Or.inl ⟨by omega, by omega⟩
      have hat := hr'.covered f (Or.inr hmemf) hacc _ hcov
      have hwin := hcov.lt hacc
      rw [PageTables.seen, hhigh _ hwin hat, Option.map_some, ← Nat.add_assoc, himage o (by omega)]
  · intro x hx
    apply hoff
    rintro (⟨h1, h2⟩ | ⟨h1, h2⟩)
    · have hphys : (reserved memVirt hlt).phys = MEM_START := rfl
      have hblocks : (reserved memVirt hlt).blocks = 310 := rfl
      omega
    · omega

/-- A short image over a longer one, and then one that is refused. -/
theorem kernel_sees_image_sample :
    lastAccepted [.ok { sampleFirmware with size := 9000 }, .ok sampleFirmware,
      .ok { sampleFirmware with size := 0x400000 }] = some sampleFirmware ∧
    ∃ d d', initMemory ⟨true, true, some 0xffffc90000000000, 0, fun _ => 0xcc⟩
        (DriverState.fresh fun _ => 0) = some ⟨0, d⟩ ∧
      loadFirmwares [.ok { sampleFirmware with size := 9000 }, .ok sampleFirmware,
        .ok { sampleFirmware with size := 0x400000 }] d = some d' ∧
      (∀ o < KERNEL_SIZE, d'.tables.seen (PAGE_TABLE_SIZE + o) = some (sampleFirmware.image o)) ∧
      (∀ o < ceilTo (KERNEL_OFFSET + sampleFirmware.size) 4096,
        d'.tables.seen (0xffffc90000000000 + (PAGE_TABLE_SIZE + o)) = some (sampleFirmware.image o)) ∧
      ∀ x, ¬ (MEM_START ≤ x ∧ x < MEM_START + PAGE_TABLE_SIZE + KERNEL_SIZE) →
        d'.tables.mem x = d.tables.mem x :=
  ⟨rfl, kernel_sees_image kernelWindow_sample ⟨rfl, rfl, rfl, rfl⟩ _ rfl⟩

end JudgePenguin.Driver
