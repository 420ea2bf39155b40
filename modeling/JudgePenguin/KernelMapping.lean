/-
  JudgePenguin/KernelMapping.lean
  ===============================
  **The kernel is mapped twice.**

  The kernel runs at its Linux-side address when it loads the new CR3, and at its
  low address afterwards.  `load_firmware` therefore maps the image and the stack
  at `mem_virt + o` next to the static mapping at `o`.  All these pages lie in a
  4 MiB window, which meets at most seven spans of the three upper levels: the 50
  blocks held in reserve suffice for any number of reloads.
-/
import JudgePenguin.DriverModule
import JudgePenguin.PageTableMap

namespace JudgePenguin.Driver

open Words ArrayLoops Paging

/-! ## The window -/

/-- What Linux's vmalloc area guarantees of `mem_virt`. -/
structure KernelWindow (memVirt : Nat) : Prop where
  aligned : 4096 ∣ memVirt
  canonical : ∀ o < KERNEL_SIZE, canonical (memVirt + o) = true
  free : ∀ o < KERNEL_SIZE, index 3 (memVirt + o) ≠ 0 ∧ index 3 (memVirt + o) ≠ 510 ∧
    index 3 (memVirt + o) ≠ 511

/-- The spans of the upper three levels that the window meets. -/
def windowSpans (memVirt : Nat) : List (Nat × Nat) :=
  let a := memVirt % 2 ^ 48
  [(2, a / 549755813888), (2, (a + 4194303) / 549755813888),
   (1, a / 1073741824), (1, (a + 4194303) / 1073741824),
   (0, a / 2097152), (0, a / 2097152 + 1), (0, a / 2097152 + 2)]

def windowCands (memVirt : Nat) : Finset (Nat × Nat) := (windowSpans memVirt).toFinset

theorem card_windowCands (memVirt : Nat) : (windowCands memVirt).card ≤ 50 := by
  have hlen : (windowSpans memVirt).length = 7 := rfl
  have hle := List.toFinset_card_le (windowSpans memVirt)
  unfold windowCands
  omega

namespace KernelWindow

variable {memVirt o : Nat}

theorem lt (h : KernelWindow memVirt) (ho : o < KERNEL_SIZE) : memVirt + o < 2 ^ 64 := by
  have hc := canonical_iff.mp (h.canonical o ho)
  omega

/-- The window does not reach the next multiple of `2^48`: there the top index
    would be `0`. -/
theorem no_wrap (h : KernelWindow memVirt) : memVirt % 2 ^ 48 + 4194304 ≤ 2 ^ 48 := by
  by_contra hcon
  have hsize : KERNEL_SIZE = 4194304 := by decide
  have hzero := (h.free (2 ^ 48 - memVirt % 2 ^ 48) (by omega)).1
  apply hzero
  unfold index
  rw [pageSize_three]
  omega

theorem index_top (h : KernelWindow memVirt) (ho : o < KERNEL_SIZE) :
    1 ≤ index 3 (memVirt + o) ∧ index 3 (memVirt + o) ≤ 509 := by
  obtain ⟨h0, h510, h511⟩ := h.free o ho
  have hlt := index_lt 3 (memVirt + o)
  omega

theorem mod_add (h : KernelWindow memVirt) (ho : o < KERNEL_SIZE) :
    (memVirt + o) % 2 ^ 48 = memVirt % 2 ^ 48 + o := by
  have hsize : KERNEL_SIZE = 4194304 := by decide
  have hwrap := h.no_wrap
  omega

theorem page_add (h : KernelWindow memVirt) (ho : o < KERNEL_SIZE) :
    spanOf 0 (memVirt + o) = spanOf 0 memVirt + o / 4096 := by
  have hal := h.aligned
  unfold spanOf
  rw [h.mod_add ho, pageSize_zero]
  omega

theorem mem_cands (h : KernelWindow memVirt) (ho : o < KERNEL_SIZE) :
    (2, spanOf 3 (memVirt + o)) ∈ windowCands memVirt ∧
      (1, spanOf 2 (memVirt + o)) ∈ windowCands memVirt ∧
      (0, spanOf 1 (memVirt + o)) ∈ windowCands memVirt := by
  have hsize : KERNEL_SIZE = 4194304 := by decide
  unfold spanOf windowCands windowSpans
  rw [h.mod_add ho, pageSize_three, pageSize_two, pageSize_one]
  generalize memVirt % 2 ^ 48 = a
  have h3 : (a + o) / 549755813888 = a / 549755813888 ∨
      (a + o) / 549755813888 = (a + 4194303) / 549755813888 := by omega
  have h2 : (a + o) / 1073741824 = a / 1073741824 ∨
      (a + o) / 1073741824 = (a + 4194303) / 1073741824 := by omega
  have h1 : (a + o) / 2097152 = a / 2097152 ∨ (a + o) / 2097152 = a / 2097152 + 1 ∨
      (a + o) / 2097152 = a / 2097152 + 2 := by omega
  refine ⟨?_, ?_, ?_⟩
  · rcases h3 with h | h <;> simp [h]
  · rcases h2 with h | h <;> simp [h]
  · rcases h1 with h | h | h <;> simp [h]

end KernelWindow

/-! ## The region -/

/-- The reserved memory, seen by Linux at `memVirt`. -/
def reserved (memVirt : Nat) (h : memVirt < 2 ^ 64) : Region where
  phys := MEM_START
  virt := memVirt
  size := MEM_SIZE
  blocks := 310
  aligned := by decide
  virt_lt := h
  top := by decide
  size_le := by decide
  numBlocks_eq := by decide
  room := by decide

/-- `page_table_size`. -/
def PAGE_TABLE_SIZE : Nat := 0x136000

/-! ## Mapping the window -/

section Mapping

variable {R : Region} {memVirt : Nat} {s : PageTables} {node : Nodes}

/-- Every page mapped so far is a page of the window and goes where it should. -/
def Dual (memVirt : Nat) (node : Nodes) : Prop :=
  ∀ k a, node 0 k = some a → spanOf 0 memVirt ≤ k ∧ a = MEM_START + 4096 * (k - spanOf 0 memVirt)

/-- The offset `o` is mapped in the window. -/
def At (memVirt : Nat) (node : Nodes) (o : Nat) : Prop :=
  node 0 (spanOf 0 memVirt + o / 4096) ≠ none

/-- The invariant of `load_firmware`. -/
def Loaded (R : Region) (memVirt : Nat) (s : PageTables) (node : Nodes) : Prop :=
  Maps R (windowCands memVirt) s node ∧ Dual memVirt node

/-- One `map_page` of the loops of `load_firmware`. -/
theorem mapPage_window (hw : KernelWindow memVirt) (h : Loaded R memVirt s node) {o : Nat}
    (ho : o < KERNEL_SIZE) (hal : 4096 ∣ o) :
    ∃ r node', mapPage (MEM_START + o) (memVirt + o) s = some r ∧ Loaded R memVirt r.state node' ∧
      At memVirt node' o ∧ ∀ o', At memVirt node o' → At memVirt node' o' := by
  obtain ⟨hm, hd⟩ := h
  have hsize : KERNEL_SIZE = 4194304 := by decide
  have hstart : MEM_START = 1073741824 := by decide
  obtain ⟨htop1, htop2⟩ := hw.index_top ho
  obtain ⟨hc3, hc2, hc1⟩ := hw.mem_cands ho
  have hpage := hw.page_add ho
  obtain ⟨r, node', hr, hm', hnew, hold⟩ := mapPage_spec hm (card_windowCands memVirt) htop1 htop2
    hc3 hc2 hc1 (p := MEM_START + o) (by omega) (by omega)
  rw [hpage] at hnew hold
  have hat : At memVirt node' o := by
    unfold At
    rw [hnew]
    exact Option.some_ne_none _
  refine ⟨r, node', hr, ⟨hm', ?_⟩, hat, ?_⟩
  · intro k a ha
    by_cases hk : k = spanOf 0 memVirt + o / 4096
    · subst hk
      rw [hnew] at ha
      injection ha with ha
      cases hcase : node 0 (spanOf 0 memVirt + o / 4096) with
      | none =>
        rw [hcase] at ha
        have ha' : MEM_START + o = a := ha
        omega
      | some c =>
        rw [hcase] at ha
        have ha' : c = a := ha
        subst ha'
        exact hd _ _ hcase
    · rw [hold k hk] at ha
      exact hd k a ha
  · intro o' ho'
    unfold At at ho' hat ⊢
    by_cases hk : spanOf 0 memVirt + o' / 4096 = spanOf 0 memVirt + o / 4096
    · rw [hk]
      exact hat
    · rw [hold _ hk]
      exact ho'

/-- The loop over the pages of `[o, o + 4096 n)`. -/
theorem mapPages_window (hw : KernelWindow memVirt) (h : Loaded R memVirt s node) {o n : Nat}
    (ho : o + 4096 * n ≤ KERNEL_SIZE) (hal : 4096 ∣ o) :
    ∃ s' node', mapPages (MEM_START + o) (memVirt + o) n s = some s' ∧ Loaded R memVirt s' node' ∧
      (∀ i < n, At memVirt node' (o + 4096 * i)) ∧ ∀ o', At memVirt node o' → At memVirt node' o' := by
  have hsize : KERNEL_SIZE = 4194304 := by decide
  have hstart : MEM_START = 1073741824 := by decide
  unfold mapPages
  obtain ⟨s', hrun, node', hl, hnew, hold⟩ := countUpM_induct
    (fun i s => (mapPage (wrap64 (MEM_START + o + i * PAGE_SIZE))
      (wrap64 (memVirt + o + i * PAGE_SIZE)) s).map MapResult.state) n s
    (fun i s => ∃ node', Loaded R memVirt s node' ∧ (∀ j < i, At memVirt node' (o + 4096 * j)) ∧
      ∀ o', At memVirt node o' → At memVirt node' o')
    ⟨node, h, fun j hj => by omega, fun o' ho' => ho'⟩ (by
      rintro i hi s1 ⟨node1, hl1, hnew1, hold1⟩
      have hoff : o + 4096 * i < KERNEL_SIZE := by omega
      have hlt := hw.lt hoff
      have hphys : wrap64 (MEM_START + o + i * PAGE_SIZE) = MEM_START + (o + 4096 * i) := by
        rw [mul_page, wrap64_of_lt (by omega), Nat.add_assoc]
      have hvirt : wrap64 (memVirt + o + i * PAGE_SIZE) = memVirt + (o + 4096 * i) := by
        rw [mul_page, wrap64_of_lt (by omega), Nat.add_assoc]
      obtain ⟨r, node2, hr, hl2, hnew2, hold2⟩ := mapPage_window hw hl1 hoff (by omega)
      refine ⟨r.state, ?_, node2, hl2, ?_, fun o' ho' => hold2 o' (hold1 o' ho')⟩
      · rw [hphys, hvirt, hr]
        rfl
      · intro j hj
        rcases Nat.lt_or_eq_of_le (Nat.lt_succ_iff.mp hj) with hlt' | rfl
        · exact hold2 _ (hnew1 j hlt')
        · exact hnew2)
  exact ⟨s', node', hrun, hl, hnew, hold⟩

/-! ## Writing the image -/

/-- The tables up to block `n`, and the entries `e` behind them. -/
def Tables.before (t : Tables) (n : Nat) (e : Nat → Nat → Nat) : Tables :=
  { t with entry := fun b i => if b < n then t.entry b i else e b i }

/-- Stores behind the page tables leave the trie alone. -/
theorem Maps.of_mem {cands : Finset (Nat × Nat)} (h : Maps R cands s node) (hcard : cands.card ≤ 50)
    {m : Mem} (hm : ∀ x < R.phys + 4096 * R.blocks, m x = s.mem x) :
    Maps R cands { s with mem := m } node := by
  obtain ⟨t, dom, hr, ht, hsub⟩ := h
  have hle := Finset.card_le_card hsub
  have hblocks := R.blocks_eq
  have hcount := ht.count
  have hfirst : R.firstBlock = 3 + R.numP1 + R.numP2 := rfl
  have heq : ∀ b i, b < R.blocks → i < 512 →
      m.read64 (R.block b + i * 8) = t.entry b i := by
    intro b i hb hi
    rw [← hr.entry b i hi]
    apply Mem.read64_congr
    intro j hj
    apply hm
    unfold Region.block
    omega
  -- beyond the tables the entries are whatever the memory now holds
  let e : Nat → Nat → Nat := fun b i => Mem.read64 m (R.block b + i * 8)
  have hkeep : ∀ b i, b < R.blocks → (t.before R.blocks e).entry b i = t.entry b i :=
    fun b i hb => if_pos hb
  refine ⟨t.before R.blocks e, dom, ⟨hr.phys, hr.virt, hr.size, hr.brk, hr.next, hr.root, ?_⟩,
    ⟨?_, ht.root, ?_, ht.parent, ht.block, ht.unshared, ht.page, ht.mem_dom, ht.count⟩, hsub⟩
  · intro b i hi
    by_cases hb : b < R.blocks
    · rw [hkeep b i hb]
      exact heq b i hb hi
    · exact (if_neg hb).symm
  · apply ht.fixed.of_eq
    intro b i hb _
    exact hkeep b i (by omega)
  · intro level k b i hs
    rw [hkeep b i _, ht.entry hs]
    rcases ht.slot_block hs with ⟨rfl, -⟩ | ⟨-, hlt⟩
    · omega
    · omega

/-- Linux's view of the offset `off` of the region. -/
theorem Rep.behind_virt {t : Tables} (h : Rep R t s) {off n : Nat} (hoff : off + n ≤ R.size) :
    s.behind (wrap64 (R.virt + off)) n = some (R.phys + off) := by
  have hsize := R.size_le
  have hback : sub64 (wrap64 (R.virt + off)) R.virt = off := by
    rw [Nat.add_comm]
    exact sub64_wrap64_add (by omega) R.virt_lt
  simp only [PageTables.behind, h.virt, h.size, h.phys, hback]
  exact if_pos hoff

/-- A store behind the page tables. -/
theorem Loaded.memset (h : Loaded R memVirt s node) {a n : Nat} (b : UInt8)
    (hge : 4096 * R.blocks ≤ a) (hle : a + n ≤ R.size) :
    s.memset (wrap64 (R.virt + a)) b n = some { s with mem := s.mem.fill (R.phys + a) n b } ∧
      Loaded R memVirt { s with mem := s.mem.fill (R.phys + a) n b } node := by
  obtain ⟨⟨t, dom, hr, ht, hsub⟩, hd⟩ := h
  rw [PageTables.memset, hr.behind_virt hle]
  refine ⟨rfl, Maps.of_mem ⟨t, dom, hr, ht, hsub⟩ (card_windowCands memVirt) ?_, hd⟩
  intro x hx
  exact Mem.fill_outside _ _ (by omega)

theorem Loaded.memcpy (h : Loaded R memVirt s node) {a : Nat} (bytes : List UInt8)
    (hge : 4096 * R.blocks ≤ a) (hle : a + bytes.length ≤ R.size) :
    s.memcpy (wrap64 (R.virt + a)) bytes = some { s with mem := s.mem.write (R.phys + a) bytes } ∧
      Loaded R memVirt { s with mem := s.mem.write (R.phys + a) bytes } node := by
  obtain ⟨⟨t, dom, hr, ht, hsub⟩, hd⟩ := h
  rw [PageTables.memcpy, hr.behind_virt hle]
  refine ⟨rfl, Maps.of_mem ⟨t, dom, hr, ht, hsub⟩ (card_windowCands memVirt) ?_, hd⟩
  intro x hx
  exact Mem.write_outside _ _ _ (by omega)

end Mapping

/-! ## `load_firmware` -/

/-- The statics that `init_memory` sets. -/
structure Statics (memVirt : Nat) (d : DriverState) : Prop where
  pageTableSize : d.pageTableSize = PAGE_TABLE_SIZE
  base : d.kernelBaseLinux = wrap64 (memVirt + PAGE_TABLE_SIZE)
  top : d.kernelStackTopLinux = wrap64 (memVirt + KERNEL_SIZE)

/-- An image that passes the checks of `load_firmware`. -/
def Firmware.Accepted (f : Firmware) : Prop :=
  f.signed = true ∧ f.size ≤ KERNEL_SIZE - KERNEL_STACK_SIZE - PAGE_TABLE_SIZE

/-- The offsets that `load_firmware` maps: the pages of the image, and the stack. -/
def Firmware.Covers (f : Firmware) (o : Nat) : Prop :=
  (PAGE_TABLE_SIZE ≤ o ∧ o < PAGE_TABLE_SIZE + ceilTo (KERNEL_OFFSET + f.size) 4096) ∨
    (KERNEL_SIZE - KERNEL_STACK_SIZE ≤ o ∧ o < KERNEL_SIZE)

section Load

variable {memVirt : Nat} {d : DriverState} {node : Nodes} {f : Firmware}

theorem At.of_page {o o' : Nat} (h : At memVirt node o) (heq : o / 4096 = o' / 4096) :
    At memVirt node o' := by
  unfold At at h ⊢
  rw [← heq]
  exact h

/-- The three stores of `load_firmware`, at the address `b`. -/
def Firmware.copied (f : Firmware) (m : Mem) (b : Nat) : Mem :=
  ((m.fill b KERNEL_OFFSET 0).write (b + KERNEL_OFFSET) (f.data.read 0 f.size)).fill
    (b + KERNEL_OFFSET + f.size) (KERNEL_SIZE - f.size - KERNEL_OFFSET) 0

/-- The stages of `load_firmware` behind its checks: the image is in place in `s3`, its
    pages are mapped in `s4`, and those of the stack in `s`. -/
structure Stages (memVirt : Nat) (hlt : memVirt < 2 ^ 64) (f : Firmware) (d : DriverState)
    (node : Nodes) (s3 s4 s : PageTables) (node4 node' : Nodes) : Prop where
  copied : s3.mem = f.copied d.tables.mem (MEM_START + PAGE_TABLE_SIZE)
  place : Loaded (reserved memVirt hlt) memVirt s3 node
  image : mapPages (MEM_START + PAGE_TABLE_SIZE) (memVirt + PAGE_TABLE_SIZE) ((f.size + 4447) / 4096) s3
    = some s4
  imageLoaded : Loaded (reserved memVirt hlt) memVirt s4 node4
  stack : mapPages (MEM_START + (KERNEL_SIZE - KERNEL_STACK_SIZE))
    (memVirt + (KERNEL_SIZE - KERNEL_STACK_SIZE)) 16 s4 = some s
  loaded : Loaded (reserved memVirt hlt) memVirt s node'
  covers : ∀ o, f.Covers o → At memVirt node' o
  keeps : ∀ o, At memVirt node o → At memVirt node' o

theorem placeFirmware_spec (hlt : memVirt < 2 ^ 64) (hw : KernelWindow memVirt)
    (hs : Statics memVirt d) (h : Loaded (reserved memVirt hlt) memVirt d.tables node)
    (hf : f.Accepted) :
    ∃ s3 s4 s node4 node', placeFirmware f d = some s ∧
      Stages memVirt hlt f d node s3 s4 s node4 node' := by
  have hsize : KERNEL_SIZE = 4194304 := by decide
  have hstack : KERNEL_STACK_SIZE = 65536 := by decide
  have hoffset : KERNEL_OFFSET = 352 := by decide
  have hpts : PAGE_TABLE_SIZE = 1269760 := by decide
  have hmem : MEM_START = 1073741824 := by decide
  have hblocks : (reserved memVirt hlt).blocks = 310 := rfl
  have hregion : (reserved memVirt hlt).size = 536870912 := rfl
  have hphys : (reserved memVirt hlt).phys = MEM_START := rfl
  have hpage : PAGE_SIZE = 4096 := by decide
  have hfit : f.size ≤ 2859008 := by
    have := hf.2
    omega
  have hroom := hw.lt (show 4194303 < KERNEL_SIZE by omega)
  have hbase : wrap64 (memVirt + PAGE_TABLE_SIZE) = memVirt + PAGE_TABLE_SIZE :=
    wrap64_of_lt (by omega)
  have hlen : (f.data.read 0 f.size).length = f.size := Mem.length_read ..
  -- the three stores lie behind the page tables
  obtain ⟨h1, l1⟩ := h.memset (a := PAGE_TABLE_SIZE) (n := KERNEL_OFFSET) 0 (by omega) (by omega)
  obtain ⟨h2, l2⟩ := l1.memcpy (a := PAGE_TABLE_SIZE + KERNEL_OFFSET) (f.data.read 0 f.size)
    (by omega) (by omega)
  have hrest : sub64 (sub64 KERNEL_SIZE f.size) KERNEL_OFFSET = KERNEL_SIZE - f.size - KERNEL_OFFSET := by
    have hinner : sub64 KERNEL_SIZE f.size = KERNEL_SIZE - f.size := sub64_of_le (by omega) (by omega)
    rw [hinner, sub64_of_le (by omega) (by omega)]
  obtain ⟨h3, l3⟩ := l2.memset (a := PAGE_TABLE_SIZE + KERNEL_OFFSET + f.size)
    (n := KERNEL_SIZE - f.size - KERNEL_OFFSET) 0 (by omega) (by omega)
  -- the image, then the stack
  have hcount : wrap64 (f.size + KERNEL_OFFSET + PAGE_SIZE - 1) / PAGE_SIZE
      = (f.size + 4447) / 4096 := by
    rw [wrap64_of_lt (by omega), hpage]
    omega
  obtain ⟨s4, node4, h4, l4, hnew4, hold4⟩ := mapPages_window hw l3 (o := PAGE_TABLE_SIZE)
    (n := (f.size + 4447) / 4096) (by omega) (by omega)
  obtain ⟨s5, node5, h5, l5, hnew5, hold5⟩ := mapPages_window hw l4
    (o := KERNEL_SIZE - KERNEL_STACK_SIZE) (n := 16) (by omega) (by omega)
  refine ⟨_, s4, s5, node4, node5, ?_,
    ⟨?_, l3, h4, l4, h5, l5, ?_, fun o ho => hold5 o (hold4 o ho)⟩⟩
  · have hv2 : wrap64 (memVirt + PAGE_TABLE_SIZE + KERNEL_OFFSET)
        = wrap64 (memVirt + (PAGE_TABLE_SIZE + KERNEL_OFFSET)) := by rw [Nat.add_assoc]
    have hv3 : wrap64 (memVirt + PAGE_TABLE_SIZE + KERNEL_OFFSET + f.size)
        = wrap64 (memVirt + (PAGE_TABLE_SIZE + KERNEL_OFFSET + f.size)) := by
      rw [Nat.add_assoc, Nat.add_assoc, Nat.add_assoc]
    have hv5 : sub64 (wrap64 (memVirt + KERNEL_SIZE)) KERNEL_STACK_SIZE
        = memVirt + (KERNEL_SIZE - KERNEL_STACK_SIZE) := by
      rw [hsize, hstack]
      simp only [sub64, wrap64]
      omega
    have hp4 : wrap64 (MEM_START + PAGE_TABLE_SIZE) = MEM_START + PAGE_TABLE_SIZE :=
      wrap64_of_lt (by omega)
    have hp5 : MEM_START + KERNEL_SIZE - KERNEL_STACK_SIZE
        = MEM_START + (KERNEL_SIZE - KERNEL_STACK_SIZE) := by omega
    have hn5 : KERNEL_STACK_SIZE / PAGE_SIZE = 16 := by decide
    have hvirt : (reserved memVirt hlt).virt = memVirt := rfl
    rw [hvirt] at h1 h2 h3
    unfold placeFirmware
    rw [hs.base, hs.pageTableSize, hs.top]
    dsimp only
    rw [h1, Option.bind_eq_bind, Option.bind_some, hbase, hv2, h2, Option.bind_some, hv3, hrest, h3,
      Option.bind_some, hp4, hcount, h4, Option.bind_some, hp5, hv5, hn5, h5]
  · rw [hphys]
    unfold Firmware.copied
    simp only [Nat.add_assoc]
  · rintro o (⟨hge, hlt'⟩ | ⟨hge, hlt'⟩)
    · apply hold5
      have hceil : ceilTo (KERNEL_OFFSET + f.size) 4096 = (f.size + 4447) / 4096 * 4096 := by
        unfold ceilTo
        rw [hoffset]
        omega
      rw [hceil] at hlt'
      exact (hnew4 ((o - PAGE_TABLE_SIZE) / 4096) (by omega)).of_page (by omega)
    · exact (hnew5 ((o - (KERNEL_SIZE - KERNEL_STACK_SIZE)) / 4096) (by omega)).of_page (by omega)

/-- The invariant between two calls of `load_firmware`: what the images of `fs`
    need is mapped. -/
structure Reloaded (memVirt : Nat) (hlt : memVirt < 2 ^ 64) (fs : Firmware → Prop)
    (d : DriverState) (node : Nodes) : Prop where
  statics : Statics memVirt d
  loaded : Loaded (reserved memVirt hlt) memVirt d.tables node
  covered : ∀ f, fs f → f.Accepted → ∀ o, f.Covers o → At memVirt node o

/-- The size check of `load_firmware` is the one of `Accepted`. -/
theorem size_limit (hs : Statics memVirt d) :
    sub64 (KERNEL_SIZE - KERNEL_STACK_SIZE) d.pageTableSize
      = KERNEL_SIZE - KERNEL_STACK_SIZE - PAGE_TABLE_SIZE := by
  rw [hs.pageTableSize]
  decide

theorem loadFirmware_step (hlt : memVirt < 2 ^ 64) (hw : KernelWindow memVirt)
    {fs : Firmware → Prop} (h : Reloaded memVirt hlt fs d node) (request : Except Int Firmware) :
    ∃ o node', loadFirmware request d = some o ∧
      Reloaded memVirt hlt (fun f => fs f ∨ request = .ok f) o.state node' := by
  cases request with
  | error err =>
    refine ⟨⟨err, d⟩, node, rfl, h.statics, h.loaded, ?_⟩
    rintro f (hf | hf)
    · exact h.covered f hf
    · cases hf
  | ok f =>
    -- an image that fails a check changes nothing but the log of resources
    have hreject : ¬ f.Accepted → Reloaded memVirt hlt
        (fun f' => fs f' ∨ (.ok f : Except Int Firmware) = .ok f')
        ((d.acquire .firmware).release .firmware) node := by
      intro hnot
      refine ⟨⟨h.statics.pageTableSize, h.statics.base, h.statics.top⟩, h.loaded, ?_⟩
      rintro f' (hf' | hf') hacc
      · exact h.covered f' hf' hacc
      · injection hf' with hf'
        subst hf'
        exact absurd hacc hnot
    have hstat : Statics memVirt (d.acquire .firmware) :=
      ⟨h.statics.pageTableSize, h.statics.base, h.statics.top⟩
    have hlimit := size_limit hstat
    unfold loadFirmware
    dsimp only
    rw [hlimit]
    by_cases hsigned : f.signed = false
    · rw [if_pos hsigned]
      refine ⟨_, node, rfl, hreject ?_⟩
      rintro ⟨hs, -⟩
      rw [hsigned] at hs
      cases hs
    · rw [if_neg hsigned]
      by_cases hsize : f.size > KERNEL_SIZE - KERNEL_STACK_SIZE - PAGE_TABLE_SIZE
      · rw [if_pos hsize]
        refine ⟨_, node, rfl, hreject ?_⟩
        rintro ⟨-, hle⟩
        exact absurd hle (Nat.not_le_of_gt hsize)
      · rw [if_neg hsize]
        have hacc : f.Accepted := ⟨by simpa using hsigned, Nat.le_of_not_gt hsize⟩
        obtain ⟨s3, s4, s, node4, node', hplace, hst⟩ :=
          placeFirmware_spec hlt hw hstat h.loaded hacc
        rw [hplace]
        refine ⟨_, node', rfl, ⟨h.statics.pageTableSize, h.statics.base, h.statics.top⟩, hst.loaded, ?_⟩
        rintro f' (hf' | hf') hacc' o ho
        · exact hst.keeps o (h.covered f' hf' hacc' o ho)
        · injection hf' with hf'
          subst hf'
          exact hst.covers o ho

theorem loadFirmwares_run (hlt : memVirt < 2 ^ 64) (hw : KernelWindow memVirt)
    {fs : Firmware → Prop} (h : Reloaded memVirt hlt fs d node)
    (requests : List (Except Int Firmware)) :
    ∃ d' node', loadFirmwares requests d = some d' ∧
      Reloaded memVirt hlt (fun f => fs f ∨ .ok f ∈ requests) d' node' := by
  induction requests generalizing d node fs with
  | nil =>
    refine ⟨d, node, rfl, h.statics, h.loaded, ?_⟩
    rintro f (hf | hf)
    · exact h.covered f hf
    · cases hf
  | cons request rest ih =>
    obtain ⟨o, node1, hstep, h1⟩ := loadFirmware_step hlt hw h request
    obtain ⟨d', node', hrun, h'⟩ := ih h1
    refine ⟨d', node', ?_, h'.statics, h'.loaded, ?_⟩
    · rw [loadFirmwares, hstep, Option.bind_some, hrun]
    · rintro f (hf | hf)
      · exact h'.covered f (Or.inl (Or.inl hf))
      · rcases List.mem_cons.mp hf with heq | hmem
        · exact h'.covered f (Or.inl (Or.inr heq.symm))
        · exact h'.covered f (Or.inr hmem)

end Load

/-! ## The two mappings -/

/-- The Linux calls of `init_memory` all succeed, with the window at `memVirt`. -/
structure MemoryCalls.Succeed (c : MemoryCalls) (memVirt : Nat) : Prop where
  symbol : c.symbol = true
  requestMemRegion : c.requestMemRegion = true
  getVmArea : c.getVmArea = some memVirt
  ioremapPageRange : c.ioremapPageRange = 0

section Init

variable {memVirt : Nat} {c : MemoryCalls}

theorem initPageTable_reserved (hlt : memVirt < 2 ^ 64) (memory : Mem) (d : DriverState) :
    ∃ s, initPageTable MEM_START memVirt MEM_SIZE memory = some s ∧
      Reloaded memVirt hlt (fun _ => False) (d.layOut memVirt s) (fun _ _ => none) := by
  obtain ⟨s, hs, t, hrep, hinit⟩ := initPageTable_spec (reserved memVirt hlt) memory
  have hbreak : s.pageTableBreak = MEM_START + PAGE_TABLE_SIZE := hrep.brk
  have hpts : sub64 s.pageTableBreak MEM_START = PAGE_TABLE_SIZE := by
    rw [hbreak]
    decide
  refine ⟨s, hs, ⟨hpts, ?_, rfl⟩, ⟨⟨t, ∅, hrep, hinit.trie, by simp⟩, ?_⟩, ?_⟩
  · unfold DriverState.layOut
    dsimp only
    rw [hpts]
  · intro k a ha
    cases ha
  · intro f hf
    exact absurd hf id

theorem initMemory_eq (hc : c.Succeed memVirt) {d : DriverState} {s : PageTables}
    (hs : initPageTable MEM_START memVirt MEM_SIZE c.memory = some s) :
    initMemory c d = some ⟨0, (DriverState.acquire { DriverState.acquire { d with memRes := true }
      .memRegion with memVirt := memVirt } .vmArea).layOut memVirt s⟩ := by
  unfold initMemory
  rw [if_neg (by rw [hc.symbol]; decide), if_neg (by rw [hc.requestMemRegion]; decide),
    hc.getVmArea, hc.ioremapPageRange]
  dsimp only
  rw [if_neg (by decide), hs]
  rfl

theorem initMemory_spec (hlt : memVirt < 2 ^ 64) (hc : c.Succeed memVirt) (d : DriverState) :
    ∃ d', initMemory c d = some ⟨0, d'⟩ ∧
      Reloaded memVirt hlt (fun _ => False) d' (fun _ _ => none) := by
  obtain ⟨s, hs, hr⟩ := initPageTable_reserved hlt c.memory
    (DriverState.acquire { DriverState.acquire { d with memRes := true } .memRegion with
      memVirt := memVirt } .vmArea)
  exact ⟨_, initMemory_eq hc hs, hr⟩

/-- What the invariant says about addresses. -/
theorem Reloaded.translate {d : DriverState} {node : Nodes} {fs : Firmware → Prop}
    {hlt : memVirt < 2 ^ 64} (hw : KernelWindow memVirt) (h : Reloaded memVirt hlt fs d node) :
    d.tables.nextBlockPhysAddr ≤ d.tables.pageTableBreak ∧
    (∀ va < MEM_SIZE, translate d.tables.mem d.tables.P4Base va = some ⟨MEM_START + va, true⟩) ∧
    ∀ o < KERNEL_SIZE, At memVirt node o →
      translate d.tables.mem d.tables.P4Base (memVirt + o) = some ⟨MEM_START + o, true⟩ := by
  obtain ⟨⟨t, dom, hr, ht, hsub⟩, hd⟩ := h.loaded
  have hcard : dom.card ≤ 50 := Nat.le_trans (Finset.card_le_card hsub) (card_windowCands memVirt)
  have hroot : d.tables.P4Base = (reserved memVirt hlt).block 0 := hr.root.trans ht.root
  have hmemsize : MEM_SIZE = 536870912 := by decide
  refine ⟨?_, ?_, ?_⟩
  · have hcount := ht.count
    have hblocks := (reserved memVirt hlt).blocks_eq
    have hfirst : (reserved memVirt hlt).firstBlock
      = 3 + (reserved memVirt hlt).numP1 + (reserved memVirt hlt).numP2 := rfl
    rw [hr.next, hr.brk]
    unfold Region.block
    omega
  · intro va hva
    have hpages : (reserved memVirt hlt).numP0 = 131072 := by
      have hsize : (reserved memVirt hlt).size = 536870912 := rfl
      unfold Region.numP0
      rw [hsize]
    rw [translate_of_canonical (canonical_iff.mpr (Or.inl (by omega))), hroot,
      ht.fixed.walk_low hr (by omega)]
    exact if_pos (by omega)
  · intro o ho hat
    cases hnode : node 0 (spanOf 0 memVirt + o / 4096) with
    | none => exact absurd hnode hat
    | some a =>
      obtain ⟨-, ha⟩ := hd _ _ hnode
      rw [← hw.page_add ho] at hnode
      rw [translate_of_canonical (hw.canonical o ho), hroot, ht.walk hr hcard hnode, ha]
      have hal := hw.aligned
      have hsum : MEM_START + 4096 * (spanOf 0 memVirt + o / 4096 - spanOf 0 memVirt)
          + (memVirt + o) % 4096 = MEM_START + o := by omega
      rw [hsum]

end Init

theorem Firmware.Covers.lt {f : Firmware} (hf : f.Accepted) {o : Nat} (h : f.Covers o) :
    o < KERNEL_SIZE := by
  have hsize : KERNEL_SIZE = 4194304 := by decide
  have hstack : KERNEL_STACK_SIZE = 65536 := by decide
  have hoffset : KERNEL_OFFSET = 352 := by decide
  have hpts : PAGE_TABLE_SIZE = 1269760 := by decide
  have hfit := hf.2
  rcases h with ⟨h1, h2⟩ | ⟨h1, h2⟩
  · have hceil := ceilTo_lt (KERNEL_OFFSET + f.size) (r := 4096) (by decide)
    omega
  · exact h2

/-- After `init_memory` and any `load_firmware` calls the reserve of blocks is not
    exhausted (`alloc_block` moves `next_block_phys_addr` on every call and fails
    exactly past the break), every offset that an accepted image or the stack
    covers is mapped at both addresses, and the low mapping is as it was. -/
theorem kernel_mapped_twice {memVirt : Nat} {c : MemoryCalls} (hw : KernelWindow memVirt)
    (hc : c.Succeed memVirt) (d0 : DriverState) (requests : List (Except Int Firmware)) :
    ∃ d d', initMemory c d0 = some ⟨0, d⟩ ∧ loadFirmwares requests d = some d' ∧
      d'.tables.nextBlockPhysAddr ≤ d'.tables.pageTableBreak ∧
      (∀ f, .ok f ∈ requests → f.Accepted → ∀ o, f.Covers o →
        translate d'.tables.mem d'.tables.P4Base (memVirt + o) = some ⟨MEM_START + o, true⟩ ∧
        translate d'.tables.mem d'.tables.P4Base o = some ⟨MEM_START + o, true⟩) ∧
      ∀ va < MEM_SIZE, translate d'.tables.mem d'.tables.P4Base va
        = translate d.tables.mem d.tables.P4Base va := by
  have hlt : memVirt < 2 ^ 64 := hw.lt (o := 0) (by decide)
  obtain ⟨d, hinit, hr⟩ := initMemory_spec hlt hc d0
  obtain ⟨d', node, hrun, hr'⟩ := loadFirmwares_run hlt hw hr requests
  obtain ⟨-, hlow, -⟩ := hr.translate hw
  obtain ⟨hnext, hlow', hhigh'⟩ := hr'.translate hw
  have hsize : KERNEL_SIZE < MEM_SIZE := by decide
  refine ⟨d, d', hinit, hrun, hnext, ?_, ?_⟩
  · intro f hf hacc o ho
    have hlt' := ho.lt hacc
    exact ⟨hhigh' o hlt' (hr'.covered f (Or.inr hf) hacc o ho), hlow' o (by omega)⟩
  · intro va hva
    rw [hlow' va hva, hlow va hva]

/-- A place in the vmalloc area, and an image of one page. -/
theorem kernelWindow_sample : KernelWindow 0xffffc90000000000 := by
  have hsize : KERNEL_SIZE = 4194304 := by decide
  refine ⟨by decide, ?_, ?_⟩
  · intro o ho
    exact canonical_iff.mpr (Or.inr (by omega))
  · intro o ho
    have h : index 3 (0xffffc90000000000 + o) = 402 := by
      unfold index
      rw [pageSize_three]
      omega
    rw [h]
    decide

def sampleFirmware : Firmware where
  size := 3000
  data := fun i => [0x4a, 0x50, 0x65, 0x6e, 0x67, 0x75, 0x69, 0x6e].getD i 0

theorem sampleFirmware_accepted : sampleFirmware.Accepted := ⟨by decide, by decide⟩

def sampleRequests : List (Except Int Firmware) :=
  [.ok sampleFirmware, .error (-2), .ok sampleFirmware]

theorem kernel_mapped_twice_sample :
    sampleFirmware.Accepted ∧ sampleFirmware.Covers 0x136800 ∧
    ∃ d d', initMemory ⟨true, true, some 0xffffc90000000000, 0, fun _ => 0xcc⟩
        (DriverState.fresh fun _ => 0) = some ⟨0, d⟩ ∧
      loadFirmwares sampleRequests d = some d' ∧
      d'.tables.nextBlockPhysAddr ≤ d'.tables.pageTableBreak ∧
      (∀ f, .ok f ∈ sampleRequests → f.Accepted → ∀ o, f.Covers o →
          translate d'.tables.mem d'.tables.P4Base (0xffffc90000000000 + o)
            = some ⟨MEM_START + o, true⟩ ∧
          translate d'.tables.mem d'.tables.P4Base o = some ⟨MEM_START + o, true⟩) ∧
      ∀ va < MEM_SIZE, translate d'.tables.mem d'.tables.P4Base va
        = translate d.tables.mem d.tables.P4Base va :=
  ⟨sampleFirmware_accepted, Or.inl (by decide),
    kernel_mapped_twice kernelWindow_sample ⟨rfl, rfl, rfl, rfl⟩ _ _⟩

end JudgePenguin.Driver
