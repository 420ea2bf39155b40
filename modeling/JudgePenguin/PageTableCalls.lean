/-
  JudgePenguin/PageTableCalls.lean
  ================================
  **One call of `map_page`, whatever was mapped before.**

  `map_page` walks down three tables and adds those that are missing.  Written as
  one loop (`descend`), a call either finds or adds all its tables, or meets the
  end of the blocks: then `alloc_block` returns `0`, nobody looks, and the entry
  names the table at physical address `0`, outside the window.  Which of the two
  it is can be told before the call (`Exhausts`).
-/
import JudgePenguin.PageTree

namespace JudgePenguin.Driver

open Words ArrayLoops Paging

/-! ## The way down -/

/-- `if (!(*P & PTE_P)) *P = …;` and `*P` read again, for entry `i` of the table that
    the entry `e` names. -/
def follow (e i : Nat) (s : PageTables) : Option (Nat × PageTables) :=
  (ensureTable (s.PTE e i) s).bind fun s' => (s'.load (s.PTE e i)).map fun e' => (e', s')

/-- The three lookups of `map_page` as a loop. -/
def descend : Nat → List Nat → PageTables → Option (Nat × PageTables)
  | e, [], s => some (e, s)
  | e, i :: is, s => (follow e i s).bind fun r => descend r.1 is r.2

theorem follow_bind {α : Type} (e i : Nat) (s : PageTables) (f : Nat → PageTables → Option α) :
    (ensureTable (s.PTE e i) s).bind (fun s' => (s'.load (s.PTE e i)).bind fun e' => f e' s') =
      (follow e i s).bind fun r => f r.1 r.2 := by
  rw [follow, Option.bind_assoc]
  refine congrArg _ (funext fun s' => ?_)
  rw [Option.bind_map]
  exact Eq.refl _

def tableIndices (virtAddr : Nat) : List Nat := [P4Index virtAddr, P3Index virtAddr, P2Index virtAddr]

theorem descend_cons_bind {α : Type} (e i : Nat) (is : List Nat) (s : PageTables)
    (f : Nat × PageTables → Option α) :
    (descend e (i :: is) s).bind f = (follow e i s).bind fun r => (descend r.1 is r.2).bind f :=
  Option.bind_assoc _ _ _

theorem descend_nil_bind {α : Type} (e : Nat) (s : PageTables) (f : Nat × PageTables → Option α) :
    (descend e [] s).bind f = f (e, s) := Option.bind_some _ _

/-- `map_page` is the loop, with the last step of `map_page` behind it. -/
theorem mapPage_eq (phys va : Nat) (s : PageTables) :
    mapPage phys va s = (descend s.P4Base (tableIndices va) s).bind fun r =>
      mapLeaf phys (r.2.PTE r.1 (P1Index va)) r.2 := by
  have h1 := fun e s => follow_bind e (P2Index va) s fun e' s' =>
    mapLeaf phys (s'.PTE e' (P1Index va)) s'
  have h2 := fun e s => follow_bind e (P3Index va) s fun e' s' =>
    (follow e' (P2Index va) s').bind fun r => mapLeaf phys (r.2.PTE r.1 (P1Index va)) r.2
  have h3 := follow_bind s.P4Base (P4Index va) s fun e' s' =>
    (follow e' (P3Index va) s').bind fun r3 => (follow r3.1 (P2Index va) r3.2).bind fun r =>
      mapLeaf phys (r.2.PTE r.1 (P1Index va)) r.2
  unfold mapPage
  simp only [Option.bind_eq_bind]
  simp only [h1]
  simp only [h2]
  rw [h3, tableIndices]
  simp only [descend_cons_bind, descend_nil_bind]

theorem descend_append (e : Nat) (is js : List Nat) (s : PageTables) :
    descend e (is ++ js) s = (descend e is s).bind fun r => descend r.1 js r.2 := by
  induction is generalizing e s with
  | nil => exact (descend_nil_bind e s fun r => descend r.1 js r.2).symm
  | cons i is ih => simp only [List.cons_append, descend, ih, Option.bind_assoc]

/-- The tables that the way down has to add. -/
def countMissing (s : PageTables) : Nat → List Nat → Option Nat
  | _, [] => some 0
  | e, i :: is => (s.load (s.PTE e i)).bind fun e' =>
    if e' &&& PTE_P = 0 then some (is.length + 1) else countMissing s e' is

def tablesNeeded (s : PageTables) (virtAddr : Nat) : Option Nat :=
  countMissing s s.P4Base (tableIndices virtAddr)

/-- Mapping `virtAddr` needs more blocks than remain below `page_table_break`. -/
def Exhausts (s : PageTables) (virtAddr : Nat) : Prop :=
  ∃ n, tablesNeeded s virtAddr = some n ∧ s.pageTableBreak < s.nextBlockPhysAddr + n * PAGE_SIZE

/-- The indices of the levels `level, …, 1`, as the walk takes them. -/
def pathFrom (va : Nat) : Nat → List Nat
  | 0 => []
  | level + 1 => index (level + 1) va :: pathFrom va level

theorem length_pathFrom (va level : Nat) : (pathFrom va level).length = level := by
  induction level with
  | zero => rfl
  | succ level ih => exact congrArg (· + 1) ih

theorem tableIndices_eq (va : Nat) : tableIndices va = pathFrom va 3 := by
  simp only [tableIndices, P4Index_eq, P3Index_eq, P2Index_eq, pathFrom]

/-! ## One step down -/

section Step

variable {R : Region} {t : Tables} {tab : Tab} {page : Nat → Nat} {s : PageTables}
variable {va level b f : Nat}

theorem odd_present {e : Nat} (he : e % 2 = 1) : ¬ e &&& PTE_P = 0 := by
  have hmod : e &&& PTE_P = e % 2 := Nat.and_one_is_mod e
  rw [hmod]
  omega

theorem zero_absent : (0 : Nat) &&& PTE_P = 0 := rfl

theorem flags_odd {a f : Nat} (ha : 4096 ∣ a) (hf : f = 0x63 ∨ f = 0x67) : (a + f) % 2 = 1 := by
  omega

theorem ensureTable_present (hr : Rep R t s) (hb : b < R.blocks) (hf : f < 4096) {i : Nat}
    (hi : i < 512) (hodd : t.entry b i % 2 = 1) :
    ensureTable (s.PTE (R.block b + f) i) s = some s := by
  rw [ensureTable, hr.load hb hi hf, Option.bind_eq_bind, Option.bind_some]
  exact if_neg (odd_present hodd)

/-- A block was left: the entry names it. -/
theorem ensureTable_absent (hr : Rep R t s) (hb : b < R.blocks) (hf : f < 4096) {i : Nat}
    (hi : i < 512) (hzero : t.entry b i = 0) (hroom : t.next < R.blocks) :
    ∃ s', ensureTable (s.PTE (R.block b + f) i) s = some s' ∧
      Rep R (t.alloc.set b i (R.block t.next + 0x63)) s' := by
  have hbnd := R.block_lt hroom
  obtain ⟨s1, h1, r1⟩ := hr.alloc hroom
  obtain ⟨s2, h2, r2⟩ := r1.store (v := R.block t.next + 0x63) hb hi hf (by omega)
  refine ⟨s2, ?_, r2⟩
  rw [ensureTable, hr.load hb hi hf, hzero, Option.bind_eq_bind, Option.bind_some,
    if_pos zero_absent, h1, Option.bind_eq_bind, Option.bind_some]
  dsimp only
  rw [mapped_eq (R.block_aligned _), ← hr.PTE_eq r1]
  exact h2

/-- No block was left: `alloc_block` returns `0` and moves on. -/
theorem Rep.alloc_none (h : Rep R t s) (hfull : t.next = R.blocks) :
    allocBlock s = some ⟨0, { s with nextBlockPhysAddr := R.block (t.next + 1) }⟩ := by
  have htop := R.top
  have hroom := R.room
  have hsum : s.nextBlockPhysAddr + PAGE_SIZE = R.block (t.next + 1) := by
    rw [h.next]
    unfold Region.block PAGE_SIZE
    omega
  have hlt : R.block (t.next + 1) < 2 ^ 64 := by
    unfold Region.block
    omega
  have hbreak : R.block (t.next + 1) > s.pageTableBreak := by
    rw [h.brk]
    unfold Region.block
    omega
  simp only [allocBlock]
  rw [hsum, wrap64_of_lt hlt, if_pos hbreak]

/-- The entry then names the table at physical address `0`. -/
theorem ensureTable_exhausted (hr : Rep R t s) (hb : b < R.blocks) (hf : f < 4096) {i : Nat}
    (hi : i < 512) (hzero : t.entry b i = 0) (hfull : t.next = R.blocks) :
    ∃ s', ensureTable (s.PTE (R.block b + f) i) s = some s' ∧
      s'.load (s.PTE (R.block b + f) i) = some 0x63 ∧
      s'.physBaseAddr = R.phys ∧ s'.virtBaseAddr = R.virt ∧ s'.totalSize = R.size := by
  have halloc := hr.alloc_none hfull
  -- the state that `alloc_block` leaves differs from `s` in its counter only
  have hbehind : ∀ v n, PageTables.behind { s with nextBlockPhysAddr := R.block (t.next + 1) } v n
      = s.behind v n := fun _ _ => rfl
  have hwin := hr.behind_pte hb hi hf
  have hload := hr.load hb hi hf
  rw [hzero] at hload
  obtain ⟨s', hs'⟩ : ∃ s', s' = { s with
      nextBlockPhysAddr := R.block (t.next + 1),
      mem := s.mem.write64 (R.block b + i * 8) 0x63 } := ⟨_, rfl⟩
  have hstore : PageTables.store { s with nextBlockPhysAddr := R.block (t.next + 1) }
      (s.PTE (R.block b + f) i) (mapped 0) = some s' := by
    have hzero63 : mapped 0 = 0x63 := by decide
    rw [PageTables.store, hbehind, hwin, hzero63, hs']
    exact Option.map_some _ _
  have hwin' : s'.behind (s.PTE (R.block b + f) i) 8 = some (R.block b + i * 8) := by
    rw [← hwin, hs']
    exact Eq.refl _
  refine ⟨s', ?_, ?_, ?_, ?_, ?_⟩
  · rw [ensureTable, hload, Option.bind_eq_bind, Option.bind_some, if_pos zero_absent, halloc,
      Option.bind_eq_bind, Option.bind_some]
    exact hstore
  · rw [PageTables.load, hwin', Option.map_some, hs']
    exact congrArg some (Mem.read64_write64_self _ _ (by decide))
  · rw [hs']
    exact hr.phys
  · rw [hs']
    exact hr.virt
  · rw [hs']
    exact hr.size

/-- Every entry of the table at physical address `0` is outside the window. -/
theorem load_null (hphys : 0 < R.phys) (h1 : s.physBaseAddr = R.phys) (h2 : s.virtBaseAddr = R.virt)
    (h3 : s.totalSize = R.size) {i : Nat} (hi : i < 512) : s.load (s.PTE 0x63 i) = none := by
  have hal := R.aligned
  have htop := R.top
  have hclear : (0x63 &&& (2 ^ 64 - 1 - 0xfff)) ||| i * 8 = i * 8 := by
    have hzero : 0x63 &&& (2 ^ 64 - 1 - 0xfff) = 0 := by decide
    rw [hzero, Nat.zero_or]
  have hoff : sub64 (i * 8) R.phys = 2 ^ 64 - R.phys + i * 8 := by
    simp only [sub64, wrap64]
    omega
  have hlt : sub64 (i * 8) R.phys < 2 ^ 64 := by omega
  unfold PageTables.load PageTables.PTE PageTables.physToVirt PageTables.behind
  rw [hclear, h1, h2, h3, sub64_wrap64_add hlt R.virt_lt, if_neg (by omega)]
  rfl

end Step

/-! ## The whole way -/

/-- The tables below level `level` that are missing on the way to `va`. -/
def missing (tab : Tab) (va : Nat) : Nat → Nat
  | 0 => 0
  | level + 1 => missing tab va level + if tab level (spanOf (level + 1) va) = none then 1 else 0

section Way

variable {R : Region} {t : Tables} {tab : Tab} {page : Nat → Nat} {s : PageTables}
variable {va level b f : Nat}

theorem missing_of_some {c : Nat} (h : tab level (spanOf (level + 1) va) = some c) :
    missing tab va (level + 1) = missing tab va level := by
  rw [missing, h, if_neg (Option.some_ne_none c), Nat.add_zero]

theorem missing_of_none (h : tab level (spanOf (level + 1) va) = none) :
    missing tab va (level + 1) = missing tab va level + 1 := by
  rw [missing, if_pos h]

theorem missing_link {l k c : Nat} (h : level ≤ l) :
    missing (tab.link l k c) va level = missing tab va level := by
  induction level with
  | zero => rfl
  | succ level ih => rw [missing, missing, ih (by omega), Tab.link_ne (by omega)]

/-- Where a table is missing, all below it are. -/
theorem Tree.missing_all (h : Tree R t tab page) (hl : level < 3)
    (hnone : tab level (spanOf (level + 1) va) = none) :
    missing tab va (level + 1) = level + 1 := by
  induction level with
  | zero => exact missing_of_none hnone
  | succ level ih =>
    rw [missing_of_none hnone, ih (by omega) (h.below_absent (by omega) hnone)]

/-- What `tablesNeeded` counts. -/
theorem Tree.countMissing_eq (hr : Rep R t s) (h : Tree R t tab page) (hva : index 3 va < 510)
    (hl : level ≤ 3) (hb : tab level (spanOf (level + 1) va) = some b) (hf : f < 4096) :
    countMissing s (R.block b + f) (pathFrom va level) = some (missing tab va level) := by
  induction level generalizing b f with
  | zero => rfl
  | succ level ih =>
    have hbl : b < R.blocks := h.block_lt hl hb
    have hnames := h.on_path hl hb hva
    rw [pathFrom, countMissing, hr.load hbl (index_lt _ va) hf, Option.bind_some]
    cases hcase : tab level (spanOf (level + 1) va) with
    | none =>
      rw [hnames.of_none hcase, if_pos zero_absent, h.missing_all hl hcase, length_pathFrom]
    | some c =>
      obtain ⟨g, he, hg⟩ := hnames.some_iff hcase
      rw [he, if_neg (odd_present (flags_odd (R.block_aligned c) hg)), missing_of_some hcase]
      exact ih (by omega) hcase (by omega)

/-- **The way down** either comes to the last table, which is there now, or meets an
    entry that names the table at physical address `0`. -/
theorem Tree.descend_spec (hphys : 0 < R.phys) (hr : Rep R t s) (h : Tree R t tab page)
    (hva : index 3 va < 510) (hl : level ≤ 3) (hb : tab level (spanOf (level + 1) va) = some b)
    (hf : f < 4096) :
    (∃ s' t' tab' c g, descend (R.block b + f) (pathFrom va level) s = some (R.block c + g, s') ∧
      g < 4096 ∧ Rep R t' s' ∧ Tree R t' tab' page ∧ tab' 0 (spanOf 1 va) = some c ∧
      t'.next = t.next + missing tab va level ∧ (missing tab va level = 0 → s' = s) ∧
      ∀ l j, j ≠ spanOf (l + 1) va → tab' l j = tab l j) ∨
    (R.blocks < t.next + missing tab va level ∧ ∃ n s', n ≤ level ∧
      descend (R.block b + f) ((pathFrom va level).take n) s = some (0x63, s') ∧
      ∀ i < 512, s'.load (s'.PTE 0x63 i) = none) := by
  induction level generalizing t tab s b f with
  | zero =>
    exact .inl ⟨s, t, tab, b, f, rfl, hf, hr, h, hb, rfl, fun _ => rfl, fun _ _ _ => rfl⟩
  | succ level ih =>
    have hbl : b < R.blocks := h.block_lt hl hb
    have hi := index_lt (level + 1) va
    have hnames := h.on_path hl hb hva
    have hnextle := h.next_le
    cases hcase : tab level (spanOf (level + 1) va) with
    | some c =>
      obtain ⟨g, he, hg⟩ := hnames.some_iff hcase
      have hload := hr.load hbl hi hf
      have hens := ensureTable_present hr hbl hf hi (by
        rw [he]
        exact flags_odd (R.block_aligned c) hg)
      have hstep : follow (R.block b + f) (index (level + 1) va) s = some (R.block c + g, s) := by
        rw [follow, hens, Option.bind_some, hload, Option.map_some, he]
      rw [missing_of_some hcase]
      rcases ih hr h (by omega) hcase (f := g) (by omega) with
        ⟨s', t', tab', d, g', hd, hrest⟩ | ⟨hfull, n, s', hn, hd, hlost⟩
      · refine .inl ⟨s', t', tab', d, g', ?_, hrest⟩
        rw [pathFrom, descend, hstep, Option.bind_some]
        exact hd
      · refine .inr ⟨hfull, n + 1, s', by omega, ?_, hlost⟩
        rw [pathFrom, List.take_succ_cons, descend, hstep, Option.bind_some]
        exact hd
    | none =>
      have hzero := hnames.of_none hcase
      rw [missing_of_none hcase]
      by_cases hroom : t.next < R.blocks
      · obtain ⟨s1, h1, r1⟩ := ensureTable_absent hr hbl hf hi hzero hroom
        have hdiv : spanOf (level + 1) va / 512 = spanOf (level + 2) va := spanOf_up va hl
        have hmod : spanOf (level + 1) va % 512 = index (level + 1) va := spanOf_mod va hl
        have htop : level = 2 → spanOf (level + 1) va < 510 := by
          rintro rfl
          rw [spanOf_top]
          exact hva
        have hgrow := h.grow hl (by rw [hdiv]; exact hb) htop hcase hroom
        rw [hmod] at hgrow
        have hload : s1.load (s.PTE (R.block b + f) (index (level + 1) va))
            = some (R.block t.next + 0x63) := by
          rw [← hr.PTE_eq r1, r1.load hbl hi hf, Tables.set_entry_self]
        have hstep : follow (R.block b + f) (index (level + 1) va) s
            = some (R.block t.next + 0x63, s1) := by
          rw [follow, h1, Option.bind_some, hload, Option.map_some]
        have hmiss : missing (tab.link level (spanOf (level + 1) va) t.next) va level
            = missing tab va level := missing_link (Nat.le_refl level)
        rcases ih r1 hgrow (by omega) (Tab.link_self ..) (f := 0x63) (by decide) with
          ⟨s', t', tab', d, g', hd, hg', hr', ht', hd', hnext, -, hold⟩ | ⟨hfull, n, s', hn, hd, hlost⟩
        · refine .inl ⟨s', t', tab', d, g', ?_, hg', hr', ht', hd', ?_, fun hcon => by omega, ?_⟩
          · rw [pathFrom, descend, hstep, Option.bind_some]
            exact hd
          · rw [hnext, hmiss, Tables.set_next, Tables.alloc_next]
            omega
          · intro l j hj
            rw [hold l j hj]
            apply Tab.link_ne
            rintro ⟨rfl, rfl⟩
            exact hj rfl
        · rw [hmiss, Tables.set_next, Tables.alloc_next] at hfull
          refine .inr ⟨by omega, n + 1, s', by omega, ?_, hlost⟩
          rw [pathFrom, List.take_succ_cons, descend, hstep, Option.bind_some]
          exact hd
      · obtain ⟨s1, h1, hload, e1, e2, e3⟩ := ensureTable_exhausted hr hbl hf hi hzero (by omega)
        refine .inr ⟨by omega, 1, s1, by omega, ?_, fun i hi => load_null hphys e1 e2 e3 hi⟩
        rw [pathFrom, List.take_succ_cons, List.take_zero, descend, follow, h1, Option.bind_some,
          hload, Option.map_some, Option.bind_some]
        rfl

/-! ## One call -/

theorem mapped_odd (p : Nat) : mapped p % 2 = 1 := by
  have hflag : (p ||| PTE_P ||| PTE_W ||| PTE_D ||| PTE_A).testBit 0 = true := by
    simp only [Nat.testBit_or]
    have hbit : PTE_P.testBit 0 = true := by decide
    rw [hbit, Bool.or_true, Bool.true_or, Bool.true_or, Bool.true_or]
  rw [Nat.testBit_zero] at hflag
  exact decide_eq_true_iff.mp hflag

theorem mapped_lt {p : Nat} (hp : p < 2 ^ 64) : mapped p < 2 ^ 64 := by
  unfold mapped
  refine Nat.or_lt_two_pow (Nat.or_lt_two_pow (Nat.or_lt_two_pow (Nat.or_lt_two_pow hp ?_) ?_) ?_) ?_
  · decide
  · decide
  · decide
  · decide

/-- The last step of `map_page` enters the page, or leaves everything as it is. -/
theorem Tree.mapLeaf_spec (hr : Rep R t s) (h : Tree R t tab page)
    (hb : tab 0 (spanOf 1 va) = some b) (hf : f < 4096) {p : Nat} (hp : p < 2 ^ 64) :
    (page (spanOf 0 va) ≠ 0 ∧ mapLeaf p (s.PTE (R.block b + f) (index 0 va)) s = some ⟨-1, s⟩) ∨
    (page (spanOf 0 va) = 0 ∧ ∃ s' t',
      mapLeaf p (s.PTE (R.block b + f) (index 0 va)) s = some ⟨0, s'⟩ ∧ Rep R t' s' ∧ t'.next = t.next ∧
        Tree R t' tab (putPage page (spanOf 0 va) (mapped p))) := by
  have hbl : b < R.blocks := h.block_lt (by omega) hb
  have hi := index_lt 0 va
  have hdiv : spanOf 0 va / 512 = spanOf 1 va := spanOf_div va (by decide)
  have hmod : spanOf 0 va % 512 = index 0 va := spanOf_mod va (by decide)
  have hleaf := h.leaf (spanOf 0 va) b (by rw [hdiv]; exact hb)
  rw [hmod] at hleaf
  have hload := hr.load hbl hi hf
  rcases h.present (spanOf 0 va) with hzero | hodd
  · obtain ⟨s1, h1, r1⟩ := hr.store (v := mapped p) hbl hi hf (mapped_lt hp)
    refine .inr ⟨hzero, s1, _, ?_, r1, rfl, ?_⟩
    · rw [mapLeaf, hload, hleaf, hzero, Option.bind_eq_bind, Option.bind_some, if_pos zero_absent,
        h1]
      rfl
    · rw [← hmod]
      exact h.setPage (by rw [hdiv]; exact hb) (mapped_odd p)
  · refine .inl ⟨by omega, ?_⟩
    rw [mapLeaf, hload, hleaf, Option.bind_eq_bind, Option.bind_some, if_neg (odd_present hodd)]
    rfl

theorem mem_pathFrom {i : Nat} (h : i ∈ pathFrom va level) : i < 512 := by
  induction level with
  | zero => cases h
  | succ level ih =>
    rcases List.mem_cons.mp h with rfl | h
    · exact index_lt _ va
    · exact ih h

/-- From the table at physical address `0` there is no way on. -/
theorem descend_lost (hlost : ∀ i < 512, s.load (s.PTE 0x63 i) = none) {is : List Nat}
    (his : ∀ i ∈ is, i < 512) {i0 : Nat} (hi0 : i0 < 512) (p : Nat) :
    ((descend 0x63 is s).bind fun r => mapLeaf p (r.2.PTE r.1 i0) r.2) = none := by
  cases is with
  | nil =>
    rw [descend_nil_bind, mapLeaf, hlost i0 hi0]
    exact Option.bind_none _
  | cons i is =>
    have hi := his i (List.mem_cons_self ..)
    have hens : ensureTable (s.PTE 0x63 i) s = none := by
      rw [ensureTable, hlost i hi]
      exact Option.bind_none _
    rw [descend_cons_bind, follow, hens, Option.bind_none, Option.bind_none]

/-- A page that is there has all its tables. -/
theorem Tree.missing_zero (h : Tree R t tab page) (hpage : page (spanOf 0 va) ≠ 0) (hl : level ≤ 3) :
    missing tab va level = 0 := by
  induction level with
  | zero => rfl
  | succ level ih =>
    cases hcase : tab level (spanOf (level + 1) va) with
    | none => exact absurd (h.page_absent hl hcase) hpage
    | some c => rw [missing_of_some hcase, ih (by omega)]

/-- What a call of `map_page` does that has blocks enough. -/
structure Served (R : Region) (t : Tables) (tab : Tab) (page : Nat → Nat) (s : PageTables)
    (p va : Nat) (r : MapResult) : Prop where
  tree : ∃ t' tab' page', Rep R t' r.state ∧ Tree R t' tab' page' ∧
    t'.next = t.next + missing tab va 3 ∧ (∀ l j, j ≠ spanOf (l + 1) va → tab' l j = tab l j) ∧
    (page (spanOf 0 va) = 0 → page' = putPage page (spanOf 0 va) (mapped p)) ∧
    (page (spanOf 0 va) ≠ 0 → page' = page)
  added : page (spanOf 0 va) = 0 → r.ret = 0
  kept : page (spanOf 0 va) ≠ 0 → r.ret = -1 ∧ r.state = s

theorem Tree.root_entry (hr : Rep R t s) (h : Tree R t tab page) : s.P4Base = R.block 0 + 0 := by
  rw [hr.root, h.root]
  rfl

theorem Tree.tablesNeeded_eq (hr : Rep R t s) (h : Tree R t tab page) (hva : index 3 va < 510) :
    tablesNeeded s va = some (missing tab va 3) := by
  have hroot : tab 3 (spanOf 4 va) = some 0 := by
    rw [spanOf_root]
    exact h.top
  rw [tablesNeeded, tableIndices_eq, h.root_entry hr]
  exact h.countMissing_eq hr hva (Nat.le_refl 3) hroot (by decide)

theorem Tree.exhausts_iff (hr : Rep R t s) (h : Tree R t tab page) (hva : index 3 va < 510) :
    Exhausts s va ↔ R.blocks < t.next + missing tab va 3 := by
  have hcount := h.tablesNeeded_eq hr hva
  have hsize : PAGE_SIZE = 4096 := by decide
  have hblock : R.block t.next = R.phys + 4096 * t.next := rfl
  unfold Exhausts
  rw [hr.brk, hr.next, hblock, hsize]
  constructor
  · rintro ⟨n, hn, hlt⟩
    rw [hcount] at hn
    cases hn
    omega
  · intro hlt
    exact ⟨_, hcount, by omega⟩

/-- **One call of `map_page`.** -/
theorem Tree.mapPage_spec (hphys : 0 < R.phys) (hr : Rep R t s) (h : Tree R t tab page)
    (hva : index 3 va < 510) {p : Nat} (hp : p < 2 ^ 64) :
    (¬ Exhausts s va ∧ ∃ r, mapPage p va s = some r ∧ Served R t tab page s p va r) ∨
    (Exhausts s va ∧ mapPage p va s = none ∧
      ∃ n s', descend s.P4Base ((tableIndices va).take n) s = some (0x63, s')) := by
  have hroot : tab 3 (spanOf 4 va) = some 0 := by
    rw [spanOf_root]
    exact h.top
  have heq := mapPage_eq p va s
  rw [tableIndices_eq, P1Index_eq, h.root_entry hr] at heq
  rw [h.exhausts_iff hr hva, tableIndices_eq, h.root_entry hr, heq]
  rcases h.descend_spec hphys hr hva (Nat.le_refl 3) hroot (f := 0) (by decide) with
    ⟨s', t', tab', c, g, hd, hg, hr', ht', hc, hnext, hsame, hold⟩ | ⟨hfull, n, s', hn, hd, hlost⟩
  · left
    have hle := ht'.next_le
    refine ⟨by omega, ?_⟩
    rw [hd, Option.bind_some]
    rcases ht'.mapLeaf_spec hr' hc hg hp with ⟨hpage, hleaf⟩ | ⟨hpage, s'', t'', hleaf, hr'', hn'', ht''⟩
    · have hkeep : s' = s := hsame (h.missing_zero hpage (Nat.le_refl 3))
      refine ⟨⟨-1, s'⟩, hleaf, ?_⟩
      constructor
      · exact ⟨t', tab', page, hr', ht', hnext, hold, fun hcon => absurd hcon hpage, fun _ => rfl⟩
      · exact fun hcon => absurd hcon hpage
      · exact fun _ => ⟨rfl, hkeep⟩
    · refine ⟨⟨0, s''⟩, hleaf, ?_⟩
      constructor
      · exact ⟨t'', tab', _, hr'', ht'', hn''.trans hnext, hold, fun _ => rfl,
          fun hcon => absurd hpage hcon⟩
      · exact fun _ => rfl
      · exact fun hcon => absurd hpage hcon
  · right
    refine ⟨hfull, ?_, n, s', hd⟩
    have hrest : ∀ i ∈ (pathFrom va 3).drop n, i < 512 :=
      fun i hi => mem_pathFrom (List.mem_of_mem_drop hi)
    have hsplit : descend (R.block 0 + 0) (pathFrom va 3) s
        = descend 0x63 ((pathFrom va 3).drop n) s' := by
      have happ := descend_append (R.block 0 + 0) ((pathFrom va 3).take n) ((pathFrom va 3).drop n) s
      rw [List.take_append_drop, hd, Option.bind_some] at happ
      exact happ
    rw [hsplit]
    exact descend_lost hlost hrest (index_lt 0 va) p

end Way

end JudgePenguin.Driver
