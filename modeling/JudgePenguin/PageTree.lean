/-
  JudgePenguin/PageTree.lean
  ==========================
  **The tables as one tree, under any calls of `map_page`.**

  `PageTableMap` follows the pages that `load_firmware` adds.  Here the whole tree
  below entries `0 .. 509` of the top table is described, whatever was mapped:
  `tab level k` is the block of the table that holds the entries of level `level`
  in the `k`-th span of `pageSize (level + 1)` bytes, and `page k` is the entry of
  the `k`-th page, zero if there is none.  `Tree` says that the tables store exactly
  this, and that no block is used twice.  `map_page` adds at most three tables
  (`Tree.grow`) and sets at most one page (`Tree.setPage`).
-/
import JudgePenguin.PageTableMap

namespace JudgePenguin.Driver

open Words ArrayLoops Paging

/-! ## Trees -/

abbrev Tab := Nat → Nat → Option Nat

def Tab.link (tab : Tab) (level k b : Nat) : Tab :=
  fun l j => if l = level ∧ j = k then some b else tab l j

@[simp] theorem Tab.link_self (tab : Tab) (level k b : Nat) : tab.link level k b level k = some b := by
  simp [Tab.link]

theorem Tab.link_ne {tab : Tab} {level k b l j : Nat} (h : ¬ (l = level ∧ j = k)) :
    tab.link level k b l j = tab l j := if_neg h

/-- A table that was there is still there. -/
theorem Tab.link_some {tab : Tab} {level k b l j c : Nat} (hnone : tab level k = none)
    (h : tab l j = some c) : tab.link level k b l j = some c := by
  rw [Tab.link_ne]
  · exact h
  · rintro ⟨rfl, rfl⟩
    rw [hnone] at h
    cases h

/-- An entry that names a table, or the empty one. -/
def Names (R : Region) (child : Option Nat) (e : Nat) : Prop :=
  (child = none ∧ e = 0) ∨ ∃ c f, child = some c ∧ e = R.block c + f ∧ (f = 0x63 ∨ f = 0x67)

/-- The tables `t` of `R` are the tree `tab` with the pages `page`. -/
structure Tree (R : Region) (t : Tables) (tab : Tab) (page : Nat → Nat) : Prop where
  root : t.root = R.block 0
  top : tab 3 0 = some 0
  topOnly : ∀ k b, tab 3 k = some b → k = 0
  child : ∀ level j b, level < 3 → tab (level + 1) (j / 512) = some b → (level = 2 → j < 510) →
    Names R (tab level j) (t.entry b (j % 512))
  leaf : ∀ j b, tab 0 (j / 512) = some b → t.entry b (j % 512) = page j
  noPage : ∀ j, tab 0 (j / 512) = none → page j = 0
  present : ∀ j, page j = 0 ∨ page j % 2 = 1
  parent : ∀ level j b, level < 3 → tab level j = some b →
    (∃ c, tab (level + 1) (j / 512) = some c) ∧ (level = 2 → j < 510)
  bound : ∀ level j b, level ≤ 3 → tab level j = some b → b < t.next ∧ b ≠ 1
  unshared : ∀ level j level' j' b, level ≤ 3 → level' ≤ 3 → tab level j = some b →
    tab level' j' = some b → level = level' ∧ j = j'
  back : t.entry 0 511 = R.block 0 + 0x63
  upper : t.entry 0 510 = R.block 1 + 0x63
  gib : ∀ i < 512, t.entry 1 i = 1073741824 * i + 0xe3
  two_le : 2 ≤ t.next
  next_le : t.next ≤ R.blocks

/-- The tables that `init_page_table` builds. -/
def initTab (R : Region) (level k : Nat) : Option Nat :=
  if level = 3 then (if k = 0 then some 0 else none)
  else if level = 2 then (if k = 0 then some 2 else none)
  else if level = 1 then (if k < R.numP2 then some (P2Block k) else none)
  else if level = 0 then (if k < R.numP1 then some (P1Block (k / 512) (k % 512)) else none)
  else none

section Trees

variable {R : Region} {t : Tables} {tab : Tab} {page : Nat → Nat}

theorem initTab_three (R : Region) (k : Nat) : initTab R 3 k = if k = 0 then some 0 else none :=
  if_pos rfl

theorem initTab_two (R : Region) (k : Nat) : initTab R 2 k = if k = 0 then some 2 else none := by
  unfold initTab
  rw [if_neg (by decide), if_pos rfl]

theorem initTab_one (R : Region) (q : Nat) :
    initTab R 1 q = if q < R.numP2 then some (P2Block q) else none := by
  unfold initTab
  rw [if_neg (by decide), if_neg (by decide), if_pos rfl]

theorem initTab_zero (R : Region) (p : Nat) :
    initTab R 0 p = if p < R.numP1 then some (P1Block (p / 512) (p % 512)) else none := by
  unfold initTab
  rw [if_neg (by decide), if_neg (by decide), if_neg (by decide), if_pos rfl]

theorem ite_some_eq {α : Type} {p : Prop} [Decidable p] {a b : α}
    (h : (if p then some a else none) = some b) : p ∧ b = a := by
  by_cases hp : p
  · rw [if_pos hp] at h
    exact ⟨hp, (Option.some.inj h).symm⟩
  · rw [if_neg hp] at h
    cases h

theorem initTab_top {k b : Nat} (h : initTab R 3 k = some b) : k = 0 ∧ b = 0 :=
  ite_some_eq ((initTab_three R k).symm.trans h)

theorem initTab_low {k b : Nat} (h : initTab R 2 k = some b) : k = 0 ∧ b = 2 :=
  ite_some_eq ((initTab_two R k).symm.trans h)

theorem initTab_P2 {q b : Nat} (h : initTab R 1 q = some b) : q < R.numP2 ∧ b = P2Block q :=
  ite_some_eq ((initTab_one R q).symm.trans h)

theorem initTab_P1 {p b : Nat} (h : initTab R 0 p = some b) :
    p < R.numP1 ∧ b = P1Block (p / 512) (p % 512) :=
  ite_some_eq ((initTab_zero R p).symm.trans h)

/-- The block of an initial table says which one it is. -/
theorem initTab_cases {level j b : Nat} (hl : level ≤ 3) (h : initTab R level j = some b) :
    (level = 3 ∧ j = 0 ∧ b = 0) ∨ (level = 2 ∧ j = 0 ∧ b = 2) ∨
      (level = 1 ∧ j < R.numP2 ∧ b = 3 + 513 * j) ∨
      (level = 0 ∧ j < R.numP1 ∧ b = 4 + 513 * (j / 512) + j % 512) := by
  have hlevel : level = 0 ∨ level = 1 ∨ level = 2 ∨ level = 3 := by omega
  rcases hlevel with rfl | rfl | rfl | rfl
  · obtain ⟨hp, rfl⟩ := initTab_P1 h
    exact .inr (.inr (.inr ⟨rfl, hp, rfl⟩))
  · obtain ⟨hq, rfl⟩ := initTab_P2 h
    exact .inr (.inr (.inl ⟨rfl, hq, rfl⟩))
  · obtain ⟨rfl, rfl⟩ := initTab_low h
    exact .inr (.inl ⟨rfl, rfl, rfl⟩)
  · obtain ⟨rfl, rfl⟩ := initTab_top h
    exact .inl ⟨rfl, rfl, rfl⟩

theorem initTab_child (h : Initial R t) {level j b : Nat} (hl : level < 3)
    (hb : initTab R (level + 1) (j / 512) = some b) (hj : level = 2 → j < 510) :
    Names R (initTab R level j) (t.entry b (j % 512)) := by
  have hi : j % 512 < 512 := Nat.mod_lt _ (by decide)
  have hlevel : level = 0 ∨ level = 1 ∨ level = 2 := by omega
  rcases hlevel with rfl | rfl | rfl
  · obtain ⟨hq, rfl⟩ := initTab_P2 hb
    have hsplit : 512 * (j / 512) + j % 512 = j := Nat.div_add_mod j 512
    have he := h.fixed.P2 _ hq _ hi
    rw [hsplit] at he
    by_cases hp : j < R.numP1
    · rw [if_pos hp] at he
      exact .inr ⟨_, 0x63, (initTab_zero R j).trans (if_pos hp), he, .inl rfl⟩
    · rw [if_neg hp] at he
      exact .inl ⟨(initTab_zero R j).trans (if_neg hp), he⟩
  · obtain ⟨hzero, rfl⟩ := initTab_low hb
    have hsmall : j % 512 = j := Nat.mod_eq_of_lt (by omega)
    have he := h.fixed.P3 _ hi
    rw [hsmall] at he ⊢
    by_cases hq : j < R.numP2
    · rw [if_pos hq] at he
      exact .inr ⟨_, 0x67, (initTab_one R j).trans (if_pos hq), he, .inr rfl⟩
    · rw [if_neg hq] at he
      exact .inl ⟨(initTab_one R j).trans (if_neg hq), he⟩
  · obtain ⟨hzero, rfl⟩ := initTab_top hb
    have hlt := hj rfl
    rw [Nat.mod_eq_of_lt (by omega)]
    by_cases hj0 : j = 0
    · subst hj0
      exact .inr ⟨2, 0x67, (initTab_two R 0).trans (if_pos rfl), h.fixed.lower, .inr rfl⟩
    · exact .inl ⟨(initTab_two R j).trans (if_neg hj0), h.empty _ (by omega) (by omega)⟩

theorem initTab_unshared {level j level' j' b : Nat} (hl : level ≤ 3) (hl' : level' ≤ 3)
    (h : initTab R level j = some b) (h' : initTab R level' j' = some b) :
    level = level' ∧ j = j' := by
  have hc := initTab_cases hl h
  have hc' := initTab_cases hl' h'
  omega

/-- What `init_page_table` leaves is a tree, with the pages of the region. -/
theorem Initial.tree (h : Initial R t) : Tree R t (initTab R) R.leaf := by
  have hblocks := R.blocks_eq
  have hnext := h.next
  have hspan : ∀ q < R.numP2, 512 * q < R.numP1 := by
    intro q hq
    exact R.lt_numP1.mpr (by have := R.lt_numP2.mp hq; omega)
  refine ⟨h.root, (initTab_three R 0).trans (if_pos rfl), fun k b hk => (initTab_top hk).1, ?_, ?_,
    ?_, ?_, ?_, ?_, ?_, h.fixed.self, h.fixed.upper, h.fixed.gib, by omega, by omega⟩
  · intro level j b hl hb hj
    exact initTab_child h hl hb hj
  · intro j b hb
    obtain ⟨hp, rfl⟩ := initTab_P1 hb
    have hi : j % 512 < 512 := Nat.mod_lt _ (by decide)
    have hq : j / 512 / 512 < R.numP2 := R.lt_numP2.mpr (by have := R.lt_numP1.mp hp; omega)
    have hsplit : 512 * (j / 512 / 512) + j / 512 % 512 = j / 512 := Nat.div_add_mod _ _
    rw [h.fixed.P1 _ hq _ (Nat.mod_lt _ (by decide)) (by rw [hsplit]; exact hp) _ hi]
    congr 1
    omega
  · intro j hnone
    have hge : ¬ j / 512 < R.numP1 := by
      intro hlt
      rw [initTab_zero, if_pos hlt] at hnone
      cases hnone
    have hout : ¬ j < R.numP0 := by
      intro hlt
      have hpage := R.lt_numP0.mp hlt
      exact hge (R.lt_numP1.mpr (by omega))
    exact if_neg hout
  · intro j
    have hal := R.aligned
    unfold Region.leaf
    split
    · right
      omega
    · exact .inl rfl
  · intro level j b hl hb
    rcases initTab_cases (Nat.le_of_lt hl) hb with ⟨rfl, -⟩ | ⟨rfl, rfl, -⟩ | ⟨rfl, hq, -⟩ |
      ⟨rfl, hp, -⟩
    · omega
    · exact ⟨⟨0, (initTab_three R 0).trans (if_pos rfl)⟩, fun _ => by omega⟩
    · have hle := R.numP2_le
      have hzero : j / 512 = 0 := Nat.div_eq_of_lt (by omega)
      rw [hzero]
      exact ⟨⟨2, (initTab_two R 0).trans (if_pos rfl)⟩, fun hcon => by omega⟩
    · have hq : j / 512 < R.numP2 := R.lt_numP2.mpr (by have := R.lt_numP1.mp hp; omega)
      exact ⟨⟨_, (initTab_one R (j / 512)).trans (if_pos hq)⟩, fun hcon => by omega⟩
  · intro level j b hl hb
    rcases initTab_cases hl hb with ⟨-, -, rfl⟩ | ⟨-, -, rfl⟩ | ⟨-, hq, rfl⟩ | ⟨-, hp, rfl⟩
    · omega
    · omega
    · have hlt := hspan j hq
      omega
    · have hq : j / 512 < R.numP2 := R.lt_numP2.mpr (by have := R.lt_numP1.mp hp; omega)
      omega
  · intro level j level' j' b hl hl' hb hb'
    exact initTab_unshared hl hl' hb hb'

theorem Tree.block_lt (h : Tree R t tab page) {level j b : Nat} (hl : level ≤ 3)
    (hb : tab level j = some b) : b < R.blocks :=
  Nat.lt_of_lt_of_le (h.bound level j b hl hb).1 h.next_le

/-- The root is the only table in block 0. -/
theorem Tree.block_zero (h : Tree R t tab page) {level j : Nat} (hl : level ≤ 3)
    (hb : tab level j = some 0) : level = 3 ∧ j = 0 :=
  h.unshared level j 3 0 0 hl (Nat.le_refl 3) hb h.top

/-- **A new table**, entered where there was none. -/
theorem Tree.grow (h : Tree R t tab page) {level j b : Nat} (hl : level < 3)
    (hb : tab (level + 1) (j / 512) = some b) (hj : level = 2 → j < 510)
    (hnone : tab level j = none) (hroom : t.next < R.blocks) :
    Tree R (t.alloc.set b (j % 512) (R.block t.next + 0x63)) (tab.link level j t.next) page := by
  obtain ⟨hbnext, hbone⟩ := h.bound (level + 1) (j / 512) b hl hb
  have htwo := h.two_le
  -- an entry other than the new one is as before
  have hold : ∀ c i, c ≠ t.next → ¬ (c = b ∧ i = j % 512) →
      (t.alloc.set b (j % 512) (R.block t.next + 0x63)).entry c i = t.entry c i := by
    intro c i hc hne
    rw [Tables.set_entry_ne _ _ (by omega), Tables.alloc_entry_old _ _ hc]
  have hnew : ∀ i, (t.alloc.set b (j % 512) (R.block t.next + 0x63)).entry t.next i = 0 := by
    intro i
    rw [Tables.set_entry_ne _ _ (by omega), Tables.alloc_entry_new]
  refine ⟨h.root, Tab.link_some hnone h.top, ?_, ?_, ?_, ?_, h.present, ?_, ?_, ?_, ?_, ?_, ?_, ?_, ?_⟩
  · intro k c hk
    by_cases hkj : 3 = level ∧ k = j
    · omega
    · rw [Tab.link_ne hkj] at hk
      exact h.topOnly k c hk
  · intro l k c hl' hc hk
    by_cases hparent : l + 1 = level ∧ k / 512 = j
    · -- the new table is empty, and so is its part of the tree
      rw [hparent.1, hparent.2, Tab.link_self] at hc
      cases hc
      rw [Tab.link_ne (by omega)]
      refine .inl ⟨?_, hnew _⟩
      cases hcase : tab l k with
      | none => rfl
      | some c =>
        obtain ⟨⟨d, hd⟩, -⟩ := h.parent l k c hl' hcase
        rw [hparent.1, hparent.2, hnone] at hd
        cases hd
    · rw [Tab.link_ne hparent] at hc
      have hcnext := (h.bound (l + 1) (k / 512) c hl' hc).1
      by_cases hself : l = level ∧ k = j
      · obtain ⟨rfl, rfl⟩ := hself
        rw [hb] at hc
        cases hc
        rw [Tables.set_entry_self, Tab.link_self]
        exact .inr ⟨_, 0x63, rfl, rfl, .inl rfl⟩
      · have hplace : ¬ (c = b ∧ k % 512 = j % 512) := by
          rintro ⟨rfl, hmod⟩
          obtain ⟨hlevel, hdiv⟩ := h.unshared _ _ _ _ _ hl' hl hc hb
          omega
        rw [hold c _ (by omega) hplace, Tab.link_ne hself]
        exact h.child l k c hl' hc hk
  · intro k c hc
    by_cases hself : 0 = level ∧ k / 512 = j
    · rw [hself.1, hself.2, Tab.link_self] at hc
      cases hc
      rw [hnew, h.noPage k (by rw [hself.1, hself.2]; exact hnone)]
    · rw [Tab.link_ne hself] at hc
      have hcnext := (h.bound 0 (k / 512) c (by omega) hc).1
      have hplace : ¬ (c = b ∧ k % 512 = j % 512) := by
        rintro ⟨rfl, -⟩
        have hlevel := (h.unshared 0 _ _ _ _ (by omega) hl hc hb).1
        omega
      rw [hold c _ (by omega) hplace]
      exact h.leaf k c hc
  · intro k hk
    apply h.noPage
    by_cases hself : 0 = level ∧ k / 512 = j
    · rw [hself.1, hself.2]
      exact hnone
    · rwa [Tab.link_ne hself] at hk
  · intro l k c hl' hc
    by_cases hself : l = level ∧ k = j
    · obtain ⟨rfl, rfl⟩ := hself
      exact ⟨⟨b, Tab.link_some hnone hb⟩, hj⟩
    · rw [Tab.link_ne hself] at hc
      obtain ⟨⟨d, hd⟩, htop⟩ := h.parent l k c hl' hc
      exact ⟨⟨d, Tab.link_some hnone hd⟩, htop⟩
  · intro l k c hl' hc
    simp only [Tables.set_next, Tables.alloc_next]
    by_cases hself : l = level ∧ k = j
    · obtain ⟨rfl, rfl⟩ := hself
      rw [Tab.link_self] at hc
      cases hc
      omega
    · rw [Tab.link_ne hself] at hc
      have hold' := h.bound l k c hl' hc
      omega
  · intro l k l' k' c hl1 hl2 hc hc'
    by_cases h1 : l = level ∧ k = j
    · by_cases h2 : l' = level ∧ k' = j
      · omega
      · rw [h1.1, h1.2, Tab.link_self] at hc
        cases hc
        rw [Tab.link_ne h2] at hc'
        have hlt := (h.bound l' k' _ hl2 hc').1
        omega
    · rw [Tab.link_ne h1] at hc
      by_cases h2 : l' = level ∧ k' = j
      · rw [h2.1, h2.2, Tab.link_self] at hc'
        cases hc'
        have hlt := (h.bound l k _ hl1 hc).1
        omega
      · rw [Tab.link_ne h2] at hc'
        exact h.unshared l k l' k' c hl1 hl2 hc hc'
  · rw [hold 0 511 (by omega), h.back]
    rintro ⟨rfl, hmod⟩
    have hroot := h.block_zero hl hb
    have hlt := hj (by omega)
    omega
  · rw [hold 0 510 (by omega), h.upper]
    rintro ⟨rfl, hmod⟩
    have hroot := h.block_zero hl hb
    have hlt := hj (by omega)
    omega
  · intro i hi
    rw [hold 1 i (by omega) (by omega), h.gib i hi]
  · simp only [Tables.set_next, Tables.alloc_next]
    omega
  · simp only [Tables.set_next, Tables.alloc_next]
    exact hroom

/-- The pages with one more. -/
def putPage (page : Nat → Nat) (j v : Nat) : Nat → Nat := fun k => if k = j then v else page k

/-- **A page**, entered in its table. -/
theorem Tree.setPage (h : Tree R t tab page) {j b v : Nat} (hb : tab 0 (j / 512) = some b)
    (hv : v % 2 = 1) : Tree R (t.set b (j % 512) v) tab (putPage page j v) := by
  obtain ⟨hbnext, hbone⟩ := h.bound 0 (j / 512) b (by omega) hb
  have hold : ∀ level k c, level ≤ 3 → tab level k = some c → level ≠ 0 → ∀ i,
      (t.set b (j % 512) v).entry c i = t.entry c i := by
    intro level k c hl hc hne i
    refine Tables.set_entry_ne _ _ (.inl ?_)
    rintro rfl
    exact hne (h.unshared level k 0 _ _ hl (by omega) hc hb).1
  refine ⟨h.root, h.top, h.topOnly, ?_, ?_, ?_, ?_, h.parent, h.bound, h.unshared, ?_, ?_, ?_,
    h.two_le, h.next_le⟩
  · intro level k c hl hc hk
    rw [hold (level + 1) _ c hl hc (by omega)]
    exact h.child level k c hl hc hk
  · intro k c hc
    by_cases hkj : k = j
    · subst hkj
      rw [hb] at hc
      cases hc
      rw [Tables.set_entry_self]
      exact (if_pos rfl).symm
    · have hplace : c ≠ b ∨ k % 512 ≠ j % 512 := by
        by_contra hcon
        have hcb : c = b := by omega
        subst hcb
        have hdiv := (h.unshared 0 _ 0 _ _ (by omega) (by omega) hc hb).2
        omega
      rw [Tables.set_entry_ne _ _ hplace, h.leaf k c hc]
      exact (if_neg hkj).symm
  · intro k hk
    have hkj : k ≠ j := by
      rintro rfl
      rw [hb] at hk
      cases hk
    exact (if_neg hkj).trans (h.noPage k hk)
  · intro k
    unfold putPage
    split
    · exact .inr hv
    · exact h.present k
  · rw [hold 3 0 0 (Nat.le_refl 3) h.top (by omega), h.back]
  · rw [hold 3 0 0 (Nat.le_refl 3) h.top (by omega), h.upper]
  · intro i hi
    rw [Tables.set_entry_ne _ _ (.inl (Ne.symm hbone)), h.gib i hi]

end Trees

/-! ## Walks -/

section Walks

variable {R : Region} {t : Tables} {tab : Tab} {page : Nat → Nat} {s : PageTables} {va : Nat}

/-- A name of a table is an entry that the walk follows, and one that `map_page` sees. -/
theorem Names.some_iff {child : Option Nat} {e : Nat} (h : Names R child e) {c : Nat}
    (hc : child = some c) : ∃ f, e = R.block c + f ∧ (f = 0x63 ∨ f = 0x67) := by
  rcases h with ⟨hnone, -⟩ | ⟨c', f, hc', he, hf⟩
  · rw [hnone] at hc
    cases hc
  · rw [hc] at hc'
    cases hc'
    exact ⟨f, he, hf⟩

theorem Names.of_none {child : Option Nat} {e : Nat} (h : Names R child e) (hc : child = none) :
    e = 0 := by
  rcases h with ⟨-, he⟩ | ⟨c', f, hc', -⟩
  · exact he
  · rw [hc] at hc'
    cases hc'

theorem spanOf_up (va : Nat) {level : Nat} (hl : level < 3) :
    spanOf (level + 1) va / 512 = spanOf (level + 2) va := by
  have hlevel : level = 0 ∨ level = 1 ∨ level = 2 := by omega
  rcases hlevel with rfl | rfl | rfl
  · exact spanOf_div va (by decide)
  · exact spanOf_div va (by decide)
  · unfold spanOf pageSize
    omega

/-- The entry of level `level + 1` on the way to `va`, in the table found above it. -/
theorem Tree.on_path (h : Tree R t tab page) {level b : Nat} (hl : level < 3)
    (hb : tab (level + 1) (spanOf (level + 2) va) = some b) (hva : index 3 va < 510) :
    Names R (tab level (spanOf (level + 1) va)) (t.entry b (index (level + 1) va)) := by
  have hdiv := spanOf_up va hl
  rw [← spanOf_mod va (by omega)]
  refine h.child level _ b hl (by rw [hdiv]; exact hb) ?_
  rintro rfl
  rw [spanOf_top]
  exact hva

theorem spanOf_root (va : Nat) : spanOf 4 va = 0 := by
  unfold spanOf pageSize
  omega

/-- Below a table that is not there, there is none. -/
theorem Tree.below_absent (h : Tree R t tab page) {level : Nat} (hl : level < 2)
    (hnone : tab (level + 1) (spanOf (level + 2) va) = none) :
    tab level (spanOf (level + 1) va) = none := by
  cases hcase : tab level (spanOf (level + 1) va) with
  | none => rfl
  | some c =>
    obtain ⟨⟨d, hd⟩, -⟩ := h.parent level _ c (by omega) hcase
    have hdiv : spanOf (level + 1) va / 512 = spanOf (level + 2) va := spanOf_up va (by omega)
    rw [hdiv, hnone] at hd
    cases hd

/-- Where there is no table on the way, there is no page. -/
theorem Tree.page_absent (h : Tree R t tab page) {level : Nat} (hl : level < 3)
    (hnone : tab level (spanOf (level + 1) va) = none) : page (spanOf 0 va) = 0 := by
  have hlow : tab 0 (spanOf 1 va) = none := by
    have hlevel : level = 0 ∨ level = 1 ∨ level = 2 := by omega
    rcases hlevel with rfl | rfl | rfl
    · exact hnone
    · exact h.below_absent (by decide) hnone
    · exact h.below_absent (by decide) (h.below_absent (by decide) hnone)
  apply h.noPage
  rw [spanOf_div va (by decide)]
  exact hlow

/-- What the walk makes of the entry of a page. -/
def leafOf (e va : Nat) : Option Translation :=
  if e = 0 then none else some ⟨frame e (pageSize 0) + va % 4096, writable e⟩

/-- **The walk ends at the page**, or finds nothing. -/
theorem Tree.walk_eq (h : Tree R t tab page) (hr : Rep R t s) (hva : index 3 va < 510) :
    walk s.mem (R.block 0) va = leafOf (page (spanOf 0 va)) va := by
  have hflags : ∀ f, f = 0x63 ∨ f = 0x67 →
      f < 4096 ∧ Paging.present f = true ∧ large f = false ∧ writable f = true := by
    rintro f (rfl | rfl)
    · decide
    · decide
  have hstep : ∀ level b, level < 3 → tab (level + 1) (spanOf (level + 2) va) = some b →
      (∃ c, tab level (spanOf (level + 1) va) = some c ∧
        walkFrom s.mem (level + 1) (R.block b) va true = walkFrom s.mem level (R.block c) va true) ∨
      (tab level (spanOf (level + 1) va) = none ∧
        walkFrom s.mem (level + 1) (R.block b) va true = none) := by
    intro level b hl hb
    have hnames := h.on_path hl hb hva
    cases hcase : tab level (spanOf (level + 1) va) with
    | none => exact .inr ⟨rfl, hr.walk_absent (hnames.of_none hcase)⟩
    | some c =>
      obtain ⟨f, he, hf⟩ := hnames.some_iff hcase
      obtain ⟨hlt, hp, hlarge, hw⟩ := hflags f hf
      refine .inl ⟨c, rfl, ?_⟩
      rw [hr.walk_block (h.block_lt (by omega) hcase) hlt he hp hlarge, hw]
      rfl
  have hnone : ∀ level, level < 3 → tab level (spanOf (level + 1) va) = none →
      leafOf (page (spanOf 0 va)) va = none := by
    intro level hl hn
    exact if_pos (h.page_absent hl hn)
  have hroot : tab 3 (spanOf 4 va) = some 0 := by
    rw [spanOf_root]
    exact h.top
  unfold Paging.walk
  rcases hstep 2 0 (by decide) hroot with ⟨b2, hb2, e2⟩ | ⟨hn, e2⟩
  · rcases hstep 1 b2 (by decide) hb2 with ⟨b1, hb1, e1⟩ | ⟨hn, e1⟩
    · rcases hstep 0 b1 (by decide) hb1 with ⟨b0, hb0, e0⟩ | ⟨hn, e0⟩
      · rw [e2, e1, e0]
        have hdiv : spanOf 0 va / 512 = spanOf 1 va := spanOf_div va (by decide)
        have he := h.leaf (spanOf 0 va) b0 (by rw [hdiv]; exact hb0)
        rw [spanOf_mod va (by decide)] at he
        have hread := (hr.entry b0 _ (index_lt 0 va)).trans he
        have hsmall : pageSize 0 = 4096 := rfl
        rcases h.present (spanOf 0 va) with hzero | hodd
        · rw [hr.walk_absent (he.trans hzero)]
          exact (if_pos hzero).symm
        · have hp : Paging.present (page (spanOf 0 va)) = true := beq_iff_eq.mpr hodd
          simp only [walkFrom, hread, hp, if_true, Bool.true_and, hsmall]
          exact (if_neg (by omega)).symm
      · rw [e2, e1, e0, hnone 0 (by decide) hn]
    · rw [e2, e1, hnone 1 (by decide) hn]
  · rw [e2, hnone 2 (by decide) hn]

/-- The window on physical memory does not depend on the tree. -/
theorem Tree.walk_upper (h : Tree R t tab page) (hr : Rep R t s) (hva : index 3 va = 510) :
    walk s.mem (R.block 0) va = some ⟨va % 2 ^ 39, true⟩ := by
  have htwo := h.two_le
  have hle := h.next_le
  have hi2 := index_lt 2 va
  have htop : walk s.mem (R.block 0) va = walkFrom s.mem 2 (R.block 1) va true :=
    hr.walk_block (f := 0x63) (by omega) (by decide) (by rw [hva]; exact h.upper) (by decide)
      (by decide)
  rw [htop, walkFrom_gib ((hr.entry _ _ hi2).trans (h.gib _ hi2)) (by omega) (by omega) (by decide)
    (by decide) (by decide)]
  have hsum : 1073741824 * index 2 va + va % 2 ^ 30 = va % 2 ^ 39 := by
    have hindex : index 2 va = va / 1073741824 % 512 := rfl
    omega
  rw [hsum]
  rfl

end Walks

end JudgePenguin.Driver
