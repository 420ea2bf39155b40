/-
  JudgePenguin/PageTableMap.lean
  ==============================
  **Adding pages to the tables: `map_page`.**

  The pages that `map_page` adds hang below entries `1 .. 509` of the top table.
  They are described by a trie: `node ℓ k` is the address in the entry of level
  `ℓ` for the `k`-th span of `pageSize ℓ` bytes, so level `0` holds the mapped
  pages and the levels above hold table blocks.  The invariant `Trie` says that
  the tables store exactly this trie next to the static part of `Static`, that no
  block stands for two nodes, and that the blocks handed out since
  `init_page_table` are as many as there are nodes.  Each step of `map_page` adds
  at most one node (`Trie.grow`, `Trie.leaf`).
-/
import JudgePenguin.PageTableInit
import Mathlib.Data.Finset.Card

namespace JudgePenguin.Driver

open Words ArrayLoops Paging

/-! ## Tries -/

/-- The nodes below the top table: level, span, address. -/
abbrev Nodes := Nat → Nat → Option Nat

/-- The entry for an address, or the empty one. -/
def enc (a : Option Nat) : Nat := a.elim 0 (· + 0x63)

def Nodes.link (node : Nodes) (level k a : Nat) : Nodes :=
  fun l j => if l = level ∧ j = k then some a else node l j

namespace Nodes

variable {node : Nodes} {level k a l j : Nat}

@[simp] theorem link_self : node.link level k a level k = some a := by simp [link]

theorem link_ne (h : ¬ (l = level ∧ j = k)) : node.link level k a l j = node l j := if_neg h

end Nodes

/-- Entry `i` of block `b` is the place of the node `(level, k)`. -/
inductive Slot (R : Region) (node : Nodes) : Nat → Nat → Nat → Nat → Prop
  | top {k : Nat} : 1 ≤ k → k ≤ 509 → Slot R node 3 k 0 k
  | below {level k b : Nat} : level < 3 → node (level + 1) (k / 512) = some (R.block b) →
      Slot R node level k b (k % 512)

/-- The first block that `init_page_table` leaves. -/
def Region.firstBlock (R : Region) : Nat := 3 + R.numP1 + R.numP2

/-- The tables `t` hold the static part and the trie `node`; `dom` lists the
    table blocks of the trie. -/
structure Trie (R : Region) (t : Tables) (node : Nodes) (dom : Finset (Nat × Nat)) : Prop where
  fixed : Static R t
  root : t.root = R.block 0
  entry : ∀ {level k b i}, Slot R node level k b i → t.entry b i = enc (node level k)
  parent : ∀ level k a, node level k = some a → ∃ b i, Slot R node level k b i
  block : ∀ level k a, node (level + 1) k = some a →
    ∃ b, a = R.block b ∧ R.firstBlock ≤ b ∧ b < t.next
  unshared : ∀ level k level' k' a, node (level + 1) k = some a → node (level' + 1) k' = some a →
    level = level' ∧ k = k'
  page : ∀ k a, node 0 k = some a → 4096 ∣ a ∧ a < 2 ^ 51
  mem_dom : ∀ level k, (level, k) ∈ dom ↔ node (level + 1) k ≠ none
  count : t.next = R.firstBlock + dom.card

theorem Region.block_inj (R : Region) {b c : Nat} (h : R.block b = R.block c) : b = c := by
  unfold Region.block at h
  omega

section Slots

variable {R : Region} {t : Tables} {node : Nodes} {dom : Finset (Nat × Nat)}

theorem Slot.index_lt {level k b i : Nat} (h : Slot R node level k b i) : i < 512 := by
  cases h with
  | top h1 h2 => omega
  | below hl hn => exact Nat.mod_lt _ (by decide)

/-- A node has one place. -/
theorem Slot.eq_of_node {level k b i b' i' : Nat} (h : Slot R node level k b i)
    (h' : Slot R node level k b' i') : b = b' ∧ i = i' := by
  cases h with
  | top h1 h2 =>
    cases h' with
    | top => exact ⟨rfl, rfl⟩
    | below hl => exact absurd hl (by decide)
  | below hl hn =>
    cases h' with
    | top => exact absurd hl (by decide)
    | below hl' hn' =>
      rw [hn] at hn'
      injection hn' with hn'
      exact ⟨R.block_inj hn', rfl⟩

/-- The block of a slot is the top table or one of the trie's. -/
theorem Trie.slot_block (h : Trie R t node dom) {level k b i : Nat}
    (hs : Slot R node level k b i) : (b = 0 ∧ 1 ≤ i ∧ i ≤ 509) ∨ (R.firstBlock ≤ b ∧ b < t.next) := by
  cases hs with
  | top h1 h2 => exact Or.inl ⟨rfl, h1, h2⟩
  | below hl hn =>
    obtain ⟨c, hc, h1, h2⟩ := h.block _ _ _ hn
    rw [R.block_inj hc]
    exact Or.inr ⟨h1, h2⟩

/-- A place belongs to one node. -/
theorem Trie.slot_unique (h : Trie R t node dom) {level k level' k' b i : Nat}
    (hs : Slot R node level k b i) (hs' : Slot R node level' k' b i) : level = level' ∧ k = k' := by
  have hfirst : 3 ≤ R.firstBlock := by unfold Region.firstBlock; omega
  generalize hi : i = i' at hs'
  cases hs with
  | top h1 h2 =>
    cases hs' with
    | top => exact ⟨rfl, hi⟩
    | below hl hn =>
      obtain ⟨c, hc, hge, -⟩ := h.block _ _ _ hn
      have hzero := R.block_inj hc
      omega
  | below hl hn =>
    cases hs' with
    | top =>
      obtain ⟨c, hc, hge, -⟩ := h.block _ _ _ hn
      have hzero := R.block_inj hc
      omega
    | below hl' hn' =>
      obtain ⟨hlevel, hdiv⟩ := h.unshared _ _ _ _ _ hn hn'
      exact ⟨hlevel, by omega⟩

end Slots

/-- The static part lies below the first free block and outside the entries of
    the top table that `map_page` uses. -/
theorem Static.of_eq {R : Region} {t t' : Tables} (h : Static R t)
    (heq : ∀ b i, b < R.firstBlock → ¬ (b = 0 ∧ 1 ≤ i ∧ i ≤ 509) → t'.entry b i = t.entry b i) :
    Static R t' := by
  have hP2 : ∀ q < R.numP2, P2Block q < R.firstBlock := by
    intro q hq
    have h1 : 512 * q < R.numP1 := R.lt_numP1.mpr (by have := R.lt_numP2.mp hq; omega)
    unfold P2Block Region.firstBlock
    omega
  have hP1 : ∀ q j, q < R.numP2 → 512 * q + j < R.numP1 → P1Block q j < R.firstBlock := by
    intro q j hq hj
    unfold P1Block Region.firstBlock
    omega
  have hfirst : 3 ≤ R.firstBlock := by unfold Region.firstBlock; omega
  constructor
  · rw [heq 0 511 (by omega) (by omega), h.self]
  · rw [heq 0 510 (by omega) (by omega), h.upper]
  · rw [heq 0 0 (by omega) (by omega), h.lower]
  · intro i hi
    rw [heq 1 i (by omega) (by omega), h.gib i hi]
  · intro i hi
    rw [heq 2 i (by omega) (by omega), h.P3 i hi]
  · intro q hq j hj
    rw [heq _ j (hP2 q hq) (by unfold P2Block; omega), h.P2 q hq j hj]
  · intro q hq j hj hlt i hi
    rw [heq _ i (hP1 q j hq hlt) (by unfold P1Block; omega), h.P1 q hq j hj hlt i hi]

/-! ## Adding a node -/

section Grow

variable {R : Region} {t : Tables} {node : Nodes} {dom : Finset (Nat × Nat)}

/-- Linking a node that was absent keeps every slot. -/
theorem Slot.link {level k b i l j a : Nat} (hnone : node l j = none)
    (h : Slot R node level k b i) : Slot R (node.link l j a) level k b i := by
  cases h with
  | top h1 h2 => exact Slot.top h1 h2
  | below hl hn =>
    refine Slot.below hl ?_
    rw [Nodes.link_ne]
    · exact hn
    · rintro ⟨rfl, rfl⟩
      rw [hnone] at hn
      cases hn

/-- Initially there are no nodes. -/
theorem Initial.trie (h : Initial R t) : Trie R t (fun _ _ => none) ∅ := by
  refine ⟨h.fixed, h.root, ?_, ?_, ?_, ?_, ?_, ?_, ?_⟩
  · intro level k b i hs
    cases hs with
    | top h1 h2 => exact h.empty k h1 h2
    | below hl hn => cases hn
  · intro level k a ha
    cases ha
  · intro level k a ha
    cases ha
  · intro level k level' k' a ha
    cases ha
  · intro k a ha
    cases ha
  · intro level k
    simp
  · rw [h.next]
    simp [Region.firstBlock]

/-- A page entered in its slot. -/
theorem Trie.leaf (h : Trie R t node dom) {k b i a : Nat} (hs : Slot R node 0 k b i)
    (hnone : node 0 k = none) (ha : 4096 ∣ a) (hlt : a < 2 ^ 51) :
    Trie R (t.set b i (a + 0x63)) (node.link 0 k a) dom := by
  have hback : ∀ {level j c n}, Slot R (node.link 0 k a) level j c n → Slot R node level j c n := by
    intro level j c n hs'
    cases hs' with
    | top h1 h2 => exact Slot.top h1 h2
    | below hl hn =>
      rw [Nodes.link_ne (by omega)] at hn
      exact Slot.below hl hn
  refine ⟨?_, h.root, ?_, ?_, ?_, ?_, ?_, ?_, h.count⟩
  · apply h.fixed.of_eq
    intro c n hc hne
    apply Tables.set_entry_ne
    rcases h.slot_block hs with ⟨rfl, h1, h2⟩ | ⟨h1, h2⟩
    · omega
    · omega
  · intro level j c n hs'
    by_cases heq : level = 0 ∧ j = k
    · obtain ⟨rfl, rfl⟩ := heq
      obtain ⟨rfl, rfl⟩ := hs.eq_of_node (hback hs')
      rw [Tables.set_entry_self, Nodes.link_self]
      rfl
    · have hne : c ≠ b ∨ n ≠ i := by
        by_contra hcon
        have hsame : c = b ∧ n = i := by omega
        obtain ⟨rfl, rfl⟩ := hsame
        exact heq (h.slot_unique (hback hs') hs)
      rw [Tables.set_entry_ne _ _ hne, Nodes.link_ne heq, h.entry (hback hs')]
  · intro level j c hc
    by_cases heq : level = 0 ∧ j = k
    · obtain ⟨rfl, rfl⟩ := heq
      exact ⟨b, i, hs.link hnone⟩
    · rw [Nodes.link_ne heq] at hc
      obtain ⟨b', i', hs'⟩ := h.parent _ _ _ hc
      exact ⟨b', i', hs'.link hnone⟩
  · intro level j c hc
    rw [Nodes.link_ne (by omega)] at hc
    exact h.block _ _ _ hc
  · intro level j level' j' c hc hc'
    rw [Nodes.link_ne (by omega)] at hc hc'
    exact h.unshared _ _ _ _ _ hc hc'
  · intro j c hc
    by_cases hjk : j = k
    · subst hjk
      rw [Nodes.link_self] at hc
      injection hc with hc
      subst hc
      exact ⟨ha, hlt⟩
    · rw [Nodes.link_ne (by omega)] at hc
      exact h.page j c hc
  · intro level j
    rw [Nodes.link_ne (by omega)]
    exact h.mem_dom level j

/-- A new table block entered in its slot. -/
theorem Trie.grow (h : Trie R t node dom) {l k b i : Nat} (hs : Slot R node (l + 1) k b i)
    (hnone : node (l + 1) k = none) :
    Trie R (t.alloc.set b i (R.block t.next + 0x63)) (node.link (l + 1) k (R.block t.next))
      (insert (l, k) dom) := by
  have hfirst : 3 ≤ R.firstBlock := by unfold Region.firstBlock; omega
  have hge : R.firstBlock ≤ t.next := by rw [h.count]; omega
  have hb : b < t.next := by
    rcases h.slot_block hs with ⟨rfl, -⟩ | ⟨-, h2⟩
    · omega
    · exact h2
  have hnext : ∀ level j, node (level + 1) j ≠ some (R.block t.next) := by
    intro level j hj
    obtain ⟨c, hc, -, hlt⟩ := h.block _ _ _ hj
    have hsame := R.block_inj hc
    omega
  -- a slot of the new trie is an old one, or lies in the new block
  have hback : ∀ {level j c n}, Slot R (node.link (l + 1) k (R.block t.next)) level j c n →
      Slot R node level j c n ∨ (c = t.next ∧ level = l ∧ j / 512 = k) := by
    intro level j c n hs'
    cases hs' with
    | top h1 h2 => exact Or.inl (Slot.top h1 h2)
    | below hl hn =>
      by_cases heq : level + 1 = l + 1 ∧ j / 512 = k
      · obtain ⟨hlevel, hj⟩ := heq
        rw [hlevel, hj, Nodes.link_self] at hn
        injection hn with hn
        exact Or.inr ⟨(R.block_inj hn).symm, by omega, hj⟩
      · rw [Nodes.link_ne heq] at hn
        exact Or.inl (Slot.below hl hn)
  refine ⟨?_, h.root, ?_, ?_, ?_, ?_, ?_, ?_, ?_⟩
  · apply h.fixed.of_eq
    intro c n hc hne
    have hc' : c ≠ t.next := by omega
    have hslot : c ≠ b ∨ n ≠ i := by
      rcases h.slot_block hs with ⟨rfl, h1, h2⟩ | ⟨h1, h2⟩
      · omega
      · omega
    rw [Tables.set_entry_ne _ _ hslot, Tables.alloc_entry_old _ _ hc']
  · intro level j c n hs'
    rcases hback hs' with hold | ⟨rfl, rfl, hj⟩
    · by_cases heq : level = l + 1 ∧ j = k
      · obtain ⟨rfl, rfl⟩ := heq
        obtain ⟨rfl, rfl⟩ := hs.eq_of_node hold
        rw [Tables.set_entry_self, Nodes.link_self]
        rfl
      · have hne : c ≠ b ∨ n ≠ i := by
          by_contra hcon
          have hsame : c = b ∧ n = i := by omega
          obtain ⟨rfl, rfl⟩ := hsame
          exact heq (h.slot_unique hold hs)
        have hc : c ≠ t.next := by
          rcases h.slot_block hold with ⟨rfl, -⟩ | ⟨-, h2⟩
          · omega
          · omega
        rw [Tables.set_entry_ne _ _ hne, Tables.alloc_entry_old _ _ hc, Nodes.link_ne heq,
          h.entry hold]
    · -- a slot of the new block: empty, and so is its node, whose parent was absent
      have hnode : node level j = none := by
        cases hcase : node level j with
        | none => rfl
        | some c =>
          obtain ⟨b', i', hs''⟩ := h.parent _ _ _ hcase
          cases hs'' with
          | top h1 h2 =>
            cases hs with
            | below hl hn => omega
          | below hl hn =>
            rw [hj, hnone] at hn
            cases hn
      rw [Tables.set_entry_ne _ _ (by omega), Tables.alloc_entry_new, Nodes.link_ne (by omega), hnode]
      rfl
  · intro level j c hc
    by_cases heq : level = l + 1 ∧ j = k
    · obtain ⟨rfl, rfl⟩ := heq
      exact ⟨b, i, hs.link hnone⟩
    · rw [Nodes.link_ne heq] at hc
      obtain ⟨b', i', hs'⟩ := h.parent _ _ _ hc
      exact ⟨b', i', hs'.link hnone⟩
  · intro level j c hc
    by_cases heq : level + 1 = l + 1 ∧ j = k
    · obtain ⟨hlevel, rfl⟩ := heq
      rw [hlevel, Nodes.link_self] at hc
      injection hc with hc
      exact ⟨t.next, hc.symm, hge, by simp⟩
    · rw [Nodes.link_ne heq] at hc
      obtain ⟨b', hb', h1, h2⟩ := h.block _ _ _ hc
      exact ⟨b', hb', h1, by simp; omega⟩
  · intro level j level' j' c hc hc'
    by_cases heq : level + 1 = l + 1 ∧ j = k
    · obtain ⟨hlevel, rfl⟩ := heq
      rw [hlevel, Nodes.link_self] at hc
      by_cases heq' : level' + 1 = l + 1 ∧ j' = j
      · omega
      · rw [Nodes.link_ne heq', ← hc] at hc'
        exact absurd hc' (hnext _ _)
    · rw [Nodes.link_ne heq] at hc
      by_cases heq' : level' + 1 = l + 1 ∧ j' = k
      · obtain ⟨hlevel, rfl⟩ := heq'
        rw [hlevel, Nodes.link_self, ← hc] at hc'
        exact absurd hc'.symm (hnext _ _)
      · rw [Nodes.link_ne heq'] at hc'
        exact h.unshared _ _ _ _ _ hc hc'
  · intro j c hc
    rw [Nodes.link_ne (by omega)] at hc
    exact h.page j c hc
  · intro level j
    rw [Finset.mem_insert, h.mem_dom]
    by_cases heq : level = l ∧ j = k
    · obtain ⟨rfl, rfl⟩ := heq
      simp
    · rw [Nodes.link_ne (by omega)]
      have hpair : ¬ (level, j) = (l, k) := by
        intro hcon
        injection hcon with h1 h2
        exact heq ⟨h1, h2⟩
      simp [hpair]
  · have hnot : (l, k) ∉ dom := by
      rw [h.mem_dom]
      simp [hnone]
    rw [Finset.card_insert_of_notMem hnot]
    simp only [Tables.set_next, Tables.alloc_next, h.count]
    omega

end Grow

/-! ## Walks through the trie -/

/-- The span of level `level` that holds the address `va`. -/
def spanOf (level va : Nat) : Nat := va % 2 ^ 48 / pageSize level

theorem spanOf_mod {level : Nat} (va : Nat) (h : level ≤ 3) :
    spanOf level va % 512 = index level va := by
  unfold spanOf index
  have hlevel : level = 0 ∨ level = 1 ∨ level = 2 ∨ level = 3 := by omega
  rcases hlevel with rfl | rfl | rfl | rfl
  · rw [pageSize_zero]
    omega
  · rw [pageSize_one]
    omega
  · rw [pageSize_two]
    omega
  · rw [pageSize_three]
    omega

theorem spanOf_div {level : Nat} (va : Nat) (h : level < 3) :
    spanOf level va / 512 = spanOf (level + 1) va := by
  unfold spanOf
  have hlevel : level = 0 ∨ level = 1 ∨ level = 2 := by omega
  rcases hlevel with rfl | rfl | rfl
  · rw [pageSize_zero, pageSize_one]
    omega
  · rw [pageSize_one, pageSize_two]
    omega
  · rw [pageSize_two, pageSize_three]
    omega

theorem spanOf_top (va : Nat) : spanOf 3 va = index 3 va := by
  unfold spanOf index
  rw [pageSize_three]
  omega

section TrieWalk

variable {R : Region} {t : Tables} {node : Nodes} {dom : Finset (Nat × Nat)} {s : PageTables}
variable {va : Nat}

/-- A node below the top has its parent's block, and its entry there. -/
theorem Trie.entry_of_node (h : Trie R t node dom) {level k a : Nat} (hl : level < 3)
    (ha : node level k = some a) :
    ∃ b, node (level + 1) (k / 512) = some (R.block b) ∧ t.entry b (k % 512) = a + 0x63 := by
  obtain ⟨b, i, hs⟩ := h.parent _ _ _ ha
  have he := h.entry hs
  rw [ha] at he
  cases hs with
  | top => exact absurd hl (by decide)
  | below _ hn => exact ⟨b, hn, he⟩

theorem Trie.block_lt (h : Trie R t node dom) (hcard : dom.card ≤ 50) {level k b : Nat}
    (hb : node (level + 1) k = some (R.block b)) : b < R.blocks := by
  obtain ⟨c, hc, -, hlt⟩ := h.block _ _ _ hb
  have hsame := R.block_inj hc
  have hcount := h.count
  have hblocks := R.blocks_eq
  unfold Region.firstBlock at hcount
  omega

/-- A mapped page translates to its address. -/
theorem Trie.walk (h : Trie R t node dom) (hr : Rep R t s) (hcard : dom.card ≤ 50) {a : Nat}
    (ha : node 0 (spanOf 0 va) = some a) :
    walk s.mem (R.block 0) va = some ⟨a + va % 4096, true⟩ := by
  obtain ⟨hal, hlt⟩ := h.page _ _ ha
  obtain ⟨b1, hn1, he0⟩ := h.entry_of_node (by decide) ha
  rw [spanOf_div va (by decide)] at hn1
  obtain ⟨b2, hn2, he1⟩ := h.entry_of_node (by decide) hn1
  rw [spanOf_div va (by decide)] at hn2
  obtain ⟨b3, hn3, he2⟩ := h.entry_of_node (by decide) hn2
  rw [spanOf_div va (by decide)] at hn3
  have he3 : t.entry 0 (spanOf 3 va) = R.block b3 + 0x63 := by
    obtain ⟨b, i, hs⟩ := h.parent _ _ _ hn3
    have he := h.entry hs
    rw [hn3] at he
    cases hs with
    | top => exact he
    | below hl _ => exact absurd hl (by decide)
  rw [spanOf_mod va (by decide)] at he0 he1 he2
  rw [spanOf_top] at he3
  have htop : walkFrom s.mem 3 (R.block 0) va true = walkFrom s.mem 2 (R.block b3) va true :=
    hr.walk_block (f := 0x63) (h.block_lt hcard hn3) (by decide) he3 (by decide) (by decide)
  have hmid : walkFrom s.mem 2 (R.block b3) va true = walkFrom s.mem 1 (R.block b2) va true :=
    hr.walk_block (f := 0x63) (h.block_lt hcard hn2) (by decide) he2 (by decide) (by decide)
  have hlow : walkFrom s.mem 1 (R.block b2) va true = walkFrom s.mem 0 (R.block b1) va true :=
    hr.walk_block (f := 0x63) (h.block_lt hcard hn1) (by decide) he1 (by decide) (by decide)
  unfold Paging.walk
  rw [htop, hmid, hlow, walkFrom_page ((hr.entry _ _ (index_lt 0 va)).trans he0) hal (by omega)
    (by decide) (by decide)]
  rfl

end TrieWalk

/-! ## `map_page` -/

/-- The driver's state holds the trie `node`, whose blocks are among `cands`. -/
def Maps (R : Region) (cands : Finset (Nat × Nat)) (s : PageTables) (node : Nodes) : Prop :=
  ∃ t dom, Rep R t s ∧ Trie R t node dom ∧ dom ⊆ cands

section MapPage

variable {R : Region} {cands : Finset (Nat × Nat)} {s : PageTables} {node : Nodes} {va : Nat}

theorem enc_none_absent : enc none &&& PTE_P = 0 := rfl

theorem enc_some_present {a : Nat} (ha : 4096 ∣ a) : ¬ (a + 0x63) &&& PTE_P = 0 := by
  have h1 : (a + 0x63) &&& PTE_P = (a + 0x63) % 2 := Nat.and_one_is_mod _
  rw [h1]
  omega

theorem Rep.PTE_eq {t t' : Tables} {s s' : PageTables} (h : Rep R t s) (h' : Rep R t' s') :
    s'.PTE = s.PTE := by
  funext b i
  unfold PageTables.PTE PageTables.physToVirt
  rw [h.phys, h.virt, h'.phys, h'.virt]

/-- One `if (!(*P & PTE_P)) …`: afterwards the table is there, and no page was
    added or lost. -/
theorem ensureTable_spec (hm : Maps R cands s node) (hcard : cands.card ≤ 50) {l k b i f : Nat}
    (hs : Slot R node (l + 1) k b i) (hk : (l, k) ∈ cands) (hf : f < 4096) :
    ∃ s' node' c, ensureTable (s.PTE (R.block b + f) i) s = some s' ∧ Maps R cands s' node' ∧
      s'.load (s.PTE (R.block b + f) i) = some (R.block c + 0x63) ∧
      node' (l + 1) k = some (R.block c) ∧ ∀ j, node' 0 j = node 0 j := by
  obtain ⟨t, dom, hr, ht, hsub⟩ := hm
  have hblocks := R.blocks_eq
  have hcount := ht.count
  have hle := Finset.card_le_card hsub
  have hfirst : R.firstBlock = 3 + R.numP1 + R.numP2 := rfl
  have hb : b < R.blocks := by
    rcases ht.slot_block hs with ⟨rfl, -⟩ | ⟨-, h2⟩
    · omega
    · omega
  have hload : s.load (s.PTE (R.block b + f) i) = some (enc (node (l + 1) k)) := by
    rw [hr.load hb hs.index_lt hf, ht.entry hs]
  cases hnode : node (l + 1) k with
  | some a =>
    obtain ⟨c, rfl, -, hc⟩ := ht.block _ _ _ hnode
    rw [hnode] at hload
    refine ⟨s, node, c, ?_, ⟨t, dom, hr, ht, hsub⟩, hload, hnode, fun j => rfl⟩
    rw [ensureTable, hload, Option.bind_eq_bind, Option.bind_some]
    exact if_neg (enc_some_present (R.block_aligned c))
  | none =>
    rw [hnode] at hload
    -- the new node is one of the candidates and was not counted yet
    have hnot : (l, k) ∉ dom := by
      rw [ht.mem_dom]
      simp [hnode]
    have hlt : dom.card < cands.card := by
      apply Finset.card_lt_card
      exact ⟨hsub, fun hcon => hnot (hcon hk)⟩
    have hnext : t.next < R.blocks := by omega
    have hbnd := R.block_lt hnext
    obtain ⟨s1, h1, r1⟩ := hr.alloc hnext
    obtain ⟨s2, h2, r2⟩ := r1.store (v := R.block t.next + 0x63) hb hs.index_lt hf (by omega)
    have ht2 := ht.grow hs hnode
    refine ⟨s2, _, t.next, ?_, ⟨_, _, r2, ht2, ?_⟩, ?_, Nodes.link_self, ?_⟩
    · rw [ensureTable, hload, Option.bind_eq_bind, Option.bind_some, if_pos enc_none_absent, h1,
        Option.bind_eq_bind, Option.bind_some]
      dsimp only
      rw [mapped_eq (R.block_aligned _), ← hr.PTE_eq r1]
      exact h2
    · intro x hx
      rcases Finset.mem_insert.mp hx with rfl | hx
      · exact hk
      · exact hsub hx
    · rw [← hr.PTE_eq r2, r2.load hb hs.index_lt hf, Tables.set_entry_self]
    · intro j
      exact Nodes.link_ne (by omega)

theorem P4Index_eq (va : Nat) : P4Index va = index 3 va := by
  unfold P4Index
  rw [Nat.shiftRight_eq_div_pow]
  exact Nat.and_two_pow_sub_one_eq_mod _ 9

theorem P3Index_eq (va : Nat) : P3Index va = index 2 va := by
  unfold P3Index
  rw [Nat.shiftRight_eq_div_pow]
  exact Nat.and_two_pow_sub_one_eq_mod _ 9

theorem P2Index_eq (va : Nat) : P2Index va = index 1 va := by
  unfold P2Index
  rw [Nat.shiftRight_eq_div_pow]
  exact Nat.and_two_pow_sub_one_eq_mod _ 9

theorem P1Index_eq (va : Nat) : P1Index va = index 0 va := by
  unfold P1Index
  rw [Nat.shiftRight_eq_div_pow]
  exact Nat.and_two_pow_sub_one_eq_mod _ 9

/-- The last step of `map_page` keeps a page that is mapped already. -/
theorem mapLeaf_spec (hm : Maps R cands s node) (hcard : cands.card ≤ 50) {k b i phys : Nat}
    (hs : Slot R node 0 k b i) (hphys : 4096 ∣ phys) (hlt : phys < 2 ^ 51) :
    ∃ r node', mapLeaf phys (s.PTE (R.block b + 0x63) i) s = some r ∧ Maps R cands r.state node' ∧
      node' 0 k = some ((node 0 k).getD phys) ∧ ∀ j, j ≠ k → node' 0 j = node 0 j := by
  obtain ⟨t, dom, hr, ht, hsub⟩ := hm
  have hle := Finset.card_le_card hsub
  have hb : b < R.blocks := by
    cases hs with
    | below _ hn => exact ht.block_lt (by omega) hn
  have hload : s.load (s.PTE (R.block b + 0x63) i) = some (enc (node 0 k)) := by
    rw [hr.load hb hs.index_lt (by decide), ht.entry hs]
  cases hnode : node 0 k with
  | some a =>
    rw [hnode] at hload
    refine ⟨⟨-1, s⟩, node, ?_, ⟨t, dom, hr, ht, hsub⟩, hnode, fun j _ => rfl⟩
    rw [mapLeaf, hload, Option.bind_eq_bind, Option.bind_some]
    exact if_neg (enc_some_present (ht.page _ _ hnode).1)
  | none =>
    rw [hnode] at hload
    obtain ⟨s1, h1, r1⟩ := hr.store (v := phys + 0x63) hb hs.index_lt (show 0x63 < 4096 by decide)
      (by omega)
    refine ⟨⟨0, s1⟩, _, ?_, ⟨_, _, r1, ht.leaf hs hnode hphys hlt, hsub⟩, ?_, ?_⟩
    · rw [mapLeaf, hload, Option.bind_eq_bind, Option.bind_some, if_pos enc_none_absent,
        mapped_eq hphys, h1]
      rfl
    · exact Nodes.link_self
    · intro j hj
      exact Nodes.link_ne (by omega)

/-- `map_page` adds the page unless it is there, and touches no other page.  Its
    tables come from `cands`. -/
theorem mapPage_spec (hm : Maps R cands s node) (hcard : cands.card ≤ 50) {p : Nat}
    (h1 : 1 ≤ index 3 va) (h509 : index 3 va ≤ 509)
    (hc3 : (2, spanOf 3 va) ∈ cands) (hc2 : (1, spanOf 2 va) ∈ cands)
    (hc1 : (0, spanOf 1 va) ∈ cands) (hphys : 4096 ∣ p) (hlt : p < 2 ^ 51) :
    ∃ r node', mapPage p va s = some r ∧ Maps R cands r.state node' ∧
      node' 0 (spanOf 0 va) = some ((node 0 (spanOf 0 va)).getD p) ∧
      ∀ j, j ≠ spanOf 0 va → node' 0 j = node 0 j := by
  have hroot : s.P4Base = R.block 0 + 0 := by
    obtain ⟨t, dom, hr, ht, -⟩ := hm
    rw [hr.root, ht.root]
    rfl
  have hs3 : Slot R node 3 (spanOf 3 va) 0 (index 3 va) := by
    rw [spanOf_top]
    exact Slot.top h1 h509
  obtain ⟨s3, n3, b3, e3, m3, l3, hn3, p3⟩ := ensureTable_spec hm hcard hs3 hc3 (f := 0) (by decide)
  have hs2 : Slot R n3 2 (spanOf 2 va) b3 (index 2 va) := by
    rw [← spanOf_mod va (by decide)]
    exact Slot.below (by decide) (by rw [spanOf_div va (by decide)]; exact hn3)
  obtain ⟨s2, n2, b2, e2, m2, l2, hn2, p2⟩ := ensureTable_spec m3 hcard hs2 hc2 (f := 0x63)
    (by decide)
  have hs1 : Slot R n2 1 (spanOf 1 va) b2 (index 1 va) := by
    rw [← spanOf_mod va (by decide)]
    exact Slot.below (by decide) (by rw [spanOf_div va (by decide)]; exact hn2)
  obtain ⟨s1, n1, b1, e1, m1, l1, hn1, p1⟩ := ensureTable_spec m2 hcard hs1 hc1 (f := 0x63)
    (by decide)
  have hs0 : Slot R n1 0 (spanOf 0 va) b1 (index 0 va) := by
    rw [← spanOf_mod va (by decide)]
    exact Slot.below (by decide) (by rw [spanOf_div va (by decide)]; exact hn1)
  obtain ⟨r, n0, e0, m0, hn0, p0⟩ := mapLeaf_spec m1 hcard hs0 hphys hlt
  have hpages : ∀ j, n1 0 j = node 0 j := fun j => ((p1 j).trans (p2 j)).trans (p3 j)
  refine ⟨r, n0, ?_, m0, ?_, ?_⟩
  · unfold mapPage
    rw [P4Index_eq, P3Index_eq, P2Index_eq, P1Index_eq, hroot]
    dsimp only
    rw [e3, Option.bind_eq_bind, Option.bind_some, l3, Option.bind_eq_bind, Option.bind_some, e2,
      Option.bind_some, l2, Option.bind_some, e1, Option.bind_some, l1, Option.bind_some, e0]
  · rw [hn0, hpages]
  · intro j hj
    rw [p0 j hj, hpages]

end MapPage

end JudgePenguin.Driver
