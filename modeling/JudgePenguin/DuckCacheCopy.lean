/-
  JudgePenguin/DuckCacheCopy.lean
  ===============================
  **The two copy loops of the object cache**, and `load` as a whole.

  A loop that copies `n` bytes makes `copyPages n` passes, one for each page it
  touches; a length that is a multiple of 4088 leaves no partial last page and a
  zero length makes no pass at all.  `loadLoop_spec` says which bytes reach the
  destination; `storeLoop_spec` says which bytes reach the pages, and that no
  next-pointer and no page off the chain changes.
-/
import JudgePenguin.DuckCacheInvariant

namespace JudgePenguin

open Words ArrayLoops Chain

/-- The number of passes that copy `n` bytes. -/
def copyPages (n : Nat) : Nat := (n + ONE_PAGE_CONTENT_SIZE - 1) / ONE_PAGE_CONTENT_SIZE

theorem copyPages_zero : copyPages 0 = 0 := rfl

theorem copyPages_of_pos {n : Nat} (h : 0 < n) :
    copyPages n = copyPages (n - ONE_PAGE_CONTENT_SIZE) + 1 := by
  simp only [copyPages, ONE_PAGE_CONTENT_SIZE, PAGE_SIZE]
  omega

theorem copyPages_le (n : Nat) : copyPages n ≤ n := by
  simp only [copyPages, ONE_PAGE_CONTENT_SIZE, PAGE_SIZE]
  omega

theorem exactPages_zero : exactPages 0 = 1 := rfl

theorem exactPages_of_pos {n : Nat} (h : 0 < n) : exactPages n = copyPages n := by
  simp only [exactPages, copyPages, ONE_PAGE_CONTENT_SIZE, PAGE_SIZE]
  omega

theorem copyPages_le_exactPages (n : Nat) : copyPages n ≤ exactPages n := Nat.le_max_left _ _

namespace DuckCache

/-! ## Byte transfers -/

theorem wrap64_wrap64_add (a b : Nat) : wrap64 (wrap64 a + b) = wrap64 (a + b) := by
  simp only [wrap64, Nat.mod_add_mod]

theorem bytesTo_append (dst : Nat) (as bs : List UInt8) :
    bytesTo dst (as ++ bs) = bytesTo dst as ++ bytesTo (wrap64 (dst + as.length)) bs := by
  simp only [bytesTo, List.mapIdx_append, wrap64_wrap64_add]
  congr 2
  funext i b
  rw [Nat.add_assoc, Nat.add_comm i]

theorem bytesFrom_add (src n k : Nat) :
    bytesFrom src (n + k) = bytesFrom src n ++ bytesFrom (wrap64 (src + n)) k := by
  simp only [bytesFrom, List.range_add, List.map_append, List.map_map, wrap64_wrap64_add]
  congr 1
  apply List.map_congr_left
  intro i _
  simp only [Function.comp_apply, Nat.add_assoc]

@[simp] theorem length_bytesFrom (src n : Nat) : (bytesFrom src n).length = n := by
  simp [bytesFrom]

@[simp] theorem length_pageContent (c : DuckCache) (p : Nat) :
    (c.pageContent p).length = ONE_PAGE_CONTENT_SIZE := by
  simp [pageContent]

/-! ## Loading -/

/-- One page contributes what of it is still wanted. -/
theorem take_flatMap_cons {c : DuckCache} {p n : Nat} (ps : List Nat) :
    ((p :: ps).flatMap c.pageContent).take n =
      c.mem.read (p + 8) (min n ONE_PAGE_CONTENT_SIZE) ++
        (ps.flatMap c.pageContent).take (n - ONE_PAGE_CONTENT_SIZE) := by
  rw [List.flatMap_cons, List.take_append, length_pageContent]
  congr 1
  rcases Nat.le_total n ONE_PAGE_CONTENT_SIZE with h | h
  · rw [Nat.min_eq_left h]
    exact Mem.read_take _ _ h
  · rw [Nat.min_eq_right h, List.take_of_length_le (by simpa using h)]
    rfl

/-- One pass copies up to a page, and the running length does not wrap. -/
theorem copy_pass {len curLen k : Nat} (hlen : len ≤ MAX_LEN) (hlt : curLen < len)
    (hk : copyPages (len - curLen) = k) :
    ∃ nextLen k', wrap64 (curLen + ONE_PAGE_CONTENT_SIZE) = nextLen ∧ k = k' + 1 ∧
      copyPages (len - nextLen) = k' ∧ len - curLen - ONE_PAGE_CONTENT_SIZE = len - nextLen := by
  have hno : curLen + ONE_PAGE_CONTENT_SIZE < 2 ^ 64 := by
    simp only [MAX_LEN, ONE_PAGE_CONTENT_SIZE, PAGE_SIZE] at hlen ⊢
    omega
  have hpass := copyPages_of_pos (Nat.sub_pos_of_lt hlt)
  rw [Nat.sub_sub] at hpass
  exact ⟨_, _, wrap64_of_lt hno, hk.symm.trans hpass, rfl, Nat.sub_sub _ _ _⟩

/-- **The copy loop of `load`** writes the next bytes of the chain, in order. -/
theorem loadLoop_spec {c : DuckCache} {requiredLen : Nat} (hlen : requiredLen ≤ MAX_LEN) :
    ∀ fuel k addr dst curLen, copyPages (requiredLen - curLen) = k → k < fuel →
      (∀ p ∈ follow c.next addr k, c.isPage p = true) →
      loadLoop c requiredLen fuel addr dst curLen = some (bytesTo dst
        (((follow c.next addr k).flatMap c.pageContent).take (requiredLen - curLen))) := by
  intro fuel
  induction fuel with
  | zero => intro _ _ _ _ _ h; omega
  | succ fuel ih =>
    intro k addr dst curLen hk hfuel hpage
    rcases Nat.lt_or_ge curLen requiredLen with hlt | hge
    · obtain ⟨nextLen, k', hcur, rfl, hk', hleft⟩ := copy_pass hlen hlt hk
      have haddr : c.isPage addr = true := hpage addr (by simp)
      have hrest := ih k' (c.next addr) (wrap64 (dst + ONE_PAGE_CONTENT_SIZE)) nextLen hk'
        (Nat.lt_of_succ_lt_succ hfuel) fun p hp => hpage p (by simp [hp])
      simp only [loadLoop, if_pos hlt, if_pos haddr, hcur, hrest, Option.bind_eq_bind,
        Option.bind_some]
      rw [follow_succ, take_flatMap_cons, bytesTo_append, Mem.length_read, hleft]
      -- a short last piece is followed by nothing
      rcases Nat.le_total (requiredLen - curLen) ONE_PAGE_CONTENT_SIZE with hshort | hfull
      · have hnone : requiredLen - nextLen = 0 := by
          rw [← hleft]
          exact Nat.sub_eq_zero_of_le hshort
        simp [hnone, bytesTo]
      · rw [Nat.min_eq_right hfull]
    · have hnone : requiredLen - curLen = 0 := by omega
      simp [loadLoop, Nat.not_lt.mpr hge, hnone, bytesTo]

/-- The pages that the copy loops visit hold all of the object. -/
theorem contentOf_eq (c : DuckCache) {m : Metadata} (hlen : m.len ≤ MAX_LEN) :
    c.contentOf m =
      ((follow c.next m.startAddr (copyPages m.len)).flatMap c.pageContent).take m.len := by
  rcases Nat.eq_zero_or_pos m.len with h0 | hpos
  · simp [contentOf, h0]
  · rw [contentOf, chainOf, nPagesFor_eq_exact hlen, exactPages_of_pos hpos]

theorem length_contentOf (c : DuckCache) {m : Metadata} (hlen : m.len ≤ MAX_LEN) :
    (c.contentOf m).length = m.len := by
  have hpages : ((c.chainOf m).flatMap c.pageContent).length =
      exactPages m.len * ONE_PAGE_CONTENT_SIZE := by
    rw [List.length_flatMap, List.map_congr_left fun p _ => length_pageContent c p,
      List.map_const', List.sum_replicate_nat, chainOf, length_follow, nPagesFor_eq_exact hlen]
  rw [contentOf, List.length_take, hpages]
  exact Nat.min_eq_left (le_exactPages_mul m.len)

theorem touch_metadata (c : DuckCache) (i now k : Nat) :
    ((c.touch i now).objMetadata k).startAddr = (c.objMetadata k).startAddr ∧
      ((c.touch i now).objMetadata k).len = (c.objMetadata k).len := by
  by_cases hk : k = i
  · subst hk
    simp [touch]
  · simp [touch, Function.update_of_ne hk]

theorem touch_contentOf (c : DuckCache) (i now k : Nat) :
    (c.touch i now).contentOf ((c.touch i now).objMetadata k) = c.contentOf (c.objMetadata k) := by
  obtain ⟨haddr, hlen⟩ := touch_metadata c i now k
  simp only [contentOf, chainOf, haddr, hlen]
  rfl

/-- A new time stamp other than `0` keeps the invariant. -/
theorem touch_inv {c : DuckCache} (h : c.Inv) {i now : Nat} (hnow : now ≠ 0) :
    (c.touch i now).Inv := by
  have hrec : (c.touch i now).records.flatMap (c.touch i now).chainOf =
      c.records.flatMap c.chainOf := by
    rw [records_eq, records_eq, firstN, firstN, List.flatMap_map, List.flatMap_map]
    apply List.flatMap_congr
    intro k _
    obtain ⟨haddr, hlen⟩ := touch_metadata c i now k
    simp only [chainOf, haddr, hlen]
    rfl
  refine ⟨⟨h.indexed.increasing, h.indexed.hash⟩, h.maxPos, h.curLe, ?_, ?_,
    h.arena.basePos, h.arena.baseLe, h.arena.freeEnd, ?_⟩
  · intro m hm
    rw [records_eq] at hm
    obtain ⟨k, hk, rfl⟩ := mem_firstN.mp hm
    by_cases hki : k = i
    · subst hki
      simpa [touch] using hnow
    · simp only [touch, Function.update_of_ne hki]
      exact h.tsc _ (mem_records hk)
  · intro m hm
    rw [records_eq] at hm
    obtain ⟨k, hk, rfl⟩ := mem_firstN.mp hm
    rw [(touch_metadata c i now k).2]
    exact h.lens _ (mem_records hk)
  · rw [hrec]
    exact h.arena.partition

theorem load_of_found {c : DuckCache} {d : Digest256} {i dst requiredLen now : Nat}
    (hfind : c.find d = (true, i)) (hlen : (c.objMetadata i).len = requiredLen) :
    c.load d dst requiredLen now =
      (loadLoop (c.touch i now) requiredLen LOOP_FUEL (c.objMetadata i).startAddr dst 0).map
        fun ws => ⟨true, c.touch i now, ws⟩ := by
  simp only [load, hfind, hlen, if_true, ne_eq, not_true_eq_false, if_false]

/-- **`load`.**  It succeeds exactly on a stored digest with the stored length; it
    then writes the bytes of the object, and only the time stamp changes. -/
theorem load_spec {c : DuckCache} (h : c.Inv) (d : Digest256) (dst requiredLen now : Nat) :
    (∃ i, i < c.nCurObjects ∧ c.objDigest i = d ∧ (c.objMetadata i).len = requiredLen ∧
      c.load d dst requiredLen now =
        some ⟨true, c.touch i now, bytesTo dst (c.contentOf (c.objMetadata i))⟩) ∨
    ((∀ i, i < c.nCurObjects → c.objDigest i = d → (c.objMetadata i).len ≠ requiredLen) ∧
      c.load d dst requiredLen now = some ⟨false, c, []⟩) := by
  by_cases hstored : ∃ i, i < c.nCurObjects ∧ c.objDigest i = d
  · obtain ⟨i, hi, rfl⟩ := hstored
    have hfind := find_of_stored h.indexed hi
    by_cases hlen : (c.objMetadata i).len = requiredLen
    · refine .inl ⟨i, hi, rfl, hlen, ?_⟩
      subst hlen
      have hmax := h.lens _ (mem_records hi)
      have hle := nPagesFor_eq_exact hmax ▸ copyPages_le_exactPages (c.objMetadata i).len
      have hpages : ∀ p ∈ follow c.next (c.objMetadata i).startAddr
          (copyPages (c.objMetadata i).len), c.isPage p = true := by
        intro p hp
        apply h.arena.isPage_chain (mem_records hi)
        obtain ⟨extra, hextra⟩ := Nat.exists_eq_add_of_le hle
        rw [chainOf, hextra, follow_add]
        exact List.mem_append_left _ hp
      have hfuel : copyPages (c.objMetadata i).len < LOOP_FUEL := by
        have := copyPages_le (c.objMetadata i).len
        simp only [MAX_LEN, ONE_PAGE_CONTENT_SIZE, PAGE_SIZE] at hmax
        simp only [LOOP_FUEL]
        omega
      have hloop := loadLoop_spec (c := c.touch i now) hmax LOOP_FUEL _
        (c.objMetadata i).startAddr dst 0 rfl (by rw [Nat.sub_zero]; exact hfuel)
        (by rw [Nat.sub_zero]; exact hpages)
      rw [load_of_found hfind rfl, hloop, Option.map_some, Nat.sub_zero, contentOf_eq c hmax]
      rfl
    · refine .inr ⟨?_, ?_⟩
      · intro j hj hd
        rwa [h.indexed.inj hj hi hd]
      · simp only [load, hfind, if_true, ne_eq, hlen, not_false_eq_true]
  · refine .inr ⟨fun i hi hd => absurd ⟨i, hi, hd⟩ hstored, ?_⟩
    have hfind : (c.find d).1 = false := by
      rw [← Bool.not_eq_true, find_fst_iff h.indexed]
      exact hstored
    simp [load, hfind]

/-! ## Storing -/

/-- The bytes that a copy into the pages `ps` may change. -/
def Within (ps : List Nat) (x : Nat) : Prop := ∃ p ∈ ps, p + 8 ≤ x ∧ x < p + PAGE_SIZE

/-- Content writes keep every next-pointer. -/
theorem read64_of_within {c : DuckCache} {ps : List Nat} {m m' : Mem}
    (h : Mem.EqOff (Within ps) m m') (hps : ∀ p ∈ ps, c.isPage p = true) {q : Nat}
    (hq : c.isPage q = true) : m'.read64 q = m.read64 q := by
  apply h.read64
  rintro i hi ⟨p, hp, h1, h2⟩
  rcases eq_or_ne p q with rfl | hne
  · omega
  · have := pages_apart (hps p hp) hq hne
    simp only [PAGE_SIZE] at *
    omega

/-- Content writes keep the content of every other page. -/
theorem read_of_within {c : DuckCache} {ps : List Nat} {m m' : Mem}
    (h : Mem.EqOff (Within ps) m m') (hps : ∀ p ∈ ps, c.isPage p = true) {q : Nat}
    (hq : c.isPage q = true) (hoff : q ∉ ps) :
    m'.read (q + 8) ONE_PAGE_CONTENT_SIZE = m.read (q + 8) ONE_PAGE_CONTENT_SIZE := by
  apply h.read
  rintro i hi ⟨p, hp, h1, h2⟩
  have hne : p ≠ q := fun heq => hoff (heq ▸ hp)
  have := pages_apart (hps p hp) hq hne
  simp only [ONE_PAGE_CONTENT_SIZE, PAGE_SIZE] at *
  omega

/-- **The copy loop of `store`.**  The chain takes the bytes of the source in
    order, the loop stops at the cell after it, and nothing else changes. -/
theorem storeLoop_spec (c : DuckCache) (ext : Mem) {len : Nat} (hlen : len ≤ MAX_LEN) :
    ∀ fuel k mem addr src curLen, copyPages (len - curLen) = k → k < fuel →
      (∀ p ∈ follow mem.read64 addr k, c.isPage p = true) → (follow mem.read64 addr k).Nodup →
      ∃ mem', storeLoop c ext len fuel mem addr src curLen =
          some ⟨mem', mem.read64^[k] addr, bytesFrom src (len - curLen)⟩ ∧
        Mem.EqOff (Within (follow mem.read64 addr k)) mem mem' ∧
        ((follow mem.read64 addr k).flatMap fun p =>
          mem'.read (p + 8) ONE_PAGE_CONTENT_SIZE).take (len - curLen) =
            (bytesFrom src (len - curLen)).map ext := by
  intro fuel
  induction fuel with
  | zero => intro _ _ _ _ _ _ h; omega
  | succ fuel ih =>
    intro k mem addr src curLen hk hfuel hpage hnd
    rcases Nat.lt_or_ge curLen len with hlt | hge
    · obtain ⟨nextLen, k', hcur, rfl, hk', hleft⟩ := copy_pass hlen hlt hk
      have haddr : c.isPage addr = true := hpage addr (by simp)
      have hpage' : ∀ p ∈ follow mem.read64 (mem.read64 addr) k', c.isPage p = true :=
        fun p hp => hpage p (by simp [hp])
      rw [follow_succ, List.nodup_cons] at hnd
      set n := min (len - curLen) ONE_PAGE_CONTENT_SIZE with hn
      set mem1 := mem.write (addr + 8) ((bytesFrom src n).map ext) with hmem1
      -- the first page takes its bytes; the pointers are as before
      have hoff1 : Mem.EqOff (Within [addr]) mem mem1 := by
        apply Mem.EqOff.write
        intro x h1 h2
        simp only [List.length_map, length_bytesFrom, hn, ONE_PAGE_CONTENT_SIZE, PAGE_SIZE] at h2
        exact ⟨addr, by simp, h1, by simp only [PAGE_SIZE]; omega⟩
      have hnext : ∀ q, c.isPage q = true → mem1.read64 q = mem.read64 q :=
        fun q hq => read64_of_within hoff1 (by simpa using haddr) hq
      have hsame : ∀ p ∈ follow mem.read64 (mem.read64 addr) k', mem1.read64 p = mem.read64 p :=
        fun p hp => hnext p (hpage' p hp)
      obtain ⟨hchain, hiter⟩ := follow_congr hsame
      have haddr1 : mem1.read64 addr = mem.read64 addr := hnext addr haddr
      obtain ⟨mem', hloop, hoff, hbytes⟩ := ih k' mem1 (mem1.read64 addr)
        (wrap64 (src + ONE_PAGE_CONTENT_SIZE)) nextLen hk' (Nat.lt_of_succ_lt_succ hfuel)
        (by rw [haddr1, hchain]; exact hpage') (by rw [haddr1, hchain]; exact hnd.2)
      rw [haddr1, hchain] at hoff hbytes
      have hreads : bytesFrom src n ++
          bytesFrom (wrap64 (src + ONE_PAGE_CONTENT_SIZE)) (len - nextLen) =
            bytesFrom src (len - curLen) := by
        rcases Nat.le_total (len - curLen) ONE_PAGE_CONTENT_SIZE with hshort | hfull
        · have hnone : len - nextLen = 0 := by
            rw [← hleft]
            exact Nat.sub_eq_zero_of_le hshort
          rw [hn, Nat.min_eq_left hshort, hnone]
          simp [bytesFrom]
        · rw [hn, Nat.min_eq_right hfull, ← bytesFrom_add, ← hleft,
            Nat.add_sub_cancel' hfull]
      refine ⟨mem', ?_, ?_, ?_⟩
      · simp only [storeLoop, if_pos hlt, if_pos haddr, ← hn, ← hmem1, hcur, hloop,
          Option.bind_eq_bind, Option.bind_some, hreads, Function.iterate_succ_apply]
        rw [haddr1, hiter]
      · refine Mem.EqOff.trans (hoff1.mono ?_) (hoff.mono ?_)
        · rintro x ⟨p, hp, hx⟩
          exact ⟨p, by simp_all, hx⟩
        · rintro x ⟨p, hp, hx⟩
          exact ⟨p, by simp [hp], hx⟩
      · -- the later passes do not come back to the first page
        have hfirst : (mem'.read (addr + 8) ONE_PAGE_CONTENT_SIZE).take (len - curLen) =
            (bytesFrom src n).map ext := by
          rw [read_of_within hoff hpage' haddr hnd.1]
          have hself := Mem.read_write_self mem (addr + 8) ((bytesFrom src n).map ext)
          rw [List.length_map, length_bytesFrom, ← hmem1] at hself
          rcases Nat.le_total (len - curLen) ONE_PAGE_CONTENT_SIZE with hshort | hfull
          · rw [Mem.read_take _ _ hshort, ← Nat.min_eq_left hshort, ← hn, hself]
          · rw [List.take_of_length_le (by simpa using hfull), ← Nat.min_eq_right hfull, ← hn,
              hself]
        rw [follow_succ, List.flatMap_cons, List.take_append, hfirst, Mem.length_read, hleft,
          hbytes, ← List.map_append, hreads]
    · have hnone : len - curLen = 0 := by omega
      rw [hnone, copyPages_zero] at hk
      subst hk
      refine ⟨mem, ?_, Mem.EqOff.refl _ _, by simp [hnone, bytesFrom]⟩
      simp [storeLoop, Nat.not_lt.mpr hge, hnone, bytesFrom]

end DuckCache

end JudgePenguin
