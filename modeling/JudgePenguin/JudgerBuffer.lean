/-
  JudgePenguin/JudgerBuffer.lean
  ==============================
  **The buffer operations of the judger.**

  The range test is wrap-free (`inRange_iff`), and an address that passed it is
  computed without a wrap (`addr_eq`).  Five of the seven operations make that test
  for every range they touch (`plain_staysInside`).  `load_cache` and `store_cache`
  do not: they hand `buffer + off` and the length to a cache that knows nothing of
  the buffer, and stay inside exactly when the copy is harmless
  (`exec_staysInside_iff`).
-/
import JudgePenguin.Judger
import JudgePenguin.DuckCacheRuns

namespace JudgePenguin

open Words

namespace Judger

/-! ## Addresses -/

/-- The bytes of the buffer. -/
def contents (j : Judger) : List UInt8 := j.mem.read j.buffer j.bufferSize.toNat

/-- `a` is the address of a byte of the buffer. -/
def InBuffer (j : Judger) (a : Nat) : Prop :=
  j.buffer ≤ a ∧ a < j.buffer + j.bufferSize.toNat

instance (j : Judger) (a : Nat) : Decidable (j.InBuffer a) := by
  unfold InBuffer
  infer_instance

/-- `a` is the address of a byte of the range `b`, in exact arithmetic. -/
def InDesc (j : Judger) (b : BufferDesc) (a : Nat) : Prop :=
  j.buffer + b.off.toNat ≤ a ∧ a < j.buffer + b.off.toNat + b.len.toNat

theorem inRange_iff {j : Judger} {off len : UInt64} : j.inRange off len = true ↔
    off.toNat < j.bufferSize.toNat ∧ off.toNat + len.toNat ≤ j.bufferSize.toNat := by
  simp only [inRange, Bool.and_eq_true, decide_eq_true_eq, UInt64.lt_iff_toNat_lt,
    UInt64.le_iff_toNat_le]
  refine and_congr_right fun hoff => ?_
  rw [UInt64.toNat_sub_of_le _ _ (UInt64.le_iff_toNat_le.mpr (Nat.le_of_lt hoff))]
  omega

theorem addr_eq {j : Judger} {off : UInt64} (h : off.toNat < j.bufferSize.toNat) :
    j.addr off = j.buffer + off.toNat := by
  have hinside := j.inside
  exact wrap64_of_lt (by omega)

/-- A range that passed the test is a range of the buffer. -/
theorem InDesc.inBuffer {j : Judger} {b : BufferDesc} {a : Nat} (h : j.InDesc b a)
    (hr : j.isValidBuffer b = true) : j.InBuffer a := by
  obtain ⟨-, hend⟩ := inRange_iff.mp hr
  exact ⟨Nat.le_trans (Nat.le_add_right _ _) h.1, by have := h.2; omega⟩

theorem mem_bytesFrom {src n a : Nat} :
    a ∈ DuckCache.bytesFrom src n ↔ ∃ i, i < n ∧ a = wrap64 (src + i) := by
  simp only [DuckCache.bytesFrom, List.mem_map, List.mem_range]
  constructor
  · rintro ⟨i, hi, rfl⟩
    exact ⟨i, hi, rfl⟩
  · rintro ⟨i, hi, rfl⟩
    exact ⟨i, hi, rfl⟩

/-- Byte `i` behind an offset is in the buffer exactly when its index is. -/
theorem inBuffer_wrap_iff (j : Judger) (off : UInt64) {i : Nat} (h : off.toNat + i < 2 ^ 64) :
    j.InBuffer (wrap64 (j.addr off + i)) ↔ off.toNat + i < j.bufferSize.toNat := by
  have hinside := j.inside
  have hsize := j.bufferSize.toNat_lt
  rw [addr, DuckCache.wrap64_wrap64_add, Nat.add_assoc]
  simp only [InBuffer, wrap64]
  omega

/-! ## Operations -/

inductive BufferOp where
  | clearBuffer (off len : UInt64)
  | readBuffer (off len : UInt64)
  | writeBuffer (off : UInt64) (data : Mem) (len : UInt64)
  | copyBuffer (dstOff srcOff len : UInt64)
  | compareBuffer (off1 off2 len : UInt64)
  | loadCache (cacheName : String) (dstOff dstLen : UInt64) (hex : Vector UInt8 64) (now : UInt64)
  | storeCache (cacheName : String) (srcOff srcLen : UInt64) (hex : Vector UInt8 64) (now : UInt64)

def exec (std : StdSort) (j : Judger) : BufferOp → Option OpResult
  | .clearBuffer off len => some (j.clearBuffer off len)
  | .readBuffer off len => some (j.readBuffer off len)
  | .writeBuffer off data len => some (j.writeBuffer off data len)
  | .copyBuffer dstOff srcOff len => some (j.copyBuffer dstOff srcOff len)
  | .compareBuffer off1 off2 len => some (j.compareBuffer off1 off2 len)
  | .loadCache name dstOff dstLen hex now => j.loadCache name dstOff dstLen hex now
  | .storeCache name srcOff srcLen hex now => j.storeCache std name srcOff srcLen hex now

/-- The range that an operation is asked to write. -/
def BufferOp.dst : BufferOp → Option BufferDesc
  | .clearBuffer off len => some ⟨off, len⟩
  | .writeBuffer off _ len => some ⟨off, len⟩
  | .copyBuffer dstOff _ len => some ⟨dstOff, len⟩
  | .loadCache _ dstOff dstLen _ _ => some ⟨dstOff, dstLen⟩
  | _ => none

/-- The operations that call `clear_judge_result` when they succeed. -/
def BufferOp.clears (op : BufferOp) : Bool := op.dst.isSome

/-- The time stamps are not zero. -/
def BufferOp.ClockOk : BufferOp → Prop
  | .loadCache _ _ _ _ now => now ≠ 0
  | .storeCache _ _ _ _ now => now ≠ 0
  | _ => True

/-- Everything the operation touched is in the buffer. -/
def OpResult.Inside (j : Judger) (r : OpResult) : Prop :=
  (∀ a ∈ r.reads, j.InBuffer a) ∧ ∀ w ∈ r.writes, w.bytes = [] ∨
    (j.buffer ≤ w.addr ∧ w.addr + w.bytes.length ≤ j.buffer + j.bufferSize.toNat)

instance (j : Judger) (r : OpResult) : Decidable (OpResult.Inside j r) := by
  unfold OpResult.Inside
  infer_instance

/-- A refusal leaves the buffer alone; every access is in the buffer and every store
    in the named range. -/
structure StaysInside (j : Judger) (op : BufferOp) (r : OpResult) : Prop where
  refused : r.ret = false → r.judger.contents = j.contents
  stores : r.judger.mem = j.mem.apply r.writes
  reads : ∀ a ∈ r.reads, j.InBuffer a
  writes : ∀ a, Mem.Touched r.writes a → j.InBuffer a ∧ ∃ b, op.dst = some b ∧ j.InDesc b a

theorem StaysInside.inside {j : Judger} {op : BufferOp} {r : OpResult} (h : StaysInside j op r) :
    r.Inside j := by
  refine ⟨h.reads, fun w hw => ?_⟩
  rcases Nat.eq_zero_or_pos w.bytes.length with h0 | hpos
  · exact .inl (List.eq_nil_of_length_eq_zero h0)
  · -- the first and the last byte
    have hfirst := (h.writes w.addr ⟨w, hw, by omega, by omega⟩).1
    have hlast := (h.writes (w.addr + w.bytes.length - 1) ⟨w, hw, by omega, by omega⟩).1
    exact .inr ⟨hfirst.1, by have := hlast.2; omega⟩

@[simp] theorem clearJudgeResult_mem (j : Judger) : j.clearJudgeResult.mem = j.mem := by
  unfold clearJudgeResult
  split <;> rfl

@[simp] theorem clearJudgeResult_buffer (j : Judger) : j.clearJudgeResult.buffer = j.buffer := by
  unfold clearJudgeResult
  split <;> rfl

@[simp] theorem clearJudgeResult_bufferSize (j : Judger) :
    j.clearJudgeResult.bufferSize = j.bufferSize := by
  unfold clearJudgeResult
  split <;> rfl

@[simp] theorem clearJudgeResult_breaks (j : Judger) : j.clearJudgeResult.breaks = j.breaks := by
  unfold clearJudgeResult
  split <;> rfl

@[simp] theorem clearJudgeResult_umem (j : Judger) : j.clearJudgeResult.umem = j.umem := by
  unfold clearJudgeResult
  split <;> rfl

@[simp] theorem clearJudgeResult_cache (j : Judger) (which : CacheName) :
    j.clearJudgeResult.cache which = j.cache which := by
  unfold clearJudgeResult
  split
  · rfl
  · cases which <;> rfl

theorem refused_staysInside (j : Judger) (op : BufferOp) : StaysInside j op j.refused where
  refused _ := rfl
  stores := rfl
  reads _ ha := absurd ha List.not_mem_nil
  writes _ := by
    rintro ⟨w, hw, -⟩
    exact absurd hw List.not_mem_nil

/-- A source range that passed the test. -/
theorem inBuffer_of_mem_bytesFrom {j : Judger} {off len : UInt64} (h : j.inRange off len = true)
    {a : Nat} (ha : a ∈ DuckCache.bytesFrom (j.addr off) len.toNat) : j.InBuffer a := by
  obtain ⟨-, hend⟩ := inRange_iff.mp h
  obtain ⟨i, hi, rfl⟩ := mem_bytesFrom.mp ha
  have hsize := j.bufferSize.toNat_lt
  exact (inBuffer_wrap_iff j off (by omega)).mpr (by omega)

/-- A destination that passed the test. -/
theorem touched_of_inRange {j : Judger} {off len : UInt64} (h : j.inRange off len = true)
    {bytes : List UInt8} (hlen : bytes.length = len.toNat) {a : Nat}
    (ha : Mem.Touched [⟨j.addr off, bytes⟩] a) : j.InBuffer a ∧ j.InDesc ⟨off, len⟩ a := by
  obtain ⟨hoff, -⟩ := inRange_iff.mp h
  obtain ⟨w, hw, h1, h2⟩ := ha
  obtain rfl := List.mem_singleton.mp hw
  rw [hlen] at h2
  rw [addr_eq hoff] at h1 h2
  have hdesc : j.InDesc ⟨off, len⟩ a := ⟨h1, h2⟩
  exact ⟨hdesc.inBuffer h, hdesc⟩

/-- An operation that only reads. -/
theorem read_staysInside {j : Judger} {op : BufferOp} {reads : List Nat} {output : Output}
    (h : ∀ a ∈ reads, j.InBuffer a) : StaysInside j op ⟨true, j, reads, [], output⟩ where
  refused hret := nomatch hret
  stores := rfl
  reads := h
  writes _ := by
    rintro ⟨w, hw, -⟩
    exact absurd hw List.not_mem_nil

/-- An operation that stores `bytes` in its destination. -/
theorem write_staysInside {j : Judger} {op : BufferOp} {off len : UInt64} {reads : List Nat}
    {bytes : List UInt8} (hdst : op.dst = some ⟨off, len⟩) (hr : j.inRange off len = true)
    (hlen : bytes.length = len.toNat) (hreads : ∀ a ∈ reads, j.InBuffer a) :
    StaysInside j op ⟨true, (j.poke [⟨j.addr off, bytes⟩]).clearJudgeResult, reads,
      [⟨j.addr off, bytes⟩], .nothing⟩ where
  refused hret := nomatch hret
  stores := clearJudgeResult_mem _
  reads := hreads
  writes a ha := by
    obtain ⟨hin, hdesc⟩ := touched_of_inRange hr hlen ha
    exact ⟨hin, _, hdst, hdesc⟩

/-- The five operations that test their ranges themselves. -/
theorem clearBuffer_staysInside (j : Judger) (off len : UInt64) :
    StaysInside j (.clearBuffer off len) (j.clearBuffer off len) := by
  unfold clearBuffer
  split
  · rename_i hr
    exact write_staysInside rfl hr List.length_replicate (fun _ h => absurd h List.not_mem_nil)
  · exact refused_staysInside j _

theorem readBuffer_staysInside (j : Judger) (off len : UInt64) :
    StaysInside j (.readBuffer off len) (j.readBuffer off len) := by
  unfold readBuffer
  split
  · rename_i hr
    exact read_staysInside fun a ha => inBuffer_of_mem_bytesFrom hr ha
  · exact refused_staysInside j _

theorem writeBuffer_staysInside (j : Judger) (off : UInt64) (data : Mem) (len : UInt64) :
    StaysInside j (.writeBuffer off data len) (j.writeBuffer off data len) := by
  unfold writeBuffer
  split
  · rename_i hr
    exact write_staysInside rfl hr (Mem.length_read _ _ _) (fun _ h => absurd h List.not_mem_nil)
  · exact refused_staysInside j _

theorem copyBuffer_staysInside (j : Judger) (dstOff srcOff len : UInt64) :
    StaysInside j (.copyBuffer dstOff srcOff len) (j.copyBuffer dstOff srcOff len) := by
  simp only [copyBuffer]
  split
  · rename_i hr
    simp only [Bool.and_eq_true] at hr
    exact write_staysInside rfl hr.1.1 (Mem.length_read _ _ _)
      fun a ha => inBuffer_of_mem_bytesFrom hr.1.2 ha
  · exact refused_staysInside j _

theorem compareBuffer_staysInside (j : Judger) (off1 off2 len : UInt64) :
    StaysInside j (.compareBuffer off1 off2 len) (j.compareBuffer off1 off2 len) := by
  unfold compareBuffer
  split
  · rename_i hr
    simp only [Bool.and_eq_true] at hr
    refine read_staysInside fun a ha => ?_
    rcases List.mem_append.mp ha with h1 | h2
    · exact inBuffer_of_mem_bytesFrom hr.1 h1
    · exact inBuffer_of_mem_bytesFrom hr.2 h2
  · exact refused_staysInside j _

/-! ## The caches -/

/-- Both caches are well formed. -/
structure CachesOk (j : Judger) : Prop where
  elf : j.elfCache.Inv
  data : j.dataCache.Inv

theorem CachesOk.cache {j : Judger} (h : CachesOk j) (which : CacheName) : (j.cache which).Inv := by
  cases which
  · exact h.elf
  · exact h.data

theorem CachesOk.setCache {j : Judger} (h : CachesOk j) {c : DuckCache} (hc : c.Inv)
    (which : CacheName) : CachesOk (j.setCache c which) := by
  cases which
  · exact ⟨hc, h.data⟩
  · exact ⟨h.elf, hc⟩

@[simp] theorem setCache_mem (j : Judger) (c : DuckCache) (which : CacheName) :
    (j.setCache c which).mem = j.mem := by
  cases which <;> rfl

/-- The digest that a request names in one of the caches, if its text and the name
    of the cache are good. -/
def Names (hex : Vector UInt8 64) (cacheName : String) (digest : Digest256)
    (which : CacheName) : Prop :=
  digestFromHex hex = some digest ∧ cacheNamed cacheName = some which

theorem Names.unique {hex : Vector UInt8 64} {name : String} {d d' : Digest256}
    {which which' : CacheName} (h : Names hex name d which) (h' : Names hex name d' which') :
    d' = d ∧ which' = which :=
  ⟨Option.some.inj (h'.1.symm.trans h.1), Option.some.inj (h'.2.symm.trans h.2)⟩

/-- A cache operation copies `len` bytes at `off` only if these are bytes of the
    buffer; the other operations make the test themselves. -/
def Harmless (j : Judger) : BufferOp → Prop
  | .loadCache name dstOff dstLen hex _ => ∀ digest which, Names hex name digest which →
    (∃ e ∈ (j.cache which).entries, e.digest = digest ∧ e.metadata.len = dstLen.toNat) →
    dstLen.toNat = 0 ∨ dstOff.toNat + dstLen.toNat ≤ j.bufferSize.toNat
  | .storeCache name srcOff srcLen hex _ => ∀ digest which, Names hex name digest which →
    (∀ e ∈ (j.cache which).entries, e.digest ≠ digest) →
    nPagesFor srcLen.toNat ≤ (j.cache which).nTotalPages →
    srcLen.toNat = 0 ∨ srcOff.toNat + srcLen.toNat ≤ j.bufferSize.toNat
  | _ => True

/-- Byte `i` of a range of the buffer. -/
theorem inDesc_wrap {j : Judger} {off len : UInt64}
    (h : off.toNat + len.toNat ≤ j.bufferSize.toNat) {i : Nat} (hi : i < len.toNat) :
    j.InBuffer (wrap64 (j.addr off + i)) ∧ j.InDesc ⟨off, len⟩ (wrap64 (j.addr off + i)) := by
  have hinside := j.inside
  have haddr : j.addr off = j.buffer + off.toNat := addr_eq (by omega)
  rw [haddr, wrap64_of_lt (by omega)]
  simp only [InBuffer, InDesc]
  omega

/-- If every byte behind an offset is in the buffer, then so is the range. -/
theorem range_le_of_inBuffer {j : Judger} {off len : UInt64}
    (h : ∀ i, i < len.toNat → j.InBuffer (wrap64 (j.addr off + i))) :
    len.toNat = 0 ∨ off.toNat + len.toNat ≤ j.bufferSize.toNat := by
  by_contra hcon
  have hoff := off.toNat_lt
  have hsize := j.bufferSize.toNat_lt
  -- the first byte behind the buffer
  have hbyte := h (max off.toNat j.bufferSize.toNat - off.toNat) (by omega)
  rw [inBuffer_wrap_iff j off (by omega)] at hbyte
  omega

section Load

variable {j : Judger} {which : CacheName} {digest : Digest256} {dstLen : UInt64}
  (dstOff now : UInt64) {name : String} {hex : Vector UInt8 64}

theorem loadCache_eq (h : Names hex name digest which) :
    j.loadCache name dstOff dstLen hex now = j.loadFrom which digest dstOff dstLen now := by
  simp only [loadCache, h.1, h.2]

theorem loadCache_refused (h : ¬ ∃ digest which, Names hex name digest which) :
    j.loadCache name dstOff dstLen hex now = some j.refused := by
  simp only [loadCache]
  split
  · rename_i d w hd hw
    exact absurd ⟨d, w, hd, hw⟩ h
  · rfl

theorem mem_byteWrites {ws : List (Nat × UInt8)} {a : Nat} :
    Mem.Touched (byteWrites ws) a ↔ ∃ w ∈ ws, w.1 = a := by
  simp only [Mem.Touched, byteWrites, List.mem_map]
  constructor
  · rintro ⟨w, ⟨v, hv, rfl⟩, h1, h2⟩
    simp only [List.length_singleton] at h2
    exact ⟨v, hv, Nat.le_antisymm h1 (Nat.lt_succ_iff.mp h2)⟩
  · rintro ⟨v, hv, rfl⟩
    exact ⟨_, ⟨v, hv, rfl⟩, Nat.le_refl _, by simp⟩

theorem mem_bytesTo {dst a : Nat} {bytes : List UInt8} :
    (∃ w ∈ DuckCache.bytesTo dst bytes, w.1 = a) ↔
      ∃ i, i < bytes.length ∧ wrap64 (dst + i) = a := by
  simp only [DuckCache.bytesTo, List.mem_mapIdx]
  constructor
  · rintro ⟨w, ⟨i, hi, rfl⟩, rfl⟩
    exact ⟨i, hi, rfl⟩
  · rintro ⟨i, hi, rfl⟩
    exact ⟨_, ⟨i, hi, rfl⟩, rfl⟩

/-- A load that finds its object touches every byte of the destination, whether it
    is in the buffer or not. -/
theorem loadFrom_hit (hinv : (j.cache which).Inv)
    (hhit : ∃ e ∈ (j.cache which).entries, e.digest = digest ∧ e.metadata.len = dstLen.toNat) :
    ∃ r, j.loadFrom which digest dstOff dstLen now = some r ∧ r.ret = true ∧ r.reads = [] ∧
      r.judger.mem = j.mem.apply r.writes ∧
      (∀ a, Mem.Touched r.writes a ↔ ∃ i, i < dstLen.toNat ∧ wrap64 (j.addr dstOff + i) = a) := by
  obtain ⟨e, he, hd, hlen⟩ := hhit
  obtain ⟨k, hk, rfl⟩ := ArrayLoops.mem_firstN.mp he
  rcases DuckCache.load_spec hinv digest (j.addr dstOff) dstLen.toNat now.toNat with
    ⟨i, hi, -, hleni, heq⟩ | ⟨hnone, -⟩
  · refine ⟨_, by simp only [loadFrom, heq, Option.map_some]; rfl, rfl, rfl, ?_, fun a => ?_⟩
    · simp [poke]
    · rw [mem_byteWrites, mem_bytesTo,
        DuckCache.length_contentOf _ (hinv.lens _ (DuckCache.mem_records hi)), hleni]
  · exact absurd hlen (hnone k hk hd)

theorem loadFrom_miss (hinv : (j.cache which).Inv)
    (hmiss : ¬ ∃ e ∈ (j.cache which).entries,
      e.digest = digest ∧ e.metadata.len = dstLen.toNat) :
    j.loadFrom which digest dstOff dstLen now =
      some ⟨false, j.setCache (j.cache which) which, [], [], .nothing⟩ := by
  rcases DuckCache.load_spec hinv digest (j.addr dstOff) dstLen.toNat now.toNat with
    ⟨i, hi, hd, hlen, -⟩ | ⟨-, heq⟩
  · exact absurd ⟨_, ArrayLoops.mem_firstN.mpr ⟨i, hi, rfl⟩, hd, hlen⟩ hmiss
  · simp only [loadFrom, heq, Option.map_some]
    rfl

theorem loadCache_staysInside_iff (hinv : CachesOk j) :
    (∃ r, j.loadCache name dstOff dstLen hex now = some r ∧
      StaysInside j (.loadCache name dstOff dstLen hex now) r) ↔
    j.Harmless (.loadCache name dstOff dstLen hex now) := by
  constructor
  · rintro ⟨r, hr, hsafe⟩ digest which hnames hhit
    obtain ⟨r', hload, -, -, -, htouched⟩ := loadFrom_hit dstOff now (hinv.cache which)
      hhit
    rw [loadCache_eq dstOff now hnames, hload, Option.some.injEq] at hr
    subst hr
    exact range_le_of_inBuffer fun i hi =>
      (hsafe.writes _ ((htouched _).mpr ⟨i, hi, rfl⟩)).1
  · intro hharmless
    by_cases hnames : ∃ digest which, Names hex name digest which
    · obtain ⟨digest, which, hnames⟩ := hnames
      rw [loadCache_eq dstOff now hnames]
      by_cases hhit : ∃ e ∈ (j.cache which).entries,
          e.digest = digest ∧ e.metadata.len = dstLen.toNat
      · obtain ⟨r, hload, hret, hreads, hmem, htouched⟩ := loadFrom_hit dstOff now
          (hinv.cache which) hhit
        refine ⟨r, hload, fun h => ?_, hmem, fun a ha => ?_, fun a ha => ?_⟩
        · rw [hret] at h
          cases h
        · rw [hreads] at ha
          exact absurd ha List.not_mem_nil
        · obtain ⟨i, hi, rfl⟩ := (htouched a).mp ha
          rcases hharmless digest which hnames hhit with h0 | hle
          · omega
          · obtain ⟨hin, hdesc⟩ := inDesc_wrap hle hi
            exact ⟨hin, _, rfl, hdesc⟩
      · rw [loadFrom_miss dstOff now (hinv.cache which) hhit]
        refine ⟨_, rfl, fun _ => ?_, by simp [Mem.apply], nofun, ?_⟩
        · cases which <;> rfl
        · rintro a ⟨w, hw, -⟩
          exact absurd hw List.not_mem_nil
    · exact ⟨_, loadCache_refused dstOff now hnames, refused_staysInside j _⟩

end Load

section Store

variable {std : StdSort} {j : Judger} {which : CacheName} {digest : Digest256}
  (srcOff srcLen now : UInt64) {name : String} {hex : Vector UInt8 64}

theorem storeCache_eq (h : Names hex name digest which) :
    j.storeCache std name srcOff srcLen hex now =
      j.storeTo std which digest srcOff srcLen now := by
  simp only [storeCache, h.1, h.2]

theorem storeCache_refused (h : ¬ ∃ digest which, Names hex name digest which) :
    j.storeCache std name srcOff srcLen hex now = some j.refused := by
  simp only [storeCache]
  split
  · rename_i d w hd hw
    exact absurd ⟨d, w, hd, hw⟩ h
  · rfl

/-- What `store_cache` hands back for what the cache did. -/
theorem storeTo_of_store {r : DuckCache.StoreResult}
    (h : DuckCache.store std (j.cache which) digest j.mem (j.addr srcOff) srcLen.toNat
      now.toNat = some r) :
    j.storeTo std which digest srcOff srcLen now =
      some ⟨r.ret, j.setCache r.cache which, r.reads, [], .nothing⟩ := by
  simp only [storeTo, h, Option.map_some]

/-- The length of a range of the buffer does not wrap the page count. -/
theorem le_maxLen {len : Nat} (h : len ≤ j.bufferSize.toNat) : len ≤ MAX_LEN := by
  have hinside := j.inside
  have hmax : MAX_LEN = 18446744073709547528 := rfl
  omega

/-- A store that stays inside: nothing was stored in the buffer, and what was read
    belongs to it. -/
theorem store_staysInside {op : BufferOp} {r : DuckCache.StoreResult}
    (h : ∀ a ∈ r.reads, j.InBuffer a) :
    StaysInside j op ⟨r.ret, j.setCache r.cache which, r.reads, [], .nothing⟩ where
  refused _ := by cases which <;> rfl
  stores := by simp [Mem.apply]
  reads := h
  writes _ := by
    rintro ⟨w, hw, -⟩
    exact absurd hw List.not_mem_nil

theorem storeCache_staysInside_iff (hinv : CachesOk j) (hnow : now ≠ 0) :
    (∃ r, j.storeCache std name srcOff srcLen hex now = some r ∧
      StaysInside j (.storeCache name srcOff srcLen hex now) r) ↔
    j.Harmless (.storeCache name srcOff srcLen hex now) := by
  have hnow' : now.toNat ≠ 0 := fun h => hnow (UInt64.toNat_inj.mp h)
  constructor
  · rintro ⟨r, hr, hsafe⟩ digest which hnames habs hfits
    have hfind := DuckCache.find_of_absent (hinv.cache which) habs
    rw [storeCache_eq srcOff srcLen now hnames, storeTo, Option.map_eq_some_iff] at hr
    obtain ⟨r', hstore, rfl⟩ := hr
    obtain ⟨-, hreads⟩ := DuckCache.store_reads srcLen.toNat_lt hfind hfits hstore
    exact range_le_of_inBuffer fun i hi => hsafe.reads _ (hreads i hi)
  · intro hharmless
    by_cases hnames : ∃ digest which, Names hex name digest which
    · obtain ⟨digest, which, hnames⟩ := hnames
      rw [storeCache_eq srcOff srcLen now hnames]
      by_cases habs : ∀ e ∈ (j.cache which).entries, e.digest ≠ digest
      · have hfind := DuckCache.find_of_absent (hinv.cache which) habs
        by_cases hfits : nPagesFor srcLen.toNat ≤ (j.cache which).nTotalPages
        · have hrange := hharmless digest which hnames habs hfits
          have hmax : srcLen.toNat ≤ MAX_LEN := le_maxLen (j := j) (by omega)
          rcases DuckCache.store_spec std (hinv.cache which) digest j.mem (j.addr srcOff)
            hmax hnow' with
            ⟨hfound, -⟩ | ⟨-, hbig, -⟩ | ⟨-, -, c', evicted, heq, -⟩
          · rw [hfind] at hfound
            cases hfound
          · omega
          · refine ⟨_, storeTo_of_store srcOff srcLen now heq, store_staysInside fun a ha => ?_⟩
            obtain ⟨i, hi, rfl⟩ := mem_bytesFrom.mp ha
            exact (inDesc_wrap (hrange.resolve_left (by omega)) hi).1
        · exact ⟨_, storeTo_of_store srcOff srcLen now (DuckCache.store_of_big hfind j.mem
            (j.addr srcOff) now.toNat (Nat.lt_of_not_le hfits)), store_staysInside nofun⟩
      · obtain ⟨e, he, hd⟩ := not_forall₂.mp habs
        obtain rfl := not_not.mp hd
        exact ⟨_, storeTo_of_store srcOff srcLen now (DuckCache.store_of_found
          (DuckCache.find_of_entry (hinv.cache which) he) j.mem (j.addr srcOff) srcLen.toNat
          now.toNat), store_staysInside nofun⟩
    · exact ⟨_, storeCache_refused srcOff srcLen now hnames, refused_staysInside j _⟩

end Store

/-! ## Every operation -/

/-- **Where the operations stay inside.**  The five that test their ranges always
    do; a cache operation does exactly when its copy is harmless. -/
theorem exec_staysInside_iff (std : StdSort) {j : Judger} (hinv : CachesOk j) (op : BufferOp)
    (hclock : op.ClockOk) :
    (∃ r, j.exec std op = some r ∧ StaysInside j op r) ↔ j.Harmless op := by
  cases op with
  | clearBuffer off len => exact iff_of_true ⟨_, rfl, clearBuffer_staysInside j off len⟩ trivial
  | readBuffer off len => exact iff_of_true ⟨_, rfl, readBuffer_staysInside j off len⟩ trivial
  | writeBuffer off data len =>
    exact iff_of_true ⟨_, rfl, writeBuffer_staysInside j off data len⟩ trivial
  | copyBuffer dstOff srcOff len =>
    exact iff_of_true ⟨_, rfl, copyBuffer_staysInside j dstOff srcOff len⟩ trivial
  | compareBuffer off1 off2 len =>
    exact iff_of_true ⟨_, rfl, compareBuffer_staysInside j off1 off2 len⟩ trivial
  | loadCache name dstOff dstLen hex now => exact loadCache_staysInside_iff dstOff now hinv
  | storeCache name srcOff srcLen hex now =>
    exact storeCache_staysInside_iff srcOff srcLen now hinv hclock

end Judger

end JudgePenguin
