/-
  JudgePenguin/JudgerRefinement.lean
  ==================================
  **The judger is the service.**

  `client` is the judger as its clients meet it: any sequence of calls after
  `Judger::init`, each with the answer that the code computes, where a time stamp is
  not zero and no call reaches outside the buffer.  `view` forgets addresses, chains
  of pages, time stamps and counters of free pages.  Every step of `client` is, seen
  through `view`, a step of the service (`simulates`), so every history of the judger
  is a history of the service (`client_refines`).
-/
import JudgePenguin.JudgerService
import JudgePenguin.JudgerLeftovers
import JudgePenguin.JudgerAccounting
import JudgePenguin.DuckCacheLru
import Mathlib.Data.List.Induction

namespace JudgePenguin

open Words Splice

namespace ELF

/-! ## Files that hold the same bytes -/

section SameBytes

variable {f f' : ElfFile} (hlen : f'.len = f.len)
  (hbytes : ∀ i < f.len.toNat, f'.mem (f'.buf + i) = f.mem (f.buf + i))

include hbytes

theorem get_of_sameBytes {off n : Nat} (h : off + n ≤ f.len.toNat) :
    f'.get off n = f.get off n := by
  unfold ElfFile.get Mem.readLE Mem.read
  congr 1
  apply List.map_congr_left
  intro i hi
  have hi' := List.mem_range.mp hi
  rw [Nat.add_assoc, Nat.add_assoc]
  exact hbytes (off + i) (by omega)

include hlen

/-- Acceptance depends on the bytes inside the file and the sizes of the regions. -/
theorem Accepts.sameBytes {config config' : AppConfig} {v : Nat} (h : Accepts f config v)
    (hlimit : config'.limit = config.limit) (hregions : config'.regions = config.regions) :
    Accepts f' config' v := by
  have h64 := h.header.len
  have hget : ∀ {off n : Nat}, off + n ≤ 64 → f'.get off n = f.get off n :=
    fun hle => get_of_sameBytes hbytes (Nat.le_trans hle h64)
  have hehdr : f'.ehdr = f.ehdr := by
    simp only [ElfFile.ehdr, hget (show 24 + 8 ≤ 64 by decide), hget (show 32 + 8 ≤ 64 by decide),
      hget (show 54 + 2 ≤ 64 by decide), hget (show 56 + 2 ≤ 64 by decide)]
  have hphdr : ∀ i < f.ehdr.phnum,
      f'.phdr (f.ehdr.phdrIndex i) = f.phdr (f.ehdr.phdrIndex i) := by
    intro i hi
    have hin := h.phdrs i hi
    have hfield : ∀ {k n : Nat}, k + n ≤ 56 →
        f'.get (f.ehdr.phdrIndex i + k) n = f.get (f.ehdr.phdrIndex i + k) n :=
      fun hle => get_of_sameBytes hbytes (by omega)
    have hfirst := hfield (show 0 + 4 ≤ 56 by decide)
    rw [Nat.add_zero] at hfirst
    simp only [ElfFile.phdr, hfirst, hfield (show 8 + 8 ≤ 56 by decide),
      hfield (show 16 + 8 ≤ 56 by decide), hfield (show 32 + 8 ≤ 56 by decide),
      hfield (show 40 + 8 ≤ 56 by decide), hfield (show 48 + 8 ≤ 56 by decide)]
  have hloads : f'.loads = f.loads := by
    unfold ElfFile.loads ElfFile.loadsAmong
    rw [hehdr]
    congr 1
    exact List.map_congr_left fun i hi => hphdr i (List.mem_range.mp hi)
  obtain ⟨lo, hi, hmin, hmax, hfits⟩ := h.fits
  have hok := h.header
  refine ⟨⟨?_, ?_, ?_, ?_, ?_, ?_, ?_, ?_, ?_, ?_, ?_, ?_, ?_, ?_, ?_⟩, ?_, ?_, lo, hi, ?_, ?_, ?_⟩
  · rw [hlen]; exact hok.len
  · rw [hget (by decide)]; exact hok.mag0
  · rw [hget (by decide)]; exact hok.mag1
  · rw [hget (by decide)]; exact hok.mag2
  · rw [hget (by decide)]; exact hok.mag3
  · rw [hget (by decide)]; exact hok.class64
  · rw [hget (by decide)]; exact hok.data
  · rw [hget (by decide)]; exact hok.identVersion
  · rw [hget (by decide)]; exact hok.osabi
  · rw [hget (by decide)]; exact hok.type
  · rw [hget (by decide)]; exact hok.machine
  · rw [hget (by decide)]; exact hok.version
  · rw [hehdr, hlen]; exact hok.phoff
  · rw [hehdr, hlen]; exact hok.phentsize
  · rw [hehdr, hlen]; exact hok.phnum
  · rw [hehdr, hlen]; exact h.phdrs
  · rw [hloads]
    intro p hp
    have hseg := h.segments p hp
    exact ⟨hseg.align, hseg.memsz, by rw [hlen]; exact hseg.inFile⟩
  · rw [hloads]; exact hmin
  · rw [hloads]; exact hmax
  · exact ⟨hfits.start, hfits.nonempty, by rw [hlimit]; exact hfits.limit,
      by rw [hregions, hlimit]; exact hfits.room⟩

end SameBytes

end ELF

namespace DuckCache

/-! ## A cache as a shelf -/

/-- The stored digests with the bytes stored under them. -/
def shelf (c : DuckCache) : List Object := c.entries.map fun e => (e.digest, c.contentOf e.metadata)

theorem mem_shelf {c : DuckCache} {o : Object} :
    o ∈ c.shelf ↔ ∃ i, i < c.nCurObjects ∧ c.objDigest i = o.1 ∧
      c.contentOf (c.objMetadata i) = o.2 := by
  simp only [shelf, List.mem_map]
  constructor
  · rintro ⟨e, he, rfl⟩
    obtain ⟨i, hi, rfl⟩ := ArrayLoops.mem_firstN.mp he
    exact ⟨i, hi, rfl, rfl⟩
  · rintro ⟨i, hi, hd, hb⟩
    exact ⟨c.entry i, ArrayLoops.mem_firstN.mpr ⟨i, hi, rfl⟩, Prod.ext hd hb⟩

theorem length_shelf (c : DuckCache) : c.shelf.length = c.nCurObjects := by
  rw [shelf, List.length_map, entries, ArrayLoops.length_firstN]

theorem touch_shelf (c : DuckCache) (i now : Nat) : (c.touch i now).shelf = c.shelf := by
  simp only [shelf, entries, ArrayLoops.map_firstN]
  refine ArrayLoops.firstN_congr fun k _ => ?_
  exact Prod.ext rfl (touch_contentOf c i now k)

theorem length_content {c : DuckCache} (hinv : c.Inv) {e : Entry} (he : e ∈ c.entries) :
    (c.contentOf e.metadata).length = e.metadata.len :=
  length_contentOf c (hinv.lens _ (List.mem_map.mpr ⟨e, he, rfl⟩))

/-- The pages of the objects and the free pages are all pages. -/
theorem used_shelf {c : DuckCache} (hinv : c.Inv) :
    Service.used c.shelf + c.nFreePages = c.nTotalPages := by
  have hpages : Service.used c.shelf = (c.records.map fun m => nPagesFor m.len).sum := by
    simp only [Service.used, shelf, records, List.map_map]
    refine congrArg List.sum (List.map_congr_left fun e he => ?_)
    simp only [Function.comp_apply, length_content hinv he]
    rw [nPagesFor_eq_exact (hinv.lens _ (List.mem_map.mpr ⟨e, he, rfl⟩))]
  rw [hpages, Nat.add_comm]
  exact hinv.arena.length_eq

/-- An insertion, seen on the shelf. -/
theorem Inserted.shelved {c c' : DuckCache} (hinv : c.Inv) {d : Digest256} {bytes : List UInt8}
    {evicted : List Digest256} (h : Inserted c d bytes evicted c')
    (hspared : exactPages bytes.length ≤ c.nFreePages → c.nCurObjects < c.nMaxObjects →
      evicted = []) :
    Service.Shelved c.nTotalPages c.nMaxObjects c.shelf (d, bytes) evicted c'.shelf := by
  obtain ⟨m, -, hbytes, hperm⟩ := h.entries
  have hused := used_shelf hinv
  have hused' := used_shelf h.inv
  refine ⟨?_, fun hpages hslots => hspared (by simp only at hpages; omega) ?_, ?_, ?_⟩
  · have hmap := hperm.map fun e => (e.digest, c'.contentOf e.metadata)
    rw [List.map_cons, hbytes] at hmap
    refine hmap.trans (List.Perm.cons _ (List.Perm.of_eq ?_))
    rw [shelf, List.filter_map]
    exact List.map_congr_left fun e he => by rw [h.content e he]
  · rwa [length_shelf] at hslots
  · rw [← h.totalPages]
    omega
  · rw [length_shelf, ← h.maxObjects]
    exact h.inv.curLe

end DuckCache

namespace Judger

/-! ## The view -/

def view (j : Judger) : Service where
  bytes := j.contents
  shelf which := (j.cache which).shelf
  seqNum := j.judgeSeqNum
  result := j.judgeResult
  nJudges := j.nJudges
  totalTimeNs := j.totalTimeNs

def config (j : Judger) : Service.Config where
  size := j.bufferSize.toNat
  vaddrBreak := j.breaks.vaddrBreak
  pages which := (j.cache which).nTotalPages
  slots which := (j.cache which).nMaxObjects

section View

variable {j : Judger} {off len : UInt64}

theorem length_contents (j : Judger) : j.contents.length = j.bufferSize.toNat :=
  Mem.length_read _ _ _

theorem view_in : j.view.In off len ↔ j.inRange off len = true := by
  rw [inRange_iff, Service.In, ← length_contents j]
  rfl

theorem not_view_in : ¬ j.view.In off len ↔ ¬ j.inRange off len = true := not_congr view_in

theorem view_part (h : off.toNat + len.toNat ≤ j.bufferSize.toNat) :
    j.view.part off len = j.mem.read (j.buffer + off.toNat) len.toNat :=
  Mem.read_slice j.mem j.buffer h

theorem view_part_addr (h : j.inRange off len = true) :
    j.view.part off len = j.mem.read (j.addr off) len.toNat := by
  obtain ⟨hoff, hle⟩ := inRange_iff.mp h
  rw [view_part hle, addr_eq hoff]

theorem clear_view (h : ClearedOk j) : j.clearJudgeResult.view =
    { j.view with seqNum := CLEARED_SEQ_NUM, result := .notJudged } := by
  unfold clearJudgeResult
  split
  · rename_i hflag
    obtain ⟨hseq, hresult⟩ := h hflag
    simp only [view, hseq, hresult]
  · have hcache : ∀ which, (({ j with
        judgeResultCleared := true
        judgeSeqNum := CLEARED_SEQ_NUM
        judgeResult := .notJudged } : Judger).cache which) = j.cache which := by
      intro which
      cases which <;> rfl
    simp only [view, hcache]
    rfl

/-- Stores that come to new bytes at `off`. -/
theorem poke_view {ws : List Mem.Write} {bs : List UInt8} (h : ClearedOk j)
    (hmem : (j.mem.apply ws).read j.buffer j.bufferSize.toNat =
      splice j.contents off.toNat bs) :
    (j.poke ws).clearJudgeResult.view = j.view.put off bs := by
  have hbytes : (j.poke ws).view.bytes = splice j.contents off.toNat bs := hmem
  have hcache : ∀ which, (j.poke ws).cache which = j.cache which := by
    intro which
    cases which <;> rfl
  have hview : (j.poke ws).view = { j.view with bytes := splice j.contents off.toNat bs } := by
    simp only [← hbytes, view, hcache]
    rfl
  rw [clear_view (j := j.poke ws) h, hview]
  rfl

/-- One store inside the buffer. -/
theorem contents_write {bs : List UInt8} (hoff : off.toNat < j.bufferSize.toNat)
    (hle : off.toNat + bs.length ≤ j.bufferSize.toNat) :
    (j.mem.write (j.addr off) bs).read j.buffer j.bufferSize.toNat =
      splice j.contents off.toNat bs := by
  rw [addr_eq hoff]
  exact Mem.read_write j.mem j.buffer hle

theorem put_view {bs : List UInt8} (h : ClearedOk j) (hr : j.inRange off len = true)
    (hlen : bs.length = len.toNat) :
    (j.poke [⟨j.addr off, bs⟩]).clearJudgeResult.view = j.view.put off bs := by
  obtain ⟨hoff, hle⟩ := inRange_iff.mp hr
  have hle' : off.toNat + bs.length ≤ j.bufferSize.toNat := by omega
  exact poke_view h (contents_write hoff hle')

end View

/-! ## The operations that test their ranges -/

section Plain

variable {cfg : Service.Config} {j : Judger} (h : ClearedOk j)

theorem noOverlap_iff {dst src len : UInt64} (hdst : j.inRange dst len = true)
    (hsrc : j.inRange src len = true) :
    (decide (dst + len ≤ src) || decide (src + len ≤ dst)) = true ↔
      BufferDesc.Apart ⟨dst, len⟩ ⟨src, len⟩ := by
  have h1 : (dst + len).toNat = dst.toNat + len.toNat := end_toNat (b := ⟨dst, len⟩) (inRange_iff.mp hdst)
  have h2 : (src + len).toNat = src.toNat + len.toNat := end_toNat (b := ⟨src, len⟩) (inRange_iff.mp hsrc)
  simp only [Bool.or_eq_true, decide_eq_true_eq, UInt64.le_iff_toNat_le, h1, h2, BufferDesc.Apart]

theorem readBuffer_step (off len : UInt64) :
    Service.Step cfg j.view (.buffer (.readBuffer off len) (j.readBuffer off len).ret
      (j.readBuffer off len).output) (j.readBuffer off len).judger.view := by
  unfold readBuffer
  split
  · rename_i hr
    rw [← view_part_addr hr]
    exact .read (view_in.mpr hr)
  · rename_i hr
    exact .readOut (not_view_in.mpr hr)

theorem compareBuffer_step (off1 off2 len : UInt64) :
    Service.Step cfg j.view (.buffer (.compareBuffer off1 off2 len)
      (j.compareBuffer off1 off2 len).ret (j.compareBuffer off1 off2 len).output)
      (j.compareBuffer off1 off2 len).judger.view := by
  unfold compareBuffer
  split
  · rename_i hr
    rw [Bool.and_eq_true] at hr
    rw [← view_part_addr hr.1, ← view_part_addr hr.2]
    exact .compare (view_in.mpr hr.1) (view_in.mpr hr.2)
  · rename_i hr
    rw [Bool.and_eq_true] at hr
    exact .compareOut fun hin => hr ⟨view_in.mp hin.1, view_in.mp hin.2⟩

include h

theorem clearBuffer_step (off len : UInt64) :
    Service.Step cfg j.view (.buffer (.clearBuffer off len) (j.clearBuffer off len).ret
      (j.clearBuffer off len).output) (j.clearBuffer off len).judger.view := by
  unfold clearBuffer
  split
  · rename_i hr
    simp only [put_view h hr List.length_replicate]
    exact .clear (view_in.mpr hr)
  · rename_i hr
    exact .clearOut (not_view_in.mpr hr)

theorem writeBuffer_step (off : UInt64) (data : Mem) (len : UInt64) :
    Service.Step cfg j.view (.buffer (.writeBuffer off data len) (j.writeBuffer off data len).ret
      (j.writeBuffer off data len).output) (j.writeBuffer off data len).judger.view := by
  unfold writeBuffer
  split
  · rename_i hr
    simp only [put_view h hr (Mem.length_read _ _ _)]
    exact .write (view_in.mpr hr)
  · rename_i hr
    exact .writeOut (not_view_in.mpr hr)

theorem copyBuffer_step (dst src len : UInt64) :
    Service.Step cfg j.view (.buffer (.copyBuffer dst src len) (j.copyBuffer dst src len).ret
      (j.copyBuffer dst src len).output) (j.copyBuffer dst src len).judger.view := by
  simp only [copyBuffer]
  split
  · rename_i hr
    simp only [Bool.and_eq_true] at hr
    obtain ⟨⟨hdst, hsrc⟩, hno⟩ := hr
    simp only [put_view h hdst (Mem.length_read _ _ _)]
    rw [← view_part_addr hsrc]
    exact .copy (view_in.mpr hdst) (view_in.mpr hsrc) ((noOverlap_iff hdst hsrc).mp hno)
  · rename_i hr
    simp only [Bool.and_eq_true] at hr
    refine .copyOut fun hin => hr ?_
    have hdst := view_in.mp hin.1
    have hsrc := view_in.mp hin.2.1
    exact ⟨⟨hdst, hsrc⟩, (noOverlap_iff hdst hsrc).mpr hin.2.2⟩

end Plain

/-! ## The caches -/

/-- The byte stores of a load are one store. -/
theorem apply_byteWrites (m : Mem) (a : Nat) (bs : List UInt8) (h : a + bs.length ≤ 2 ^ 64) :
    m.apply (byteWrites (DuckCache.bytesTo a bs)) = m.write a bs := by
  induction bs using List.reverseRecOn with
  | nil => rw [Mem.write_nil]; rfl
  | append_singleton bs b ih =>
    rw [List.length_append, List.length_singleton] at h
    have hone : byteWrites (DuckCache.bytesTo (wrap64 (a + bs.length)) [b]) =
        [⟨a + bs.length, [b]⟩] := by
      simp only [byteWrites, DuckCache.bytesTo, List.mapIdx_cons, List.mapIdx_nil, List.map_cons,
        List.map_nil, Nat.add_zero, DuckCache.wrap64_wrap64_add]
      rw [wrap64_of_lt (by omega)]
    rw [DuckCache.bytesTo_append, byteWrites, List.map_append, ← byteWrites, ← byteWrites, hone,
      Mem.apply_append, ih (by omega), ← Mem.write_append]
    rfl

section Caches

variable {cfg : Service.Config} {j : Judger} {which : CacheName} {d : Digest256}

theorem setCache_view (j : Judger) {c : DuckCache} (which : CacheName) :
    (j.setCache c which).view =
      { j.view with shelf := fun w => if w = which then c.shelf else j.view.shelf w } := by
  cases which
  · simp only [view, setCache, contents]
    congr 1
    funext w
    cases w <;> rfl
  · simp only [view, setCache, contents]
    congr 1
    funext w
    cases w <;> rfl

/-- A cache whose shelf did not change. -/
theorem setCache_view_same (j : Judger) {c : DuckCache} {which : CacheName}
    (h : c.shelf = (j.cache which).shelf) : (j.setCache c which).view = j.view := by
  rw [setCache_view, h]
  have hshelf : (fun w => if w = which then (j.cache which).shelf else j.view.shelf w) =
      j.view.shelf := by
    funext w
    split
    · rename_i hw
      rw [hw]
      rfl
    · rfl
  rw [hshelf]

/-- An object on the shelf, as `find` sees it. -/
theorem mem_view_shelf {o : Object} : o ∈ j.view.shelf which ↔
    ∃ i, i < (j.cache which).nCurObjects ∧ (j.cache which).objDigest i = o.1 ∧
      (j.cache which).contentOf ((j.cache which).objMetadata i) = o.2 := DuckCache.mem_shelf

theorem loadFrom_step (hcaches : CachesOk j) (hcleared : ClearedOk j) {name : String}
    {off len now : UInt64} {hex : Vector UInt8 64} (hname : Names hex name d which) {r : OpResult}
    (hload : j.loadFrom which d off len now = some r) (hin : r.Inside j) :
    Service.Step cfg j.view (.buffer (.loadCache name off len hex now) r.ret r.output)
      r.judger.view := by
  obtain ⟨l, hl, rfl⟩ := Option.map_eq_some_iff.mp hload
  have hinv := hcaches.cache which
  rcases DuckCache.load_spec hinv d (j.addr off) len.toNat now.toNat with
    ⟨i, hi, hd, hlen, heq⟩ | ⟨hnone, heq⟩
  · rw [heq, Option.some.injEq] at hl
    subst hl
    set bs := (j.cache which).contentOf ((j.cache which).objMetadata i) with hbs
    have hbslen : bs.length = len.toNat := by
      rw [hbs, DuckCache.length_contentOf _ (hinv.lens _ (DuckCache.mem_records hi)), hlen]
    have hheld : (d, bs) ∈ j.view.shelf which := mem_view_shelf.mpr ⟨i, hi, hd, rfl⟩
    -- every byte that was stored is in the buffer
    have hrange : len.toNat = 0 ∨ off.toNat + len.toNat ≤ j.bufferSize.toNat := by
      refine range_le_of_inBuffer fun k hk => ?_
      obtain ⟨w, hw, hwk⟩ := mem_bytesTo.mpr ⟨k, hbslen ▸ hk, rfl⟩
      rcases hin.2 ⟨w.1, [w.2]⟩ (List.mem_map.mpr ⟨w, hw, rfl⟩) with hnil | ⟨hlo, hhi⟩
      · cases hnil
      · rw [hwk] at hlo hhi
        exact ⟨hlo, hhi⟩
    have hmem : ((j.mem).apply (byteWrites (DuckCache.bytesTo (j.addr off) bs))).read j.buffer
        j.bufferSize.toNat = splice j.contents off.toNat bs := by
      rcases Nat.eq_zero_or_pos len.toNat with hzero | hpos
      · rw [List.eq_nil_of_length_eq_zero (hbslen.trans hzero), splice_nil]
        rfl
      · have hinside := j.inside
        have hoff : off.toNat < j.bufferSize.toNat := by omega
        have hend : j.addr off + bs.length ≤ 2 ^ 64 := by
          rw [addr_eq hoff]
          omega
        rw [apply_byteWrites _ _ _ hend]
        exact contents_write hoff (by omega)
    have hview : ((j.setCache ((j.cache which).touch i now.toNat) which).poke
        (byteWrites (DuckCache.bytesTo (j.addr off) bs))).clearJudgeResult.view =
          j.view.put off bs := by
      have hset := setCache_view_same j (DuckCache.touch_shelf (j.cache which) i now.toNat)
      rw [← hset]
      refine poke_view ?_ ?_
      · cases which <;> exact hcleared
      · cases which <;> exact hmem
    simp only [if_true, hview]
    have hsize : j.view.bytes.length = j.bufferSize.toNat := length_contents j
    rw [← hsize] at hrange
    exact .load hname hheld hbslen hrange
  · rw [heq, Option.some.injEq] at hl
    subst hl
    have hview : ((j.setCache (j.cache which) which).poke (byteWrites [])).view = j.view := by
      have hpoke : (j.setCache (j.cache which) which).poke (byteWrites []) =
          j.setCache (j.cache which) which := rfl
      rw [hpoke, setCache_view_same j rfl]
    simp only [Bool.false_eq_true, if_false, hview]
    refine .loadMiss fun d' which' bs hname' hheld hlen => ?_
    obtain ⟨rfl, rfl⟩ := hname.unique hname'
    obtain ⟨i, hi, hd, hbytes⟩ := mem_view_shelf.mp hheld
    refine hnone i hi hd ?_
    simp only at hbytes
    rw [← hlen, ← hbytes, DuckCache.length_contentOf _ (hinv.lens _ (DuckCache.mem_records hi))]

theorem find_false_iff (hinv : (j.cache which).Inv) :
    ((j.cache which).find d).1 = false ↔ ∀ bs, (d, bs) ∉ j.view.shelf which := by
  rw [← Bool.not_eq_true, DuckCache.find_fst_iff hinv.indexed]
  constructor
  · rintro habs bs hmem
    obtain ⟨i, hi, hd, -⟩ := mem_view_shelf.mp hmem
    exact habs ⟨i, hi, hd⟩
  · rintro hall ⟨i, hi, hd⟩
    exact hall _ (mem_view_shelf.mpr ⟨i, hi, hd, rfl⟩)

/-- The wrapped page count refuses no object that would fit, and none that is too
    long to be counted fits. -/
theorem exactPages_of_big {c : DuckCache} (hinv : c.Inv) {len : Nat}
    (hbig : c.nTotalPages < nPagesFor len) : c.nTotalPages < exactPages len := by
  by_cases hlen : len ≤ MAX_LEN
  · rwa [nPagesFor_eq_exact hlen] at hbig
  · have hbase := hinv.arena.baseLe
    have hmul := le_exactPages_mul len
    have hmax : MAX_LEN = 18446744073709547528 := rfl
    have hcontent : ONE_PAGE_CONTENT_SIZE = 4088 := rfl
    have hpage : PAGE_SIZE = 4096 := rfl
    rw [hcontent] at hmul
    rw [hpage] at hbase
    omega

/-- The bytes that a store copies. -/
theorem stored_bytes {off len : UInt64}
    (h : len.toNat = 0 ∨ off.toNat + len.toNat ≤ j.bufferSize.toNat) :
    (DuckCache.bytesFrom (j.addr off) len.toNat).map j.mem = j.view.part off len := by
  rcases Nat.eq_zero_or_pos len.toNat with hzero | hpos
  · simp only [DuckCache.bytesFrom, Service.part, slice, hzero, List.range_zero, List.map_nil,
      List.take_zero]
  · have hinside := j.inside
    have hle := h.resolve_left (Nat.ne_of_gt hpos)
    rw [view_part hle, addr_eq (by omega), DuckCache.bytesFrom, List.map_map, Mem.read]
    refine List.map_congr_left fun i hi => ?_
    have hi' := List.mem_range.mp hi
    simp only [Function.comp_apply]
    rw [wrap64_of_lt (by omega)]

/-- What a store that reads only the buffer came to. -/
inductive StoreCase (j : Judger) (which : CacheName) (d : Digest256) (off len : UInt64)
    (s : DuckCache.StoreResult) : Prop where
  | held {bs : List UInt8} (hheld : (d, bs) ∈ j.view.shelf which)
    (heq : s = ⟨true, j.cache which, [], []⟩)
  | big (hnew : ∀ bs, (d, bs) ∉ j.view.shelf which)
    (hbig : (j.cache which).nTotalPages < exactPages len.toNat)
    (heq : s = ⟨false, j.cache which, [], []⟩)
  | inserted {c' : DuckCache} {evicted : List Digest256} {reads : List Nat}
    (hnew : ∀ bs, (d, bs) ∉ j.view.shelf which)
    (hrange : len.toNat = 0 ∨ off.toNat + len.toNat ≤ j.bufferSize.toNat)
    (hins : DuckCache.Inserted (j.cache which) d (j.view.part off len) evicted c')
    (hspared : exactPages (j.view.part off len).length ≤ (j.cache which).nFreePages →
      (j.cache which).nCurObjects < (j.cache which).nMaxObjects → evicted = [])
    (heq : s = ⟨true, c', evicted, reads⟩)

theorem storeCase {std : StdSort} (hcaches : CachesOk j) {off len now : UInt64} (hnow : now ≠ 0)
    {s : DuckCache.StoreResult} (hs : DuckCache.store std (j.cache which) d j.mem (j.addr off)
      len.toNat now.toNat = some s) (hreads : ∀ a ∈ s.reads, j.InBuffer a) :
    StoreCase j which d off len s := by
  have hinv := hcaches.cache which
  cases hfind : ((j.cache which).find d).1 with
  | true =>
    rw [DuckCache.store_of_found hfind, Option.some.injEq] at hs
    obtain ⟨i, hi, hd⟩ := (DuckCache.find_fst_iff hinv.indexed d).mp hfind
    exact .held (mem_view_shelf.mpr ⟨i, hi, hd, rfl⟩) hs.symm
  | false =>
    have habs := (find_false_iff hinv).mp hfind
    by_cases hfits : nPagesFor len.toNat ≤ (j.cache which).nTotalPages
    · obtain ⟨-, hall⟩ := DuckCache.store_reads len.toNat_lt hfind hfits hs
      have hrange := range_le_of_inBuffer fun i hi => hreads _ (hall i hi)
      have hmax : len.toNat ≤ MAX_LEN := le_maxLen (j := j) (by omega)
      have hnow' := toNat_ne_zero hnow
      rcases DuckCache.store_spec std hinv d j.mem (j.addr off) hmax hnow' with
        ⟨hfound, -⟩ | ⟨-, hbig, -⟩ | ⟨-, -, c', evicted, heq, hins⟩
      · rw [hfind] at hfound
        cases hfound
      · omega
      · -- the same call, seen as a replacement, evicts nothing needlessly
        have hnone : ∀ e ∈ (j.cache which).entries, e.digest ≠ d := by
          intro e he hd
          obtain ⟨i, hi, rfl⟩ := ArrayLoops.mem_firstN.mp he
          exact habs _ (mem_view_shelf.mpr ⟨i, hi, hd, rfl⟩)
        obtain ⟨r', victims, heq', hrep⟩ := DuckCache.store_replaces std hinv hnone j.mem
          (j.addr off) hmax hnow' (by rw [← nPagesFor_eq_exact hmax]; exact hfits)
        rw [heq, Option.some.injEq] at hs heq'
        have hbytes := stored_bytes hrange
        have hlen : (j.view.part off len).length = len.toNat := by
          rw [← hbytes, List.length_map, DuckCache.bytesFrom, List.length_map, List.length_range]
        rw [hbytes] at hins
        refine .inserted habs hrange hins (fun h1 h2 => ?_) hs.symm
        rw [hlen] at h1
        have hevicted := hrep.evicted
        rw [hrep.nothing h1 h2, ← heq'] at hevicted
        exact hevicted
    · have hbig := Nat.lt_of_not_le hfits
      rw [DuckCache.store_of_big hfind j.mem _ _ hbig, Option.some.injEq] at hs
      exact .big habs (exactPages_of_big hinv hbig) hs.symm

theorem storeTo_step {std : StdSort} (hcaches : CachesOk j) (hcfg : j.config = cfg) {name : String}
    {off len now : UInt64} {hex : Vector UInt8 64} (hname : Names hex name d which) (hnow : now ≠ 0)
    {r : OpResult} (hstore : j.storeTo std which d off len now = some r) (hin : r.Inside j) :
    Service.Step cfg j.view (.buffer (.storeCache name off len hex now) r.ret r.output)
      r.judger.view := by
  obtain ⟨s, hs, rfl⟩ := Option.map_eq_some_iff.mp hstore
  cases storeCase hcaches hnow hs hin.1 with
  | held hheld heq =>
    subst heq
    simp only [setCache_view_same j rfl]
    exact .storeHeld hname hheld
  | big hnew hbig heq =>
    subst heq
    simp only [setCache_view_same j rfl]
    refine .storeOut fun d' which' hname' => ?_
    obtain ⟨rfl, rfl⟩ := hname.unique hname'
    rw [← hcfg]
    exact ⟨hnew, hbig⟩
  | inserted hnew hrange hins hspared heq =>
    subst heq
    have hshelved := hins.shelved (hcaches.cache which) hspared
    have hsize : j.view.bytes.length = j.bufferSize.toNat := length_contents j
    rw [← hsize] at hrange
    simp only [setCache_view]
    rw [← hcfg]
    exact .store hname hnew hrange hshelved

/-- Two caches with the same limits. -/
def SameLimits (c c' : DuckCache) : Prop :=
  c'.nTotalPages = c.nTotalPages ∧ c'.nMaxObjects = c.nMaxObjects

theorem setCache_config (j : Judger) {c : DuckCache} {which : CacheName}
    (h : SameLimits (j.cache which) c) : (j.setCache c which).config = j.config := by
  have hpages : ∀ w, ((j.setCache c which).cache w).nTotalPages = (j.cache w).nTotalPages := by
    intro w
    cases which <;> cases w <;> first | rfl | exact h.1
  have hslots : ∀ w, ((j.setCache c which).cache w).nMaxObjects = (j.cache w).nMaxObjects := by
    intro w
    cases which <;> cases w <;> first | rfl | exact h.2
  simp only [config, hpages, hslots]
  cases which <;> rfl

theorem clear_config (j : Judger) : j.clearJudgeResult.config = j.config := by
  simp only [config, clearJudgeResult_bufferSize, clearJudgeResult_breaks, clearJudgeResult_cache]

theorem poke_config (j : Judger) (ws : List Mem.Write) : (j.poke ws).config = j.config := by
  have hcache : ∀ w, (j.poke ws).cache w = j.cache w := by
    intro w
    cases w <;> rfl
  simp only [config, hcache]
  rfl

theorem exec_config {std : StdSort} (hcaches : CachesOk j) {op : BufferOp} (hclock : op.ClockOk)
    {r : OpResult} (hexec : j.exec std op = some r) (hin : r.Inside j) :
    r.judger.config = j.config := by
  cases exec_cases hexec with
  | refused heq =>
    subst heq
    rfl
  | read hclears reads output heq =>
    subst heq
    rfl
  | write hclears reads ws heq =>
    subst heq
    exact (clear_config _).trans (poke_config j ws)
  | load hclears hnow hload =>
    rename_i which d off len now
    obtain ⟨l, hl, rfl⟩ := Option.map_eq_some_iff.mp hload
    have hlimits : SameLimits (j.cache which) l.cache := by
      rcases DuckCache.load_spec (hcaches.cache which) d (j.addr off) len.toNat now.toNat with
        ⟨i, -, -, -, heq⟩ | ⟨-, heq⟩
      · rw [heq, Option.some.injEq] at hl
        rw [← hl]
        exact ⟨rfl, rfl⟩
      · rw [heq, Option.some.injEq] at hl
        rw [← hl]
        exact ⟨rfl, rfl⟩
    have hpoked := (poke_config (j.setCache l.cache which) (byteWrites l.writes)).trans
      (setCache_config j hlimits)
    simp only
    split
    · exact (clear_config _).trans hpoked
    · exact hpoked
  | store hclears hnow hstore =>
    obtain ⟨s, hs, rfl⟩ := Option.map_eq_some_iff.mp hstore
    refine setCache_config j ?_
    cases storeCase hcaches (hnow hclock) hs hin.1 with
    | held hheld heq => exact ⟨by rw [heq], by rw [heq]⟩
    | big hnew hbig heq => exact ⟨by rw [heq], by rw [heq]⟩
    | inserted hnew hrange hins hspared heq =>
      exact ⟨by rw [heq]; exact hins.totalPages, by rw [heq]; exact hins.maxObjects⟩

end Caches

/-! ## Judging -/

section Judge

variable {t : Timer} {cfg : Service.Config} {j : Judger} {req : JudgeRequest}

theorem memory_iff : memoryOverflows req = false ↔
    req.memoryHardLimitKb.toNat ≤ req.memoryHardLimitKb.toNat * 1024 % 2 ^ 64 := by
  have hmul : (req.memoryHardLimitKb * 1024).toNat = req.memoryHardLimitKb.toNat * 1024 % 2 ^ 64 :=
    UInt64.toNat_mul _ _
  rw [memoryOverflows, decide_eq_false_iff_not, UInt64.lt_iff_toNat_lt, hmul, Nat.not_lt]

theorem holds_iff {b : BufferDesc} : j.view.In b.off b.len ↔ j.Holds b :=
  view_in.trans inRange_iff

theorem wellPlaced_iff : j.view.WellPlaced req ↔
    memoryOverflows req = false ∧ j.checkBuffers req.buffers = true := by
  rw [memory_iff, checkBuffers_iff]
  constructor
  · intro h
    exact ⟨h.memory, fun b hb => holds_iff.mp (h.inside b hb), h.apart⟩
  · rintro ⟨hmem, hin, hapart⟩
    exact ⟨hmem, fun b hb => holds_iff.mpr (hin b hb), hapart⟩

theorem timeOk_iff : Service.TimeOk req ↔ badTimeLimit req = false := by
  have hmax : MAX_TIME_LIMIT_NS.toNat = 500000000000 := by decide
  simp only [Service.TimeOk, badTimeLimit, Bool.or_eq_false_iff, decide_eq_false_iff_not,
    gt_iff_lt, UInt64.lt_iff_toNat_lt, hmax, Nat.not_lt]
  refine and_congr_left' ?_
  rw [Nat.pos_iff_ne_zero, ne_eq, ← UInt64.toNat_inj]
  rfl

/-- The file in the buffer and the file of the service hold the same bytes. -/
theorem elfFile_same (h : j.Holds req.ELF) :
    (Service.elfFile (j.view.part req.ELF.off req.ELF.len)).len = (j.elfFile req).len ∧
    ∀ i < (j.elfFile req).len.toNat,
      (Service.elfFile (j.view.part req.ELF.off req.ELF.len)).mem
        ((Service.elfFile (j.view.part req.ELF.off req.ELF.len)).buf + i) =
      (j.elfFile req).mem ((j.elfFile req).buf + i) := by
  have hpart := view_part_addr (inRange_iff.mpr h)
  have hlen : (j.view.part req.ELF.off req.ELF.len).length = req.ELF.len.toNat := by
    rw [hpart, Mem.length_read]
  refine ⟨?_, fun i hi => ?_⟩
  · simp only [Service.elfFile, hlen]
    rfl
  · have hnarrow : (j.elfFile req).len.toNat ≤ req.ELF.len.toNat := Nat.mod_le _ _
    simp only [Service.elfFile, Nat.zero_add, hpart]
    rw [Mem.getD_read _ _ (by omega)]
    rfl

theorem loadElf_eq_none_iff : loadElf t j req = none ↔
    ¬ ELF.Accepts (j.elfFile req) (j.elfConf req) j.breaks.vaddrBreak := by
  rw [loadElf]
  cases hload : ELF.load (j.elfFile req) (j.elfConf req) t.tscFreq j.breaks j.umem with
  | error e =>
    refine iff_of_true rfl fun hacc => ?_
    rw [ELF.load_eq_ok.mpr ⟨hacc, rfl⟩] at hload
    cases hload
  | ok r => exact iff_of_false (Option.some_ne_none _) (not_not.mpr (ELF.load_eq_ok.mp hload).1)

theorem loadable_iff (hcfg : j.config = cfg) (h : j.Holds req.ELF) :
    j.view.Loadable cfg req ↔ loadElf t (j.record req) req ≠ none := by
  rw [ne_eq, loadElf_eq_none_iff, not_not, ← hcfg]
  obtain ⟨hlen, hbytes⟩ := elfFile_same h
  constructor
  · intro hacc
    refine hacc.sameBytes hlen.symm (fun i hi => (hbytes i ?_).symm) rfl rfl
    rw [← hlen]
    exact hi
  · intro hacc
    exact hacc.sameBytes hlen hbytes rfl rfl

/-- The exits with an error. -/
theorem exitWith_view (e : JudgeError) :
    ((j.record req).exitWith e).result = { j.view.result with error := some e } ∧
    ((j.record req).exitWith e).judger.view = j.view.reject req e := by
  refine ⟨rfl, ?_⟩
  have hcache : ∀ which, ((j.record req).exitWith e).judger.cache which = j.cache which := by
    intro which
    cases which <;> rfl
  simp only [view, hcache]
  rfl

/-- What is settled about the answer of a run. -/
theorem Reaches.verdict {loaded : ELF.Loaded} (h : Reaches t j req loaded) (g : ELF.Garbage)
    (u : ELF.UserRun) : Service.Verdict req (j.judge t req g u).result := by
  have hconf := h.confined g u
  have hstdout := hconf.stdoutSize
  have hstderr := hconf.stderrSize
  rw [judge_of_reaches h g u] at hstdout hstderr ⊢
  set res := ELF.run t loaded.app g u
  show Service.Verdict req (limited req res (resultOf res))
  by_cases hover : res.timeNs > req.timeLimitNs ∨ (resultOf res).isTLE = true
  · have heq : limited req res (resultOf res) =
        { resultOf res with isRE := false, isTLE := true, timeNs := req.timeLimitNs } :=
      if_pos hover
    refine ⟨limited_error _ _ _, hstdout, hstderr, ?_, ?_, ?_, ?_⟩
    · rw [heq]
    · intro _
      rw [heq]
    · intro hno
      rw [heq] at hno
      cases hno
    · intro _
      rw [heq]
      exact ⟨rfl, rfl⟩
  · have heq : limited req res (resultOf res) = resultOf res := if_neg hover
    obtain ⟨htime, hno⟩ := not_or.mp hover
    refine ⟨limited_error _ _ _, hstdout, hstderr, ?_, ?_, ?_, ?_⟩
    · rw [heq]
      exact UInt64.le_iff_toNat_le.mp (UInt64.not_lt.mp htime)
    · intro htrap
      rw [heq] at htrap ⊢
      exact decide_eq_true htrap
    · intro _
      rw [heq]
      rfl
    · intro hyes
      rw [heq] at hyes
      exact absurd hyes hno

/-- The limit of a program that was loaded did not wrap. -/
theorem Reaches.memory_exact {loaded : ELF.Loaded} (h : Reaches t j req loaded) :
    req.memoryHardLimitKb.toNat * 1024 < 2 ^ 64 := by
  obtain ⟨lo, hi, -, -, hfits⟩ := h.accepts.1.fits
  have hroom := hfits.room
  have hlower := j.breaks.lower
  have hlimit : (j.elfConf req).limit = ceilTo (req.memoryHardLimitKb * 1024).toNat 4096 := rfl
  have hle := le_ceilTo (r := 4096) (req.memoryHardLimitKb * 1024).toNat (by decide)
  rw [hlimit] at hroom
  have hexact := product_exact h.memory (by omega)
  have hlt := (req.memoryHardLimitKb * 1024).toNat_lt
  omega

theorem reaches_step {loaded : ELF.Loaded} (h : Reaches t j req loaded) (hcfg : j.config = cfg)
    (g : ELF.Garbage) (u : ELF.UserRun) : Service.Step cfg j.view
      (.judge req (j.judge t req g u).result) (j.judge t req g u).judger.view := by
  have hconf := h.confined g u
  have hin : ∀ b ∈ req.buffers, j.Holds b := hconf.inside
  have hverdict := h.verdict g u
  have hload := (loadable_iff hcfg (hin req.ELF (by simp [JudgeRequest.buffers]))).mpr
    (h.load ▸ Option.some_ne_none loaded)
  have hplace := wellPlaced_iff.mpr ⟨h.memory, h.buffers⟩
  have hsize1 := hconf.stdoutSize
  have hsize2 := hconf.stderrSize
  rw [judge_of_reaches h g u] at hverdict hsize1 hsize2 ⊢
  set res := ELF.run t loaded.app g u with hres
  have hresult : ((j.record req).runLoaded t req loaded.app g u).result =
      limited req res (resultOf res) := rfl
  obtain ⟨hout, herr, -⟩ := limited_stdoutSize req res (resultOf res)
  have hout' : (limited req res (resultOf res)).stdoutSize = res.stdoutSize := hout
  have herr' : (limited req res (resultOf res)).stderrSize = res.stderrSize := herr
  rw [hresult] at hverdict hsize1 hsize2 ⊢
  rw [hout'] at hsize1
  rw [herr'] at hsize2
  have hview : ((j.record req).runLoaded t req loaded.app g u).judger.view =
      j.view.complete req (limited req res (resultOf res))
        (u.umem.read res.stdoutPtr res.stdoutSize.toNat)
        (u.umem.read res.stderrPtr res.stderrSize.toNat)
        (u.umem.read res.OBPtr req.OB.len.toNat) := by
    have hcache : ∀ which, ((j.record req).runLoaded t req loaded.app g u).judger.cache which =
        j.cache which := by
      intro which
      cases which <;> rfl
    have h1 := hin req.stdout (by simp [JudgeRequest.buffers])
    have h2 := hin req.stderr (by simp [JudgeRequest.buffers])
    have h3 := hin req.OB (by simp [JudgeRequest.buffers])
    have hbytes : ((j.record req).runLoaded t req loaded.app g u).judger.contents =
        (j.view.complete req (limited req res (resultOf res))
          (u.umem.read res.stdoutPtr res.stdoutSize.toNat)
          (u.umem.read res.stderrPtr res.stderrSize.toNat)
          (u.umem.read res.OBPtr req.OB.len.toNat)).bytes := by
      show (((j.mem.write (j.addr req.stdout.off) _).write (j.addr req.stderr.off) _).write
        (j.addr req.OB.off) _).read j.buffer j.bufferSize.toNat = _
      rw [addr_eq h1.1, addr_eq h2.1, addr_eq h3.1,
        Mem.read_write _ _ (by rw [Mem.length_read]; exact h3.2),
        Mem.read_write _ _ (by
          rw [Mem.length_read]
          exact Nat.le_trans (Nat.add_le_add_left hsize2 _) h2.2),
        Mem.read_write _ _ (by
          rw [Mem.length_read]
          exact Nat.le_trans (Nat.add_le_add_left hsize1 _) h1.2)]
      rfl
    simp only [view, hcache, hbytes]
    rfl
  rw [hview]
  refine .run h.fresh hplace (timeOk_iff.mpr h.timeLimit) hload h.memory_exact hverdict ?_ ?_ ?_
  · rw [Mem.length_read, hout']
  · rw [Mem.length_read, herr']
  · rw [Mem.length_read]

theorem judge_step (hcfg : j.config = cfg) (g : ELF.Garbage) (u : ELF.UserRun) :
    Service.Step cfg j.view (.judge req (j.judge t req g u).result)
      (j.judge t req g u).judger.view := by
  by_cases hseq : req.seqNum = j.judgeSeqNum
  · rw [judge_of_eq hseq]
    exact .replay hseq
  · have hexit : ∀ e, j.execute t req g u = (j.record req).exitWith e →
        (j.judge t req g u).result = { j.view.result with error := some e } ∧
        (j.judge t req g u).judger.view = j.view.reject req e := by
      intro e he
      rw [judge_of_ne hseq, he]
      exact exitWith_view e
    by_cases hplace : memoryOverflows req = false ∧ j.checkBuffers req.buffers = true
    · obtain ⟨hmem, hbuf⟩ := hplace
      have hwell := wellPlaced_iff.mpr ⟨hmem, hbuf⟩
      by_cases htime : badTimeLimit req = false
      · have hELF := (checkBuffers_iff.mp hbuf).1 req.ELF (by simp [JudgeRequest.buffers])
        cases hload : loadElf t (j.record req) req with
        | none =>
          obtain ⟨hres, hview⟩ := hexit .canNotLoadElf (by
            simp only [execute, hmem, checkBuffers_record, hbuf, htime, hload, Bool.not_true,
              Bool.false_eq_true, if_false, Option.elim_none]
            rfl)
          rw [hres, hview]
          exact .canNotLoad hseq (.inr ⟨timeOk_iff.mpr htime,
            fun hl => (loadable_iff hcfg hELF).mp hl hload⟩)
        | some loaded => exact reaches_step ⟨hseq, hmem, hbuf, htime, hload⟩ hcfg g u
      · obtain ⟨hres, hview⟩ := hexit .invalidTimeLimit (by
          simp only [execute, hmem, checkBuffers_record, hbuf, Bool.not_true, Bool.false_eq_true,
            if_false, if_pos (Bool.not_eq_false _ ▸ htime)]
          rfl)
        rw [hres, hview]
        exact .timeLimit hseq hwell fun hok => htime (timeOk_iff.mp hok)
    · obtain ⟨hres, hview⟩ := hexit .canNotLoadElf (by
        simp only [execute, checkBuffers_record]
        by_cases hmem : memoryOverflows req = false
        · have hbuf : j.checkBuffers req.buffers = false :=
            Bool.eq_false_iff.mpr fun h => hplace ⟨hmem, h⟩
          simp only [hmem, hbuf, Bool.false_eq_true, if_false, Bool.not_false, if_true]
          rfl
        · rw [if_pos (Bool.not_eq_false _ ▸ hmem)]
          rfl)
      rw [hres, hview]
      exact .canNotLoad hseq (.inl fun hwell => hplace (wellPlaced_iff.mp hwell))

end Judge

/-! ## The client's system -/

/-- What a client can make the judger do, with what it gets to see. -/
inductive ClientStep (std : StdSort) (t : Timer) (j : Judger) : Service.Event → Judger → Prop
  | buffer {op : BufferOp} {r : OpResult} (hclock : op.ClockOk) (hexec : j.exec std op = some r)
    (hin : r.Inside j) : ClientStep std t j (.buffer op r.ret r.output) r.judger
  | judge (req : JudgeRequest) (g : ELF.Garbage) (u : ELF.UserRun) :
    ClientStep std t j (.judge req (j.judge t req g u).result) (j.judge t req g u).judger
  | getStatistics :
    ClientStep std t j (.getStatistics j.getStatistics.nJudges j.getStatistics.totalTimeNs) j
  | queryBufferSize : ClientStep std t j (.queryBufferSize j.queryBufferSize) j

/-- The judger after `Judger::init`, with the limits that it got. -/
def client (std : StdSort) (t : Timer) (cfg : Service.Config) : Lts Judger Service.Event where
  start j := (∃ b raw, init b raw = some j) ∧ j.config = cfg
  step := ClientStep std t

/-- What every call keeps. -/
structure Ready (cfg : Service.Config) (j : Judger) : Prop where
  caches : CachesOk j
  cleared : ClearedOk j
  config : j.config = cfg

theorem exec_step {std : StdSort} {cfg : Service.Config} {j : Judger} (h : Ready cfg j)
    {op : BufferOp} {r : OpResult} (hclock : op.ClockOk) (hexec : j.exec std op = some r)
    (hin : r.Inside j) : Service.Step cfg j.view (.buffer op r.ret r.output) r.judger.view := by
  cases op with
  | clearBuffer off len =>
    obtain rfl := Option.some.inj hexec
    exact clearBuffer_step h.cleared off len
  | readBuffer off len =>
    obtain rfl := Option.some.inj hexec
    exact readBuffer_step off len
  | writeBuffer off data len =>
    obtain rfl := Option.some.inj hexec
    exact writeBuffer_step h.cleared off data len
  | copyBuffer dst src len =>
    obtain rfl := Option.some.inj hexec
    exact copyBuffer_step h.cleared dst src len
  | compareBuffer off1 off2 len =>
    obtain rfl := Option.some.inj hexec
    exact compareBuffer_step off1 off2 len
  | loadCache name off len hex now =>
    by_cases hname : ∃ d which, Names hex name d which
    · obtain ⟨d, which, hname⟩ := hname
      have hload := (loadCache_eq off now hname).symm.trans hexec
      exact loadFrom_step h.caches h.cleared hname hload hin
    · have hrefused := hexec.symm.trans (loadCache_refused off now hname)
      obtain rfl := Option.some.inj hrefused
      exact .loadMiss fun d which bs hn => absurd ⟨d, which, hn⟩ hname
  | storeCache name off len hex now =>
    by_cases hname : ∃ d which, Names hex name d which
    · obtain ⟨d, which, hname⟩ := hname
      have hstore := (storeCache_eq off len now hname).symm.trans hexec
      exact storeTo_step h.caches h.config hname hclock hstore hin
    · have hrefused := hexec.symm.trans (storeCache_refused off len now hname)
      obtain rfl := Option.some.inj hrefused
      exact .storeOut fun d which hn => absurd ⟨d, which, hn⟩ hname

theorem exec_ready {std : StdSort} {cfg : Service.Config} {j : Judger} (h : Ready cfg j)
    {op : BufferOp} {r : OpResult} (hclock : op.ClockOk) (hexec : j.exec std op = some r)
    (hin : r.Inside j) : Ready cfg r.judger := by
  refine ⟨exec_cachesOk h.caches hclock hexec hin, ?_,
    (exec_config h.caches hclock hexec hin).trans h.config⟩
  cases effect_of_exec hexec with
  | cleared j1 hclears hret hsame heq =>
    rw [heq]
    exact (clearJudgeResult_cleared (hsame.clearedOk h.cleared)).1
  | kept hquiet hsame hmem => exact hsame.clearedOk h.cleared

theorem judge_ready {t : Timer} {cfg : Service.Config} {j : Judger} (h : Ready cfg j)
    (req : JudgeRequest) (g : ELF.Garbage) (u : ELF.UserRun) :
    Ready cfg (j.judge t req g u).judger := by
  by_cases hseq : req.seqNum = j.judgeSeqNum
  · rw [judge_of_eq hseq]
    exact h
  · rw [judge_of_ne hseq]
    have hans := execute_answered t j req g u
    have hcache : ∀ w, (j.execute t req g u).judger.cache w = j.cache w := by
      intro w
      cases w
      · exact hans.elfCache
      · exact hans.dataCache
    refine ⟨⟨?_, ?_⟩, fun hflag => ?_, ?_⟩
    · rw [hans.elfCache]
      exact h.caches.elf
    · rw [hans.dataCache]
      exact h.caches.data
    · rw [hans.cleared] at hflag
      cases hflag
    · rw [← h.config]
      simp only [config, hcache, hans.bufferSize, hans.breaks]

theorem init_ready {b : MemoryBreaks} {raw : Raw} {j : Judger} (h : init b raw = some j) :
    Ready j.config j ∧ j.view = Service.fresh j.config := by
  have hcaches := init_cachesOk h
  obtain ⟨b1, b2, b3, size1, size2, h1, h2, helf, hdata⟩ := init_caches h
  have hempty : ∀ which, (j.cache which).shelf = [] := by
    intro which
    apply List.eq_nil_of_length_eq_zero
    rw [DuckCache.length_shelf]
    cases which
    · exact (DuckCache.init_fresh helf (arraysFit_elf b2) h1).curObjects
    · exact (DuckCache.init_fresh hdata (arraysFit_data b3) h2).curObjects
  have htracked := init_tracked h
  refine ⟨⟨hcaches, htracked.cleared, rfl⟩, ?_⟩
  have hbytes : j.contents = List.replicate j.bufferSize.toNat 0 := by
    obtain ⟨region, elf, data, rfl⟩ := init_eq_start h
    apply List.ext_getElem
    · rw [length_contents, List.length_replicate]
    · intro i hi _
      rw [length_contents] at hi
      have hbyte := Mem.getElem_read (start raw region elf data).mem
        (start raw region elf data).buffer (n := (start raw region elf data).bufferSize.toNat)
        (i := i) (by rw [Mem.length_read]; exact hi)
      rw [List.getElem_replicate]
      refine hbyte.trans (Mem.fill_inside raw.mem 0 (Nat.le_add_right _ _) ?_)
      exact Nat.add_lt_add_left hi _
  have hshelf : (fun which => (j.cache which).shelf) = fun _ => [] := funext hempty
  simp only [view, Service.fresh, hbytes, hshelf]
  obtain ⟨region, elf, data, rfl⟩ := init_eq_start h
  rfl

/-- **Simulation.**  `view` takes every step of the judger to a step of the service. -/
theorem simulates (std : StdSort) (t : Timer) (cfg : Service.Config) :
    Lts.Simulation (client std t cfg) (Service.service cfg)
      (fun j s => Ready cfg j ∧ s = j.view) where
  start j := by
    rintro ⟨⟨b, raw, hinit⟩, rfl⟩
    obtain ⟨hready, hview⟩ := init_ready hinit
    exact ⟨j.view, hview, hready, rfl⟩
  step j s e j' := by
    rintro ⟨hready, rfl⟩ hstep
    cases hstep with
    | buffer hclock hexec hin =>
      exact ⟨_, exec_step hready hclock hexec hin, exec_ready hready hclock hexec hin, rfl⟩
    | judge req g u =>
      exact ⟨_, judge_step hready.config g u, judge_ready hready req g u, rfl⟩
    | getStatistics => exact ⟨_, .getStatistics, hready, rfl⟩
    | queryBufferSize => exact ⟨_, .queryBufferSize (length_contents j).symm, hready, rfl⟩

/-! ## Histories -/

/-- **The judger refines the service.**  Whatever calls are made after `init`, their
    answers are answers of the service, and the service ends in what is seen of the
    judger. -/
theorem client_refines (std : StdSort) (t : Timer) {b : MemoryBreaks} {raw : Raw} {j j' : Judger}
    (hinit : init b raw = some j) {events : List Service.Event}
    (hrun : (client std t j.config).Run j events j') :
    (Service.service j.config).Run (Service.fresh j.config) events j'.view := by
  obtain ⟨hready, hview⟩ := init_ready hinit
  obtain ⟨s, hrun', -, rfl⟩ := (simulates std t j.config).run hrun ⟨hready, rfl⟩
  rw [hview] at hrun'
  exact hrun'

/-- The sample program is written and stored. -/
def storingEvents : List Service.Event :=
  [.buffer (.writeBuffer 0 (fun i => ELF.sampleBytes.getD i 0) 120) true .nothing,
    .buffer (.storeCache "elf" 0 120 zeroHex 1) true .nothing]

/-- It is run as well, and loaded behind itself. -/
def sampleEvents (answer : JudgeResult) : List Service.Event :=
  storingEvents ++ [.judge (sampleRequest 1) answer,
    .buffer (.loadCache "elf" 128 120 zeroHex 2) true .nothing]

/-- A cache operation in range. -/
theorem exec_harmless {j : Judger} (std : StdSort) (hcaches : CachesOk j) {op : BufferOp}
    (hclock : op.ClockOk) (h : j.Harmless op) : ∃ r, j.exec std op = some r ∧ r.Inside j := by
  obtain ⟨r, hexec, hstays⟩ := (exec_staysInside_iff std hcaches op hclock).mpr h
  exact ⟨r, hexec, hstays.inside⟩

/-- The first step of `run_loadSample`, as the client sees it. -/
theorem client_writes : ∃ j j', init wideBreaks blankRaw = some j ∧
    ClientStep .insertion sampleTimer j (.buffer (.writeBuffer 0
      (fun i => ELF.sampleBytes.getD i 0) 120) true .nothing) j' ∧
    Ready j.config j' ∧ HoldsFile ELF.sampleBytes j' ∧ j'.judgeSeqNum = CLEARED_SEQ_NUM ∧
    ∀ which, j'.view.shelf which = [] := by
  obtain ⟨j, s, hinit, hrun, hholds, hseq, -⟩ := run_loadSample .insertion sampleTimer
  obtain ⟨hready, hview⟩ := init_ready hinit
  have hsize : j.bufferSize = INITIAL_BUFFER_SIZE_SMALL := (run_place hrun).bufferSize ▸ hholds.size
  have hr : j.inRange 0 120 = true := by
    rw [inRange_iff, hsize]
    decide
  obtain ⟨r, hr1⟩ : ∃ r, r = j.writeBuffer 0 (fun i => ELF.sampleBytes.getD i 0) 120 := ⟨_, rfl⟩
  have hclock : (BufferOp.writeBuffer 0 (fun i => ELF.sampleBytes.getD i 0) 120).ClockOk := trivial
  have hexec : j.exec .insertion (.writeBuffer 0 (fun i => ELF.sampleBytes.getD i 0) 120) =
      some r := congrArg some hr1.symm
  have hin : r.Inside j := hr1 ▸ (writeBuffer_staysInside j _ _ _).inside
  have hanswer : r.ret = true ∧ r.output = .nothing := by
    rw [hr1]
    simp only [writeBuffer, hr, if_true, and_self]
  have hjudger : s.judger = r.judger := by
    simp only [History.run, loadSample, loadFile, List.foldlM_cons, List.foldlM_nil, History.step,
      History.start, hexec, Option.bind_eq_bind, Option.bind_some, if_pos hin] at hrun
    exact congrArg History.judger (Option.some.inj hrun).symm
  rw [hjudger] at hholds hseq
  have hstep := ClientStep.buffer (t := sampleTimer) hclock hexec hin
  rw [hanswer.1, hanswer.2] at hstep
  refine ⟨j, r.judger, hinit, hstep, exec_ready hready hclock hexec hin, hholds, hseq, fun which => ?_⟩
  have hkeep := (exec_step hready hclock hexec hin).shelf fun _ _ _ _ _ _ _ heq => by cases heq
  rw [hkeep, hview]
  rfl

/-- The program is on the shelf, under the digest that is zero. -/
theorem client_stores : ∃ j j' digest bs, init wideBreaks blankRaw = some j ∧
    (client .insertion sampleTimer j.config).Run j storingEvents j' ∧ Ready j.config j' ∧
    HoldsFile ELF.sampleBytes j' ∧ j'.judgeSeqNum = CLEARED_SEQ_NUM ∧
    Names zeroHex "elf" digest .elf ∧ (digest, bs) ∈ j'.view.shelf .elf ∧
    bs.length = (120 : UInt64).toNat := by
  obtain ⟨j, j₁, hinit, hwrite, hready, hholds, hseq, hempty⟩ := client_writes
  obtain ⟨digest, hdigest⟩ : ∃ d, digestFromHex zeroHex = some d :=
    Option.isSome_iff_exists.mp (by decide)
  have hname : Names zeroHex "elf" digest .elf := ⟨hdigest, rfl⟩
  have hclock : (BufferOp.storeCache "elf" 0 120 zeroHex 1).ClockOk := show (1 : UInt64) ≠ 0 by decide
  have hroom : (0 : UInt64).toNat + (120 : UInt64).toNat ≤ j₁.bufferSize.toNat := by
    rw [hholds.size]
    decide
  obtain ⟨r, hexec, hin⟩ := exec_harmless .insertion hready.caches hclock
    fun _ _ _ _ _ => .inr hroom
  have hnew : ∀ bs, (digest, bs) ∉ j₁.view.shelf .elf := by
    intro bs hbs
    rw [hempty] at hbs
    cases hbs
  have hpages : exactPages (120 : UInt64).toNat ≤ j.config.pages .elf := by
    have hone : exactPages (120 : UInt64).toNat = 1 := by decide
    rw [hone]
    exact (init_elfCache hinit).2
  obtain ⟨hret, hout, hheld⟩ := (exec_step hready hclock hexec hin).stores hname hnew hpages
  have hstore := ClientStep.buffer (t := sampleTimer) hclock hexec hin
  rw [hret, hout] at hstore
  refine ⟨j, r.judger, digest, _, hinit, .cons hwrite (.cons hstore (.nil _)),
    exec_ready hready hclock hexec hin, ?_, ?_, hname, hheld, ?_⟩
  · cases effect_of_exec hexec with
    | cleared j1 hclears => cases hclears
    | kept hquiet hsame hmem =>
      refine ⟨hsame.bufferSize.trans hholds.size, ?_, fun i => ?_⟩
      · rw [hsame.breaks]
        exact hholds.room
      · rw [hmem, hsame.buffer]
        exact hholds.file i
  · cases effect_of_exec hexec with
    | cleared j1 hclears => cases hclears
    | kept hquiet hsame hmem => exact hsame.judgeSeqNum.trans hseq
  · rw [view_part hroom, Mem.length_read]

theorem client_sample : ∃ j answer j', init wideBreaks blankRaw = some j ∧
    answer.error = none ∧ (client .insertion sampleTimer j.config).Run j (sampleEvents answer) j' := by
  obtain ⟨j, j₂, digest, bs, hinit, hrun, hready, hholds, hseq, hname, hheld, hlen⟩ := client_stores
  have hne : 1 ≠ j₂.judgeSeqNum := by
    rw [hseq]
    decide
  obtain ⟨loaded, hreach⟩ := hholds.sampleRequest_reaches hne sampleTimer
  obtain ⟨r, hr⟩ : ∃ r, r = j₂.judge sampleTimer (sampleRequest 1) idleGarbage idleRun := ⟨_, rfl⟩
  have hjudge : Service.Step j.config j₂.view
      (.judge (sampleRequest 1) (j₂.judge sampleTimer (sampleRequest 1) idleGarbage idleRun).result)
      (j₂.judge sampleTimer (sampleRequest 1) idleGarbage idleRun).judger.view :=
    judge_step hready.config idleGarbage idleRun
  have hready3 := judge_ready (t := sampleTimer) hready (sampleRequest 1) idleGarbage idleRun
  have hholds3 := hholds.sample_judge hne sampleTimer idleGarbage idleRun
  have hran := (hreach.verdict idleGarbage idleRun).ran
  have hstep3 : ClientStep .insertion sampleTimer j₂
      (.judge (sampleRequest 1) (j₂.judge sampleTimer (sampleRequest 1) idleGarbage idleRun).result)
      (j₂.judge sampleTimer (sampleRequest 1) idleGarbage idleRun).judger :=
    .judge (sampleRequest 1) idleGarbage idleRun
  rw [← hr] at hjudge hready3 hholds3 hran hstep3
  -- the run leaves the shelf
  have hheld3 : (digest, bs) ∈ r.judger.view.shelf .elf := by
    rw [hjudge.shelf fun _ _ _ _ _ _ _ heq => by cases heq]
    exact hheld
  have hclock : (BufferOp.loadCache "elf" 128 120 zeroHex 2).ClockOk := show (2 : UInt64) ≠ 0 by decide
  have hroom : (128 : UInt64).toNat + (120 : UInt64).toNat ≤ r.judger.bufferSize.toNat := by
    rw [hholds3.size]
    decide
  obtain ⟨l, hexec, hin⟩ := exec_harmless .insertion hready3.caches hclock fun _ _ _ _ => .inr hroom
  obtain ⟨hret, hout⟩ := (exec_step hready3 hclock hexec hin).loads hname hheld3 hlen
  have hload := ClientStep.buffer (t := sampleTimer) hclock hexec hin
  rw [hret, hout] at hload
  exact ⟨j, r.result, l.judger, hinit, hran, hrun.append (.cons hstep3 (.cons hload (.nil _)))⟩

theorem client_refines_sample : ∃ (j : Judger) (answer : JudgeResult) (j' : Judger),
    init wideBreaks blankRaw = some j ∧ answer.error = none ∧
    (Service.service j.config).Run (Service.fresh j.config) (sampleEvents answer) j'.view := by
  obtain ⟨j, answer, j', hinit, hran, hrun⟩ := client_sample
  exact ⟨j, answer, j', hinit, hran, client_refines .insertion sampleTimer hinit hrun⟩

/-- **A client that keeps account is never wrong.**  After any calls, every byte that
    the calls and their answers tell is the byte of the buffer, and a read that
    covers it returns it. -/
theorem client_knows (std : StdSort) (t : Timer) {b : MemoryBreaks} {raw : Raw} {j j' : Judger}
    (hinit : init b raw = some j) {events : List Service.Event}
    (hrun : (client std t j.config).Run j events j') (i : Nat) (v : UInt8)
    (hknown : (Service.known j.config events).buffer i = some v) :
    j'.contents[i]? = some v ∧ ∀ off len bytes, (j'.readBuffer off len).output = .data bytes →
      off.toNat ≤ i → i < off.toNat + len.toNat → bytes[i - off.toNat]? = some v := by
  obtain ⟨hready, hview⟩ := init_ready hinit
  obtain ⟨s, hrun', -, rfl⟩ := (simulates std t j.config).run hrun ⟨hready, rfl⟩
  rw [hview] at hrun'
  have hbyte : j'.contents[i]? = some v :=
    (Service.Run.knows hrun' (Service.fresh_right j.config)).buffer i v hknown
  refine ⟨hbyte, fun off len bytes hread hlo hhi => ?_⟩
  unfold readBuffer at hread
  split at hread
  · rename_i hr
    rw [← view_part_addr hr] at hread
    obtain rfl := Output.data.inj hread
    rw [Service.part, getElem?_slice, if_pos (by omega), Nat.add_sub_cancel' hlo]
    exact hbyte
  · cases hread

/-- The second byte of every such file. -/
theorem sampleEvents_known (cfg : Service.Config) {answer : JudgeResult} (h : answer.error = none) :
    (Service.known cfg (sampleEvents answer)).buffer 129 = some 69 := by
  obtain ⟨digest, hdigest⟩ : ∃ d, digestFromHex zeroHex = some d :=
    Option.isSome_iff_exists.mp (by decide)
  have hcache : cacheNamed "elf" = some .elf := rfl
  simp only [Service.known, sampleEvents, storingEvents, List.cons_append, List.nil_append,
    List.foldl_cons, List.foldl_nil, Service.Event.tell,
    hdigest, hcache, h, if_true, Service.Account.seeing, Service.Account.held,
    Service.Account.storing, Service.Account.fresh, Option.elim_none, Option.getD_some, and_self,
    Service.Knowledge.place]
  have hbyte : (Mem.read (fun i => ELF.sampleBytes.getD i 0) 0 (120 : UInt64).toNat)[1]? = some 69 := by
    decide
  have hlen := Mem.length_read (fun i => ELF.sampleBytes.getD i 0) 0 (120 : UInt64).toNat
  rw [if_pos (by decide), Service.Knowledge.range, if_pos (by decide), Service.Knowledge.learn, hlen,
    if_pos (by decide)]
  exact hbyte

theorem client_knows_sample : ∃ j answer j', init wideBreaks blankRaw = some j ∧
    (client .insertion sampleTimer j.config).Run j (sampleEvents answer) j' ∧
    j'.contents[129]? = some 69 := by
  obtain ⟨j, answer, j', hinit, hran, hrun⟩ := client_sample
  exact ⟨j, answer, j', hinit, hrun,
    (client_knows .insertion sampleTimer hinit hrun 129 69 (sampleEvents_known j.config hran)).1⟩

end Judger

end JudgePenguin
