/-
  JudgePenguin/ElfInPlace.lean
  ============================
  **The loader on one memory.**

  In `Elf` the file and the inputs lie in a memory of their own.  On the machine
  there is one memory, every copy reads what the copies before it have left, and
  the loops over the program headers read the file again after it.  `loadInPlace`
  is the loader on that machine.  Where the file and the inputs lie outside the
  window that is written, the two agree (`loadInPlace_eq_ok`), so that everything
  about the first holds of the second.
-/
import JudgePenguin.AuxVector

namespace JudgePenguin

open Words Guarded

namespace ELF

/-! ## Copying in place -/

/-- The file in a later memory. -/
def ElfFile.within (f : ElfFile) (m : Mem) : ElfFile := { f with mem := m }

/-- One pass of the second loop. -/
def loadSegmentInPlace (f : ElfFile) (h : Ehdr) (m : Mem) (i : Nat) : Except Stop Mem := do
  let ws ← loadSegment (f.within m) h [] i
  return m.apply ws

/-- The three `memcpy` calls for stdin, IB and OB. -/
def copyInputs (config : AppConfig) (l : Layout) (m : Mem) : Mem :=
  let m := m.write l.stdin.vaddr (m.read config.stdinPtr config.stdinSize.toNat)
  let m := m.write l.IB.vaddr (m.read config.IBPtr config.IBSize.toNat)
  if config.OBNeedClear then m
  else m.write l.OB.vaddr (m.read config.OBPtr config.OBSize.toNat)

structure Placed where
  app : App
  mem : Mem

/-- `install` on one memory.  The three header fields that are pushed are read
    again, `e_entry` is a local copy. -/
def installInPlace (f : ElfFile) (config : AppConfig) (tscFreq : UInt64) (h : Ehdr) (l : Layout) :
    Except Stop Placed := do
  let m ← (List.range h.phnum).foldlM (loadSegmentInPlace f h) f.mem
  let m := copyInputs config l m
  let image ← (f.within m).bytes 0 (min f.len.toNat PAGE_SIZE)
  let m := (m.write l.elfImage.vaddr image).apply (randomWrites l)
  let phoff ← (f.within m).field 32 8
  let phentsize ← (f.within m).field 54 2
  let phnum ← (f.within m).field 56 2
  let info := duckInfo config l tscFreq
  let stack := buildStack m ⟨h.entry, phoff, phentsize, phnum⟩ l info
  let m := m.apply stack.writes
  (List.range h.phnum).foldlM (checkFlags (f.within m) h) ()
  return ⟨mkApp h l info stack, m⟩

def loadElf64InPlace (f : ElfFile) (config : AppConfig) (tscFreq : UInt64) (b : MemoryBreaks) :
    Except Stop Placed := do
  let h ← readEhdr f
  let range ← scanPhdrs f h
  let l ← layOut b config range
  installInPlace f config tscFreq h l

/-- `ELF::load` on the memory that holds the file and the inputs. -/
def loadInPlace (f : ElfFile) (config : AppConfig) (tscFreq : UInt64) (b : MemoryBreaks) :
    Except Stop Placed := do
  rejectIf (f.len.toNat < EHDR32_SIZE)
  let eiClass ← f.field EI_CLASS 1
  if eiClass = ELFCLASS64 then loadElf64InPlace f config tscFreq b
  else .error .rejected

/-! ## The same sources -/

/-- The bytes of the file and of the inputs are in `m` what they were. -/
structure SameSources (f : ElfFile) (config : AppConfig) (m : Mem) : Prop where
  file : ∀ i, i < f.len.toNat → m (f.buf + i) = f.mem (f.buf + i)
  stdin : ∀ i, i < config.stdinSize.toNat → m (config.stdinPtr + i) = f.mem (config.stdinPtr + i)
  IB : ∀ i, i < config.IBSize.toNat → m (config.IBPtr + i) = f.mem (config.IBPtr + i)
  OB : config.OBNeedClear = false →
    ∀ i, i < config.OBSize.toNat → m (config.OBPtr + i) = f.mem (config.OBPtr + i)

section Same

variable {f : ElfFile} {config : AppConfig} {m : Mem}

/-- The file reads the same. -/
theorem SameSources.field (h : SameSources f config m) (off n : Nat) :
    (f.within m).field off n = f.field off n := by
  refine access_congr Iff.rfl fun hle => Mem.readLE_congr fun i hi => ?_
  have hlt : off + i < f.len.toNat := Nat.lt_of_lt_of_le (Nat.add_lt_add_left hi off) hle
  rw [Nat.add_assoc]
  exact h.file _ hlt

theorem SameSources.bytes (h : SameSources f config m) (off n : Nat) :
    (f.within m).bytes off n = f.bytes off n := by
  refine access_congr Iff.rfl fun hle => Mem.read_congr fun i hi => ?_
  have hlt : off + i < f.len.toNat := Nat.lt_of_lt_of_le (Nat.add_lt_add_left hi off) hle
  rw [Nat.add_assoc]
  exact h.file _ hlt

theorem SameSources.loadSegment (h : SameSources f config m) (e : Ehdr) (ws : List Mem.Write)
    (i : Nat) : loadSegment (f.within m) e ws i = ELF.loadSegment f e ws i := by
  simp only [ELF.loadSegment, h.field, h.bytes]

theorem SameSources.checkFlags (h : SameSources f config m) (e : Ehdr) (is : List Nat) :
    is.foldlM (checkFlags (f.within m) e) () = is.foldlM (ELF.checkFlags f e) () := by
  have hstep : ELF.checkFlags (f.within m) e = ELF.checkFlags f e := by
    funext u i
    simp only [ELF.checkFlags, h.field]
  rw [hstep]

end Same

/-! ## Sources outside the window -/

/-- The addresses that a program with the special region below `top` may write. -/
def Window (top x : Nat) : Prop := 0x400000 ≤ x ∧ x < top

/-- The file and the inputs that are copied lie outside `[0x400000, top)`. -/
structure SourcesOutside (f : ElfFile) (config : AppConfig) (top : Nat) : Prop where
  file : ∀ i, i < f.len.toNat → ¬ Window top (f.buf + i)
  stdin : ∀ i, i < config.stdinSize.toNat → ¬ Window top (config.stdinPtr + i)
  IB : ∀ i, i < config.IBSize.toNat → ¬ Window top (config.IBPtr + i)
  OB : config.OBNeedClear = false →
    ∀ i, i < config.OBSize.toNat → ¬ Window top (config.OBPtr + i)

section Outside

variable {f : ElfFile} {config : AppConfig} {top : Nat} {m : Mem}

/-- They are the same in every memory that changed only in the window. -/
theorem SourcesOutside.same (hsrc : SourcesOutside f config top)
    (hm : Mem.EqOff (Window top) f.mem m) : SameSources f config m where
  file i hi := hm _ (hsrc.file i hi)
  stdin i hi := hm _ (hsrc.stdin i hi)
  IB i hi := hm _ (hsrc.IB i hi)
  OB hclear i hi := hm _ (hsrc.OB hclear i hi)

/-- Stores inside the window. -/
def InWindow (top : Nat) (ws : List Mem.Write) : Prop := ∀ x, Mem.Touched ws x → Window top x

theorem InWindow.append {ws vs : List Mem.Write} :
    InWindow top (ws ++ vs) ↔ InWindow top ws ∧ InWindow top vs := by
  simp only [InWindow, Mem.touched_append, or_imp, forall_and]

/-- The loop over the segments, as long as what it has copied stays in the window. -/
theorem loadSegmentsInPlace_eq (ok : HeaderOk f) (hsrc : SourcesOutside f config top)
    {is : List Nat} (his : ∀ i ∈ is, i < f.ehdr.phnum)
    (hfit : ∀ i ∈ is, f.ehdr.phdrIndex i + 56 ≤ f.len.toNat)
    (hseg : ∀ p ∈ f.loadsAmong is, SegmentOk f p)
    (hin : InWindow top (f.segmentWrites (f.loadsAmong is)))
    (hm : Mem.EqOff (Window top) f.mem m) :
    is.foldlM (loadSegmentInPlace f f.ehdr) m =
      .ok (m.apply (f.segmentWrites (f.loadsAmong is))) := by
  induction is generalizing m with
  | nil => rfl
  | cons i is ih =>
    have hsplit : f.segmentWrites (f.loadsAmong (i :: is)) =
        f.segmentWrites (f.loadsAmong [i]) ++ f.segmentWrites (f.loadsAmong is) := by
      rw [loadsAmong_cons]
      simp only [ElfFile.segmentWrites, List.filter_append, List.map_append]
    rw [loadsAmong_cons] at hseg
    obtain ⟨hone, hrest⟩ := List.forall_mem_append.mp hseg
    rw [hsplit] at hin ⊢
    obtain ⟨hin1, hin2⟩ := InWindow.append.mp hin
    have hstep : loadSegmentInPlace f f.ehdr m i =
        .ok (m.apply (f.segmentWrites (f.loadsAmong [i]))) := by
      refine bind_eq_ok.mpr ⟨_, ?_, rfl⟩
      rw [(hsrc.same hm).loadSegment, loadSegment_eq ok (his i (by simp)) (hfit i (by simp)) hone []]
      rfl
    rw [List.foldlM_cons, Mem.apply_append]
    refine bind_eq_ok.mpr ⟨_, hstep, ?_⟩
    exact ih (fun j hj => his j (by simp [hj])) (fun j hj => hfit j (by simp [hj])) hrest hin2
      (hm.trans (Mem.EqOff.apply m hin1))

/-- The three inputs are copied as they were. -/
theorem copyInputs_eq (hsrc : SourcesOutside f config top)
    (hin : InWindow top (inputWrites f config config.layout))
    (hm : Mem.EqOff (Window top) f.mem m) :
    copyInputs config config.layout m = m.apply (inputWrites f config config.layout) := by
  have hkept : ∀ {m' : Mem} {a n : Nat}, Mem.EqOff (Window top) f.mem m' →
      (∀ i, i < n → ¬ Window top (a + i)) → m'.read a n = f.mem.read a n := by
    intro m' a n hm' hsource
    exact Mem.read_congr fun i hi => hm' _ (hsource i hi)
  obtain ⟨hfirst, hOB⟩ := InWindow.append.mp hin
  have hstdin : InWindow top [⟨config.layout.stdin.vaddr,
      f.mem.read config.stdinPtr config.stdinSize.toNat⟩] := by
    intro x hx
    exact hfirst x ((Mem.touched_append _ [_] x).mpr (.inl hx))
  have hm1 := hm.trans (Mem.EqOff.apply m hstdin)
  have hm2 := hm.trans (Mem.EqOff.apply m hfirst)
  have e1 := hkept hm hsrc.stdin
  have e2 := hkept hm1 hsrc.IB
  simp only [Mem.apply, List.foldl_cons, List.foldl_nil] at e2 hm2
  simp only [copyInputs, inputWrites, e1, e2, Mem.apply, List.foldl_append, List.foldl_cons,
    List.foldl_nil]
  cases hclear : config.OBNeedClear with
  | true => simp only [if_true, List.foldl_nil]
  | false =>
    have e3 := hkept hm2 (hsrc.OB hclear)
    simp only [Bool.false_eq_true, if_false, List.foldl_cons, List.foldl_nil, e3]

end Outside

/-! ## The loaders agree -/

section Agree

variable {f : ElfFile} {config : AppConfig} {b : MemoryBreaks}

/-- The stores of the loader lie in the window. -/
theorem Accepts.inWindow (h : Accepts f config b.vaddrBreak) (tscFreq : UInt64) (umem : Mem) :
    InWindow config.layout.randomBytes.brk (f.loaded config tscFreq umem).writes := by
  have hload : load f config tscFreq b umem = .ok (f.loaded config tscFreq umem) :=
    load_eq_ok.mpr ⟨h, rfl⟩
  obtain ⟨range, l, -, -, hconf⟩ := (load_confined f config tscFreq b umem).2 _ hload
  rintro x ⟨w, hw, h1, h2⟩
  obtain ⟨hlow, hhigh⟩ := hconf.writes w hw
  have htop : (f.loaded config tscFreq umem).app.specialRegionBreakAddr =
      config.layout.randomBytes.brk := rfl
  exact ⟨by omega, by omega⟩

/-- What an accepted file is placed to. -/
def ElfFile.placed (f : ElfFile) (config : AppConfig) (tscFreq : UInt64) : Placed :=
  ⟨(f.loaded config tscFreq f.mem).app, f.mem.apply (f.loaded config tscFreq f.mem).writes⟩

theorem installInPlace_eq (h : Accepts f config b.vaddrBreak)
    (hsrc : SourcesOutside f config config.layout.randomBytes.brk) (tscFreq : UInt64) :
    installInPlace f config tscFreq f.ehdr config.layout = .ok (f.placed config tscFreq) := by
  have his : ∀ i ∈ List.range f.ehdr.phnum, i < f.ehdr.phnum := fun i hi => List.mem_range.mp hi
  have hfit : ∀ i ∈ List.range f.ehdr.phnum, f.ehdr.phdrIndex i + 56 ≤ f.len.toNat :=
    fun i hi => h.phdrs i (his i hi)
  have hlen := h.header.len
  -- the stores in program order, each part in the window
  have hall := h.inWindow tscFreq f.mem
  simp only [ElfFile.loaded, ElfFile.dataWrites] at hall
  obtain ⟨hdata, hstack⟩ := InWindow.append.mp hall
  obtain ⟨himg, hrandom⟩ := InWindow.append.mp hdata
  obtain ⟨hinputs, himage⟩ := InWindow.append.mp himg
  obtain ⟨hsegs, hin⟩ := InWindow.append.mp hinputs
  have hm0 := Mem.EqOff.refl (Window config.layout.randomBytes.brk) f.mem
  have hm1 := hm0.trans (Mem.EqOff.apply f.mem hsegs)
  have hm2 := hm0.trans (Mem.EqOff.apply f.mem hinputs)
  have hm3 := hm0.trans (Mem.EqOff.apply f.mem hdata)
  have hm4 := hm3.trans (Mem.EqOff.apply _ hstack)
  have ecopy : (List.range f.ehdr.phnum).foldlM (loadSegmentInPlace f f.ehdr) f.mem =
      .ok (f.mem.apply (f.segmentWrites f.loads)) :=
    loadSegmentsInPlace_eq h.header hsrc his hfit h.segments hsegs hm0
  have einput := copyInputs_eq hsrc hin hm1
  have eimage : f.bytes 0 (min f.len.toNat PAGE_SIZE) =
      .ok (f.mem.read (f.buf + 0) (min f.len.toNat PAGE_SIZE)) :=
    access_of (by rw [Nat.zero_add]; exact Nat.min_le_left _ _) _
  have efield : ∀ off n, off + n ≤ 64 → f.field off n = .ok (f.get off n) :=
    fun off n hle => access_of (by omega) _
  simp only [Mem.apply_append] at hm2 hm3 hm4
  have hwrite : ∀ m : Mem, m.write config.layout.elfImage.vaddr
      (f.mem.read (f.buf + 0) (min f.len.toNat PAGE_SIZE)) = m.apply [⟨config.layout.elfImage.vaddr,
        f.mem.read (f.buf + 0) (min f.len.toNat PAGE_SIZE)⟩] := fun _ => rfl
  refine bind_eq_ok.mpr ⟨_, ecopy, ?_⟩
  simp only [einput]
  rw [(hsrc.same hm2).bytes]
  refine bind_eq_ok.mpr ⟨_, eimage, ?_⟩
  simp only [hwrite]
  rw [(hsrc.same hm3).field, (hsrc.same hm3).field, (hsrc.same hm3).field]
  refine bind_eq_ok.mpr ⟨_, efield 32 8 (by decide), ?_⟩
  refine bind_eq_ok.mpr ⟨_, efield 54 2 (by decide), ?_⟩
  refine bind_eq_ok.mpr ⟨_, efield 56 2 (by decide), ?_⟩
  simp only [ElfFile.stack, ElfFile.dataWrites, Mem.apply_append] at hm4
  refine bind_eq_ok.mpr ⟨(), ?_, ?_⟩
  · refine ((hsrc.same hm4).checkFlags _ _).trans ?_
    exact checkFlags_eq h.header his hfit
  · simp only [ElfFile.placed, ElfFile.loaded, ElfFile.stack, ElfFile.dataWrites, Mem.apply_append]
    rfl

/-- **One memory or two.**  With the sources outside the window the loader in place
    accepts the same files and leaves the same memory. -/
theorem loadInPlace_eq_ok {tscFreq : UInt64}
    (hsrc : SourcesOutside f config config.layout.randomBytes.brk) {r : Placed} :
    loadInPlace f config tscFreq b = .ok r ↔ ∃ loaded,
      load f config tscFreq b f.mem = .ok loaded ∧ r = ⟨loaded.app, f.mem.apply loaded.writes⟩ := by
  have hplaced : loadElf64InPlace f config tscFreq b = .ok r ↔
      Accepts f config b.vaddrBreak ∧ r = f.placed config tscFreq := by
    simp only [loadElf64InPlace, bind_eq_ok]
    constructor
    · rintro ⟨h, hread, range, hscan, l, hlay, hinst⟩
      obtain ⟨hacc, rfl, rfl⟩ := accepts_of_checks hread hscan hlay
      rw [installInPlace_eq hacc hsrc tscFreq] at hinst
      cases hinst
      exact ⟨hacc, rfl⟩
    · rintro ⟨hacc, rfl⟩
      obtain ⟨range, hread, hscan, hlay⟩ := hacc.checks
      exact ⟨_, hread, _, hscan, _, hlay, installInPlace_eq hacc hsrc tscFreq⟩
  simp only [loadInPlace, rejectIf_bind_eq_ok, field_bind_eq_ok]
  constructor
  · rintro ⟨-, -, hload⟩
    split at hload
    · obtain ⟨hacc, rfl⟩ := hplaced.mp hload
      exact ⟨_, load_eq_ok.mpr ⟨hacc, rfl⟩, rfl⟩
    · cases hload
  · rintro ⟨loaded, hload, rfl⟩
    obtain ⟨hacc, rfl⟩ := load_eq_ok.mp hload
    have hlen := hacc.header.len
    have hclass : f.get EI_CLASS 1 = ELFCLASS64 := hacc.header.class64
    rw [if_pos hclass]
    refine ⟨?_, ?_, hplaced.mpr ⟨hacc, rfl⟩⟩
    · simp only [EHDR32_SIZE]
      omega
    · simp only [EI_CLASS]
      omega

end Agree

end ELF

end JudgePenguin
