/-
  JudgePenguin/OutputDelivery.lean
  ================================
  **Output through the library** (`duck_write`, `duck_writev`).

  Each stream has a region and a size, and a write appends what still fits: the
  region holds the first bytes of everything that was written (`Run.outputs`).  What
  is cut off is reported as written, so that the loop of `duck_writev` never stops
  early, and the room that is left is a difference that cannot wrap, because the
  size stays below the maximum.
-/
import JudgePenguin.UserRuns

namespace JudgePenguin

open Words

namespace UserLib

/-! ## The two streams -/

inductive Stream where
  | stdout
  | stderr
deriving DecidableEq

namespace Stream

def fd : Stream → Int
  | .stdout => 1
  | .stderr => 2

def slot : Stream → Slot
  | .stdout => .stdout
  | .stderr => .stderr

def maxCell : Stream → Cell
  | .stdout => .stdoutMaxSize
  | .stderr => .stderrMaxSize

def ptrField : Stream → Field
  | .stdout => .stdoutPtr
  | .stderr => .stderrPtr

def limitField : Stream → Field
  | .stdout => .stdoutLimit
  | .stderr => .stderrLimit

def sizeField : Stream → Field
  | .stdout => .stdoutSize
  | .stderr => .stderrSize

theorem slot_injective {s t : Stream} (h : s ≠ t) : s.slot ≠ t.slot := by
  cases s <;> cases t <;> first | exact absurd rfl h | exact Slot.noConfusion

theorem fd_injective {s t : Stream} (h : s.fd = t.fd) : s = t := by
  cases s <;> cases t <;> first | rfl | exact absurd h (by decide)

end Stream

/-- The output of a stream that has been kept. -/
def Lib.kept (L : Lib) : Stream → List UInt8
  | .stdout => L.out
  | .stderr => L.err

def Lib.keep (L : Lib) : Stream → List UInt8 → Lib
  | .stdout, bs => { L with out := bs }
  | .stderr, bs => { L with err := bs }

section Streams

variable {E : Env} {m : Mem} {L : Lib} {s t : Stream} {bs : List UInt8}

@[simp] theorem Lib.kept_keep_self (L : Lib) (s : Stream) (bs : List UInt8) :
    (L.keep s bs).kept s = bs := by cases s <;> rfl

theorem Lib.kept_keep_of_ne (L : Lib) (h : t ≠ s) (bs : List UInt8) :
    (L.keep s bs).kept t = L.kept t := by
  cases s <;> cases t <;> first | exact absurd rfl h | rfl

theorem Lib.keep_stdin (L : Lib) (s : Stream) (bs : List UInt8) : (L.keep s bs).stdin = L.stdin := by
  cases s <;> rfl

theorem Lib.keep_keep (L : Lib) (s : Stream) (bs cs : List UInt8) :
    (L.keep s bs).keep s cs = L.keep s cs := by cases s <;> rfl

theorem Lib.keep_kept (L : Lib) (s : Stream) : L.keep s (L.kept s) = L := by cases s <;> rfl

/-- Keeping more changes the size of the stream. -/
theorem Lib.value_keep (E : Env) (L : Lib) (s : Stream) (bs : List UInt8) (c : Cell) :
    (L.keep s bs).value E c =
      if c = .field s.sizeField then some bs.length else L.value E c := by
  cases s with
  | stdout =>
    cases c with
    | field f => cases f <;> rfl
    | _ => rfl
  | stderr =>
    cases c with
    | field f => cases f <;> rfl
    | _ => rfl

theorem Current.max (hm : Current E m L) (s : Stream) : E.cell m s.maxCell = E.size s.slot := by
  cases s with
  | stdout => exact hm.cells .stdoutMaxSize _ rfl
  | stderr => exact hm.cells .stderrMaxSize _ rfl

theorem Current.max_lt (hm : Current E m L) (s : Stream) : E.size s.slot < 2 ^ 64 := by
  rw [← hm.max]
  exact Env.cell_lt E m _

theorem Current.ptr (hm : Current E m L) (s : Stream) :
    E.cell m (.field s.ptrField) = E.start s.slot := by
  cases s with
  | stdout => exact hm.cells (.field .stdoutPtr) _ rfl
  | stderr => exact hm.cells (.field .stderrPtr) _ rfl

theorem Current.size (hm : Current E m L) (s : Stream) :
    E.cell m (.field s.sizeField) = (L.kept s).length := by
  cases s with
  | stdout => exact hm.cells (.field .stdoutSize) _ rfl
  | stderr => exact hm.cells (.field .stderrSize) _ rfl

theorem Current.kept (hm : Current E m L) (s : Stream) :
    m.read (E.start s.slot) (L.kept s).length = L.kept s := by
  cases s with
  | stdout => exact hm.out
  | stderr => exact hm.err

theorem Current.keptLe (hm : Current E m L) (s : Stream) :
    (L.kept s).length ≤ E.size s.slot := by
  cases s with
  | stdout => exact hm.outLe
  | stderr => exact hm.errLe

/-- Output in the region of a stream leaves the cells. -/
theorem Env.Sound.cell_region (h : E.Sound) {n : Nat} {c : Cell}
    (hle : n + bs.length ≤ E.size s.slot) :
    E.cell (m.write (E.start s.slot + n) bs) c = E.cell m c := by
  have hne : s.slot ≠ c.slot := by
    cases s with
    | stdout => exact c.slot_ne.2.1.symm
    | stderr => exact c.slot_ne.2.2.symm
  exact h.read64_write hne (Nat.le_add_right _ _) (by omega) (Env.addr_inside E c).1
    (Env.addr_inside E c).2

/-- Output that fits behind what is there. -/
theorem Current.store (h : E.Sound) (hm : Current E m L) (s : Stream)
    (hle : (L.kept s).length + bs.length ≤ E.size s.slot) :
    Current E (E.set (m.write (E.start s.slot + (L.kept s).length) bs) (.field s.sizeField)
      ((L.kept s).length + bs.length)) (L.keep s (L.kept s ++ bs)) := by
  have hinside := h.inside s.slot
  have hsum : ((L.kept s).length + bs.length) % 2 ^ 64 = (L.kept s).length + bs.length :=
    Nat.mod_eq_of_lt (Nat.lt_of_le_of_lt hle (hm.max_lt s))
  -- the bytes go to the region of the stream
  have hregion {slot : Slot} (hne : s.slot ≠ slot) {a n : Nat} (ha : E.start slot ≤ a)
      (ha' : a + n ≤ E.start slot + E.size slot) :
      (m.write (E.start s.slot + (L.kept s).length) bs).read a n = m.read a n :=
    h.read_write hne (Nat.le_add_right _ _) (by omega) ha ha'
  have hcell := fun c => h.cell_region (m := m) (c := c) hle
  have hstreams : ∀ t : Stream, ((L.keep s (L.kept s ++ bs)).kept t).length ≤ E.size t.slot ∧
      (E.set (m.write (E.start s.slot + (L.kept s).length) bs) (.field s.sizeField)
        ((L.kept s).length + bs.length)).read (E.start t.slot)
          ((L.keep s (L.kept s ++ bs)).kept t).length = (L.keep s (L.kept s ++ bs)).kept t := by
    intro t
    have htne : Cell.slot (.field s.sizeField) ≠ t.slot := by
      cases t <;> exact Slot.noConfusion
    by_cases hts : t = s
    · subst hts
      rw [Lib.kept_keep_self, List.length_append]
      refine ⟨hle, ?_⟩
      rw [h.read_set htne (Nat.le_refl _) (Nat.add_le_add_left hle _), Mem.read_add,
        Mem.read_write_self, Mem.read_write_disjoint _ _ _ (.inl (Nat.le_refl _)), hm.kept]
    · rw [Lib.kept_keep_of_ne L hts]
      refine ⟨hm.keptLe t, ?_⟩
      have hfits := Nat.add_le_add_left (hm.keptLe t) (E.start t.slot)
      rw [h.read_set htne (Nat.le_refl _) hfits,
        hregion (Stream.slot_injective (Ne.symm hts)) (Nat.le_refl _) hfits, hm.kept]
  refine ⟨?_, fun c v hv => ?_, ?_, (hstreams .stdout).2, (hstreams .stderr).2, (hstreams .stdout).1,
    (hstreams .stderr).1⟩
  · have hinit : (m.write (E.start s.slot + (L.kept s).length) bs) E.x.inited = m E.x.inited := by
      have hne : s.slot ≠ .inited := by cases s <;> exact Slot.noConfusion
      have hdis := h.disjoint hne
      have hstart : E.start .inited = E.x.inited := rfl
      have hsize : E.size .inited = 1 := rfl
      exact Mem.write_outside _ _ _ (by omega)
    rw [h.inited_set, hinit]
    exact hm.inited
  · rw [Lib.value_keep] at hv
    rw [h.cell_set]
    split_ifs at hv ⊢ with hc
    · rw [hsum, ← List.length_append]
      exact Option.some.inj hv
    · rw [hcell]
      exact hm.cells c v hv
  · have hne : s.slot ≠ .stdin := by cases s <;> exact Slot.noConfusion
    rw [h.stdin_set, Lib.keep_stdin]
    exact (hregion hne (Nat.le_refl _) (Nat.le_refl _)).trans hm.stdin

/-- `duck_write` on a current memory: what still fits is appended. -/
theorem Current.duckWrite_eq (h : E.Sound) (hm : Current E m L) (s : Stream) (buf len : Nat) :
    let bytes := m.read buf (min len (E.size s.slot - (L.kept s).length))
    duckWrite E.x s.fd buf len m =
      ⟨len, bytes, E.set (m.write (E.start s.slot + (L.kept s).length) bytes) (.field s.sizeField)
        ((L.kept s).length + bytes.length)⟩ := by
  intro bytes
  have hstream : duckWrite E.x s.fd buf len m = writeTo E.x (E.addr s.maxCell) s.ptrField.offset
      s.sizeField.offset buf len m := by cases s <;> rfl
  have hinfo : m.read64 E.x.duckinfo = E.info := hm.cells .duckinfo _ rfl
  have hmax : m.read64 (E.addr s.maxCell) = E.size s.slot := hm.max s
  have hptr : m.read64 (E.info + s.ptrField.offset) = E.start s.slot := hm.ptr s
  have hsize : m.read64 (E.info + s.sizeField.offset) = (L.kept s).length := hm.size s
  have hkept := hm.keptLe s
  have hlen : bytes.length = min len (E.size s.slot - (L.kept s).length) := Mem.length_read _ _ _
  have hread : m.read buf bytes.length = bytes := by rw [hlen]
  have hroom : (L.kept s).length + bytes.length ≤ E.size s.slot := by omega
  have hinside := h.inside s.slot
  -- the address wraps only if nothing is copied
  have haddr : m.write (wrap64 (E.start s.slot + (L.kept s).length)) bytes =
      m.write (E.start s.slot + (L.kept s).length) bytes := by
    rcases Nat.eq_zero_or_pos bytes.length with hzero | hpos
    · rw [List.length_eq_zero_iff.mp hzero, Mem.write_nil, Mem.write_nil]
    · rw [wrap64_of_lt (by omega)]
  have hcell := fun c => h.cell_region (m := m) (c := c) hroom
  have hinfo' : (m.write (E.start s.slot + (L.kept s).length) bytes).read64 E.x.duckinfo = E.info :=
    (hcell .duckinfo).trans hinfo
  have hsize' : (m.write (E.start s.slot + (L.kept s).length) bytes).read64
      (E.info + s.sizeField.offset) = (L.kept s).length :=
    (hcell (.field s.sizeField)).trans hsize
  rw [hstream, writeTo]
  rw [hinfo, hmax, hptr, hsize, sub64_of_le (hm.max_lt s) hkept]
  rw [haddr, hinfo', hsize', ← hlen, hread, wrap64_of_lt (Nat.lt_of_le_of_lt hroom (hm.max_lt s))]
  rfl

/-! ## What one call changes -/

/-- The addresses that a write to `s` may change when `n` bytes are kept: the variables,
    and the rest of the region. -/
def Env.Changed (E : Env) (s : Stream) (n a : Nat) : Prop :=
  E.Variable a ∨ (E.start s.slot + n ≤ a ∧ a < E.start s.slot + E.size s.slot)

theorem Env.Changed.mono {n n' a : Nat} (hle : n ≤ n') (h : E.Changed s n' a) : E.Changed s n a :=
  h.imp_right fun hin => ⟨by omega, hin.2⟩

/-- A stream is not changed by the other. -/
theorem Env.Sound.not_changed (h : E.Sound) (hne : t ≠ s) {n a : Nat} (hlow : E.start t.slot ≤ a)
    (hhigh : a < E.start t.slot + E.size t.slot) : ¬ E.Changed s n a := by
  rintro (⟨slot, ⟨-, hout, herr⟩, hvlow, hvhigh⟩ | ⟨hrlow, hrhigh⟩)
  · have hslot : t.slot ≠ slot := by
      cases t with
      | stdout => exact hout.symm
      | stderr => exact herr.symm
    have hdis := h.disjoint hslot
    omega
  · have hdis := h.disjoint (Stream.slot_injective hne)
    omega

/-- One write. -/
theorem Current.duckWrite (h : E.Sound) (hm : Current E m L) (s : Stream) (buf len : Nat) :
    let r := duckWrite E.x s.fd buf len m
    r.ret = len ∧
      Current E r.mem
        (L.keep s (L.kept s ++ m.read buf (min len (E.size s.slot - (L.kept s).length)))) ∧
      ∀ a, ¬ E.Changed s (L.kept s).length a → r.mem a = m a := by
  intro r
  have hr : r = _ := hm.duckWrite_eq h s buf len
  have hkept := hm.keptLe s
  have hlen : (m.read buf (min len (E.size s.slot - (L.kept s).length))).length =
      min len (E.size s.slot - (L.kept s).length) := Mem.length_read _ _ _
  have hroom : (L.kept s).length + (m.read buf (min len (E.size s.slot -
      (L.kept s).length))).length ≤ E.size s.slot := by omega
  rw [hr]
  refine ⟨rfl, hm.store h s hroom, fun a ha => ?_⟩
  have hout : a < E.start s.slot + (L.kept s).length ∨
      E.start s.slot + (L.kept s).length +
        (m.read buf (min len (E.size s.slot - (L.kept s).length))).length ≤ a := by
    by_contra hcon
    exact ha (.inr (by omega))
  dsimp only
  rw [Env.set_other _ _ _ fun hvar => ha (.inl hvar), Mem.write_outside _ _ _ hout]

end Streams

/-! ## The loop of `duck_writev` -/

/-- The bytes of the memory that `ps` names. -/
def gathered (m : Mem) (ps : List (Nat × Nat)) : List UInt8 := ps.flatMap fun p => m.read p.1 p.2

theorem gathered_cons (m : Mem) (p : Nat × Nat) (ps : List (Nat × Nat)) :
    gathered m (p :: ps) = m.read p.1 p.2 ++ gathered m ps := rfl

theorem gathered_congr {m m' : Mem} {ps : List (Nat × Nat)}
    (h : ∀ p ∈ ps, ∀ i < p.2, m' (p.1 + i) = m (p.1 + i)) : gathered m' ps = gathered m ps :=
  List.flatMap_congr fun p hp => Mem.read_congr (h p hp)

/-- The shares of `rem` bytes are the first `rem` bytes. -/
theorem take_gathered (m : Mem) (ps : List (Nat × Nat)) (rem : Nat) :
    (gathered m ps).take rem = gathered m (shares rem ps) := by
  induction ps generalizing rem with
  | nil => exact List.take_nil
  | cons p ps ih =>
    have hfirst : (m.read p.1 p.2).take rem = m.read p.1 (min p.2 rem) := by
      rcases Nat.le_total rem p.2 with hle | hle
      · rw [Mem.read_take m p.1 hle, Nat.min_eq_right hle]
      · rw [List.take_of_length_le (by rw [Mem.length_read]; exact hle), Nat.min_eq_left hle]
    rw [gathered_cons, shares, gathered_cons, List.take_append, hfirst, Mem.length_read, ih]

/-- A vector and the memory it names, as far as it is copied, which a write to `s` does
    not change. -/
structure FromProgram (E : Env) (s : Stream) (kept iov n : Nat) (ps : List (Nat × Nat)) : Prop where
  vector : ∀ a, iov ≤ a → a < iov + 16 * n → ¬ E.Changed s kept a
  sources : ∀ p ∈ shares (E.size s.slot - kept) ps, ∀ i < p.2, ¬ E.Changed s kept (p.1 + i)

/-- What writing `ps` to `s` does from a current memory on. -/
structure WritesOn (E : Env) (L : Lib) (s : Stream) (ps : List (Nat × Nat)) (acc r : Reply) :
    Prop where
  ret : r.ret = acc.ret + total ps
  current : Current E r.mem (L.keep s (L.kept s ++
    gathered acc.mem (shares (E.size s.slot - (L.kept s).length) ps)))
  frame : ∀ a, ¬ E.Changed s (L.kept s).length a → r.mem a = acc.mem a

section Loop

variable {E : Env} {L : Lib} {s : Stream}

theorem writesOn_nil {acc : Reply} (hm : Current E acc.mem L) : WritesOn E L s [] acc acc := by
  refine ⟨rfl, ?_, fun _ _ => rfl⟩
  have hnone : L.kept s ++ gathered acc.mem (shares (E.size s.slot - (L.kept s).length) []) =
      L.kept s := List.append_nil _
  rw [hnone, Lib.keep_kept]
  exact hm

/-- **The loop** writes every element, whether there is room for it or not. -/
theorem vectored_duckWrite (h : E.Sound) (s : Stream) (n iov : Nat) (acc : Reply)
    (hm : Current E acc.mem L)
    (htotal : acc.ret + total (iovecs acc.mem iov n) < 2 ^ 64)
    (hfrom : FromProgram E s (L.kept s).length iov n (iovecs acc.mem iov n)) :
    WritesOn E L s (iovecs acc.mem iov n) acc (vectored (duckWrite E.x s.fd) n iov acc) := by
  induction n generalizing L acc iov with
  | zero => exact writesOn_nil hm
  | succ n ih =>
    obtain ⟨b, hb⟩ : ∃ b, acc.mem.read64 iov = b := ⟨_, rfl⟩
    obtain ⟨l, hl⟩ : ∃ l, acc.mem.read64 (iov + 8) = l := ⟨_, rfl⟩
    obtain ⟨r1, hr1⟩ : ∃ r1, UserLib.duckWrite E.x s.fd b l acc.mem = r1 := ⟨_, rfl⟩
    obtain ⟨room, hroom⟩ : ∃ room, E.size s.slot - (L.kept s).length = room := ⟨_, rfl⟩
    obtain ⟨hret, hcurrent, hframe⟩ := hm.duckWrite h s b l
    rw [hr1] at hret hcurrent hframe
    rw [hroom] at hcurrent
    have hpieces : iovecs acc.mem iov (n + 1) = (b, l) :: iovecs acc.mem (iov + 16) n := by
      rw [iovecs, hb, hl]
    have hshares : shares room (iovecs acc.mem iov (n + 1)) =
        (b, min l room) :: shares (room - l) (iovecs acc.mem (iov + 16) n) := by
      rw [hpieces, shares]
    have hvector := hfrom.vector
    have hsources := hfrom.sources
    rw [hroom, hshares] at hsources
    -- the vector is where it was
    have hsame (a : Nat) (hlow : iov ≤ a) (hhigh : a < iov + 16 * (n + 1)) :
        r1.mem a = acc.mem a := hframe a (hvector a hlow hhigh)
    have hlen : r1.mem.read64 (iov + 8) = l := by
      rw [← hl]
      exact Mem.read64_congr fun i hi => hsame _ (by omega) (by omega)
    have hrest : iovecs r1.mem (iov + 16) n = iovecs acc.mem (iov + 16) n :=
      iovecs_congr fun i hi => hsame _ (by omega) (by omega)
    rw [hpieces, total_cons] at htotal
    have hwrap : wrap64 (acc.ret + l) = acc.ret + l := wrap64_of_lt (by dsimp only at htotal; omega)
    -- the state after the first element
    obtain ⟨first, hfirst⟩ : ∃ first, acc.mem.read b (min l room) = first := ⟨_, rfl⟩
    have hfirstLen : first.length = min l room := by rw [← hfirst, Mem.length_read]
    rw [hfirst] at hcurrent
    obtain ⟨L1, hL1⟩ : ∃ L1, L.keep s (L.kept s ++ first) = L1 := ⟨_, rfl⟩
    rw [hL1] at hcurrent
    have hkept1 : L1.kept s = L.kept s ++ first := by rw [← hL1, Lib.kept_keep_self]
    have hlen1 : (L1.kept s).length = (L.kept s).length + min l room := by
      rw [hkept1, List.length_append, hfirstLen]
    have hroom1 : E.size s.slot - (L1.kept s).length = room - l := by omega
    have hgrows : (L.kept s).length ≤ (L1.kept s).length := by omega
    have hlater : ∀ p ∈ shares (room - l) (iovecs acc.mem (iov + 16) n), ∀ i < p.2,
        ¬ E.Changed s (L.kept s).length (p.1 + i) := fun p hp => hsources p (List.mem_cons_of_mem _ hp)
    have hnext : FromProgram E s (L1.kept s).length (iov + 16) n (iovecs r1.mem (iov + 16) n) := by
      refine ⟨fun a hlow hhigh hch => hvector a (by omega) (by omega) (hch.mono hgrows),
        fun p hp i hi hch => ?_⟩
      rw [hroom1, hrest] at hp
      exact hlater p hp i hi (hch.mono hgrows)
    have hon := ih (iov + 16) ⟨acc.ret + l, acc.copied ++ r1.copied, r1.mem⟩ hcurrent
      (by dsimp only; rw [hrest]; dsimp only at htotal; omega) hnext
    dsimp only at hon
    rw [hrest] at hon
    have hstep : vectored (UserLib.duckWrite E.x s.fd) (n + 1) iov acc =
        vectored (UserLib.duckWrite E.x s.fd) n (iov + 16)
          ⟨acc.ret + l, acc.copied ++ r1.copied, r1.mem⟩ := by
      rw [vectored, hb, hl, hr1, hlen, hret, if_pos (Nat.le_refl l), hwrap, if_neg (not_not.mpr rfl)]
    rw [hstep]
    refine ⟨?_, ?_, fun a ha => ?_⟩
    · rw [hon.ret, hpieces, total_cons, Nat.add_assoc]
    · have hkeep := hon.current
      have hgather : gathered r1.mem (shares (room - l) (iovecs acc.mem (iov + 16) n)) =
          gathered acc.mem (shares (room - l) (iovecs acc.mem (iov + 16) n)) :=
        gathered_congr fun p hp i hi => hframe _ (hlater p hp i hi)
      rw [hroom1, hgather, hkept1, ← hL1, Lib.keep_keep, List.append_assoc] at hkeep
      rw [hroom, hshares, gathered_cons, hfirst]
      exact hkeep
    · rw [hon.frame a fun hch => ha (hch.mono hgrows), hframe a ha]

end Loop

/-! ## Runs of writes -/

/-- The size of a stream, as a call would find it. -/
def Env.sizeOf (E : Env) (m : Mem) (s : Stream) : Nat :=
  E.cell (ensureInit E.x E.getauxval m) (.field s.sizeField)

/-- `SYS_write` or `SYS_writev` on the file descriptor of `s`, of fewer than 2^64 bytes
    in fewer than 2^31 elements; what is copied is not memory that the call changes. -/
structure WriteCall (E : Env) (s : Stream) (c : Call) (m : Mem) : Prop where
  number : c.number = .write ∨ c.number = .writev
  fd : asInt c.a1 = s.fd
  count : c.number = .writev → c.a3.toNat < 2 ^ 31
  total : total (c.pieces m) < 2 ^ 64
  source : FromProgram E s (E.sizeOf m s) c.a2.toNat (if c.number = .writev then c.a3.toNat else 0)
    (c.pieces m)

/-- The bytes that a call writes. -/
def Entry.bytes (e : Entry) : List UInt8 := gathered e.before (e.call.pieces e.before)

/-- All that was written to a stream. -/
def written (s : Stream) (log : List Entry) : List UInt8 :=
  log.flatMap fun e => if asInt e.call.a1 = s.fd then e.bytes else []

/-- A call that writes everything and leaves the other stream alone. -/
structure Entry.Complete (E : Env) (e : Entry) : Prop where
  ret : (e.reply E).ret = e.asked
  others : ∀ t : Stream, asInt e.call.a1 ≠ t.fd →
    (e.reply E).mem.read (E.start t.slot) (E.size t.slot) =
        e.before.read (E.start t.slot) (E.size t.slot) ∧
      E.cell (e.reply E).mem (.field t.sizeField) = E.cell e.before (.field t.sizeField)

section Runs

variable {E : Env} {m₀ m : Mem} {log : List Entry} {L : Lib} {c : Call} {s : Stream}

theorem Holds.sizeOf (h : E.Sound) (hm : Holds E m L) (s : Stream) :
    E.sizeOf m s = (L.kept s).length := (hm.ensureInit h).size s

theorem written_append (s : Stream) (log : List Entry) (e : Entry) :
    written s (log ++ [e]) =
      written s log ++ if asInt e.call.a1 = s.fd then e.bytes else [] := by
  rw [written, List.flatMap_append, List.flatMap_singleton]
  rfl

/-- A reply to a call on a stream is that of the loop over its memory. -/
theorem Holds.write_on (h : E.Sound) (hm : Holds E m L) (hc : WriteCall E s c m) :
    WritesOn E L s (c.pieces m) ⟨0, [], UserLib.ensureInit E.x E.getauxval m⟩
      (Entry.reply E ⟨c, m⟩) := by
  have hcur := hm.ensureInit h
  have hsource := hc.source
  rw [hm.sizeOf h] at hsource
  rcases hc.number with hnum | hnum
  · have hpieces : c.pieces m = [(c.a2.toNat, c.a3.toNat)] := if_neg (by rw [hnum]; decide)
    have hreply : Entry.reply E ⟨c, m⟩ = UserLib.duckWrite E.x s.fd c.a2.toNat c.a3.toNat
        (UserLib.ensureInit E.x E.getauxval m) := by
      rw [Entry.reply, syscallHandler, dispatch, hnum]
      dsimp only
      rw [hc.fd]
    obtain ⟨hret, hcurrent, hframe⟩ := hcur.duckWrite h s c.a2.toNat c.a3.toNat
    rw [hpieces, hreply]
    refine ⟨?_, ?_, hframe⟩
    · rw [hret, total_singleton, Nat.zero_add]
    · rw [shares, shares, gathered_cons]
      dsimp only
      rw [gathered, List.flatMap_nil, List.append_nil]
      exact hcurrent
  · rw [if_pos hnum] at hsource
    have hpieces : c.pieces m = iovecs m c.a2.toNat c.a3.toNat := if_pos (.inr hnum)
    have hvec : iovecs (UserLib.ensureInit E.x E.getauxval m) c.a2.toNat c.a3.toNat =
        c.pieces m := by
      rw [hpieces]
      exact iovecs_congr fun i hi => h.ensureInit_other m fun hvar =>
        hsource.vector _ (by omega) (by omega) (.inl hvar)
    have hreply : Entry.reply E ⟨c, m⟩ = vectored (UserLib.duckWrite E.x s.fd) c.a3.toNat
        c.a2.toNat ⟨0, [], UserLib.ensureInit E.x E.getauxval m⟩ := by
      rw [Entry.reply, syscallHandler, dispatch, hnum]
      dsimp only
      rw [hc.fd, duckWritev, asInt_toNat (hc.count hnum)]
    have htotal := hc.total
    rw [← hvec] at hsource htotal ⊢
    rw [hreply]
    exact vectored_duckWrite h s c.a3.toNat c.a2.toNat
      ⟨0, [], UserLib.ensureInit E.x E.getauxval m⟩ hcur (by rw [Nat.zero_add]; exact htotal) hsource

/-- One call of a run. -/
theorem Holds.write_step (h : E.Sound) (hm : Holds E m L) (hc : WriteCall E s c m) :
    (Entry.reply E ⟨c, m⟩).ret = Entry.asked ⟨c, m⟩ ∧
      Current E (Entry.reply E ⟨c, m⟩).mem
        (L.keep s ((L.kept s ++ Entry.bytes ⟨c, m⟩).take (E.size s.slot))) ∧
      ∀ a, ¬ E.Changed s (L.kept s).length a → (Entry.reply E ⟨c, m⟩).mem a = m a := by
  have hon := hm.write_on h hc
  have hkept := (hm.ensureInit h).keptLe s
  have hsource := hc.source.sources
  rw [hm.sizeOf h] at hsource
  have hgather : gathered (UserLib.ensureInit E.x E.getauxval m)
      (shares (E.size s.slot - (L.kept s).length) (c.pieces m)) =
      (Entry.bytes ⟨c, m⟩).take (E.size s.slot - (L.kept s).length) := by
    rw [Entry.bytes, take_gathered]
    exact gathered_congr fun p hp i hi => h.ensureInit_other m fun hvar =>
      hsource p hp i hi (.inl hvar)
  have hcurrent := hon.current
  rw [hgather] at hcurrent
  refine ⟨?_, ?_, fun a ha => ?_⟩
  · rw [hon.ret, Nat.zero_add]
    rfl
  · rw [List.take_append, List.take_of_length_le hkept]
    exact hcurrent
  · rw [hon.frame a ha]
    exact h.ensureInit_other m fun hvar => ha (.inl hvar)

/-- The sizes of the streams and what they have kept. -/
structure OutputSoFar (E : Env) (log : List Entry) (m : Mem) (L : Lib) : Prop where
  holds : Holds E m L
  size : ∀ s : Stream, E.cell m (.field s.sizeField) = (L.kept s).length
  kept : ∀ s : Stream, L.kept s = (written s log).take (E.size s.slot)
  each : ∀ e ∈ log, e.Complete E

/-- The library without its input, whose region the program may write. -/
def Env.outputOnly (E : Env) : Env := { E with stdinSize := 0 }

theorem Env.cell_outputOnly (E : Env) (m : Mem) (c : Cell) : E.outputOnly.cell m c = E.cell m c := by
  have haddr : E.outputOnly.addr c = E.addr c := by cases c <;> rfl
  rw [cell, cell, haddr]

/-- The input is only what is in its region. -/
theorem Lib.value_stdin (E : Env) (L : Lib) (bs : List UInt8) (c : Cell) :
    Lib.value E { L with stdin := bs } c = L.value E c := by
  cases c with
  | field f => cases f <;> rfl
  | _ => rfl

theorem Holds.leaves_outputOnly {m' : Mem} (hm : Holds E m L) (h : E.outputOnly.Leaves m m') :
    Holds E m' { L with stdin := m'.read E.stdinPtr E.stdinSize } := by
  have hcell (c : Cell) : E.cell m' c = E.cell m c := by
    have hc := h.cell c
    rwa [Env.cell_outputOnly, Env.cell_outputOnly] at hc
  have hinited : m' E.x.inited = m E.x.inited := h.inited
  rcases hm with hcur | ⟨hfresh, rfl⟩
  · refine .inl ⟨hinited ▸ hcur.inited, fun c v hv => ?_, rfl, ?_, ?_, hcur.outLe, hcur.errLe⟩
    · rw [Lib.value_stdin] at hv
      exact (hcell c).trans (hcur.cells c v hv)
    · exact (h.read (s := .stdout) (Nat.le_refl _) (Nat.add_le_add_left hcur.outLe _)).trans hcur.out
    · exact (h.read (s := .stderr) (Nat.le_refl _) (Nat.add_le_add_left hcur.errLe _)).trans hcur.err
  · refine .inr ⟨⟨hinited.trans hfresh.inited, (hcell _).trans hfresh.stdinPtr,
      (hcell _).trans hfresh.stdinSize, (hcell _).trans hfresh.stdoutPtr,
      (hcell _).trans hfresh.stdoutLimit, (hcell _).trans hfresh.stderrPtr,
      (hcell _).trans hfresh.stderrLimit⟩, ?_⟩
    rw [Env.initial, Env.initial, hcell]

theorem OutputSoFar.leaves {m' : Mem} (hm : OutputSoFar E log m L)
    (hleaves : E.outputOnly.Leaves m m') :
    OutputSoFar E log m' { L with stdin := m'.read E.stdinPtr E.stdinSize } := by
  have hkept (s : Stream) : Lib.kept { L with stdin := m'.read E.stdinPtr E.stdinSize } s = L.kept s := by
    cases s <;> rfl
  refine ⟨hm.holds.leaves_outputOnly hleaves, fun s => ?_, fun s => ?_, hm.each⟩
  · have hcell := hleaves.cell (.field s.sizeField)
    rw [Env.cell_outputOnly, Env.cell_outputOnly] at hcell
    rw [hkept, hcell]
    exact hm.size s
  · rw [hkept]
    exact hm.kept s

/-- The first `n` elements do not depend on what the first part has beyond them. -/
theorem take_take_append {α : Type} (n : Nat) (as bs : List α) :
    (as.take n ++ bs).take n = (as ++ bs).take n := by
  rw [List.take_append, List.take_append, List.take_take, Nat.min_self, List.length_take]
  congr 2
  omega

theorem OutputSoFar.step (h : E.Sound) (hm : OutputSoFar E log m L) (hc : WriteCall E s c m) :
    OutputSoFar E (log ++ [⟨c, m⟩]) (Entry.reply E ⟨c, m⟩).mem
      (L.keep s ((L.kept s ++ Entry.bytes ⟨c, m⟩).take (E.size s.slot))) := by
  obtain ⟨hret, hcurrent, hframe⟩ := hm.holds.write_step h hc
  have hfd : asInt (Entry.call ⟨c, m⟩).a1 = s.fd := hc.fd
  refine ⟨.inl hcurrent, hcurrent.size, fun t => ?_, fun e he => ?_⟩
  · rw [written_append]
    by_cases hts : t = s
    · subst hts
      rw [if_pos hfd, Lib.kept_keep_self, hm.kept, take_take_append]
    · rw [if_neg fun heq => hts (Stream.fd_injective (heq.symm.trans hfd)), List.append_nil,
        Lib.kept_keep_of_ne L hts]
      exact hm.kept t
  · rcases List.mem_append.mp he with hold | hnew
    · exact hm.each e hold
    · rw [List.mem_singleton.mp hnew]
      refine ⟨hret, fun t ht => ?_⟩
      have hts : t ≠ s := by
        rintro rfl
        exact ht hfd
      refine ⟨Mem.read_congr fun i hi => hframe _ (h.not_changed hts (Nat.le_add_right _ _) (by omega)),
        ?_⟩
      rw [hcurrent.size, Lib.kept_keep_of_ne L hts, hm.size]

/-! ## From the start of a program -/

/-- `DuckInfo` as the loader sets it up. -/
structure InfoSet (E : Env) (m : Mem) : Prop where
  stdinPtr : E.cell m (.field .stdinPtr) = E.stdinPtr
  stdinSize : E.cell m (.field .stdinSize) = E.stdinSize
  ptr : ∀ s : Stream, E.cell m (.field s.ptrField) = E.start s.slot
  limit : ∀ s : Stream, E.cell m (.field s.limitField) = E.size s.slot
  size : ∀ s : Stream, E.cell m (.field s.sizeField) = 0

/-- The library will call `init`, or finds in its variables what `init` would set. -/
def Env.StartsRight (E : Env) (m : Mem) : Prop :=
  m E.x.inited = 0 ∨
    E.cell m .duckinfo = E.info ∧ ∀ s : Stream, E.cell m s.maxCell = E.size s.slot

/-- Without a call of `init` the variables have to be right already. -/
theorem InfoSet.current (hm : InfoSet E m) (hinited : m E.x.inited ≠ 0)
    (hinfo : E.cell m .duckinfo = E.info)
    (hmax : ∀ s : Stream, E.cell m s.maxCell = E.size s.slot) :
    Current E m
      { stdin := m.read E.stdinPtr E.stdinSize, pos := E.cell m .stdinCurrPos, out := [], err := []
        brk := E.cell m .heapBrk, mmapP := E.cell m .mmapP } := by
  refine ⟨hinited, fun c v hv => ?_, rfl, rfl, rfl, Nat.zero_le _, Nat.zero_le _⟩
  rw [← Option.some.injEq, ← hv]
  cases c with
  | field f =>
    cases f with
    | stdinPtr => exact congrArg some hm.stdinPtr
    | stdinSize => exact congrArg some hm.stdinSize
    | stdoutPtr => exact congrArg some (hm.ptr .stdout)
    | stdoutSize => exact congrArg some (hm.size .stdout)
    | stderrPtr => exact congrArg some (hm.ptr .stderr)
    | stderrSize => exact congrArg some (hm.size .stderr)
    | _ => cases hv
  | duckinfo => exact congrArg some hinfo
  | stdoutMaxSize => exact congrArg some (hmax .stdout)
  | stderrMaxSize => exact congrArg some (hmax .stderr)
  | tscFrequency => cases hv
  | _ => rfl

theorem InfoSet.outputSoFar (hm : InfoSet E m) (hright : E.StartsRight m) :
    ∃ L, OutputSoFar E [] m L := by
  have hstart {L : Lib} (hholds : Holds E m L) (hnone : ∀ s, L.kept s = []) :
      OutputSoFar E [] m L := by
    refine ⟨hholds, fun s => ?_, fun s => ?_, List.forall_mem_nil _⟩
    · rw [hm.size, hnone]
      rfl
    · rw [hnone]
      exact List.take_nil.symm
  by_cases hinited : m E.x.inited = 0
  · have hfresh : Fresh E m := ⟨hinited, hm.stdinPtr, hm.stdinSize, hm.ptr .stdout,
      hm.limit .stdout, hm.ptr .stderr, hm.limit .stderr⟩
    exact ⟨_, hstart (.inr ⟨hfresh, rfl⟩) fun s => by cases s <;> rfl⟩
  · obtain ⟨hinfo, hmax⟩ := hright.resolve_left hinited
    exact ⟨_, hstart (.inl (hm.current hinited hinfo hmax)) fun s => by cases s <;> rfl⟩

/-- Calls that write to one of the streams. -/
def OutputCall (E : Env) (c : Call) (m : Mem) : Prop := ∃ s, WriteCall E s c m

theorem Run.outputSoFar (h : E.Sound) (hm : InfoSet E m₀) (hright : E.StartsRight m₀)
    (hrun : Run E.outputOnly (OutputCall E) m₀ log m) : ∃ L, OutputSoFar E log m L := by
  induction hrun with
  | start => exact hm.outputSoFar hright
  | program _ hleaves ih =>
    obtain ⟨L, hL⟩ := ih
    exact ⟨_, hL.leaves hleaves⟩
  | call _ c hc ih =>
    obtain ⟨L, hL⟩ := ih
    obtain ⟨s, hs⟩ := hc
    exact ⟨_, hL.step h hs⟩

theorem Run.leaves_of_nil {A : Call → Mem → Prop} (hrun : Run E A m₀ log m) (hnil : log = []) :
    E.Leaves m₀ m := by
  induction hrun with
  | start => exact fun _ _ => rfl
  | program _ hleaves ih => exact (ih hnil).trans hleaves
  | call _ c hc ih => exact absurd hnil (List.append_ne_nil_of_right_ne_nil _ (List.cons_ne_nil _ _))

/-- What a run has written, and where it is. -/
structure Outputs (E : Env) (log : List Entry) (m : Mem) : Prop where
  each : ∀ e ∈ log, e.Complete E
  size : ∀ s : Stream, E.cell m (.field s.sizeField) = min (E.size s.slot) (written s log).length
  bytes : ∀ s : Stream, m.read (E.start s.slot) (min (E.size s.slot) (written s log).length) =
    (written s log).take (E.size s.slot)

/-- **The output of a run** is in the regions, up to the maximum, if its first call
    finds the variables right. -/
theorem Run.outputs (h : E.Sound) (hm : InfoSet E m₀)
    (hrun : Run E.outputOnly (OutputCall E) m₀ log m)
    (hright : log ≠ [] → E.StartsRight m₀) : Outputs E log m := by
  by_cases hnil : log = []
  · have hleaves := hrun.leaves_of_nil hnil
    subst hnil
    have hzero (s : Stream) : min (E.size s.slot) (written s []).length = 0 := Nat.min_zero _
    refine ⟨List.forall_mem_nil _, fun s => ?_, fun s => ?_⟩
    · have hcell := hleaves.cell (.field s.sizeField)
      rw [Env.cell_outputOnly, Env.cell_outputOnly] at hcell
      rw [hzero, hcell]
      exact hm.size s
    · rw [hzero]
      exact List.take_nil.symm
  · obtain ⟨L, hL⟩ := hrun.outputSoFar h hm (hright hnil)
    have hlen (s : Stream) : (L.kept s).length = min (E.size s.slot) (written s log).length := by
      rw [hL.kept, List.length_take]
    refine ⟨hL.each, fun s => (hL.size s).trans (hlen s), fun s => ?_⟩
    rw [← hlen, ← hL.kept]
    rcases hL.holds with hcur | ⟨-, rfl⟩
    · exact hcur.kept s
    · cases s <;> rfl

end Runs

end UserLib

end JudgePenguin
