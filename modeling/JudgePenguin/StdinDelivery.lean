/-
  JudgePenguin/StdinDelivery.lean
  ===============================
  **The delivery of stdin** (`duck_read`, `duck_readv`).

  Every read takes the bytes from where the last one stopped, whatever way it was
  made.  `SYS_read` is handed its length as an `int`, though: a run delivers what it
  is asked for exactly when no such length is changed by the cast in a way that
  matters.
-/
import JudgePenguin.UserRuns

namespace JudgePenguin

open Words

namespace UserLib

section Read

variable {E : Env} {m : Mem} {L : Lib} {buf len : Nat}

theorem Current.length_stdin (hm : Current E m L) : L.stdin.length = E.stdinSize := by
  rw [← hm.stdin, Mem.length_read]

/-- `duck_read` on a current memory. -/
theorem Current.duckRead_eq (h : E.Sound) (hm : Current E m L) (hposLe : L.pos ≤ E.stdinSize)
    (buf len : Nat) :
    let n := min len (E.stdinSize - L.pos)
    let bytes := (L.stdin.drop L.pos).take n
    duckRead E.x 0 buf len m =
      ⟨n, bytes, E.set (m.write buf bytes) .stdinCurrPos
        (wrap64 (E.cell (m.write buf bytes) .stdinCurrPos + n))⟩ := by
  intro n bytes
  have hinfo : m.read64 E.x.duckinfo = E.info := hm.cells .duckinfo _ rfl
  have hpos : m.read64 E.x.stdinCurrPos = L.pos := hm.cells .stdinCurrPos _ rfl
  have hptr : m.read64 (E.info + 8) = E.stdinPtr := hm.cells (.field .stdinPtr) _ rfl
  have hsize : m.read64 (E.info + 16) = E.stdinSize := hm.cells (.field .stdinSize) _ rfl
  have hlt : E.stdinSize < 2 ^ 64 := by
    rw [← hsize]
    exact Mem.read64_lt m _
  have hinside : E.stdinPtr + E.stdinSize ≤ 2 ^ 64 := h.inside .stdin
  have hn : n ≤ E.stdinSize - L.pos := Nat.min_le_right _ _
  have hbytes : m.read (wrap64 (E.stdinPtr + L.pos)) n = bytes := by
    rcases Nat.eq_zero_or_pos n with hzero | hpos'
    · have hempty : bytes = [] := by rw [show bytes = (L.stdin.drop L.pos).take n from rfl, hzero]; rfl
      rw [hzero, hempty, Mem.read_zero]
    · rw [wrap64_of_lt (by omega), ← Mem.read_slice m E.stdinPtr (by omega : L.pos + n ≤ E.stdinSize),
        hm.stdin]
  rw [duckRead, if_pos rfl]
  dsimp only
  rw [hinfo, hpos, hptr, hsize, sub64_of_le hlt hposLe, hbytes]
  rfl

/-- What a read returns and copies. -/
theorem Current.duckRead_ret (h : E.Sound) (hm : Current E m L) (hposLe : L.pos ≤ E.stdinSize)
    (buf len : Nat) :
    (duckRead E.x 0 buf len m).ret = min len (E.stdinSize - L.pos) ∧
      (duckRead E.x 0 buf len m).copied = (L.stdin.drop L.pos).take (duckRead E.x 0 buf len m).ret := by
  rw [hm.duckRead_eq h hposLe]
  exact ⟨rfl, rfl⟩

/-- A read into memory of the program is a step, stores what it copied and leaves the
    rest of that memory. -/
theorem Current.duckRead_mem (h : E.Sound) (hm : Current E m L) (hposLe : L.pos ≤ E.stdinSize)
    {buf len : Nat}
    (hbuf : ∀ i < min len (E.stdinSize - L.pos), ¬ E.Owned (buf + i)) :
    let r := duckRead E.x 0 buf len m
    Current E r.mem { L with pos := L.pos + r.ret } ∧ r.mem.read buf r.ret = r.copied ∧
      ∀ a, ¬ E.Owned a → (a < buf ∨ buf + r.ret ≤ a) → r.mem a = m a := by
  intro r
  have hr := hm.duckRead_eq h hposLe buf len
  obtain ⟨n, hn⟩ : ∃ n, min len (E.stdinSize - L.pos) = n := ⟨_, rfl⟩
  obtain ⟨bytes, hbytes⟩ : ∃ bytes, (L.stdin.drop L.pos).take n = bytes := ⟨_, rfl⟩
  dsimp only at hr
  rw [hn, hbytes] at hr
  rw [hn] at hbuf
  have hlen : bytes.length = n := by
    rw [← hbytes, List.length_take, List.length_drop, hm.length_stdin]
    omega
  have hleaves : E.Leaves m (m.write buf bytes) := Env.leaves_write fun i hi => hbuf i (hlen ▸ hi)
  have hnext := hm.leaves hleaves
  have hpos : E.cell (m.write buf bytes) .stdinCurrPos = L.pos := hnext.cells .stdinCurrPos _ rfl
  have hsizelt : E.stdinSize < 2 ^ 64 := by
    rw [← hm.cells (.field .stdinSize) _ rfl]
    exact Env.cell_lt E m _
  have hsum : L.pos + n ≤ E.stdinSize := by omega
  rw [hpos, wrap64_of_lt (by omega)] at hr
  have hstep := hnext.set h (c := .stdinCurrPos) (Or.inl rfl) (v := L.pos + n) (by omega)
  have hret : r.ret = n := congrArg Reply.ret hr
  have hcopied : r.copied = bytes := congrArg Reply.copied hr
  have hmem : r.mem = E.set (m.write buf bytes) .stdinCurrPos (L.pos + n) := congrArg Reply.mem hr
  rw [hret, hcopied, hmem]
  refine ⟨hstep, ?_, fun a ha hout => ?_⟩
  · have hprogram : (E.set (m.write buf bytes) .stdinCurrPos (L.pos + n)).read buf n =
        (m.write buf bytes).read buf n :=
      Mem.read_congr fun i hi => Env.set_program _ _ _ (hbuf i hi)
    rw [hprogram, ← hlen, Mem.read_write_self]
  · rw [Env.set_program _ _ _ ha, Mem.write_outside m buf bytes (hlen.symm ▸ hout)]

end Read

/-! ## The loop of `duck_readv` -/

/-- What is read into `ps` goes to memory of the program outside the vector, which is
    the program's too. -/
structure IntoProgram (E : Env) (iov n rem : Nat) (ps : List (Nat × Nat)) : Prop where
  vector : ∀ a, iov ≤ a → a < iov + 16 * n → ¬ E.Owned a
  targets : ∀ p ∈ shares rem ps, ∀ i < p.2,
    ¬ E.Owned (p.1 + i) ∧ (p.1 + i < iov ∨ iov + 16 * n ≤ p.1 + i)

/-- What the rest of the loop does from a current memory on. -/
structure ReadsOn (E : Env) (L : Lib) (ps : List (Nat × Nat)) (acc r : Reply) : Prop where
  ret : r.ret = acc.ret + min (total ps) (E.stdinSize - L.pos)
  copied : r.copied =
    acc.copied ++ (L.stdin.drop L.pos).take (min (total ps) (E.stdinSize - L.pos))
  current : Current E r.mem { L with pos := L.pos + min (total ps) (E.stdinSize - L.pos) }
  frame : ∀ a, ¬ E.Owned a →
    (∀ p ∈ shares (E.stdinSize - L.pos) ps, a < p.1 ∨ p.1 + p.2 ≤ a) → r.mem a = acc.mem a
  stored : (shares (E.stdinSize - L.pos) ps).Pairwise
      (fun p q => p.1 + p.2 ≤ q.1 ∨ q.1 + q.2 ≤ p.1) →
    (shares (E.stdinSize - L.pos) ps).flatMap (fun p => r.mem.read p.1 p.2) =
      (L.stdin.drop L.pos).take (min (total ps) (E.stdinSize - L.pos))

section Loop

variable {E : Env} {L : Lib} {ps : List (Nat × Nat)} {acc r1 r : Reply} {b l iov n : Nat}

theorem readsOn_nil (hm : Current E acc.mem L) : ReadsOn E L [] acc acc := by
  have hzero : min (total []) (E.stdinSize - L.pos) = 0 := Nat.zero_min _
  refine ⟨?_, ?_, ?_, fun _ _ _ => rfl, fun _ => ?_⟩
  · rw [hzero, Nat.add_zero]
  · rw [hzero, List.take_zero, List.append_nil]
  · rw [hzero, Nat.add_zero]
    exact hm
  · rw [hzero, List.take_zero]
    rfl

/-- What the first element of a vector gets. -/
structure ReadsFirst (E : Env) (L : Lib) (b l : Nat) (m : Mem) (r1 : Reply) : Prop where
  ret : r1.ret = min l (E.stdinSize - L.pos)
  copied : r1.copied = (L.stdin.drop L.pos).take r1.ret
  current : Current E r1.mem { L with pos := L.pos + r1.ret }
  stored : r1.mem.read b r1.ret = r1.copied
  frame : ∀ a, ¬ E.Owned a → (a < b ∨ b + r1.ret ≤ a) → r1.mem a = m a

/-- The loop stops at an element that gets less than its length. -/
theorem readsOn_break (h1 : ReadsFirst E L b l acc.mem r1) (hlt : E.stdinSize - L.pos < l) :
    ReadsOn E L ((b, l) :: ps) acc ⟨acc.ret + r1.ret, acc.copied ++ r1.copied, r1.mem⟩ := by
  have hret : r1.ret = E.stdinSize - L.pos := h1.ret.trans (Nat.min_eq_right (Nat.le_of_lt hlt))
  have hcount : min (total ((b, l) :: ps)) (E.stdinSize - L.pos) = r1.ret := by
    rw [total_cons, hret]
    exact Nat.min_eq_right (Nat.le_trans (Nat.le_of_lt hlt) (Nat.le_add_right _ _))
  have hshares : shares (E.stdinSize - L.pos) ((b, l) :: ps) = (b, r1.ret) :: shares 0 ps := by
    rw [shares, h1.ret, Nat.sub_eq_zero_of_le (Nat.le_of_lt hlt)]
  refine ⟨?_, ?_, ?_, fun a ha hout => ?_, fun _ => ?_⟩
  · rw [hcount]
  · rw [hcount, h1.copied]
  · rw [hcount]
    exact h1.current
  · rw [hshares] at hout
    exact h1.frame a ha (hout (b, r1.ret) (List.mem_cons_self ..))
  · have hrest : (shares 0 ps).flatMap (fun p => r1.mem.read p.1 p.2) = [] := by
      refine List.flatMap_eq_nil_iff.mpr fun p hp => ?_
      rw [shares_zero hp, Mem.read_zero]
    rw [hshares, hcount, List.flatMap_cons, hrest, List.append_nil, ← h1.copied]
    exact h1.stored

/-- It goes on after one that is filled. -/
theorem readsOn_cons (h1 : ReadsFirst E L b l acc.mem r1) (hle : l ≤ E.stdinSize - L.pos)
    (hown : ∀ i < l, ¬ E.Owned (b + i))
    (h : ReadsOn E { L with pos := L.pos + l } ps
      ⟨acc.ret + r1.ret, acc.copied ++ r1.copied, r1.mem⟩ r) :
    ReadsOn E L ((b, l) :: ps) acc r := by
  have hret : r1.ret = l := h1.ret.trans (Nat.min_eq_left hle)
  have hrem : E.stdinSize - (L.pos + l) = E.stdinSize - L.pos - l := Nat.sub_add_eq _ _ _
  have hcount : min (total ((b, l) :: ps)) (E.stdinSize - L.pos) =
      l + min (total ps) (E.stdinSize - L.pos - l) := by
    rw [total_cons]
    omega
  have hshares : shares (E.stdinSize - L.pos) ((b, l) :: ps) =
      (b, l) :: shares (E.stdinSize - L.pos - l) ps := by
    rw [shares, Nat.min_eq_left hle]
  have htake (k : Nat) : (L.stdin.drop L.pos).take (l + k) =
      (L.stdin.drop L.pos).take l ++ (L.stdin.drop (L.pos + l)).take k := by
    rw [List.take_add, List.drop_drop]
  obtain ⟨hret', hcopied, hcurrent, hframe, hstored⟩ := h
  dsimp only at hret' hcopied hcurrent hframe hstored
  rw [hrem] at hret' hcopied hcurrent hframe hstored
  refine ⟨?_, ?_, ?_, fun a ha hout => ?_, fun hpair => ?_⟩
  · rw [hret', hcount, hret, Nat.add_assoc]
  · rw [hcopied, hcount, htake, h1.copied, hret, List.append_assoc]
  · rw [hcount, ← Nat.add_assoc]
    exact hcurrent
  · rw [hshares] at hout
    rw [hframe a ha fun p hp => hout p (List.mem_cons_of_mem _ hp)]
    exact h1.frame a ha (hret.symm ▸ hout (b, l) (List.mem_cons_self ..))
  · rw [hshares] at hpair
    obtain ⟨hfirst, hpair'⟩ := List.pairwise_cons.mp hpair
    -- the elements after it leave what it got
    have hkeep : r.mem.read b l = r1.mem.read b l := by
      refine Mem.read_congr fun i hi => hframe (b + i) (hown i hi) fun p hp => ?_
      have hdis := hfirst p hp
      omega
    have hgot : r1.mem.read b l = (L.stdin.drop L.pos).take l := by
      rw [← hret, h1.stored, h1.copied]
    rw [hshares, hcount, List.flatMap_cons, hstored hpair', hkeep, hgot, htake]

/-- The loop over a vector. -/
theorem vectored_duckRead (h : E.Sound) (n iov : Nat) (acc : Reply) {L : Lib}
    (hm : Current E acc.mem L) (hposLe : L.pos ≤ E.stdinSize) (hret : acc.ret ≤ L.pos)
    (hinto : IntoProgram E iov n (E.stdinSize - L.pos) (iovecs acc.mem iov n)) :
    ReadsOn E L (iovecs acc.mem iov n) acc (vectored (duckRead E.x 0) n iov acc) := by
  induction n generalizing iov acc L with
  | zero => exact readsOn_nil hm
  | succ n ih =>
    obtain ⟨b, hb⟩ : ∃ b, acc.mem.read64 iov = b := ⟨_, rfl⟩
    obtain ⟨l, hl⟩ : ∃ l, acc.mem.read64 (iov + 8) = l := ⟨_, rfl⟩
    obtain ⟨r1, hr1⟩ : ∃ r1, duckRead E.x 0 b l acc.mem = r1 := ⟨_, rfl⟩
    have hsizelt : E.stdinSize < 2 ^ 64 := by
      rw [← hm.cells (.field .stdinSize) _ rfl]
      exact Env.cell_lt E _ _
    have hvec : iovecs acc.mem iov (n + 1) = (b, l) :: iovecs acc.mem (iov + 16) n := by
      rw [iovecs, hb, hl]
    rw [hvec] at hinto ⊢
    have hfirst := hinto.targets (b, min l (E.stdinSize - L.pos)) (List.mem_cons_self ..)
    have h1 : ReadsFirst E L b l acc.mem r1 := by
      obtain ⟨hr, hc⟩ := hm.duckRead_ret h hposLe b l
      obtain ⟨hcur, hsto, hfra⟩ := hm.duckRead_mem h hposLe (fun i hi => (hfirst i hi).1)
      rw [hr1] at hr hc hcur hsto hfra
      exact ⟨hr, hc, hcur, hsto, hfra⟩
    -- the vector is where it was
    have hsame (a : Nat) (h1a : iov ≤ a) (h2a : a < iov + 16 * (n + 1)) : r1.mem a = acc.mem a := by
      refine h1.frame a (hinto.vector a h1a h2a) ?_
      by_contra hcon
      have hi := (hfirst (a - b) (by have := h1.ret; dsimp only; omega)).2
      dsimp only at hi
      omega
    have hlen : r1.mem.read64 (iov + 8) = l := by
      rw [← hl]
      exact Mem.read64_congr fun i hi => hsame _ (by omega) (by omega)
    have hrest : iovecs r1.mem (iov + 16) n = iovecs acc.mem (iov + 16) n :=
      iovecs_congr fun i hi => hsame _ (by omega) (by omega)
    have hle1 : r1.ret ≤ l := h1.ret ▸ Nat.min_le_left _ _
    have hle2 : r1.ret ≤ E.stdinSize - L.pos := h1.ret ▸ Nat.min_le_right _ _
    have hwrap : wrap64 (acc.ret + r1.ret) = acc.ret + r1.ret := wrap64_of_lt (by omega)
    rw [vectored, hb, hl, hr1]
    rw [hlen, if_pos hle1, hwrap]
    by_cases hstop : r1.ret ≠ l
    · rw [if_pos hstop]
      have hmin := h1.ret
      exact readsOn_break h1 (by omega)
    · rw [if_neg hstop]
      have heq : r1.ret = l := not_not.mp hstop
      have hle : l ≤ E.stdinSize - L.pos := heq ▸ hle2
      have hshares : shares (E.stdinSize - L.pos) ((b, l) :: iovecs acc.mem (iov + 16) n) =
          (b, l) :: shares (E.stdinSize - L.pos - l) (iovecs acc.mem (iov + 16) n) := by
        rw [shares, Nat.min_eq_left hle]
      have hcurrent : Current E r1.mem { L with pos := L.pos + l } := heq ▸ h1.current
      have hnext : IntoProgram E (iov + 16) n (E.stdinSize - (L.pos + l))
          (iovecs r1.mem (iov + 16) n) := by
        rw [hrest, Nat.sub_add_eq]
        refine ⟨fun a h1a h2a => hinto.vector a (by omega) (by omega), fun p hp i hi => ?_⟩
        have hp' := hinto.targets p (by rw [hshares]; exact List.mem_cons_of_mem _ hp) i hi
        exact ⟨hp'.1, by omega⟩
      have hon := ih (iov + 16) ⟨acc.ret + r1.ret, acc.copied ++ r1.copied, r1.mem⟩ hcurrent
        (by dsimp only; omega) (by dsimp only; omega) hnext
      dsimp only at hon
      rw [hrest] at hon
      exact readsOn_cons h1 hle (fun i hi => (hfirst i (by dsimp only; omega)).1) hon

end Loop

/-! ## Runs of reads -/

/-- The bytes that no call has delivered yet. -/
def Env.remaining (E : Env) (m : Mem) : Nat :=
  E.stdinSize - E.cell (ensureInit E.x E.getauxval m) .stdinCurrPos

/-- `SYS_read` or `SYS_readv` on fd 0, into memory of the program as far as there is
    something to read, and with fewer than 2^31 elements. -/
structure ReadCall (E : Env) (c : Call) (m : Mem) : Prop where
  number : c.number = .read ∨ c.number = .readv
  fd : asInt c.a1 = 0
  buffer : c.number = .read → ∀ i < min c.a3.toNat (E.remaining m), ¬ E.Owned (c.a2.toNat + i)
  count : c.number = .readv → c.a3.toNat < 2 ^ 31
  vector : c.number = .readv →
    IntoProgram E c.a2.toNat c.a3.toNat (E.remaining m) (iovecs m c.a2.toNat c.a3.toNat)

/-- What the calls of a log have returned, together. -/
def delivered (E : Env) (log : List Entry) : Nat := (log.map fun e => (e.reply E).ret).sum

/-- A call that gets what it asked for from `pos` on, as far as `stdin` goes. -/
structure Entry.Exact (E : Env) (stdin : List UInt8) (pos : Nat) (e : Entry) : Prop where
  ret : (e.reply E).ret = min e.asked (stdin.length - pos)
  copied : (e.reply E).copied = (stdin.drop pos).take (e.reply E).ret
  stored : (shares (stdin.length - pos) (e.call.pieces e.before)).Pairwise
      (fun p q => p.1 + p.2 ≤ q.1 ∨ q.1 + q.2 ≤ p.1) →
    (shares (stdin.length - pos) (e.call.pieces e.before)).flatMap
      (fun p => (e.reply E).mem.read p.1 p.2) = (e.reply E).copied

/-- No loss and no repetition. -/
structure Delivered (E : Env) (stdin : List UInt8) (log : List Entry) : Prop where
  each : EachAfter (fun done e => e.Exact E stdin (delivered E done)) log
  inOrder : (log.flatMap fun e => (e.reply E).copied) <+: stdin
  zero : EachAfter (fun done e => (e.reply E).ret = 0 →
    e.asked = 0 ∨ delivered E done = stdin.length) log

/-- The cast of the length to `int` and back does not matter where `rem` bytes are left. -/
def Entry.Uncut (rem : Nat) (e : Entry) : Prop :=
  e.call.number = .read → min (intAsSize e.call.a3) rem = min e.call.a3.toNat rem

section Runs

variable {E : Env} {m₀ m : Mem} {log : List Entry} {L : Lib} {c : Call}

theorem Holds.remaining (h : E.Sound) (hm : Holds E m L) : E.remaining m = E.stdinSize - L.pos := by
  rw [Env.remaining, (hm.ensureInit h).cells .stdinCurrPos _ rfl]

/-- `SYS_read`, whatever its length. -/
theorem Holds.read_ret (h : E.Sound) (hm : Holds E m L) (hposLe : L.pos ≤ E.stdinSize)
    (hnum : c.number = .read) (hfd : asInt c.a1 = 0) :
    (Entry.reply E ⟨c, m⟩).ret = min (intAsSize c.a3) (E.stdinSize - L.pos) := by
  rw [Entry.reply, syscallHandler, dispatch, hnum]
  dsimp only
  rw [hfd]
  exact ((hm.ensureInit h).duckRead_ret h hposLe _ _).1

theorem Holds.length_stdin (h : E.Sound) (hm : Holds E m L) : L.stdin.length = E.stdinSize :=
  (hm.ensureInit h).length_stdin

/-- One call of a run. -/
theorem Holds.read_step (h : E.Sound) (hm : Holds E m L) (hposLe : L.pos ≤ E.stdinSize)
    (hc : ReadCall E c m) (huncut : Entry.Uncut (E.stdinSize - L.pos) ⟨c, m⟩) :
    Entry.Exact E L.stdin L.pos ⟨c, m⟩ ∧
      Current E (Entry.reply E ⟨c, m⟩).mem
        { L with pos := L.pos + (Entry.reply E ⟨c, m⟩).ret } := by
  have hcur := hm.ensureInit h
  have hlen := hm.length_stdin h
  have hrem := hm.remaining h
  rcases hc.number with hnum | hnum
  · have hmin := huncut hnum
    have hret := hm.read_ret h hposLe hnum hc.fd
    have hpieces : c.pieces m = [(c.a2.toNat, c.a3.toNat)] := if_neg (by rw [hnum]; decide)
    have hreply : Entry.reply E ⟨c, m⟩ = duckRead E.x 0 c.a2.toNat (intAsSize c.a3)
        (UserLib.ensureInit E.x E.getauxval m) := by
      rw [Entry.reply, syscallHandler, dispatch, hnum]
      dsimp only
      rw [hc.fd]
    obtain ⟨hr, hcopied⟩ := hcur.duckRead_ret h hposLe c.a2.toNat (intAsSize c.a3)
    have hbuffer := hc.buffer hnum
    rw [hrem, ← hmin] at hbuffer
    obtain ⟨hcurrent, hstored, -⟩ := hcur.duckRead_mem h hposLe hbuffer
    rw [← hreply] at hr hcopied hcurrent hstored
    rw [hmin] at hr
    refine ⟨⟨?_, hcopied, fun _ => ?_⟩, hcurrent⟩
    · rw [Entry.asked, hpieces, total_singleton, hlen]
      exact hr
    · rw [hlen, hpieces, shares, ← hr, shares, List.flatMap_singleton]
      exact hstored
  · have hinto := hc.vector hnum
    have hpieces : c.pieces m = iovecs m c.a2.toNat c.a3.toNat := if_pos (Or.inl hnum)
    have hvec : iovecs (UserLib.ensureInit E.x E.getauxval m) c.a2.toNat c.a3.toNat =
        iovecs m c.a2.toNat c.a3.toNat :=
      iovecs_congr fun i hi => h.ensureInit_program m (hinto.vector _ (by omega) (by omega))
    have hreply : Entry.reply E ⟨c, m⟩ = vectored (duckRead E.x 0) c.a3.toNat c.a2.toNat
        ⟨0, [], UserLib.ensureInit E.x E.getauxval m⟩ := by
      rw [Entry.reply, syscallHandler, dispatch, hnum]
      dsimp only
      rw [hc.fd, duckReadv, asInt_toNat (hc.count hnum)]
    rw [hrem, ← hvec] at hinto
    have hon := vectored_duckRead h c.a3.toNat c.a2.toNat
      ⟨0, [], UserLib.ensureInit E.x E.getauxval m⟩ hcur hposLe (Nat.zero_le _) hinto
    rw [← hreply] at hon
    dsimp only at hon
    rw [hvec, ← hpieces] at hon
    have hret := hon.ret
    have hcopied := hon.copied
    have hcurrent := hon.current
    have hstored := hon.stored
    rw [Nat.zero_add] at hret
    rw [List.nil_append, ← hret] at hcopied
    rw [← hret] at hcurrent hstored
    refine ⟨⟨?_, hcopied, fun hpair => ?_⟩, hcurrent⟩
    · rw [hlen]
      exact hret
    · rw [hlen] at hpair ⊢
      rw [hstored hpair, hcopied]

theorem delivered_append (E : Env) (log : List Entry) (e : Entry) :
    delivered E (log ++ [e]) = delivered E log + (e.reply E).ret := by
  rw [delivered, List.map_append, List.sum_append]
  rfl

/-- Where a run is once its calls have delivered what they were asked for. -/
structure DeliveredSoFar (E : Env) (stdin : List UInt8) (log : List Entry) (m : Mem) (L : Lib) :
    Prop where
  holds : Holds E m L
  source : L.stdin = stdin
  pos : L.pos = delivered E log
  each : EachAfter (fun done e => e.Exact E stdin (delivered E done)) log
  bytes : (log.flatMap fun e => (e.reply E).copied) = stdin.take (delivered E log)
  le : ∀ done rest, log = done ++ rest → delivered E done ≤ stdin.length

/-- The lengths of a log that the cast leaves alone, given what there is to read. -/
def AllUncut (E : Env) (log : List Entry) : Prop :=
  EachAfter (fun done e => e.Uncut (E.stdinSize - delivered E done)) log

theorem DeliveredSoFar.posLe {stdin : List UInt8} (h : E.Sound)
    (hm : DeliveredSoFar E stdin log m L) : L.pos ≤ E.stdinSize := by
  have hle := hm.le log [] (List.append_nil log).symm
  rwa [← hm.pos, ← hm.source, hm.holds.length_stdin h] at hle

theorem DeliveredSoFar.step {stdin : List UInt8} (h : E.Sound) (hm : DeliveredSoFar E stdin log m L)
    (hc : ReadCall E c m) (huncut : Entry.Uncut (E.stdinSize - delivered E log) ⟨c, m⟩) :
    DeliveredSoFar E stdin (log ++ [⟨c, m⟩]) (Entry.reply E ⟨c, m⟩).mem
      { L with pos := L.pos + (Entry.reply E ⟨c, m⟩).ret } := by
  have hlen : stdin.length = E.stdinSize := by
    rw [← hm.source]
    exact hm.holds.length_stdin h
  have hposLe := hm.posLe h
  rw [← hm.pos] at huncut
  obtain ⟨hexact, hcurrent⟩ := hm.holds.read_step h hposLe hc huncut
  rw [hm.source, hm.pos] at hexact
  refine ⟨Or.inl hcurrent, hm.source, ?_, eachAfter_append.mpr ⟨hm.each, hexact⟩, ?_, ?_⟩
  · rw [delivered_append, ← hm.pos]
  · rw [List.flatMap_append, List.flatMap_singleton, hm.bytes, delivered_append, List.take_add]
    exact congrArg _ hexact.copied
  · intro done rest heq
    rcases List.eq_nil_or_concat rest with rfl | ⟨rest', y, rfl⟩
    · rw [List.append_nil] at heq
      have hret := hexact.ret
      rw [← hm.pos, hlen] at hret
      rw [← heq, delivered_append, ← hm.pos, hlen]
      omega
    · rw [List.concat_eq_append, ← List.append_assoc] at heq
      exact hm.le done rest' (List.append_inj' heq rfl).1

/-- The bytes of stdin when the program starts. -/
def Env.stdinOf (E : Env) (m₀ : Mem) : List UInt8 := m₀.read E.stdinPtr E.stdinSize

theorem Run.delivers (h : E.Sound) (hm : Fresh E m₀) (hrun : Run E (ReadCall E) m₀ log m)
    (huncut : AllUncut E log) : ∃ L, DeliveredSoFar E (E.stdinOf m₀) log m L := by
  induction hrun with
  | start =>
    refine ⟨E.initial m₀, Or.inr ⟨hm, rfl⟩, rfl, rfl, eachAfter_nil _, rfl, ?_⟩
    intro done rest heq
    rw [(List.append_eq_nil_iff.mp heq.symm).1]
    exact Nat.zero_le _
  | program _ hleaves ih =>
    obtain ⟨L, hL⟩ := ih huncut
    exact ⟨L, hL.holds.leaves hleaves, hL.source, hL.pos, hL.each, hL.bytes, hL.le⟩
  | @call log m _ c hc ih =>
    obtain ⟨hlog, hlast⟩ := eachAfter_append.mp huncut
    obtain ⟨L, hL⟩ := ih hlog
    exact ⟨_, hL.step h hc hlast⟩

/-- A run whose calls return what they are asked for has no length that matters cut. -/
theorem Run.allUncut (h : E.Sound) (hm : Fresh E m₀) (hrun : Run E (ReadCall E) m₀ log m)
    (heach : EachAfter (fun done e => e.Exact E (E.stdinOf m₀) (delivered E done)) log) :
    AllUncut E log := by
  induction hrun with
  | start => exact eachAfter_nil _
  | program _ _ ih => exact ih heach
  | @call log m hrun c hc ih =>
    obtain ⟨hlog, hlast⟩ := eachAfter_append.mp heach
    have huncut := ih hlog
    obtain ⟨L, hL⟩ := hrun.delivers h hm huncut
    refine eachAfter_append.mpr ⟨huncut, fun hnum => ?_⟩
    have hpieces : c.pieces m = [(c.a2.toNat, c.a3.toNat)] :=
      if_neg (by rw [show c.number = .read from hnum]; decide)
    have hlen : (E.stdinOf m₀).length = E.stdinSize := Mem.length_read _ _ _
    have hret := hlast.ret
    rw [hL.holds.read_ret h (hL.posLe h) hnum hc.fd, hL.pos, Entry.asked, hpieces, total_singleton,
      hlen] at hret
    exact hret

theorem DeliveredSoFar.delivered {stdin : List UInt8} (hm : DeliveredSoFar E stdin log m L) :
    Delivered E stdin log := by
  refine ⟨hm.each, hm.bytes ▸ List.take_prefix _ _, fun done e rest heq hzero => ?_⟩
  have hret := (hm.each done e rest heq).ret
  have hle := hm.le done (e :: rest) heq
  omega

/-- **stdin is delivered without loss or repetition exactly when** the cast to `int`
    leaves the length of each `SYS_read` as it is, or both what it was and what it
    becomes are at least the number of bytes that are left. -/
theorem Run.delivered_iff (h : E.Sound) (hm : Fresh E m₀) (hrun : Run E (ReadCall E) m₀ log m) :
    Delivered E (E.stdinOf m₀) log ↔ AllUncut E log := by
  constructor
  · intro hdel
    exact hrun.allUncut h hm hdel.each
  · intro huncut
    obtain ⟨L, hL⟩ := hrun.delivers h hm huncut
    exact hL.delivered

end Runs

/-! ## The program of the examples -/

/-- A `SYS_read` of `len` bytes to an address of its own. -/
def readCall (len : UInt64) : Call := ⟨.read, 0, 0x1100000, len, 0⟩

theorem sampleEnv_program {a : Nat} (h1 : 0x1000000 ≤ a) (h2 : a < 0x2000000) :
    ¬ sampleEnv.Owned a := by
  rintro ⟨s, hs, hs'⟩
  cases s <;>
    simp only [Env.start, Env.size, sampleEnv, Env.info, if_true, ELF.DUCKINFO_SIZE] at hs hs' <;>
    omega

theorem readCall_allowed (len : UInt64) (m : Mem) : ReadCall sampleEnv (readCall len) m := by
  refine ⟨Or.inl rfl, rfl, fun _ i hi => ?_, (fun hnum => nomatch hnum), (fun hnum => nomatch hnum)⟩
  have hrem : sampleEnv.remaining m ≤ 16 := Nat.sub_le _ _
  have haddr : (readCall len).a2.toNat = 0x1100000 := rfl
  rw [haddr]
  exact sampleEnv_program (by omega) (by omega)

/-- 16 bytes to read, and a vector of the program for 3 and 4 of them. -/
def inputMem : Mem :=
  (sampleMem.write 0x3000000 [1, 2, 3, 4, 5, 6, 7, 8, 9, 10, 11, 12, 13, 14, 15, 16]).write 0x1200000
    (Mem.leBytes 8 0x1100100 ++ Mem.leBytes 8 3 ++ Mem.leBytes 8 0x1100200 ++ Mem.leBytes 8 4)

theorem inputMem_fresh : Fresh sampleEnv inputMem := by
  constructor <;> decide +kernel

/-- A `SYS_readv` with the vector. -/
def readvCall : Call := ⟨.readv, 0, 0x1200000, 2, 0⟩

theorem inputMem_shares :
    shares (sampleEnv.remaining inputMem) (iovecs inputMem 0x1200000 2) =
      [(0x1100100, 3), (0x1100200, 4)] := by decide +kernel

theorem readvCall_allowed : ReadCall sampleEnv readvCall inputMem := by
  have haddr : readvCall.a2.toNat = 0x1200000 := rfl
  have hcount : readvCall.a3.toNat = 2 := rfl
  refine ⟨Or.inr rfl, rfl, (fun hnum => nomatch hnum), fun _ => by decide, fun _ => ⟨?_, ?_⟩⟩
  · rw [haddr, hcount]
    intro a hlow hhigh
    exact sampleEnv_program (by omega) (by omega)
  · rw [haddr, hcount, inputMem_shares]
    intro p hp i hi
    simp only [List.mem_cons, List.not_mem_nil, or_false] at hp
    rcases hp with rfl | rfl
    · exact ⟨sampleEnv_program (by omega) (by omega), by omega⟩
    · exact ⟨sampleEnv_program (by omega) (by omega), by omega⟩

def readCalls : List Call := [readvCall, readCall 5]

theorem readCalls_run :
    Run sampleEnv (ReadCall sampleEnv) inputMem (callsFrom sampleEnv inputMem readCalls).1
      (callsFrom sampleEnv inputMem readCalls).2 := by
  have hallowed : AllowedFrom sampleEnv (ReadCall sampleEnv) inputMem readCalls :=
    ⟨readvCall_allowed, readCall_allowed 5 _, trivial⟩
  exact Run.calls .start hallowed

theorem Run.delivered_sample :
    let run := callsFrom sampleEnv inputMem readCalls
    Delivered sampleEnv (sampleEnv.stdinOf inputMem) run.1 ∧ delivered sampleEnv run.1 = 12 ∧
      run.2.read 0x1100100 3 = [1, 2, 3] ∧ run.2.read 0x1100200 4 = [4, 5, 6, 7] ∧
      run.2.read 0x1100000 5 = [8, 9, 10, 11, 12] := by
  intro run
  have huncut : AllUncut sampleEnv run.1 := by
    refine eachAfter_append.mpr ⟨eachAfter_append.mpr ⟨eachAfter_nil _, ?_⟩, fun _ => rfl⟩
    exact fun hnum => nomatch hnum
  have hdelivered := (Run.delivered_iff sampleEnv_sound inputMem_fresh readCalls_run).mpr huncut
  exact ⟨hdelivered, by decide +kernel, by decide +kernel, by decide +kernel, by decide +kernel⟩

/-- A `SYS_read` of 4 GiB returns 0 although there are 16 bytes to read. -/
theorem read_4GiB_returns_zero :
    ¬ ∀ (E : Env) (m₀ m : Mem) (log : List Entry), E.Sound → Fresh E m₀ →
      Run E (ReadCall E) m₀ log m → Delivered E (E.stdinOf m₀) log := by
  intro hall
  have hrun : Run sampleEnv (ReadCall sampleEnv) sampleMem ([] ++ [⟨readCall 4294967296, sampleMem⟩])
      (Entry.reply sampleEnv ⟨readCall 4294967296, sampleMem⟩).mem :=
    .call .start _ (readCall_allowed _ _)
  have hdel := hall sampleEnv sampleMem _ _ sampleEnv_sound sampleMem_fresh hrun
  have hret := (hdel.each [] _ [] rfl).ret
  have hholds : Holds sampleEnv sampleMem (sampleEnv.initial sampleMem) := Or.inr ⟨sampleMem_fresh, rfl⟩
  have hlen : (sampleEnv.stdinOf sampleMem).length = 16 := Mem.length_read _ _ _
  have hasked : Entry.asked ⟨readCall 4294967296, sampleMem⟩ = 4294967296 := rfl
  rw [hholds.read_ret sampleEnv_sound (Nat.zero_le _) rfl rfl, hlen, hasked] at hret
  exact absurd hret (by decide)

end UserLib

end JudgePenguin
