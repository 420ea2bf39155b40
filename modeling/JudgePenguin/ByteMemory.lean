/-
  JudgePenguin/ByteMemory.lean
  ============================
  **Byte-addressed memories** — reads, writes, fills and little-endian words,
  with the rules that say what a later read sees.

  A memory is a total function from addresses to bytes.  The operations are the
  four that C code uses on raw memory: `read` (a run of bytes), `write` (the
  effect of `memcpy`, and of a store through a pointer), `fill` (`memset`) and
  the little-endian word access `read64` / `write64`.  Every rule about a read
  after a write comes in two forms: the read is *inside* what was written, or
  its range is disjoint from it.  Programs verified with these rules never
  unfold a memory operation.
-/
import Mathlib.Data.List.Basic
import Mathlib.Tactic.Ring

/-- A byte-addressed memory. -/
abbrev Mem := Nat → UInt8

namespace Mem

/-! ## Operations -/

/-- The `n` bytes from address `a` on. -/
def read (m : Mem) (a n : Nat) : List UInt8 :=
  (List.range n).map fun i => m (a + i)

/-- Store the bytes `bs` from address `a` on (`memcpy` from a snapshot). -/
def write (m : Mem) (a : Nat) (bs : List UInt8) : Mem :=
  fun x => if a ≤ x ∧ x < a + bs.length then bs.getD (x - a) 0 else m x

/-- Set the `n` bytes from address `a` on to `b` (`memset`). -/
def fill (m : Mem) (a n : Nat) (b : UInt8) : Mem :=
  fun x => if a ≤ x ∧ x < a + n then b else m x

/-- One store: the bytes and where they go. -/
structure Write where
  addr : Nat
  bytes : List UInt8

/-- The stores of `ws`, in order. -/
def apply (m : Mem) (ws : List Write) : Mem := ws.foldl (fun m w => m.write w.addr w.bytes) m

/-- The addresses that the stores of `ws` touch. -/
def Touched (ws : List Write) (x : Nat) : Prop :=
  ∃ w ∈ ws, w.addr ≤ x ∧ x < w.addr + w.bytes.length

/-- Two memories that differ at most on the addresses of `S`. -/
def EqOff (S : Nat → Prop) (m m' : Mem) : Prop := ∀ x, ¬ S x → m' x = m x

/-! ## Little-endian numbers -/

/-- The number a little-endian byte string stands for. -/
def leNat : List UInt8 → Nat
  | [] => 0
  | b :: bs => b.toNat + 256 * leNat bs

/-- The `n` low bytes of `v`, little-endian. -/
def leBytes : Nat → Nat → List UInt8
  | 0, _ => []
  | n + 1, v => UInt8.ofNat v :: leBytes n (v / 256)

/-- An unsigned little-endian field of `n` bytes. -/
def readLE (m : Mem) (a n : Nat) : Nat := leNat (m.read a n)

def read64 (m : Mem) (a : Nat) : Nat := m.readLE a 8

def write64 (m : Mem) (a v : Nat) : Mem := m.write a (leBytes 8 v)

@[simp] theorem length_leBytes (n v : Nat) : (leBytes n v).length = n := by
  induction n generalizing v with
  | zero => rfl
  | succ n ih => simp [leBytes, ih]

theorem leNat_lt (bs : List UInt8) : leNat bs < 256 ^ bs.length := by
  induction bs with
  | nil => simp [leNat]
  | cons b bs ih =>
    have hb := b.toNat_lt
    simp only [leNat, List.length_cons, pow_succ]
    omega

theorem leNat_leBytes (n v : Nat) : leNat (leBytes n v) = v % 256 ^ n := by
  induction n generalizing v with
  | zero => simp [leBytes, leNat, Nat.mod_one]
  | succ n ih =>
    have hmod : v % 256 ^ (n + 1) = v % 256 + 256 * (v / 256 % 256 ^ n) := by
      rw [pow_succ, Nat.mul_comm, Nat.mod_mul]
    have hbyte : (UInt8.ofNat v).toNat = v % 256 := by simp
    rw [leBytes, leNat, ih, hmod, hbyte]

theorem leBytes_leNat (bs : List UInt8) : leBytes bs.length (leNat bs) = bs := by
  induction bs with
  | nil => rfl
  | cons b bs ih =>
    have hb := b.toNat_lt
    have hdiv : (b.toNat + 256 * leNat bs) / 256 = leNat bs := by omega
    have hmod : UInt8.ofNat (b.toNat + 256 * leNat bs) = b := by
      apply UInt8.toNat_inj.mp
      rw [UInt8.toNat_ofNat']
      omega
    rw [leNat, List.length_cons, leBytes, hdiv, ih, hmod]

/-! ## Reads -/

@[simp] theorem length_read (m : Mem) (a n : Nat) : (m.read a n).length = n := by
  simp [read]

@[simp] theorem read_zero (m : Mem) (a : Nat) : m.read a 0 = [] := rfl

theorem getElem_read (m : Mem) (a : Nat) {n i : Nat} (h : i < (m.read a n).length) :
    (m.read a n)[i] = m (a + i) := by
  simp [read]

theorem getElem?_read (m : Mem) (a : Nat) {n i : Nat} (h : i < n) :
    (m.read a n)[i]? = some (m (a + i)) := by
  simp [read, h]

theorem getD_read (m : Mem) (a : Nat) {n i : Nat} (h : i < n) (b : UInt8) :
    (m.read a n).getD i b = m (a + i) := by
  simp [List.getD_eq_getElem?_getD, getElem?_read m a h]

theorem read_congr {m m' : Mem} {a n : Nat} (h : ∀ i < n, m' (a + i) = m (a + i)) :
    m'.read a n = m.read a n := by
  unfold read
  apply List.map_congr_left
  intro i hi
  exact h i (List.mem_range.mp hi)

theorem read_add (m : Mem) (a n k : Nat) :
    m.read a (n + k) = m.read a n ++ m.read (a + n) k := by
  simp [read, List.range_add, Nat.add_assoc, Function.comp_def]

theorem read_take (m : Mem) (a : Nat) {n k : Nat} (h : k ≤ n) :
    (m.read a n).take k = m.read a k := by
  obtain ⟨d, rfl⟩ := Nat.exists_eq_add_of_le h
  rw [read_add]
  simp

/-- A slice of what is read. -/
theorem read_slice (m : Mem) (a : Nat) {n i k : Nat} (h : i + k ≤ n) :
    ((m.read a n).drop i).take k = m.read (a + i) k := by
  obtain ⟨d, rfl⟩ := Nat.exists_eq_add_of_le h
  rw [Nat.add_assoc, read_add, List.drop_left' (length_read m a i),
    read_take m (a + i) (Nat.le_add_right k d)]

theorem readLE_lt (m : Mem) (a n : Nat) : m.readLE a n < 256 ^ n := by
  simpa [readLE] using leNat_lt (m.read a n)

theorem read64_lt (m : Mem) (a : Nat) : m.read64 a < 2 ^ 64 := by
  have h := readLE_lt m a 8
  simpa [read64] using h

/-! ## Writes -/

theorem write_outside (m : Mem) (a : Nat) (bs : List UInt8) {x : Nat}
    (h : x < a ∨ a + bs.length ≤ x) : m.write a bs x = m x := by
  unfold write
  rw [if_neg]
  omega

theorem write_inside (m : Mem) (a : Nat) (bs : List UInt8) {i : Nat} (h : i < bs.length) :
    m.write a bs (a + i) = bs[i] := by
  unfold write
  rw [if_pos (by omega)]
  simp [h]

theorem write_inside_getD (m : Mem) (a : Nat) (bs : List UInt8) {x : Nat}
    (h1 : a ≤ x) (h2 : x < a + bs.length) : m.write a bs x = bs.getD (x - a) 0 := by
  unfold write
  rw [if_pos ⟨h1, h2⟩]

@[simp] theorem write_nil (m : Mem) (a : Nat) : m.write a [] = m := by
  funext x
  exact write_outside m a [] (by simp; omega)

theorem read_write_self (m : Mem) (a : Nat) (bs : List UInt8) :
    (m.write a bs).read a bs.length = bs := by
  apply List.ext_getElem
  · simp
  · intro i h1 h2
    rw [getElem_read, write_inside m a bs h2]

theorem read_write_disjoint (m : Mem) (b : Nat) (bs : List UInt8) {a n : Nat}
    (h : a + n ≤ b ∨ b + bs.length ≤ a) : (m.write b bs).read a n = m.read a n := by
  apply read_congr
  intro i hi
  exact write_outside m b bs (by omega)

theorem write_append (m : Mem) (a : Nat) (bs cs : List UInt8) :
    (m.write a bs).write (a + bs.length) cs = m.write a (bs ++ cs) := by
  funext x
  by_cases h1 : x < a ∨ a + (bs ++ cs).length ≤ x
  · rw [write_outside _ _ _ h1]
    simp only [List.length_append] at h1
    rw [write_outside _ _ _ (by omega), write_outside _ _ _ (by omega)]
  · simp only [List.length_append] at h1
    obtain ⟨i, rfl⟩ := Nat.exists_eq_add_of_le (show a ≤ x by omega)
    rw [write_inside m a (bs ++ cs) (by simp; omega)]
    by_cases h2 : i < bs.length
    · rw [write_outside _ _ _ (by omega), write_inside m a bs h2, List.getElem_append_left h2]
    · have hx : a + i = a + bs.length + (i - bs.length) := by omega
      rw [List.getElem_append_right (by omega), hx, write_inside _ _ cs (by omega)]

theorem readLE_congr {m m' : Mem} {a n : Nat} (h : ∀ i < n, m' (a + i) = m (a + i)) :
    m'.readLE a n = m.readLE a n := by
  unfold readLE
  rw [read_congr h]

theorem read64_congr {m m' : Mem} {a : Nat} (h : ∀ i < 8, m' (a + i) = m (a + i)) :
    m'.read64 a = m.read64 a := readLE_congr h

theorem read64_write_disjoint (m : Mem) (b : Nat) (bs : List UInt8) {a : Nat}
    (h : a + 8 ≤ b ∨ b + bs.length ≤ a) : (m.write b bs).read64 a = m.read64 a := by
  apply read64_congr
  intro i hi
  exact write_outside m b bs (by omega)

theorem read64_write64_mod (m : Mem) (a v : Nat) : (m.write64 a v).read64 a = v % 2 ^ 64 := by
  unfold read64 readLE write64
  have h := read_write_self m a (leBytes 8 v)
  rw [length_leBytes] at h
  rw [h, leNat_leBytes]
  norm_num

theorem read64_write64_self (m : Mem) (a : Nat) {v : Nat} (hv : v < 2 ^ 64) :
    (m.write64 a v).read64 a = v := by
  rw [read64_write64_mod, Nat.mod_eq_of_lt hv]

/-- Storing what is there changes nothing. -/
theorem write64_read64 (m : Mem) (a : Nat) : m.write64 a (m.read64 a) = m := by
  have hbytes : leBytes 8 (m.read64 a) = m.read a 8 := by
    simpa [read64, readLE] using leBytes_leNat (m.read a 8)
  funext x
  rw [write64, hbytes]
  by_cases hx : a ≤ x ∧ x < a + 8
  · rw [write_inside_getD _ _ _ hx.1 (by rw [length_read]; exact hx.2), getD_read _ _ (by omega)]
    congr 1
    omega
  · rw [write_outside _ _ _ (by rw [length_read]; omega)]

theorem read64_write64_disjoint (m : Mem) (b v : Nat) {a : Nat} (h : a + 8 ≤ b ∨ b + 8 ≤ a) :
    (m.write64 b v).read64 a = m.read64 a :=
  read64_write_disjoint m b _ (by simpa using h)

theorem write64_outside (m : Mem) (a v : Nat) {x : Nat} (h : x < a ∨ a + 8 ≤ x) :
    m.write64 a v x = m x :=
  write_outside m a _ (by simpa using h)

theorem read_write64_disjoint (m : Mem) (b v : Nat) {a n : Nat} (h : a + n ≤ b ∨ b + 8 ≤ a) :
    (m.write64 b v).read a n = m.read a n :=
  read_write_disjoint m b _ (by simpa using h)

/-! ## Fills -/

theorem fill_inside (m : Mem) {a n x : Nat} (b : UInt8) (h1 : a ≤ x) (h2 : x < a + n) :
    m.fill a n b x = b := by
  unfold fill
  rw [if_pos ⟨h1, h2⟩]

theorem fill_outside (m : Mem) {a n x : Nat} (b : UInt8) (h : x < a ∨ a + n ≤ x) :
    m.fill a n b x = m x := by
  unfold fill
  rw [if_neg]
  omega

theorem read64_fill_disjoint (m : Mem) {a b n : Nat} (c : UInt8) (h : a + 8 ≤ b ∨ b + n ≤ a) :
    (m.fill b n c).read64 a = m.read64 a := by
  apply read64_congr
  intro i hi
  exact fill_outside m c (by omega)

theorem leNat_replicate_zero (n : Nat) : leNat (List.replicate n 0) = 0 := by
  induction n with
  | zero => rfl
  | succ n ih => simp [List.replicate_succ, leNat, ih]

theorem read64_fill_zero (m : Mem) {a b n : Nat} (h1 : b ≤ a) (h2 : a + 8 ≤ b + n) :
    (m.fill b n 0).read64 a = 0 := by
  have hz : (m.fill b n 0).read a 8 = List.replicate 8 0 := by
    apply List.ext_getElem
    · simp
    · intro i hi _
      simp only [length_read] at hi
      rw [getElem_read, fill_inside m 0 (by omega) (by omega), List.getElem_replicate]
  unfold read64 readLE
  rw [hz, leNat_replicate_zero]

/-! ## Frames -/

theorem EqOff.refl (S : Nat → Prop) (m : Mem) : EqOff S m m := fun _ _ => rfl

theorem EqOff.trans {S : Nat → Prop} {m1 m2 m3 : Mem} (h1 : EqOff S m1 m2)
    (h2 : EqOff S m2 m3) : EqOff S m1 m3 :=
  fun x hx => (h2 x hx).trans (h1 x hx)

theorem EqOff.mono {S T : Nat → Prop} {m m' : Mem} (h : EqOff S m m')
    (hST : ∀ x, S x → T x) : EqOff T m m' :=
  fun x hx => h x fun hS => hx (hST x hS)

theorem EqOff.write {S : Nat → Prop} (m : Mem) (a : Nat) (bs : List UInt8)
    (h : ∀ x, a ≤ x → x < a + bs.length → S x) : EqOff S m (m.write a bs) := by
  intro x hx
  apply write_outside
  by_contra hcon
  exact hx (h x (by omega) (by omega))

theorem EqOff.write64 {S : Nat → Prop} (m : Mem) (a v : Nat)
    (h : ∀ x, a ≤ x → x < a + 8 → S x) : EqOff S m (m.write64 a v) :=
  EqOff.write m a _ (by simpa using h)

theorem EqOff.fill {S : Nat → Prop} (m : Mem) (a n : Nat) (b : UInt8)
    (h : ∀ x, a ≤ x → x < a + n → S x) : EqOff S m (m.fill a n b) := by
  intro x hx
  apply fill_outside
  by_contra hcon
  exact hx (h x (by omega) (by omega))

theorem EqOff.read64 {S : Nat → Prop} {m m' : Mem} (h : EqOff S m m') {a : Nat}
    (ha : ∀ i < 8, ¬ S (a + i)) : m'.read64 a = m.read64 a :=
  read64_congr fun i hi => h _ (ha i hi)

theorem EqOff.read {S : Nat → Prop} {m m' : Mem} (h : EqOff S m m') {a n : Nat}
    (ha : ∀ i < n, ¬ S (a + i)) : m'.read a n = m.read a n :=
  read_congr fun i hi => h _ (ha i hi)

/-! ## Sequences of stores -/

theorem apply_append (m : Mem) (ws vs : List Write) :
    m.apply (ws ++ vs) = (m.apply ws).apply vs := by
  simp only [apply, List.foldl_append]

theorem apply_cons (m : Mem) (w : Write) (ws : List Write) :
    m.apply (w :: ws) = (m.write w.addr w.bytes).apply ws := rfl

/-- A byte that no store touches is as before. -/
theorem apply_untouched (m : Mem) {ws : List Write} {x : Nat} (h : ¬ Touched ws x) :
    m.apply ws x = m x := by
  induction ws generalizing m with
  | nil => rfl
  | cons w ws ih =>
    have hrest : ¬ Touched ws x := by
      rintro ⟨v, hv, hx⟩
      exact h ⟨v, by simp [hv], hx⟩
    have hw : x < w.addr ∨ w.addr + w.bytes.length ≤ x := by
      by_contra hcon
      exact h ⟨w, by simp, by omega, by omega⟩
    rw [apply_cons, ih _ hrest, write_outside _ _ _ hw]

/-- A byte that some store touches does not depend on what was there. -/
theorem apply_touched (m m' : Mem) {ws : List Write} {x : Nat} (h : Touched ws x) :
    m.apply ws x = m'.apply ws x := by
  induction ws generalizing m m' with
  | nil =>
    obtain ⟨w, hw, -⟩ := h
    cases hw
  | cons w ws ih =>
    rw [apply_cons, apply_cons]
    by_cases hrest : Touched ws x
    · exact ih _ _ hrest
    · obtain ⟨v, hv, h1, h2⟩ := h
      rcases List.mem_cons.mp hv with rfl | hv'
      · rw [apply_untouched _ hrest, apply_untouched _ hrest, write_inside_getD _ _ _ h1 h2,
          write_inside_getD _ _ _ h1 h2]
      · exact absurd ⟨v, hv', h1, h2⟩ hrest

theorem touched_append (ws vs : List Write) (x : Nat) :
    Touched (ws ++ vs) x ↔ Touched ws x ∨ Touched vs x := by
  simp only [Touched, List.mem_append, or_and_right, exists_or]

theorem touched_cons (w : Write) (ws : List Write) (x : Nat) :
    Touched (w :: ws) x ↔ (w.addr ≤ x ∧ x < w.addr + w.bytes.length) ∨ Touched ws x := by
  simp only [Touched, List.mem_cons, or_and_right, exists_or, exists_eq_left]

@[simp] theorem not_touched_nil (x : Nat) : ¬ Touched [] x := by
  rintro ⟨w, hw, -⟩
  cases hw

/-- The last store that covers an address gives the byte. -/
theorem apply_last (m : Mem) (ws : List Write) {w : Write} {vs : List Write} {x : Nat}
    (h1 : w.addr ≤ x) (h2 : x < w.addr + w.bytes.length) (hvs : ¬ Touched vs x) :
    m.apply (ws ++ w :: vs) x = w.bytes.getD (x - w.addr) 0 := by
  rw [apply_append, apply_cons, apply_untouched _ hvs, write_inside_getD _ _ _ h1 h2]

/-- A block that no later store touches is read back as it was stored. -/
theorem read_apply_last (m : Mem) (ws : List Write) {w : Write} {vs : List Write}
    (hvs : ∀ x, w.addr ≤ x → x < w.addr + w.bytes.length → ¬ Touched vs x) :
    (m.apply (ws ++ w :: vs)).read w.addr w.bytes.length = w.bytes := by
  rw [apply_append, apply_cons]
  refine Eq.trans (read_congr fun i hi => ?_) (read_write_self (m.apply ws) w.addr w.bytes)
  exact apply_untouched _ (hvs (w.addr + i) (by omega) (by omega))

/-- Stores that do not overlap are all read back. -/
theorem read_apply_of_mem (m : Mem) {ws : List Write} {w : Write} (hw : w ∈ ws)
    (hws : ws.Pairwise fun w v =>
      w.addr + w.bytes.length ≤ v.addr ∨ v.addr + v.bytes.length ≤ w.addr) :
    (m.apply ws).read w.addr w.bytes.length = w.bytes := by
  obtain ⟨before, after, rfl⟩ := List.append_of_mem hw
  have hlater := (List.pairwise_cons.mp (List.pairwise_append.mp hws).2.1).1
  apply read_apply_last
  rintro x hlow hx ⟨v, hv, hvx, hvx'⟩
  have hapart := hlater v hv
  omega

theorem EqOff.apply {S : Nat → Prop} (m : Mem) {ws : List Write} (h : ∀ x, Touched ws x → S x) :
    EqOff S m (m.apply ws) := fun x hx => apply_untouched m fun ht => hx (h x ht)

/-! ## Words that are mapped in place -/

/-- Replace the word at `a` by its image. -/
def map64 (f : Nat → Nat) (m : Mem) (a : Nat) : Mem := m.write64 a (f (m.read64 a))

/-- Two words without a common byte. -/
def Apart64 (a b : Nat) : Prop := a + 8 ≤ b ∨ b + 8 ≤ a

instance (a b : Nat) : Decidable (Apart64 a b) :=
  inferInstanceAs (Decidable (a + 8 ≤ b ∨ b + 8 ≤ a))

/-- A byte of none of the words is as before. -/
theorem foldl_map64_outside (f : Nat → Nat) {slots : List Nat} {x : Nat}
    (h : ∀ a ∈ slots, x < a ∨ a + 8 ≤ x) (m : Mem) : slots.foldl (map64 f) m x = m x := by
  induction slots generalizing m with
  | nil => rfl
  | cons a slots ih =>
    rw [List.foldl_cons, ih fun b hb => h b (List.mem_cons_of_mem a hb)]
    exact write64_outside m a _ (h a List.mem_cons_self)

theorem read64_foldl_map64_outside (f : Nat → Nat) {slots : List Nat} {b : Nat}
    (h : ∀ a ∈ slots, Apart64 b a) (m : Mem) :
    (slots.foldl (map64 f) m).read64 b = m.read64 b := by
  apply read64_congr
  intro i hi
  apply foldl_map64_outside
  intro a ha
  have hapart := h a ha
  unfold Apart64 at hapart
  omega

/-- Words that do not overlap are each mapped once. -/
theorem read64_foldl_map64 {f : Nat → Nat} (hf : ∀ v, f v < 2 ^ 64) {slots : List Nat}
    (hapart : slots.Pairwise Apart64) {a : Nat} (ha : a ∈ slots) (m : Mem) :
    (slots.foldl (map64 f) m).read64 a = f (m.read64 a) := by
  induction slots generalizing m with
  | nil => cases ha
  | cons b slots ih =>
    obtain ⟨hfirst, hrest⟩ := List.pairwise_cons.mp hapart
    rw [List.foldl_cons]
    rcases List.mem_cons.mp ha with rfl | ha'
    · rw [read64_foldl_map64_outside f hfirst, map64, read64_write64_self m a (hf _)]
    · rw [ih hrest ha', map64]
      have hab := hfirst a ha'
      unfold Apart64 at hab
      rw [read64_write64_disjoint m b _ (by omega)]

end Mem
