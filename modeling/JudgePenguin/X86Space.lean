/-
  JudgePenguin/X86Space.lean
  ==========================
  **Code that moves its stack between address spaces.**

  `X86` keeps a stack as a list of words.  That cannot tell what happens to code that
  loads `rsp` or CR3: what a pop then finds depends on where the new address space
  puts the old stack.  Here the memory is the physical one, byte by byte, and an `Mmu`
  says for a value of CR3 and the bytes where an address lies.

  `Maps` is a fact about an address space that holds while the memory is in a set `G`,
  for example that its page tables are in place, and `Keeps G S` says that stores to
  `S` do not leave the set.  A `StackAt` is a run of words with both properties.  Its
  rules are those of a stack: pushed words are popped as they were
  (`pushAll`, `popAll`, `exec_pops`) in whatever address space maps the same words.

  An access whose bytes do not lie next to each other in memory is a fault here; no
  code that is verified with these rules makes one.
-/
import JudgePenguin.ByteMemory
import JudgePenguin.X86Call

namespace X86

/-- Where the byte at an address is, for CR3 and the physical memory. -/
abbrev Mmu := UInt64 → Mem → Nat → Option Nat

namespace Paged

/-! ## The machine -/

structure Core where
  regs : Regs
  rsp : UInt64
  /-- Where control was transferred to last. -/
  rip : UInt64
  cr3 : UInt64
  phys : Mem

/-- The place of `n` bytes from `va` on. -/
def run (τ : Nat → Option Nat) (va n : Nat) : Option Nat :=
  (τ va).bind fun p => if ∀ i < n, τ (va + i) = some (p + i) then some p else none

namespace Core

variable (mmu : Mmu) (m : Core)

def set (r : Reg) (v : UInt64) : Core := { m with regs := Function.update m.regs r v }

def place (va : UInt64) (n : Nat) : Option Nat := run (mmu m.cr3 m.phys) va.toNat n

def load (va : UInt64) : Option UInt64 :=
  (m.place mmu va 8).map fun p => UInt64.ofNat (m.phys.read64 p)

def write (va : UInt64) (bs : List UInt8) : Option Core :=
  (m.place mmu va bs.length).map fun p => { m with phys := m.phys.write p bs }

def store (va v : UInt64) : Option Core := m.write mmu va (Mem.leBytes 8 v.toNat)

def push (v : UInt64) : Option Core := { m with rsp := m.rsp - 8 }.store mmu (m.rsp - 8) v

def pop : Option (UInt64 × Core) :=
  (m.load mmu m.rsp).map fun v => (v, { m with rsp := m.rsp + 8 })

def pushAll : List UInt64 → Core → Option Core
  | [], m => some m
  | v :: vs, m => (m.push mmu v).bind (pushAll vs)

/-- `n` words from the stack, the one that was pushed first in front. -/
def popAll : Nat → Core → Option (List UInt64 × Core)
  | 0, m => some ([], m)
  | n + 1, m => (popAll n m).bind fun p => (p.2.pop mmu).map fun q => (q.1 :: p.1, q.2)

end Core

/-- Addresses in instructions are those of the linker. -/
inductive Instr where
  | pushq (r : Reg)
  | pushImm (v : UInt64)
  | popq (r : Reg)
  | movq (src dst : Reg)
  | addq (src dst : Reg)
  | leaq (a : UInt64) (dst : Reg)
  /-- `movq %rsp, a(%rip)` and `movq a(%rip), %rsp`. -/
  | storeRsp (a : UInt64)
  | loadRsp (a : UInt64)
  | movToRsp (src : Reg)
  | addToRsp (src : Reg)
  | jmp (a : UInt64)
  | jmpTo (r : Reg)
  /-- A call of `a` that returns to `next`. -/
  | call (a next : UInt64)
  | ret

section Step

variable (mmu : Mmu) (base : UInt64)

/-- One instruction of code that lies `base` above its link address. -/
def step (m : Core) : Instr → Option Core
  | .pushq r => m.push mmu (m.regs r)
  | .pushImm v => m.push mmu v
  | .popq r => (m.pop mmu).map fun p => p.2.set r p.1
  | .movq src dst => some (m.set dst (m.regs src))
  | .addq src dst => some (m.set dst (m.regs dst + m.regs src))
  | .leaq a dst => some (m.set dst (base + a))
  | .storeRsp a => m.store mmu (base + a) m.rsp
  | .loadRsp a => (m.load mmu (base + a)).map fun v => { m with rsp := v }
  | .movToRsp src => some { m with rsp := m.regs src }
  | .addToRsp src => some { m with rsp := m.rsp + m.regs src }
  | .jmp a => some { m with rip := base + a }
  | .jmpTo r => some { m with rip := m.regs r }
  | .call a next => (m.push mmu (base + next)).map fun m => { m with rip := base + a }
  | .ret => (m.pop mmu).map fun p => { p.2 with rip := p.1 }

def exec : List Instr → Core → Option Core
  | [], m => some m
  | i :: is, m => (step mmu base m i).bind (exec is)

theorem exec_cons_of {i : Instr} {m n : Core} (h : step mmu base m i = some n) (is : List Instr) :
    exec mmu base (i :: is) m = exec mmu base is n := by
  rw [exec, h, Option.bind_some]

/-- The processor finds at `rip` the code that the linker put at `a`, in an image whose
    address 0 is at `image` in memory. -/
def Core.At (m : Core) (image : Nat) (a : UInt64) : Prop :=
  m.place mmu m.rip 1 = some (image + a.toNat)

instance (m : Core) (image : Nat) (a : UInt64) : Decidable (m.At mmu image a) :=
  inferInstanceAs (Decidable (_ = _))

/-- Run that code, if it is what the processor finds. -/
def runAt (image : Nat) (a : UInt64) (is : List Instr) (m : Core) : Option Core :=
  if m.At mmu image a then exec mmu (m.rip - a) is m else none

end Step

/-! ## What an address space maps -/

/-- Changes of the bytes of `S` do not leave `G`. -/
def Keeps (G : Mem → Prop) (S : Nat → Prop) : Prop :=
  ∀ m m' : Mem, G m → Mem.EqOff S m m' → G m'

/-- With a memory of `G` the `n` bytes at `va` lie at `p`. -/
structure Maps (mmu : Mmu) (cr3 : UInt64) (G : Mem → Prop) (va p n : Nat) : Prop where
  bytes : ∀ phys, G phys → ∀ i < n, mmu cr3 phys (va + i) = some (p + i)

section Maps

variable {mmu : Mmu} {cr3 : UInt64} {G : Mem → Prop} {va p n : Nat} {m : Core} {a : UInt64}

theorem Maps.place (h : Maps mmu cr3 G va p n) (hn : 0 < n) (hc : m.cr3 = cr3) (hg : G m.phys)
    (ha : a.toNat = va) : m.place mmu a n = some p := by
  have hbytes := h.bytes m.phys hg
  have hfirst : mmu cr3 m.phys va = some p := hbytes 0 hn
  rw [Core.place, run, ha, hc, hfirst, Option.bind_some]
  exact if_pos hbytes

theorem Maps.load (h : Maps mmu cr3 G va p 8) (hc : m.cr3 = cr3) (hg : G m.phys)
    (ha : a.toNat = va) : m.load mmu a = some (UInt64.ofNat (m.phys.read64 p)) := by
  rw [Core.load, h.place (by decide) hc hg ha, Option.map_some]

theorem Maps.write (h : Maps mmu cr3 G va p n) (hn : 0 < n) (hc : m.cr3 = cr3) (hg : G m.phys)
    (ha : a.toNat = va) (bs : List UInt8) (hbs : bs.length = n) :
    m.write mmu a bs = some { m with phys := m.phys.write p bs } := by
  rw [Core.write, hbs, h.place hn hc hg ha, Option.map_some]

theorem Maps.store (h : Maps mmu cr3 G va p 8) (hc : m.cr3 = cr3) (hg : G m.phys)
    (ha : a.toNat = va) (v : UInt64) :
    m.store mmu a v = some { m with phys := m.phys.write64 p v.toNat } :=
  h.write (by decide) hc hg ha _ (Mem.length_leBytes 8 _)

end Maps

/-! ## Stacks -/

/-- `n` words from `lo` on that can be used as a stack: word `k` is at `place k`. -/
structure StackAt (mmu : Mmu) (cr3 : UInt64) (G : Mem → Prop) (S : Nat → Prop) (lo n : Nat)
    (place : Nat → Nat) : Prop where
  maps : ∀ k < n, Maps mmu cr3 G (lo + 8 * k) (place k) 8
  apart : ∀ j < n, ∀ k < n, j ≠ k → Mem.Apart64 (place j) (place k)
  inside : ∀ k < n, ∀ x, place k ≤ x → x < place k + 8 → S x
  bound : lo + 8 * n < 2 ^ 64

/-- The bytes of the words from number `a` to number `b`. -/
def Words (place : Nat → Nat) (a b x : Nat) : Prop :=
  ∃ j, a ≤ j ∧ j < b ∧ place j ≤ x ∧ x < place j + 8

/-- The words from number `j` on are `vs` as pushes leave them. -/
def Holds (place : Nat → Nat) (phys : Mem) (j : Nat) : List UInt64 → Prop
  | [] => True
  | v :: vs => phys.read64 (place (j + vs.length)) = v.toNat ∧ Holds place phys j vs

theorem Holds.frame {place : Nat → Nat} {phys phys' : Mem} {j : Nat} {vs : List UInt64}
    (h : Holds place phys j vs)
    (hsame : ∀ x, Words place j (j + vs.length) x → phys' x = phys x) : Holds place phys' j vs := by
  induction vs with
  | nil => trivial
  | cons v vs ih =>
    obtain ⟨hword, hrest⟩ := h
    have hlen : (v :: vs).length = vs.length + 1 := List.length_cons
    refine ⟨?_, ih hrest fun x hx => ?_⟩
    · rw [← hword]
      apply Mem.read64_congr
      intro i hi
      exact hsame _ ⟨j + vs.length, by omega, by omega, by omega, by omega⟩
    · obtain ⟨k, h1, h2, h3, h4⟩ := hx
      exact hsame x ⟨k, h1, by omega, h3, h4⟩

theorem Holds.append {place : Nat → Nat} {phys : Mem} {j : Nat} {us vs : List UInt64} :
    Holds place phys j (us ++ vs) ↔
      Holds place phys (j + vs.length) us ∧ Holds place phys j vs := by
  induction us with
  | nil => simp [Holds]
  | cons u us ih =>
    have hindex : j + (us ++ vs).length = j + vs.length + us.length := by
      rw [List.length_append]
      omega
    rw [List.cons_append, Holds, Holds, ih, hindex, and_assoc]

/-- Code that changes its base only runs as the same code elsewhere. -/
theorem runAt_eq {mmu : Mmu} {m : Core} {image : Nat} {a base : UInt64} (h : m.At mmu image a)
    (hrip : m.rip = base + a) (is : List Instr) : runAt mmu image a is m = exec mmu base is m := by
  rw [runAt, if_pos h, hrip, UInt64.add_sub_cancel]

section Stack

variable {mmu : Mmu} {cr3 base : UInt64} {G : Mem → Prop} {S : Nat → Prop} {lo n : Nat}
  {place : Nat → Nat} {m : Core}

theorem sub8_toNat {v : UInt64} {x : Nat} (h : v.toNat = x + 8) : (v - 8).toNat = x := by
  have hlt := v.toNat_lt
  have h8 : (8 : UInt64).toNat = 8 := rfl
  rw [UInt64.toNat_sub, h8, h]
  omega

theorem add8_toNat {v : UInt64} {x : Nat} (h : v.toNat = x) (hx : x + 8 < 2 ^ 64) :
    (v + 8).toNat = x + 8 := by
  have h8 : (8 : UInt64).toNat = 8 := rfl
  rw [UInt64.toNat_add, h8, h]
  omega

theorem StackAt.push (h : StackAt mmu cr3 G S lo n place) {k : Nat} (hk : k < n)
    (hrsp : m.rsp.toNat = lo + 8 * (k + 1)) (hc : m.cr3 = cr3) (hg : G m.phys) (v : UInt64) :
    m.push mmu v =
      some { m with rsp := m.rsp - 8, phys := m.phys.write64 (place k) v.toNat } ∧
    (m.rsp - 8).toNat = lo + 8 * k := by
  have hto : (m.rsp - 8).toNat = lo + 8 * k := sub8_toNat (by omega)
  exact ⟨(h.maps k hk).store (m := { m with rsp := m.rsp - 8 }) hc hg hto v, hto⟩

theorem StackAt.pop (h : StackAt mmu cr3 G S lo n place) {k : Nat} (hk : k < n)
    (hrsp : m.rsp.toNat = lo + 8 * k) (hc : m.cr3 = cr3) (hg : G m.phys) :
    m.pop mmu = some (UInt64.ofNat (m.phys.read64 (place k)), { m with rsp := m.rsp + 8 }) ∧
    (m.rsp + 8).toNat = lo + 8 * (k + 1) := by
  have hbound := h.bound
  rw [Core.pop, (h.maps k hk).load hc hg hrsp, Option.map_some]
  exact ⟨rfl, (add8_toNat hrsp (by omega)).trans (by omega)⟩

/-- A store to a word of the stack. -/
theorem StackAt.eqOff (h : StackAt mmu cr3 G S lo n place) {k : Nat} (hk : k < n) (phys : Mem)
    (v : Nat) : Mem.EqOff S phys (phys.write64 (place k) v) :=
  Mem.EqOff.write64 _ _ _ (h.inside k hk)

/-- Pushed words are on the stack, and nothing else has changed. -/
theorem StackAt.pushAll (h : StackAt mmu cr3 G S lo n place) (hG : Keeps G S) (vs : List UInt64)
    {j : Nat} (hj : j + vs.length ≤ n) (hrsp : m.rsp.toNat = lo + 8 * (j + vs.length))
    (hc : m.cr3 = cr3) (hg : G m.phys) :
    ∃ rsp phys, m.pushAll mmu vs = some { m with rsp := rsp, phys := phys } ∧
      rsp.toNat = lo + 8 * j ∧ G phys ∧ Holds place phys j vs ∧
      Mem.EqOff (Words place j (j + vs.length)) m.phys phys := by
  induction vs generalizing m with
  | nil => exact ⟨m.rsp, m.phys, rfl, hrsp, hg, trivial, Mem.EqOff.refl _ _⟩
  | cons v vs ih =>
    have hlen : (v :: vs).length = vs.length + 1 := List.length_cons
    obtain ⟨hpush, hto⟩ := h.push (k := j + vs.length) (by omega) (by omega) hc hg v
    have hg1 := hG _ _ hg (h.eqOff (k := j + vs.length) (by omega) m.phys v.toNat)
    obtain ⟨rsp, phys, hrun, hrsp', hg', hholds, hoff⟩ := ih
      (m := { m with rsp := m.rsp - 8, phys := m.phys.write64 (place (j + vs.length)) v.toNat })
      (by omega) hto hc hg1
    refine ⟨rsp, phys, ?_, hrsp', hg', ⟨?_, hholds⟩, ?_⟩
    · rw [Core.pushAll, hpush, Option.bind_some, hrun]
    · -- the words pushed later are below
      rw [hoff.read64, Mem.read64_write64_self _ _ v.toNat_lt]
      rintro i hi ⟨k, h1, h2, h3, h4⟩
      have hapart := h.apart k (by omega) (j + vs.length) (by omega) (by omega)
      unfold Mem.Apart64 at hapart
      omega
    · refine Mem.EqOff.trans (Mem.EqOff.write64 _ _ _ fun x h1 h2 => ?_) (hoff.mono ?_)
      · exact ⟨j + vs.length, by omega, by omega, h1, h2⟩
      · rintro x ⟨k, h1, h2, h3, h4⟩
        exact ⟨k, h1, by omega, h3, h4⟩

theorem StackAt.popAll (h : StackAt mmu cr3 G S lo n place) {vs : List UInt64} {j : Nat}
    (hholds : Holds place m.phys j vs) (hj : j + vs.length ≤ n) (hrsp : m.rsp.toNat = lo + 8 * j)
    (hc : m.cr3 = cr3) (hg : G m.phys) :
    ∃ rsp, m.popAll mmu vs.length = some (vs, { m with rsp := rsp }) ∧
      rsp.toNat = lo + 8 * (j + vs.length) := by
  induction vs with
  | nil => exact ⟨m.rsp, rfl, hrsp⟩
  | cons v vs ih =>
    have hlen : (v :: vs).length = vs.length + 1 := List.length_cons
    obtain ⟨hword, hrest⟩ := hholds
    obtain ⟨rsp, hrun, hrsp'⟩ := ih hrest (by omega)
    obtain ⟨hpop, hto⟩ := h.pop (m := { m with rsp := rsp }) (k := j + vs.length) (by omega) hrsp'
      hc hg
    refine ⟨rsp + 8, ?_, hto.trans (by omega)⟩
    rw [List.length_cons, Core.popAll, hrun, Option.bind_some, hpop, Option.map_some]
    dsimp only
    rw [hword, UInt64.ofNat_toNat]

theorem push_regs {v : UInt64} {m' : Core} (h : m.push mmu v = some m') : m'.regs = m.regs := by
  rw [Core.push, Core.store, Core.write, Option.map_eq_some_iff] at h
  obtain ⟨p, -, rfl⟩ := h
  rfl

/-- Pushes of registers are pushes of what they hold. -/
theorem exec_pushes (rs : List Reg) (is : List Instr) (m : Core) :
    exec mmu base (rs.map .pushq ++ is) m =
      (m.pushAll mmu (rs.map m.regs)).bind (exec mmu base is) := by
  induction rs generalizing m with
  | nil => rfl
  | cons r rs ih =>
    rw [List.map_cons, List.map_cons, List.cons_append, exec, Core.pushAll, Option.bind_assoc]
    refine Option.bind_congr fun m' hm' => ?_
    rw [ih, push_regs hm']

/-- Pushes of constants. -/
theorem exec_pushImms (vs : List UInt64) (is : List Instr) (m : Core) :
    exec mmu base (vs.map .pushImm ++ is) m = (m.pushAll mmu vs).bind (exec mmu base is) := by
  induction vs generalizing m with
  | nil => rfl
  | cons v vs ih =>
    rw [List.map_cons, List.cons_append, exec, Core.pushAll, Option.bind_assoc]
    exact Option.bind_congr fun m' _ => ih m'

/-- **Saved registers come back**, in any address space that has the words. -/
theorem StackAt.exec_pops (h : StackAt mmu cr3 G S lo n place) (base : UInt64) {rs : List Reg}
    (hnodup : rs.Nodup) {f : Regs} {j : Nat} (hholds : Holds place m.phys j (rs.map f))
    (hj : j + rs.length ≤ n) (hrsp : m.rsp.toNat = lo + 8 * j) (hc : m.cr3 = cr3) (hg : G m.phys) :
    ∃ rsp regs, (∀ is, exec mmu base (rs.reverse.map .popq ++ is) m =
        exec mmu base is { m with rsp := rsp, regs := regs }) ∧
      rsp.toNat = lo + 8 * (j + rs.length) ∧ (∀ r ∈ rs, regs r = f r) ∧
      ∀ r, r ∉ rs → regs r = m.regs r := by
  induction rs with
  | nil =>
    exact ⟨m.rsp, m.regs, fun is => rfl, hrsp, fun r hr => absurd hr List.not_mem_nil, fun _ _ => rfl⟩
  | cons r rs ih =>
    have hlen : (r :: rs).length = rs.length + 1 := List.length_cons
    obtain ⟨hr, hnodup'⟩ := List.nodup_cons.mp hnodup
    obtain ⟨hword, hrest⟩ := hholds
    rw [List.length_map] at hword
    obtain ⟨rsp, regs, hrun, hrsp', hin, hout⟩ := ih hnodup' hrest (by omega)
    obtain ⟨hpop, hto⟩ := h.pop (m := { m with rsp := rsp, regs := regs }) (k := j + rs.length)
      (by omega) hrsp' hc hg
    have hstep : step mmu base { m with rsp := rsp, regs := regs } (.popq r) =
        some { m with rsp := rsp + 8, regs := Function.update regs r (f r) } := by
      rw [step, hpop, Option.map_some]
      dsimp only
      rw [hword, UInt64.ofNat_toNat]
      rfl
    refine ⟨rsp + 8, Function.update regs r (f r), fun is => ?_, hto.trans (by omega), ?_, ?_⟩
    · rw [List.reverse_cons, List.map_append, List.append_assoc, hrun, List.map_cons, List.map_nil,
        List.cons_append, List.nil_append, exec_cons_of mmu base hstep]
    · intro q hq
      rcases List.mem_cons.mp hq with rfl | hq
      · exact Function.update_self ..
      · have hne : q ≠ r := fun heq => hr (heq ▸ hq)
        rw [Function.update_of_ne hne, hin q hq]
    · intro q hq
      rw [List.mem_cons, not_or] at hq
      rw [Function.update_of_ne hq.1, hout q hq.2]

variable {a : UInt64} {cell : Nat}

/-- Registers pushed, and the place where they are kept in a word. -/
theorem StackAt.exec_save (h : StackAt mmu cr3 G S lo n place) (hG : Keeps G S) (base : UInt64)
    (rs : List Reg)
    {j : Nat} (hcell : Maps mmu cr3 G (base + a).toNat cell 8)
    (hin : ∀ x, cell ≤ x → x < cell + 8 → S x) (hapart : ∀ k < n, Mem.Apart64 (place k) cell)
    (hj : j + rs.length ≤ n) (hrsp : m.rsp.toNat = lo + 8 * (j + rs.length)) (hc : m.cr3 = cr3)
    (hg : G m.phys) :
    ∃ rsp phys, (∀ is, exec mmu base (rs.map .pushq ++ (.storeRsp a :: is)) m =
        exec mmu base is { m with rsp := rsp, phys := phys }) ∧
      rsp.toNat = lo + 8 * j ∧ G phys ∧ Holds place phys j (rs.map m.regs) ∧
      phys.read64 cell = lo + 8 * j ∧
      Mem.EqOff (fun x => Words place j (j + rs.length) x ∨ (cell ≤ x ∧ x < cell + 8)) m.phys
        phys := by
  have hlen : (rs.map m.regs).length = rs.length := List.length_map _
  obtain ⟨rsp, phys, hrun, hrsp', hg', hholds, hoff⟩ := h.pushAll hG (rs.map m.regs)
    (by omega) (hlen ▸ hrsp) hc hg
  have hstore : step mmu base { m with rsp := rsp, phys := phys } (.storeRsp a) =
      some { m with rsp := rsp, phys := phys.write64 cell rsp.toNat } :=
    hcell.store (m := { m with rsp := rsp, phys := phys }) hc hg' rfl rsp
  have heq : Mem.EqOff S phys (phys.write64 cell rsp.toNat) := Mem.EqOff.write64 _ _ _ hin
  refine ⟨rsp, phys.write64 cell rsp.toNat, fun is => ?_, hrsp', hG _ _ hg' heq, ?_, ?_, ?_⟩
  · rw [exec_pushes, hrun, Option.bind_some, exec_cons_of mmu base hstore]
  · refine hholds.frame ?_
    rintro x ⟨k, h1, h2, h3, h4⟩
    have hk := hapart k (by omega)
    unfold Mem.Apart64 at hk
    exact Mem.write64_outside _ _ _ (by omega)
  · rw [Mem.read64_write64_self _ _ rsp.toNat_lt, hrsp']
  · refine Mem.EqOff.trans (hoff.mono fun x hx => Or.inl (hlen ▸ hx)) ?_
    exact Mem.EqOff.write64 _ _ _ fun x h1 h2 => Or.inr ⟨h1, h2⟩

/-- They come back from there. -/
theorem StackAt.exec_restore (h : StackAt mmu cr3 G S lo n place) (base : UInt64) {rs : List Reg}
    (hnodup : rs.Nodup) {f : Regs} {j : Nat} (hcell : Maps mmu cr3 G (base + a).toNat cell 8)
    (hword : m.phys.read64 cell = lo + 8 * j) (hholds : Holds place m.phys j (rs.map f))
    (hj : j + rs.length ≤ n) (hc : m.cr3 = cr3) (hg : G m.phys) :
    ∃ rsp regs, (∀ is, exec mmu base (.loadRsp a :: (rs.reverse.map .popq ++ is)) m =
        exec mmu base is { m with rsp := rsp, regs := regs }) ∧
      rsp.toNat = lo + 8 * (j + rs.length) ∧ (∀ r ∈ rs, regs r = f r) ∧
      ∀ r, r ∉ rs → regs r = m.regs r := by
  have hbound := h.bound
  have hload : step mmu base m (.loadRsp a) = some { m with rsp := UInt64.ofNat (lo + 8 * j) } := by
    rw [step, hcell.load hc hg rfl, Option.map_some, hword]
  have hlt : lo + 8 * j < UInt64.size := Nat.lt_of_le_of_lt (by omega) hbound
  have hto : (UInt64.ofNat (lo + 8 * j)).toNat = lo + 8 * j := UInt64.toNat_ofNat_of_lt' hlt
  obtain ⟨rsp, regs, hrun, hrest⟩ := h.exec_pops base
    (m := { m with rsp := UInt64.ofNat (lo + 8 * j) }) hnodup hholds hj hto hc hg
  refine ⟨rsp, regs, fun is => ?_, hrest⟩
  rw [exec_cons_of mmu base hload, hrun]

end Stack

end Paged

end X86
