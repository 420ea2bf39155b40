/-
  JudgePenguin/HexDigest.lean
  ===========================
  **`digest_from_hex` is a faithful decoder** (`kern/duck_cache.cpp`).

  Digit `i` of a group of sixteen goes to bits `[4 i, 4 i + 4)` of its word, so a
  word is the number whose digits in base 16 are the digits of its group, lowest
  first (`hexWord_eq`).  Sixteen digits below 16 determine the word and the word
  them, and a digit stands for one letter in either case.
-/
import JudgePenguin.DuckCache
import Mathlib.Data.Nat.Digits.Lemmas

namespace JudgePenguin

/-! ## One character -/

/-- A hexadecimal digit of either case. -/
def IsHexDigit (c : UInt8) : Prop :=
  (48 ≤ c ∧ c ≤ 57) ∨ (97 ≤ c ∧ c ≤ 102) ∨ (65 ≤ c ∧ c ≤ 70)

instance (c : UInt8) : Decidable (IsHexDigit c) := inferInstanceAs (Decidable (_ ∨ _))

/-- The character in lower case. -/
def lower (c : UInt8) : UInt8 := if 65 ≤ c ∧ c ≤ 90 then c + 32 else c

/-- The value of a digit, 0 for any other character. -/
def nibble (c : UInt8) : Nat := ((hexVal c).getD 0).toNat

/-- The lower-case digit of a value below 16. -/
def hexChar (v : Nat) : UInt8 := UInt8.ofNat (if v < 10 then 48 + v else 87 + v)

theorem forall_char {p : UInt8 → Prop} (h : ∀ n, n < 256 → p (UInt8.ofNat n)) (c : UInt8) : p c := by
  have hc := h c.toNat c.toNat_lt
  rwa [UInt8.ofNat_toNat] at hc

theorem hexVal_isSome (c : UInt8) : (hexVal c).isSome = true ↔ IsHexDigit c := by
  unfold hexVal IsHexDigit
  split_ifs with h1 h2 h3
  · exact ⟨fun _ => Or.inl h1, fun _ => rfl⟩
  · exact ⟨fun _ => Or.inr (Or.inl h2), fun _ => rfl⟩
  · exact ⟨fun _ => Or.inr (Or.inr h3), fun _ => rfl⟩
  · exact ⟨fun h => absurd h (by simp),
      fun h => absurd h (by simp only [h1, h2, h3, or_self, not_false_iff])⟩

theorem nibble_lt (c : UInt8) : nibble c < 16 :=
  forall_char (p := fun c => nibble c < 16) (by decide +kernel) c

theorem hexVal_of_digit {c : UInt8} (h : IsHexDigit c) :
    ∃ v, hexVal c = some v ∧ v.toNat = nibble c := by
  obtain ⟨v, hv⟩ := Option.isSome_iff_exists.mp ((hexVal_isSome c).mpr h)
  exact ⟨v, hv, by rw [nibble, hv, Option.getD_some]⟩

/-- Letters of either case have one value. -/
theorem nibble_lower (c : UInt8) : IsHexDigit c → nibble (lower c) = nibble c :=
  forall_char (p := fun c => IsHexDigit c → nibble (lower c) = nibble c) (by decide +kernel) c

theorem hexChar_nibble (c : UInt8) : IsHexDigit c → hexChar (nibble c) = lower c :=
  forall_char (p := fun c => IsHexDigit c → hexChar (nibble c) = lower c) (by decide +kernel) c

theorem hexChar_spec : ∀ v, v < 16 →
    IsHexDigit (hexChar v) ∧ nibble (hexChar v) = v ∧ lower (hexChar v) = hexChar v := by
  decide +kernel

/-- Two digits have one value exactly when they are one letter up to case. -/
theorem nibble_eq_iff {c e : UInt8} (hc : IsHexDigit c) (he : IsHexDigit e) :
    nibble c = nibble e ↔ lower c = lower e := by
  constructor
  · intro h
    rw [← hexChar_nibble c hc, ← hexChar_nibble e he, h]
  · intro h
    rw [← nibble_lower c hc, ← nibble_lower e he, h]

/-! ## One word -/

/-- The character at position `j`, as `digest_from_hex` indexes it. -/
def charAt (hex : Vector UInt8 64) (j : Nat) : UInt8 := hex.toList.getD j 0

/-- The first `n` digits of group `idx`. -/
def nibbles (hex : Vector UInt8 64) (idx n : Nat) : List Nat :=
  (List.range n).map fun i => nibble (charAt hex (idx * 16 + i))

theorem nibbles_length (hex : Vector UInt8 64) (idx n : Nat) : (nibbles hex idx n).length = n := by
  simp [nibbles]

theorem nibbles_lt (hex : Vector UInt8 64) (idx n : Nat) : ∀ x ∈ nibbles hex idx n, x < 16 := by
  intro x hx
  obtain ⟨i, -, rfl⟩ := List.mem_map.mp hx
  exact nibble_lt _

theorem ofDigits_nibbles_lt (hex : Vector UInt8 64) (idx n : Nat) :
    Nat.ofDigits 16 (nibbles hex idx n) < 16 ^ n := by
  have h := Nat.ofDigits_lt_base_pow_length (by decide : 1 < 16) (nibbles_lt hex idx n)
  rwa [nibbles_length] at h

/-- A digit shifted to bit `4 n` stands above the `n` digits collected so far. -/
theorem or_digit {sum val : UInt64} {n : Nat} (hn : n < 16) (hsum : sum.toNat < 16 ^ n)
    (hval : val.toNat < 16) :
    (sum ||| val <<< UInt64.ofNat (n * 4)).toNat = sum.toNat + 16 ^ n * val.toNat := by
  have hpow : (16 : Nat) ^ n = 2 ^ (n * 4) := by
    rw [Nat.mul_comm n 4, Nat.pow_mul]
  have hshift : (UInt64.ofNat (n * 4)).toNat = n * 4 := by
    rw [UInt64.toNat_ofNat']
    omega
  have hfit : val.toNat * 2 ^ (n * 4) < 2 ^ 64 := by
    calc val.toNat * 2 ^ (n * 4) < 16 * 2 ^ (n * 4) :=
          Nat.mul_lt_mul_of_pos_right hval (Nat.two_pow_pos _)
      _ = 2 ^ (4 + n * 4) := by rw [Nat.pow_add]
      _ ≤ 2 ^ 64 := Nat.pow_le_pow_right (by decide) (by omega)
  rw [UInt64.toNat_or, UInt64.toNat_shiftLeft, hshift, Nat.mod_eq_of_lt (show n * 4 < 64 by omega),
    Nat.shiftLeft_eq, Nat.mod_eq_of_lt hfit, ← Nat.shiftLeft_eq, Nat.or_comm,
    ← Nat.shiftLeft_add_eq_or_of_lt (by rwa [← hpow]), Nat.shiftLeft_eq, ← hpow]
  ring

/-- What the inner loop has collected after `n` digits. -/
theorem hexWord_loop (hex : Vector UInt8 64) (idx n : Nat) (hn : n ≤ 16) :
    (List.range n).foldlM
        (fun sum i => do
          let val ← hexVal (hex.toList.getD (idx * 16 + i) 0)
          some (sum ||| val <<< UInt64.ofNat (i * 4))) (0 : UInt64) =
      if ∀ i, i < n → IsHexDigit (charAt hex (idx * 16 + i)) then
        some (UInt64.ofNat (Nat.ofDigits 16 (nibbles hex idx n)))
      else none := by
  induction n with
  | zero => simp [nibbles]
  | succ n ih =>
    rw [List.range_succ, List.foldlM_append, ih (by omega)]
    by_cases hall : ∀ i, i < n → IsHexDigit (charAt hex (idx * 16 + i))
    · rw [if_pos hall]
      by_cases hlast : IsHexDigit (charAt hex (idx * 16 + n))
      · -- digit `n` is read and put above the others
        obtain ⟨v, hv, hvn⟩ := hexVal_of_digit hlast
        rw [if_pos (fun i hi => by
          rcases Nat.lt_succ_iff_lt_or_eq.mp hi with h | rfl
          · exact hall i h
          · exact hlast)]
        have hlow := ofDigits_nibbles_lt hex idx n
        have hsmall : Nat.ofDigits 16 (nibbles hex idx n) < 2 ^ 64 :=
          Nat.lt_of_lt_of_le hlow
            (Nat.le_trans (Nat.pow_le_pow_right (by decide) (show n ≤ 16 by omega)) (by decide))
        have hsum : (UInt64.ofNat (Nat.ofDigits 16 (nibbles hex idx n))).toNat =
            Nat.ofDigits 16 (nibbles hex idx n) := by
          rw [UInt64.toNat_ofNat', Nat.mod_eq_of_lt hsmall]
        have hor := or_digit (show n < 16 by omega) (by rw [hsum]; exact hlow)
          (by rw [hvn]; exact nibble_lt _)
        have hnext : nibbles hex idx (n + 1) =
            nibbles hex idx n ++ [nibble (charAt hex (idx * 16 + n))] := by
          simp [nibbles, List.range_succ]
        have hval : hexVal (hex.toList.getD (idx * 16 + n) 0) = some v := hv
        simp only [List.foldlM_cons, List.foldlM_nil, Option.bind_eq_bind, Option.bind_some,
          Option.pure_def, hval, Option.some.injEq]
        rw [← UInt64.toNat_inj, hor, hsum, hvn, hnext, Nat.ofDigits_append, Nat.ofDigits_singleton,
          nibbles_length, UInt64.toNat_ofNat', Nat.mod_eq_of_lt]
        have hbound := ofDigits_nibbles_lt hex idx (n + 1)
        rw [hnext, Nat.ofDigits_append, Nat.ofDigits_singleton, nibbles_length] at hbound
        exact Nat.lt_of_lt_of_le hbound
          (Nat.le_trans (Nat.pow_le_pow_right (by decide) hn) (by decide))
      · have hval : hexVal (hex.toList.getD (idx * 16 + n) 0) = none := by
          rw [← Option.not_isSome_iff_eq_none]
          exact fun h => hlast ((hexVal_isSome _).mp h)
        rw [if_neg (fun h => hlast (h n (Nat.lt_succ_self n)))]
        simp only [List.foldlM_cons, Option.bind_eq_bind, Option.bind_some, hval, Option.bind_none]
    · rw [if_neg hall, if_neg (fun h => hall (fun i hi => h i (Nat.lt_succ_of_lt hi)))]
      rfl

/-- A word is the number its sixteen digits spell, lowest first. -/
theorem hexWord_eq_some_iff (hex : Vector UInt8 64) (idx : Nat) (w : UInt64) :
    hexWord hex idx = some w ↔
      (∀ i, i < 16 → IsHexDigit (charAt hex (idx * 16 + i))) ∧
        w.toNat = Nat.ofDigits 16 (nibbles hex idx 16) := by
  have hlt : Nat.ofDigits 16 (nibbles hex idx 16) < 2 ^ 64 :=
    Nat.lt_of_lt_of_le (ofDigits_nibbles_lt hex idx 16) (by decide)
  have hval : (UInt64.ofNat (Nat.ofDigits 16 (nibbles hex idx 16))).toNat =
      Nat.ofDigits 16 (nibbles hex idx 16) := by
    rw [UInt64.toNat_ofNat', Nat.mod_eq_of_lt hlt]
  have hloop := hexWord_loop hex idx 16 (Nat.le_refl 16)
  rw [hexWord, hloop]
  split_ifs with hall
  · rw [Option.some.injEq, ← UInt64.toNat_inj, hval]
    exact ⟨fun h => ⟨hall, h.symm⟩, fun h => h.2.symm⟩
  · exact ⟨fun h => h.elim, fun h => absurd h.1 hall⟩

/-! ## The digest -/

theorem digestFromHex_eq_some_iff (hex : Vector UInt8 64) (d : Digest256) :
    digestFromHex hex = some d ↔ ∀ idx : Fin 4, hexWord hex idx = some (d.word idx) := by
  constructor
  · intro h idx
    simp only [digestFromHex, Option.bind_eq_bind, Option.bind_eq_some_iff, Option.some.injEq] at h
    obtain ⟨a0, h0, a1, h1, a2, h2, a3, h3, rfl⟩ := h
    match idx with
    | 0 => exact h0
    | 1 => exact h1
    | 2 => exact h2
    | 3 => exact h3
  · intro h
    have h0 : hexWord hex 0 = some (d.word 0) := h 0
    have h1 : hexWord hex 1 = some (d.word 1) := h 1
    have h2 : hexWord hex 2 = some (d.word 2) := h 2
    have h3 : hexWord hex 3 = some (d.word 3) := h 3
    simp only [digestFromHex, Option.bind_eq_bind, h0, h1, h2, h3, Option.bind_some]
    rw [Option.some.injEq]
    rcases d with ⟨a⟩
    rw [Digest256.mk.injEq]
    apply Vector.ext
    intro i hi
    match i, hi with
    | 0, _ => rfl
    | 1, _ => rfl
    | 2, _ => rfl
    | 3, _ => rfl

/-- Position `j` is digit `j % 16` of group `j / 16`. -/
theorem forall_position {p : Nat → Prop} :
    (∀ j, j < 64 → p j) ↔ ∀ idx : Fin 4, ∀ i, i < 16 → p (idx * 16 + i) := by
  constructor
  · intro h idx i hi
    exact h _ (by have := idx.isLt; omega)
  · intro h j hj
    have hgroup := h ⟨j / 16, by omega⟩ (j % 16) (Nat.mod_lt j (by decide))
    rwa [show j / 16 * 16 + j % 16 = j from Nat.div_add_mod' j 16] at hgroup

theorem charAt_eq (hex : Vector UInt8 64) {j : Nat} (hj : j < 64) : charAt hex j = hex[j] := by
  simp [charAt, List.getD_eq_getElem?_getD, hj]

theorem forall_mem_iff (hex : Vector UInt8 64) (p : UInt8 → Prop) :
    (∀ c ∈ hex, p c) ↔ ∀ j, j < 64 → p (charAt hex j) := by
  constructor
  · intro h j hj
    rw [charAt_eq hex hj]
    exact h _ (Vector.getElem_mem hj)
  · intro h c hc
    obtain ⟨j, hj, rfl⟩ := Vector.mem_iff_getElem.mp hc
    rw [← charAt_eq hex hj]
    exact h j hj

/-- Every character is a digit, and word `idx` is the number group `idx` spells. -/
theorem digestFromHex_spec (hex : Vector UInt8 64) (d : Digest256) :
    digestFromHex hex = some d ↔
      (∀ c ∈ hex, IsHexDigit c) ∧
        ∀ idx : Fin 4, (d.word idx).toNat = Nat.ofDigits 16 (nibbles hex idx 16) := by
  rw [digestFromHex_eq_some_iff, forall_mem_iff, forall_position]
  constructor
  · intro h
    exact ⟨fun idx => ((hexWord_eq_some_iff _ _ _).mp (h idx)).1,
      fun idx => ((hexWord_eq_some_iff _ _ _).mp (h idx)).2⟩
  · rintro ⟨h1, h2⟩ idx
    exact (hexWord_eq_some_iff _ _ _).mpr ⟨h1 idx, h2 idx⟩

theorem digestFromHex_isSome_iff (hex : Vector UInt8 64) :
    (digestFromHex hex).isSome = true ↔ ∀ c ∈ hex, IsHexDigit c := by
  constructor
  · intro h
    obtain ⟨d, hd⟩ := Option.isSome_iff_exists.mp h
    exact ((digestFromHex_spec hex d).mp hd).1
  · intro h
    refine Option.isSome_iff_exists.mpr
      ⟨⟨Vector.ofFn fun idx => UInt64.ofNat (Nat.ofDigits 16 (nibbles hex idx 16))⟩, ?_⟩
    refine (digestFromHex_spec hex _).mpr ⟨h, fun idx => ?_⟩
    have hlt : Nat.ofDigits 16 (nibbles hex idx 16) < 2 ^ 64 :=
      Nat.lt_of_lt_of_le (ofDigits_nibbles_lt hex idx 16) (by decide)
    have hword : ∀ f : Fin 4 → UInt64, (Digest256.mk (Vector.ofFn f)).word idx = f idx :=
      fun f => Vector.getElem_ofFn idx.isLt
    rw [hword, UInt64.toNat_ofNat', Nat.mod_eq_of_lt hlt]

/-- Digests agree exactly when the digits at every position do. -/
theorem digest_eq_iff_nibbles {hex hex' : Vector UInt8 64} {d d' : Digest256}
    (h : digestFromHex hex = some d) (h' : digestFromHex hex' = some d') :
    d = d' ↔ ∀ j, j < 64 → nibble (charAt hex j) = nibble (charAt hex' j) := by
  obtain ⟨-, hw⟩ := (digestFromHex_spec hex d).mp h
  obtain ⟨-, hw'⟩ := (digestFromHex_spec hex' d').mp h'
  rw [forall_position]
  constructor
  · rintro rfl idx i hi
    have hdigits := Nat.ofDigits_inj_of_len_eq (by decide : 1 < 16)
      (by rw [nibbles_length, nibbles_length]) (nibbles_lt hex idx 16) (nibbles_lt hex' idx 16)
      ((hw idx).symm.trans (hw' idx))
    exact List.map_inj_left.mp hdigits i (List.mem_range.mpr hi)
  · intro hsame
    have hword : ∀ idx : Fin 4, d.word idx = d'.word idx := by
      intro idx
      rw [← UInt64.toNat_inj, hw, hw']
      refine congrArg (Nat.ofDigits 16) (List.map_inj_left.mpr ?_)
      intro i hi
      exact hsame idx i (List.mem_range.mp hi)
    rcases d with ⟨a⟩
    rcases d' with ⟨a'⟩
    rw [Digest256.mk.injEq]
    apply Vector.ext
    intro i hi
    exact hword ⟨i, hi⟩

theorem digest_eq_iff_lower {hex hex' : Vector UInt8 64} {d d' : Digest256}
    (h : digestFromHex hex = some d) (h' : digestFromHex hex' = some d') :
    d = d' ↔ hex.map lower = hex'.map lower := by
  have hall := (forall_mem_iff hex IsHexDigit).mp ((digestFromHex_spec hex d).mp h).1
  have hall' := (forall_mem_iff hex' IsHexDigit).mp ((digestFromHex_spec hex' d').mp h').1
  rw [digest_eq_iff_nibbles h h']
  constructor
  · intro hsame
    apply Vector.ext
    intro j hj
    have := (nibble_eq_iff (hall j hj) (hall' j hj)).mp (hsame j hj)
    rwa [charAt_eq hex hj, charAt_eq hex' hj, ← Vector.getElem_map lower hj,
      ← Vector.getElem_map lower hj] at this
  · intro hlower j hj
    refine (nibble_eq_iff (hall j hj) (hall' j hj)).mpr ?_
    rw [charAt_eq hex hj, charAt_eq hex' hj, ← Vector.getElem_map lower hj,
      ← Vector.getElem_map lower hj, hlower]

/-- The lower-case string whose digits are given group by group. -/
def spell (digits : Nat → Nat → Nat) : Vector UInt8 64 :=
  Vector.ofFn fun j => hexChar (digits (j / 16) (j % 16))

theorem charAt_spell (digits : Nat → Nat → Nat) {idx i : Nat} (hidx : idx < 4) (hi : i < 16) :
    charAt (spell digits) (idx * 16 + i) = hexChar (digits idx i) := by
  rw [charAt_eq _ (by omega), spell, Vector.getElem_ofFn,
    show (idx * 16 + i) / 16 = idx by omega, show (idx * 16 + i) % 16 = i by omega]

/-- Every digest is spelt by some lower-case string. -/
theorem exists_spelling (d : Digest256) :
    ∃ hex : Vector UInt8 64, (∀ c ∈ hex, lower c = c) ∧ digestFromHex hex = some d := by
  have hdigits : ∀ idx : Fin 4, ∃ L : List Nat, (L.length = 16 ∧ ∀ x ∈ L, x < 16) ∧
      Nat.ofDigits 16 L = (d.word idx).toNat := fun idx =>
    (Nat.bijOn_ofDigits (by decide : 1 < 16) 16).surjOn (d.word idx).toNat_lt
  choose L hL hval using hdigits
  obtain ⟨digits, hdef⟩ : ∃ digits : Nat → Nat → Nat, ∀ idx : Fin 4, ∀ i,
      digits idx i = (L idx).getD i 0 :=
    ⟨fun idx i => if h : idx < 4 then (L ⟨idx, h⟩).getD i 0 else 0, fun idx i => by simp⟩
  have hsmall : ∀ idx : Fin 4, ∀ i, i < 16 → digits idx i < 16 := by
    intro idx i hi
    have hlen : i < (L idx).length := by rw [(hL idx).1]; exact hi
    rw [hdef, List.getD_eq_getElem?_getD, List.getElem?_eq_getElem hlen, Option.getD_some]
    exact (hL idx).2 _ (List.getElem_mem hlen)
  have hchar : ∀ idx : Fin 4, ∀ i, i < 16 →
      charAt (spell digits) (idx * 16 + i) = hexChar (digits idx i) :=
    fun idx i hi => charAt_spell digits idx.isLt hi
  refine ⟨spell digits, ?_, (digestFromHex_spec _ _).mpr ⟨?_, ?_⟩⟩
  · rw [forall_mem_iff, forall_position]
    intro idx i hi
    rw [hchar idx i hi]
    exact (hexChar_spec _ (hsmall idx i hi)).2.2
  · rw [forall_mem_iff, forall_position]
    intro idx i hi
    rw [hchar idx i hi]
    exact (hexChar_spec _ (hsmall idx i hi)).1
  · intro idx
    have hlist : nibbles (spell digits) idx 16 = L idx := by
      apply List.ext_getElem
      · rw [nibbles_length, (hL idx).1]
      · intro i h1 h2
        have hi : i < 16 := by rwa [nibbles_length] at h1
        simp only [nibbles, List.getElem_map, List.getElem_range]
        rw [hchar idx i hi, (hexChar_spec _ (hsmall idx i hi)).2.1, hdef,
          List.getD_eq_getElem?_getD, List.getElem?_eq_getElem h2, Option.getD_some]
    rw [hlist, hval idx]

/-- **`digest_from_hex` is a faithful decoder.**  It accepts exactly the strings of
    hexadecimal digits, two accepted strings have one digest exactly when they are
    equal up to letter case, and every digest has exactly one lower-case spelling. -/
theorem digestFromHex_faithful :
    (∀ hex : Vector UInt8 64, (digestFromHex hex).isSome = true ↔ ∀ c ∈ hex, IsHexDigit c) ∧
      (∀ (hex hex' : Vector UInt8 64) (d d' : Digest256),
        digestFromHex hex = some d ∧ digestFromHex hex' = some d' →
          (d = d' ↔ hex.map lower = hex'.map lower)) ∧
      ∀ d : Digest256, ∃! hex : Vector UInt8 64,
        (∀ c ∈ hex, lower c = c) ∧ digestFromHex hex = some d := by
  refine ⟨digestFromHex_isSome_iff, fun hex hex' d d' h => digest_eq_iff_lower h.1 h.2, fun d => ?_⟩
  obtain ⟨hex, hlow, hd⟩ := exists_spelling d
  refine ⟨hex, ⟨hlow, hd⟩, ?_⟩
  rintro hex' ⟨hlow', hd'⟩
  have hmap := (digest_eq_iff_lower hd' hd).mp rfl
  have hid : ∀ h : Vector UInt8 64, (∀ c ∈ h, lower c = c) → h.map lower = h := by
    intro h hc
    apply Vector.ext
    intro j hj
    rw [Vector.getElem_map, hc _ (Vector.getElem_mem hj)]
  rwa [hid hex hlow, hid hex' hlow'] at hmap

end JudgePenguin
