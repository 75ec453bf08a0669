import Mathlib.Algebra.Group.Nat.Defs
import Mathlib.Data.List.TakeWhile
import Mips32.Text.Utf8

/-!
# A text is read back from its octets

`decode_encode` says that decoding undoes encoding, for every text without surrogates. The decoder
goes through the octets one by one, so the proof follows it through one character: what the first
octet demands of the second (`begin?_two`, `begin?_three`, `begin?_four`) is what the encoder puts
there, and the octets behind add six bits each until the number of the character is complete.

The bounds of the second octet are where the forms of three and of four octets need more than
arithmetic on bits: they hold because a character is no surrogate and not beyond the last one. In
turn they keep surrogates out of what is decoded: a character that has begun stays on its side of
them (`Pending.Avoids`), so decoding gives characters only (`not_isSurrogate_of_decode`).
-/

namespace Mips32.Text.Utf8

/-- An octet with a number below 256 has that number. -/
theorem toNat_octet {n : Nat} (h : n < 256) : (UInt8.ofNat n).toNat = n := by
  rw [UInt8.toNat_ofNat']
  omega

/-- The number of a character is below the surrogates, or behind them and not too large. -/
theorem number_bounds (c : Char) :
    c.val.toNat < 0xD800 ∨ 0xDFFF < c.val.toNat ∧ c.val.toNat < 0x110000 := c.valid

/-! ## First octets -/

theorem begin?_two {b : UInt8} (hlow : 0xC2 ≤ b.toNat) (hhigh : b.toNat ≤ 0xDF) (pos : Nat) :
    begin? b pos = some ⟨0, 0x80, 0xBF, b.toNat % 32, b, pos⟩ := by
  have h : 0xC2 ≤ b ∧ b ≤ 0xDF := ⟨UInt8.le_iff_toNat_le.2 hlow, UInt8.le_iff_toNat_le.2 hhigh⟩
  rw [begin?, if_pos h]

/-- The second of three octets lies between the bounds that the first one sets. -/
theorem begin?_three {v : Nat} (hlow : 0x800 ≤ v) (hhigh : v ≤ 0xFFFF)
    (hchar : v < 0xD800 ∨ 0xDFFF < v) (pos : Nat) :
    ∃ low high, begin? (UInt8.ofNat (v / 4096 + 224)) pos =
        some ⟨1, low, high, v / 4096, UInt8.ofNat (v / 4096 + 224), pos⟩ ∧
      low.toNat ≤ v / 64 % 64 + 128 ∧ v / 64 % 64 + 128 ≤ high.toNat := by
  have hb : (UInt8.ofNat (v / 4096 + 224)).toNat = v / 4096 + 224 := toNat_octet (by omega)
  generalize UInt8.ofNat (v / 4096 + 224) = b at hb
  simp only [begin?, UInt8.le_iff_toNat_le, ← UInt8.toNat_inj, UInt8.reduceToNat, hb]
  rw [if_neg (by omega)]
  split
  · exact ⟨0xA0, 0xBF, by simp; omega, by simp; omega, by simp; omega⟩
  · split
    · exact ⟨0x80, 0x9F, by simp; omega, by simp, by simp; omega⟩
    · rw [if_pos (by omega)]
      exact ⟨0x80, 0xBF, by simp; omega, by simp, by simp; omega⟩

/-- The second of four octets lies between the bounds that the first one sets. -/
theorem begin?_four {v : Nat} (hlow : 0x10000 ≤ v) (hhigh : v < 0x110000) (pos : Nat) :
    ∃ low high, begin? (UInt8.ofNat (v / 262144 + 240)) pos =
        some ⟨2, low, high, v / 262144, UInt8.ofNat (v / 262144 + 240), pos⟩ ∧
      low.toNat ≤ v / 4096 % 64 + 128 ∧ v / 4096 % 64 + 128 ≤ high.toNat := by
  have hb : (UInt8.ofNat (v / 262144 + 240)).toNat = v / 262144 + 240 := toNat_octet (by omega)
  generalize UInt8.ofNat (v / 262144 + 240) = b at hb
  simp only [begin?, UInt8.le_iff_toNat_le, ← UInt8.toNat_inj, UInt8.reduceToNat, hb]
  rw [if_neg (by omega), if_neg (by omega), if_neg (by omega), if_neg (by omega)]
  split
  · exact ⟨0x90, 0xBF, by simp; omega, by simp; omega, by simp; omega⟩
  · split
    · exact ⟨0x80, 0xBF, by simp; omega, by simp, by simp; omega⟩
    · rw [if_pos (by omega)]
      exact ⟨0x80, 0x8F, by simp; omega, by simp, by simp; omega⟩

/-! ## The octets behind -/

variable {low high : UInt8} {n : Nat}

/-- The last octet of a character adds its six bits, and the character is complete. -/
theorem decodeFrom_last (hn : n < 64) (hlow : low.toNat ≤ n + 128) (hhigh : n + 128 ≤ high.toNat)
    (pos bits start : Nat) (octet : UInt8) (r : List UInt8) :
    decodeFrom pos (some ⟨0, low, high, bits, octet, start⟩) (UInt8.ofNat (n + 128) :: r) =
      (decodeFrom (pos + 1) none r).map (.ofNat (bits * 64 + n) :: ·) := by
  have hb : (UInt8.ofNat (n + 128)).toNat = n + 128 := toNat_octet (by omega)
  have hmod : (n + 128) % 64 = n := by omega
  rw [← hb] at hlow hhigh
  rw [decodeFrom, if_pos ⟨UInt8.le_iff_toNat_le.2 hlow, UInt8.le_iff_toNat_le.2 hhigh⟩, hb, hmod]

/-- An octet of a character behind which more are owed adds its six bits. -/
theorem decodeFrom_middle (hn : n < 64) (hlow : low.toNat ≤ n + 128)
    (hhigh : n + 128 ≤ high.toNat) (pos owed bits start : Nat) (octet : UInt8) (r : List UInt8) :
    decodeFrom pos (some ⟨owed + 1, low, high, bits, octet, start⟩) (UInt8.ofNat (n + 128) :: r) =
      decodeFrom (pos + 1) (some ⟨owed, 0x80, 0xBF, bits * 64 + n, octet, start⟩) r := by
  have hb : (UInt8.ofNat (n + 128)).toNat = n + 128 := toNat_octet (by omega)
  have hmod : (n + 128) % 64 = n := by omega
  rw [← hb] at hlow hhigh
  rw [decodeFrom, if_pos ⟨UInt8.le_iff_toNat_le.2 hlow, UInt8.le_iff_toNat_le.2 hhigh⟩, hb, hmod]

/-! ## Characters and texts -/

/-- The first octet of a longer character demands what is behind it. -/
theorem decodeFrom_begin {b : UInt8} (hb : 0x80 ≤ b.toNat) {pos : Nat} {p : Pending}
    (hp : begin? b pos = some p) (r : List UInt8) :
    decodeFrom pos none (b :: r) = decodeFrom (pos + 1) (some p) r := by
  have hlong : ¬b < 0x80 := by
    rw [UInt8.lt_iff_toNat_lt]
    exact Nat.not_lt.2 hb
  rw [decodeFrom, if_neg hlong, hp]

/-- The octets of a character are read as that character, whatever stands behind them. -/
theorem decodeFrom_encodeChar (c : Char) (pos : Nat) (r : List UInt8) :
    ∃ pos', decodeFrom pos none (String.utf8EncodeChar c ++ r) =
      (decodeFrom pos' none r).map (.char c :: ·) := by
  have hc : CodePoint.ofNat c.val.toNat = .char c := CodePoint.ofNat_toNat c
  have hbounds := number_bounds c
  rw [String.utf8EncodeChar]
  generalize c.val.toNat = v at hc hbounds
  split
  case isTrue hone =>
    have hb : (UInt8.ofNat v).toNat = v := toNat_octet (by omega)
    have hshort : UInt8.ofNat v < 0x80 := by
      rw [UInt8.lt_iff_toNat_lt, hb]
      exact Nat.lt_succ_of_le hone
    refine ⟨pos + 1, ?_⟩
    rw [List.singleton_append, decodeFrom, if_pos hshort, hb, hc]
  split
  case isTrue hone htwo =>
    have hmod : v / 64 % 32 = v / 64 := Nat.mod_eq_of_lt (by omega)
    rw [hmod]
    have hb : (UInt8.ofNat (v / 64 + 192)).toNat = v / 64 + 192 := toNat_octet (by omega)
    have hbits : (v / 64 + 192) % 32 * 64 + v % 64 = v := by omega
    refine ⟨pos + 1 + 1, ?_⟩
    rw [List.cons_append, decodeFrom_begin (by omega) (begin?_two (by omega) (by omega) pos),
      List.singleton_append, decodeFrom_last (by omega) (by simp) (by simp; omega), hb, hbits, hc]
  split
  case isTrue hone htwo hthree =>
    have hmod : v / 4096 % 16 = v / 4096 := Nat.mod_eq_of_lt (by omega)
    rw [hmod]
    have hb : (UInt8.ofNat (v / 4096 + 224)).toNat = v / 4096 + 224 := toNat_octet (by omega)
    have hbits : (v / 4096 * 64 + v / 64 % 64) * 64 + v % 64 = v := by omega
    obtain ⟨low, high, hbegin, hlow, hhigh⟩ := begin?_three (by omega) hthree (by omega) pos
    refine ⟨pos + 1 + 1 + 1, ?_⟩
    rw [List.cons_append, decodeFrom_begin (by omega) hbegin, List.cons_append,
      decodeFrom_middle (by omega) hlow hhigh, List.singleton_append,
      decodeFrom_last (by omega) (by simp) (by simp; omega), hbits, hc]
  case isFalse hone htwo hthree =>
    have hmod : v / 262144 % 8 = v / 262144 := Nat.mod_eq_of_lt (by omega)
    rw [hmod]
    have hb : (UInt8.ofNat (v / 262144 + 240)).toNat = v / 262144 + 240 := toNat_octet (by omega)
    have hbits : ((v / 262144 * 64 + v / 4096 % 64) * 64 + v / 64 % 64) * 64 + v % 64 = v := by
      omega
    obtain ⟨low, high, hbegin, hlow, hhigh⟩ := begin?_four (v := v) (by omega) (by omega) pos
    refine ⟨pos + 1 + 1 + 1 + 1, ?_⟩
    rw [List.cons_append, decodeFrom_begin (by omega) hbegin, List.cons_append,
      decodeFrom_middle (by omega) hlow hhigh, List.cons_append,
      decodeFrom_middle (by omega) (by simp) (by simp; omega), List.singleton_append,
      decodeFrom_last (by omega) (by simp) (by simp; omega), hbits, hc]

/-- A text without surrogates is read back from its octets. -/
theorem decode_encode {s : Text} (hs : ∀ c ∈ s, c.isSurrogate = false) :
    decode (encode s) = .ok s := by
  suffices h : ∀ pos, decodeFrom pos none (encode s) = .ok s from h 0
  induction s with
  | nil => exact fun _ => rfl
  | cons c s ih =>
    intro pos
    obtain ⟨hc, hrest⟩ := List.forall_mem_cons.1 hs
    cases c with
    | surrogate => cases hc
    | char c =>
      obtain ⟨pos', hchar⟩ := decodeFrom_encodeChar c pos (encode s)
      rw [encode, List.flatMap_cons, ← encode, encodePoint, hchar, ih hrest pos']
      rfl

/-! ## Decoded texts -/

/-- Whatever octets between the bounds come, the character that has begun is no surrogate. -/
structure Pending.Avoids (p : Pending) : Prop where
  low : 0x80 ≤ p.low.toNat
  high : p.high.toNat ≤ 0xBF
  apart : (p.bits * 64 + p.high.toNat % 64 + 1) * 64 ^ p.owed ≤ 0xD800 ∨
    0xE000 ≤ (p.bits * 64 + p.low.toNat % 64) * 64 ^ p.owed

/-- One more octet keeps the character apart from the surrogates. -/
theorem Pending.Avoids.next {p : Pending} (h : p.Avoids) {owed : Nat} (howed : p.owed = owed + 1)
    {b : UInt8} (hlow : p.low.toNat ≤ b.toNat) (hhigh : b.toNat ≤ p.high.toNat) :
    Pending.Avoids { p with
      owed := owed, low := 0x80, high := 0xBF, bits := p.bits * 64 + b.toNat % 64 } := by
  have hb := h.low
  have hb' := h.high
  refine ⟨by simp, by simp, h.apart.imp (fun hfront => ?_) fun hbehind => ?_⟩
  · refine Nat.le_trans ?_ hfront
    rw [howed, Nat.pow_succ', ← Nat.mul_assoc]
    refine Nat.mul_le_mul_right _ ?_
    simp only [UInt8.reduceToNat]
    omega
  · refine Nat.le_trans hbehind ?_
    rw [howed, Nat.pow_succ', ← Nat.mul_assoc]
    refine Nat.mul_le_mul_right _ ?_
    simp only [UInt8.reduceToNat]
    omega

/-- The last octet completes a character. -/
theorem Pending.Avoids.last {p : Pending} (h : p.Avoids) (howed : p.owed = 0) {b : UInt8}
    (hlow : p.low.toNat ≤ b.toNat) (hhigh : b.toNat ≤ p.high.toNat) :
    (CodePoint.ofNat (p.bits * 64 + b.toNat % 64)).isSurrogate = false := by
  obtain ⟨hb, hb', hapart⟩ := h
  rw [howed, Nat.pow_zero, Nat.mul_one, Nat.mul_one] at hapart
  exact CodePoint.isSurrogate_ofNat (by omega)

/-- A character below 128 is one octet, and all octets of any other are 128 at least. -/
theorem encodeChar_cases (c : Char) :
    c.toNat < 128 ∧ String.utf8EncodeChar c = [UInt8.ofNat c.toNat] ∨
      128 ≤ c.toNat ∧ ∀ b ∈ String.utf8EncodeChar c, 128 ≤ b.toNat := by
  have hbounds := number_bounds c
  rw [String.utf8EncodeChar, Char.toNat]
  generalize c.val.toNat = v at hbounds
  split
  case isTrue hone => exact .inl ⟨by omega, rfl⟩
  case isFalse hone =>
    refine .inr ⟨by omega, ?_⟩
    have hhigh : ∀ n ≥ 128, n < 256 → 128 ≤ (UInt8.ofNat n).toNat := by
      intro n hn hlt
      rwa [toNat_octet hlt]
    split
    case isTrue =>
      simp only [List.forall_mem_cons]
      exact ⟨hhigh _ (by omega) (by omega), hhigh _ (by omega) (by omega), nofun⟩
    split
    case isTrue =>
      simp only [List.forall_mem_cons]
      exact ⟨hhigh _ (by omega) (by omega), hhigh _ (by omega) (by omega),
        hhigh _ (by omega) (by omega), nofun⟩
    case isFalse =>
      simp only [List.forall_mem_cons]
      exact ⟨hhigh _ (by omega) (by omega), hhigh _ (by omega) (by omega),
        hhigh _ (by omega) (by omega), hhigh _ (by omega) (by omega), nofun⟩

/-! ## What strict encoding refuses -/

theorem EncodeError.find?_eq_none_iff {refused : CodePoint → Bool} {s : Text} :
    find? refused s = none ↔ ∀ c ∈ s, refused c = false := by
  unfold find?
  cases hrest : s.dropWhile (!refused ·) with
  | nil => simpa [List.dropWhile_eq_nil_iff] using hrest
  | cons c r =>
    have hc : refused c = true := by
      have hhead := List.head?_dropWhile_not (!refused ·) s
      rw [hrest] at hhead
      simpa using hhead
    have hmem : c ∈ s := (List.dropWhile_sublist _).subset (hrest ▸ List.mem_cons_self ..)
    simp only [reduceCtorEq, false_iff]
    exact fun h => absurd (h c hmem) (by simp [hc])

end Mips32.Text.Utf8
