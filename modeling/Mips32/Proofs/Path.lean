import Mips32.FileSystem
import Mips32.Proofs.Text.Utf8

/-!
# Texts that spell a path

Several texts may spell one path, as octets that are UTF-8 may also be spelled by surrogates. Octets
below 128 can be spelled in one way only: by the character with their number
(`mem_octets_iff`). So a path has a slash where the text has one, and a text that spells octets
below 128 is told by them (`eq_of_octets`).
-/

namespace Mips32.Path

/-- The octets that a text spells. -/
def octets (s : Text) : Path :=
  s.flatMap encodePoint

theorem octets_append (s t : Text) : octets (s ++ t) = octets s ++ octets t :=
  List.flatMap_append

theorem ofText_eq_ok_iff {s : Text} {path : Path} :
    ofText s = .ok path ↔ (∀ c ∈ s, isRefused c = false) ∧ octets s = path ∧ 0 ∉ path := by
  unfold ofText
  cases herror : Text.Utf8.EncodeError.find? isRefused s with
  | some e =>
    have hno : ¬∀ c ∈ s, isRefused c = false := by
      rw [← Text.Utf8.EncodeError.find?_eq_none_iff, herror]
      nofun
    simp only [reduceCtorEq, false_iff]
    exact fun h => hno h.1
  | none =>
    have hplain := Text.Utf8.EncodeError.find?_eq_none_iff.1 herror
    by_cases hnull : (0 : UInt8) ∈ octets s
    · have hnull' : (s.flatMap encodePoint).contains 0 = true := by simpa [octets] using hnull
      simp only [if_pos hnull', reduceCtorEq, false_iff]
      rintro ⟨-, rfl, hno⟩
      exact hno hnull
    · have hnull' : ¬(s.flatMap encodePoint).contains 0 = true := by simpa [octets] using hnull
      simp only [if_neg hnull', Except.ok.injEq]
      exact ⟨fun h => ⟨hplain, h, h ▸ hnull⟩, fun h => h.2.1⟩

/-- The octets of a code point in a path: one below 128, or none. -/
theorem encodePoint_cases {c : CodePoint} (hc : isRefused c = false) :
    (∃ a : Char, c = .char a ∧ a.toNat < 128 ∧ encodePoint c = [UInt8.ofNat a.toNat]) ∨
      ¬c.toNat < 128 ∧ ∀ b ∈ encodePoint c, 128 ≤ b.toNat := by
  cases c with
  | char a =>
    rcases Text.Utf8.encodeChar_cases a with ⟨ha, hone⟩ | ⟨ha, hall⟩
    · exact .inl ⟨a, rfl, ha, hone⟩
    · exact .inr ⟨Nat.not_lt.2 ha, hall⟩
  | surrogate offset =>
    have hbounds : 0x480 ≤ offset.val ∧ offset.val < 0x500 := by
      simpa [isRefused] using hc
    refine .inr ⟨by simp [CodePoint.toNat]; omega, fun b hb => ?_⟩
    rw [List.mem_singleton.1 hb]
    have hmod : (offset.val % 0x100).toUInt8.toNat = offset.val % 0x100 :=
      Text.Utf8.toNat_octet (by omega)
    omega

/-- An octet below 128 is in a path exactly if its character is in the text. -/
theorem mem_octets_iff {s : Text} (hs : ∀ c ∈ s, isRefused c = false) {a : Char}
    (ha : a.toNat < 128) : UInt8.ofNat a.toNat ∈ octets s ↔ .char a ∈ s := by
  rw [octets, List.mem_flatMap]
  constructor
  · rintro ⟨c, hc, hmem⟩
    have hvalue : (UInt8.ofNat a.toNat).toNat = a.toNat := Text.Utf8.toNat_octet (by omega)
    rcases encodePoint_cases (hs c hc) with ⟨b, rfl, hb, hone⟩ | ⟨-, hall⟩
    · rw [hone, List.mem_singleton] at hmem
      have hsame : a.toNat = b.toNat := by
        have := congrArg UInt8.toNat hmem
        rwa [hvalue, Text.Utf8.toNat_octet (by omega)] at this
      have hchar : CodePoint.char a = .char b := CodePoint.toNat_inj.1 hsame
      rwa [hchar]
    · have := hall _ hmem
      omega
  · intro hmem
    refine ⟨_, hmem, ?_⟩
    rcases Text.Utf8.encodeChar_cases a with ⟨-, hone⟩ | ⟨hlarge, -⟩
    · simp [encodePoint, hone]
    · omega

theorem encodePoint_ne_nil (c : CodePoint) : encodePoint c ≠ [] := by
  cases c with
  | surrogate => nofun
  | char a =>
    show String.utf8EncodeChar a ≠ []
    rw [String.utf8EncodeChar]
    split
    · nofun
    · split
      · nofun
      · split <;> nofun

/-- The octets of two texts begin with the same octet below 128 only if the texts begin with the
same character. -/
theorem cons_of_octets {c : CodePoint} {r : Text} (hc : isRefused c = false) {a : Char}
    (ha : a.toNat < 128) {rest : Path} (h : octets (c :: r) = UInt8.ofNat a.toNat :: rest) :
    c = .char a ∧ octets r = rest := by
  have hsplit : octets (c :: r) = encodePoint c ++ octets r := rfl
  have hvalue : (UInt8.ofNat a.toNat).toNat = a.toNat := Text.Utf8.toNat_octet (by omega)
  rw [hsplit] at h
  rcases encodePoint_cases hc with ⟨b, rfl, hb, hone⟩ | ⟨-, hall⟩
  · rw [hone, List.singleton_append] at h
    obtain ⟨hfirst, hrest⟩ := List.cons.inj h
    have hsame : b.toNat = a.toNat := by
      have := congrArg UInt8.toNat hfirst
      rwa [hvalue, Text.Utf8.toNat_octet (by omega)] at this
    exact ⟨CodePoint.toNat_inj.1 hsame, hrest⟩
  · cases hpoint : encodePoint c with
    | nil => exact absurd hpoint (encodePoint_ne_nil c)
    | cons b bs =>
      rw [hpoint, List.cons_append] at h
      have hlarge := hall b (hpoint ▸ List.mem_cons_self ..)
      rw [(List.cons.inj h).1] at hlarge
      omega

/-- A text of ASCII characters is told by its octets. -/
theorem eq_of_octets {s : Text} (hs : ∀ c ∈ s, isRefused c = false) {t : List Char}
    (ht : ∀ a ∈ t, a.toNat < 128) (h : octets s = t.map fun a => UInt8.ofNat a.toNat) :
    s = t.map .char := by
  induction t generalizing s with
  | nil =>
    cases s with
    | nil => rfl
    | cons c r => exact absurd (List.append_eq_nil_iff.1 h).1 (encodePoint_ne_nil c)
  | cons a t ih =>
    obtain ⟨ha, ht⟩ := List.forall_mem_cons.1 ht
    cases s with
    | nil => cases h
    | cons c r =>
      obtain ⟨hc, hr⟩ := List.forall_mem_cons.1 hs
      obtain ⟨rfl, hrest⟩ := cons_of_octets hc ha h
      rw [ih hr ht hrest]
      rfl

end Mips32.Path
