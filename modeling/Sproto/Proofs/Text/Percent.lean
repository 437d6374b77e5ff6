import Sproto.Proofs.Text.Utf8
import Sproto.Text.Percent

/-! # Reading percent escapes back

What is written for an octet is ASCII, and it resolves to the octet whatever follows it
(`unescape_escape`): a percent sign stands only at the start of an escape, since it does not stand for
itself.  So a text is read back from what is written for it (`decode_encode`), and no two texts are
written alike (`encode_injective`). -/
namespace Sproto.Text.Percent

theorem utf8_singleton {c : Char} (h : c.toNat < 0x80) : Utf8.encode [c] = [UInt8.ofNat c.toNat] := by
  have hle : c.val.toNat ≤ 0x7F := Nat.le_of_lt_succ h
  simp only [Utf8.encode, List.flatMap_cons, List.flatMap_nil, List.append_nil, String.utf8EncodeChar]
  exact if_pos hle

/-! ## Hexadecimal digits -/

theorem toNat_hexDigit_lt {n : Nat} (h : n < 16) : (hexDigit n).toNat < 0x80 := by
  have all : ∀ n < 16, (hexDigit n).toNat < 0x80 := by decide
  exact all n h

theorem hexValue?_hexDigit {n : Nat} (h : n < 16) :
    hexValue? (UInt8.ofNat (hexDigit n).toNat) = some n := by
  have all : ∀ n < 16, hexValue? (UInt8.ofNat (hexDigit n).toNat) = some n := by decide
  exact all n h

/-! ## Octets -/

theorem unescape_of_ne {b : UInt8} (h : b ≠ sign) (bs : List UInt8) :
    unescape (b :: bs) = b :: unescape bs := by
  rw [unescape.eq_def]
  exact if_neg h

theorem unescape_sign {x y : UInt8} {h l : Nat} (hx : hexValue? x = some h) (hy : hexValue? y = some l)
    (bs : List UInt8) :
    unescape (sign :: x :: y :: bs) = UInt8.ofNat (16 * h + l) :: unescape bs := by
  rw [unescape, if_pos rfl]
  simp only [hx, hy]

/-- What stands for itself is ASCII, and no percent sign. -/
theorem toNat_lt_of_isPlain {b : UInt8} (h : isPlain b = true) : b.toNat < 0x80 ∧ b ≠ sign := by
  simp only [isPlain, Bool.or_eq_true, Bool.and_eq_true, decide_eq_true_eq, beq_iff_eq] at h
  refine ⟨by omega, ?_⟩
  rintro rfl
  have hsign : sign.toNat = 0x25 := rfl
  omega

/-- **An octet is read back from what is written for it**, whatever follows. -/
theorem unescape_escape (b : UInt8) (bs : List UInt8) :
    unescape (Utf8.encode (escape b) ++ bs) = b :: unescape bs := by
  have hb : b.toNat < 256 := b.toNat_lt_size
  unfold escape
  by_cases hp : isPlain b = true
  · obtain ⟨hlt, hne⟩ := toNat_lt_of_isPlain hp
    have hc : (Char.ofNat b.toNat).toNat = b.toNat := by
      rw [Char.ofNat, dif_pos (.inl (by omega))]
      rfl
    rw [if_pos hp, utf8_singleton (by omega), hc, UInt8.ofNat_toNat, List.singleton_append,
      unescape_of_ne hne]
  · have hh : b.toNat / 16 < 16 := by omega
    have hl : b.toNat % 16 < 16 := by omega
    have hsum : 16 * (b.toNat / 16) + b.toNat % 16 = b.toNat := by omega
    rw [if_neg hp]
    show unescape (Utf8.encode (['%'] ++ ([hexDigit (b.toNat / 16)] ++ [hexDigit (b.toNat % 16)])) ++ bs) = _
    rw [Utf8.encode_append, Utf8.encode_append, utf8_singleton (toNat_hexDigit_lt hh),
      utf8_singleton (toNat_hexDigit_lt hl)]
    show unescape (sign :: _ :: _ :: bs) = _
    rw [unescape_sign (hexValue?_hexDigit hh) (hexValue?_hexDigit hl), hsum, UInt8.ofNat_toNat]

theorem unescape_escapes (bs : List UInt8) : unescape (Utf8.encode (bs.flatMap escape)) = bs := by
  induction bs with
  | nil => rfl
  | cons b bs ih => rw [List.flatMap_cons, Utf8.encode_append, unescape_escape, ih]

/-! ## Texts -/

/-- **A text is read back from what is written for it.** -/
@[simp] theorem decode_encode (t : Text) : decode (encode t) = t := by
  rw [decode, encode, unescape_escapes, Utf8.decodeLenient_encode]

/-- **No two texts are written alike.** -/
theorem encode_injective : Function.Injective encode := by
  intro s t h
  rw [← decode_encode s, h, decode_encode]

end Sproto.Text.Percent
