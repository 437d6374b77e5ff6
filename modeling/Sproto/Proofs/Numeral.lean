import Mathlib.Algebra.Group.Nat.Defs
import Sproto.Numeral
import Sproto.Proofs.Text.Reader

/-! # Numerals and the numbers they spell

Layout writes every number in ASCII digits without leading zeros.  Written so, a number is read back
(`value_decimal`) and needs no more digits than any other spelling of it (`length_decimal_value_le`),
so nothing that was accepted is refused once it is laid out.  A numeral that is spelled that way already
stays as it is (`IsPlain.decimal_value`). -/
namespace Sproto

open Text

namespace Numeral

/-- A numeral as a line can hold it: one or more digits. -/
def Spelled (n : Numeral) : Prop := n.digits ≠ [] ∧ ∀ c ∈ n.digits, isDigit c = true

instance (n : Numeral) : Decidable n.Spelled :=
  decidable_of_iff (n.digits ≠ [] ∧ n.digits.all isDigit = true)
    (and_congr_right fun _ => List.all_eq_true)

theorem read?_eq_some_iff {t r : Text} {n : Numeral} :
    read? t = some (n, r) ↔ n.Spelled ∧ Stops isDigit r ∧ t = n.digits ++ r := by
  cases n with
  | mk ds =>
    rw [Spelled, and_assoc, ← readRun?_eq_some_iff, read?]
    constructor
    · intro h
      obtain ⟨⟨ds', r'⟩, hrun, h⟩ := Option.map_eq_some_iff.mp h
      cases h
      exact hrun
    · intro h
      rw [h]
      rfl

theorem Spelled.isWord {n : Numeral} (hn : n.Spelled) : ∀ c ∈ n.digits, isWord c = true :=
  fun c hc => isWord_of_isDigit (hn.2 c hc)

theorem Spelled.isName {n : Numeral} (hn : n.Spelled) : IsName n.digits := ⟨hn.1, hn.isWord⟩

/-! ## Decimal spelling -/

theorem digitValue?_of_isDigit {c : Char} (hc : c.isDigit = true) :
    digitValue? c = some (c.toNat - 48) := by
  have h : 48 ≤ c.toNat ∧ c.toNat ≤ 57 := Char.isDigit_iff_toNat.mp hc
  simp only [digitValue?]
  rw [if_pos (by omega), if_pos h]

theorem foldl_digitValue {ds : Text} (hds : ∀ c ∈ ds, c.isDigit = true) (init : Nat) :
    ds.foldl (fun acc c => 10 * acc + (digitValue? c).getD 0) init =
      Nat.ofDigitChars 10 ds init := by
  induction ds generalizing init with
  | nil => rfl
  | cons c ds ih =>
    have hc := digitValue?_of_isDigit (hds c List.mem_cons_self)
    rw [List.foldl_cons, Nat.ofDigitChars_cons, hc]
    exact ih (fun d hd => hds d (List.mem_cons_of_mem _ hd)) _

theorem isDigit_of_mem_decimal {n : Nat} {c : Char} (hc : c ∈ decimal n) : c.isDigit = true :=
  Nat.isDigit_of_mem_toDigits (by omega) (by omega) hc

/-- The decimal spelling of a number is a numeral. -/
theorem spelled_decimal (n : Nat) : Spelled ⟨decimal n⟩ := by
  refine ⟨Nat.toDigits_ne_nil, fun c hc => ?_⟩
  simp [isDigit, digitValue?_of_isDigit (isDigit_of_mem_decimal hc)]

/-- **A number is read back from its decimal spelling.** -/
@[simp] theorem value_decimal (n : Nat) : value ⟨decimal n⟩ = n := by
  rw [value, foldl_digitValue fun c hc => isDigit_of_mem_decimal hc]
  exact Nat.ofDigitChars_ten_toDigits

/-- The value of a numeral has at most as many digits as the numeral. -/
theorem value_lt (n : Numeral) : n.value < 10 ^ n.digits.length := by
  have h : ∀ (ds : Text) (init : Nat),
      ds.foldl (fun acc c => 10 * acc + (digitValue? c).getD 0) init <
        (init + 1) * 10 ^ ds.length := by
    intro ds
    induction ds with
    | nil => intro init; simp
    | cons c ds ih =>
      intro init
      have hc : (digitValue? c).getD 0 < 10 := by
        cases hv : digitValue? c with
        | none => simp
        | some v => exact digitValue?_lt hv
      rw [List.foldl_cons, List.length_cons, Nat.pow_succ]
      calc _ < (10 * init + (digitValue? c).getD 0 + 1) * 10 ^ ds.length := ih _
        _ ≤ ((init + 1) * 10) * 10 ^ ds.length := Nat.mul_le_mul_right _ (by omega)
        _ = (init + 1) * (10 ^ ds.length * 10) := by rw [Nat.mul_assoc, Nat.mul_comm 10]
  simpa [value] using h n.digits 0

theorem length_decimal_value_le {n : Numeral} (hn : n.Spelled) :
    (decimal n.value).length ≤ n.digits.length :=
  (Nat.length_toDigits_le_iff (by omega) (List.length_pos_iff.mpr hn.1)).mpr n.value_lt

/-- **A number that was accepted is accepted in its decimal spelling.** -/
theorem fault?_decimal_value {n : Numeral} (hn : n.Spelled) (h : n.fault? = none) :
    fault? ⟨decimal n.value⟩ = none := by
  rw [fault?_eq_none_iff] at h ⊢
  exact Nat.le_trans (length_decimal_value_le hn) h

/-! ## Plain numerals -/

/-- A numeral in ASCII digits without leading zeros. -/
def IsPlain (n : Numeral) : Prop :=
  (∀ c ∈ n.digits, c.isDigit = true) ∧ (n.digits.head? = some '0' → n.digits = ['0'])

instance (n : Numeral) : Decidable n.IsPlain :=
  decidable_of_iff
    (n.digits.all Char.isDigit = true ∧ (n.digits.head? = some '0' → n.digits = ['0']))
    (by rw [List.all_eq_true, IsPlain])

/-- An ASCII digit is the decimal spelling of its value. -/
theorem toDigits_digit {c : Char} (hc : c.isDigit = true) : Nat.toDigits 10 (c.toNat - 48) = [c] := by
  have h : 48 ≤ c.toNat ∧ c.toNat ≤ 57 := Char.isDigit_iff_toNat.mp hc
  have hlt : c.toNat - 48 < 10 := by omega
  have hnat : (c.toNat - 48).digitChar.toNat = c.toNat := by
    rw [Nat.toNat_digitChar_of_lt_ten hlt]
    omega
  rw [Nat.toDigits_of_lt_base hlt, ← Char.ofNat_toNat (c.toNat - 48).digitChar, hnat,
    Char.ofNat_toNat]

/-- Digits behind a positive number spell the number they continue. -/
theorem toDigits_append_digits {ds : Text} (hds : ∀ c ∈ ds, c.isDigit = true) {init : Nat}
    (hinit : 0 < init) :
    Nat.toDigits 10 init ++ ds = Nat.toDigits 10 (Nat.ofDigitChars 10 ds init) := by
  induction ds generalizing init with
  | nil => simp
  | cons c ds ih =>
    have hc := hds c List.mem_cons_self
    have h : 48 ≤ c.toNat ∧ c.toNat ≤ 57 := Char.isDigit_iff_toNat.mp hc
    have hstep : Nat.toDigits 10 init ++ [c] = Nat.toDigits 10 (10 * init + (c.toNat - 48)) := by
      rw [← toDigits_digit hc]
      exact Nat.toDigits_append_toDigits (by omega) hinit (by omega)
    rw [Nat.ofDigitChars_cons, ← ih (fun d hd => hds d (List.mem_cons_of_mem _ hd))
      (show 0 < 10 * init + (c.toNat - '0'.toNat) by omega)]
    show _ = Nat.toDigits 10 (10 * init + (c.toNat - 48)) ++ ds
    rw [← hstep, List.append_assoc]
    rfl

/-- **A plain numeral is the decimal spelling of its value.** -/
theorem IsPlain.decimal_value {n : Numeral} (hn : n.IsPlain) (hs : n.Spelled) :
    decimal n.value = n.digits := by
  obtain ⟨hdigits, hzero⟩ := hn
  obtain ⟨c, ds, hcons⟩ := List.exists_cons_of_ne_nil hs.1
  rw [value, foldl_digitValue hdigits, decimal, hcons]
  have hc : c.isDigit = true := hdigits c (by rw [hcons]; exact List.mem_cons_self)
  by_cases h0 : c = '0'
  · have hds : ds = [] := by
      have h := hzero (by rw [hcons, h0]; rfl)
      rw [hcons] at h
      exact (List.cons.inj h).2
    subst h0 hds
    rfl
  · have h : 48 ≤ c.toNat ∧ c.toNat ≤ 57 := Char.isDigit_iff_toNat.mp hc
    have hpos : 0 < c.toNat - 48 := by
      have hne : c.toNat ≠ 48 := fun he => h0 (by rw [← Char.ofNat_toNat c, he])
      omega
    have hrest : ∀ d ∈ ds, d.isDigit = true :=
      fun d hd => hdigits d (by rw [hcons]; exact List.mem_cons_of_mem _ hd)
    rw [Nat.ofDigitChars_cons]
    show Nat.toDigits 10 (Nat.ofDigitChars 10 ds (10 * 0 + (c.toNat - 48))) = c :: ds
    rw [Nat.mul_zero, Nat.zero_add, ← toDigits_append_digits hrest hpos, toDigits_digit hc]
    rfl

end Numeral
end Sproto
