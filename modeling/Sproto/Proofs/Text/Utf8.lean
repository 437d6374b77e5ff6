import Sproto.Text.Utf8

/-! # Reading UTF-8 back

The octets of a character are read one by one: the first one says how many are owed and which ones may
come next (`start_two`, `start_three`, `start_four`), each further one adds six bits (`step_owed`,
`step_last`), and the last one gives the character back (`read_encodeChar`).  So a text is read back from
its octets, by the strict reading and by the lenient one, and different texts have different octets. -/
namespace Sproto.Text.Utf8

/-- The range of the code points: no surrogates, and none beyond U+10FFFF. -/
theorem toNat_range (c : Char) : c.toNat < 0xD800 ∨ 0xDFFF < c.toNat ∧ c.toNat < 0x110000 := c.valid

theorem toNat_ofNat {n : Nat} (h : n < 256) : (UInt8.ofNat n).toNat = n := by
  rw [UInt8.toNat_ofNat']
  omega

/-! ## First octets -/

theorem start_one {n : Nat} (h : n < 0x80) : start (UInt8.ofNat n) = (none, [some (Char.ofNat n)]) := by
  rw [start, toNat_ofNat (by omega)]
  exact if_pos h

theorem start_two {n : Nat} (hl : 0xC2 ≤ n) (hh : n ≤ 0xDF) :
    start (UInt8.ofNat n) = (some ⟨0, n - 0xC0, 0x80, 0xBF⟩, []) := by
  simp only [start]
  rw [toNat_ofNat (by omega), if_neg (by omega), if_pos ⟨hl, hh⟩]

/-- A first octet of three keeps out the overlong forms and the surrogates. -/
theorem start_three {n : Nat} (hl : 0xE0 ≤ n) (hh : n ≤ 0xEF) :
    start (UInt8.ofNat n) =
      (some ⟨1, n - 0xE0, if n = 0xE0 then 0xA0 else 0x80, if n = 0xED then 0x9F else 0xBF⟩, []) := by
  simp only [start]
  rw [toNat_ofNat (by omega), if_neg (by omega), if_neg (by omega)]
  by_cases h0 : n = 0xE0
  · subst h0
    rfl
  by_cases hd : n = 0xED
  · subst hd
    rfl
  rw [if_neg h0, if_neg hd, if_pos (by omega), if_neg h0, if_neg hd]

/-- A first octet of four keeps out the overlong forms and what lies beyond U+10FFFF. -/
theorem start_four {n : Nat} (hl : 0xF0 ≤ n) (hh : n ≤ 0xF4) :
    start (UInt8.ofNat n) =
      (some ⟨2, n - 0xF0, if n = 0xF0 then 0x90 else 0x80, if n = 0xF4 then 0x8F else 0xBF⟩, []) := by
  simp only [start]
  rw [toNat_ofNat (by omega), if_neg (by omega), if_neg (by omega), if_neg (by omega),
    if_neg (by omega), if_neg (by omega)]
  by_cases h0 : n = 0xF0
  · subst h0
    rfl
  by_cases h4 : n = 0xF4
  · subst h4
    rfl
  rw [if_neg h0, if_pos (by omega), if_neg h0, if_neg h4]

/-! ## Further octets -/

section

variable {owed bits low high n : Nat}

theorem step_owed (hn : n < 256) (hl : low ≤ n) (hh : n ≤ high) :
    step (some ⟨owed + 1, bits, low, high⟩) (UInt8.ofNat n) =
      (some ⟨owed, bits * 64 + (n - 0x80), 0x80, 0xBF⟩, []) := by
  simp only [step]
  rw [toNat_ofNat hn, if_pos ⟨hl, hh⟩]

theorem step_last (hn : n < 256) (hl : low ≤ n) (hh : n ≤ high) :
    step (some ⟨0, bits, low, high⟩) (UInt8.ofNat n) =
      (none, [some (Char.ofNat (bits * 64 + (n - 0x80)))]) := by
  simp only [step]
  rw [toNat_ofNat hn, if_pos ⟨hl, hh⟩]

end

theorem read_cons (begun : Option Pending) (b : UInt8) (bs : List UInt8) :
    read begun (b :: bs) = (step begun b).2 ++ read (step begun b).1 bs := by
  rw [read]

/-! ## Characters and texts -/

section

variable {v : Nat} (bs : List UInt8)

theorem read_one (h : v < 0x80) :
    read none (UInt8.ofNat v :: bs) = some (Char.ofNat v) :: read none bs := by
  rw [read_cons]
  show (start _).2 ++ read (start _).1 bs = _
  rw [start_one h, List.singleton_append]

theorem read_two (hl : 0x7F < v) (hh : v ≤ 0x7FF) :
    read none (UInt8.ofNat (v / 64 % 32 + 192) :: UInt8.ofNat (v % 64 + 128) :: bs) =
      some (Char.ofNat v) :: read none bs := by
  have hv : (v / 64 % 32 + 192 - 0xC0) * 64 + (v % 64 + 128 - 0x80) = v := by omega
  rw [read_cons]
  show (start _).2 ++ read (start _).1 _ = _
  rw [start_two (by omega) (by omega), List.nil_append, read_cons,
    step_last (by omega) (by omega) (by omega), hv, List.singleton_append]

theorem read_three (hl : 0x7FF < v) (hh : v ≤ 0xFFFF) (hv : v < 0xD800 ∨ 0xDFFF < v) :
    read none (UInt8.ofNat (v / 4096 % 16 + 224) :: UInt8.ofNat (v / 64 % 64 + 128) ::
        UInt8.ofNat (v % 64 + 128) :: bs) =
      some (Char.ofNat v) :: read none bs := by
  have hbits : ((v / 4096 % 16 + 224 - 0xE0) * 64 + (v / 64 % 64 + 128 - 0x80)) * 64 +
      (v % 64 + 128 - 0x80) = v := by omega
  have hlow : (if v / 4096 % 16 + 224 = 0xE0 then 0xA0 else 0x80) ≤ v / 64 % 64 + 128 := by
    split <;> omega
  have hhigh : v / 64 % 64 + 128 ≤ if v / 4096 % 16 + 224 = 0xED then 0x9F else 0xBF := by
    split <;> omega
  rw [read_cons]
  show (start _).2 ++ read (start _).1 _ = _
  rw [start_three (by omega) (by omega), List.nil_append, read_cons,
    step_owed (by omega) hlow hhigh, List.nil_append, read_cons,
    step_last (by omega) (by omega) (by omega), hbits, List.singleton_append]

theorem read_four (hl : 0xFFFF < v) (hh : v < 0x110000) :
    read none (UInt8.ofNat (v / 262144 % 8 + 240) :: UInt8.ofNat (v / 4096 % 64 + 128) ::
        UInt8.ofNat (v / 64 % 64 + 128) :: UInt8.ofNat (v % 64 + 128) :: bs) =
      some (Char.ofNat v) :: read none bs := by
  have hbits : (((v / 262144 % 8 + 240 - 0xF0) * 64 + (v / 4096 % 64 + 128 - 0x80)) * 64 +
      (v / 64 % 64 + 128 - 0x80)) * 64 + (v % 64 + 128 - 0x80) = v := by omega
  have hlow : (if v / 262144 % 8 + 240 = 0xF0 then 0x90 else 0x80) ≤ v / 4096 % 64 + 128 := by
    split <;> omega
  have hhigh : v / 4096 % 64 + 128 ≤ if v / 262144 % 8 + 240 = 0xF4 then 0x8F else 0xBF := by
    split <;> omega
  rw [read_cons]
  show (start _).2 ++ read (start _).1 _ = _
  rw [start_four (by omega) (by omega), List.nil_append, read_cons,
    step_owed (by omega) hlow hhigh, List.nil_append, read_cons,
    step_owed (by omega) (by omega) (by omega), List.nil_append, read_cons,
    step_last (by omega) (by omega) (by omega), hbits, List.singleton_append]

/-- **A character is read back from its octets**, whatever follows them. -/
theorem read_encodeChar (c : Char) :
    read none (String.utf8EncodeChar c ++ bs) = some c :: read none bs := by
  have hvalid := toNat_range c
  conv => rhs; rw [← Char.ofNat_toNat c]
  unfold String.utf8EncodeChar
  show read none ((if c.toNat ≤ 0x7F then _ else _) ++ bs) = _
  by_cases h1 : c.toNat ≤ 0x7F
  · rw [if_pos h1]
    exact read_one (v := c.toNat) bs (by omega)
  rw [if_neg h1]
  show read none ((if c.toNat ≤ 0x7FF then _ else _) ++ bs) = _
  by_cases h2 : c.toNat ≤ 0x7FF
  · rw [if_pos h2]
    exact read_two (v := c.toNat) bs (by omega) h2
  rw [if_neg h2]
  show read none ((if c.toNat ≤ 0xFFFF then _ else _) ++ bs) = _
  by_cases h3 : c.toNat ≤ 0xFFFF
  · rw [if_pos h3]
    exact read_three (v := c.toNat) bs (by omega) h3 (by omega)
  · rw [if_neg h3]
    exact read_four (v := c.toNat) bs (by omega) (by omega)

end

theorem read_encode (t : Text) : read none (encode t) = t.map some := by
  induction t with
  | nil => rfl
  | cons c t ih =>
    show read none (String.utf8EncodeChar c ++ encode t) = _
    rw [read_encodeChar, ih, List.map_cons]

/-- **The strict reading gives a text back.** -/
@[simp] theorem decode?_encode (t : Text) : decode? (encode t) = some t := by
  rw [decode?, read_encode]
  induction t with
  | nil => rfl
  | cons c t ih =>
    rw [List.map_cons, List.mapM_cons, ih]
    rfl

/-- **The lenient reading gives a text back.** -/
@[simp] theorem decodeLenient_encode (t : Text) : decodeLenient (encode t) = t := by
  rw [decodeLenient, read_encode, List.map_map]
  exact List.map_id t

end Sproto.Text.Utf8
