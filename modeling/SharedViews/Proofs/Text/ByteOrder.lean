import Mathlib.Data.String.Basic

/-! The order of texts is the order of their bytes.

In UTF-8 a character is a first byte and up to three more, which carry its code in digits to
the base 64, the highest first. The first bytes of longer characters are greater, so of two
characters the one with the greater code also has the greater byte where they first differ;
and it makes no difference whether texts are compared by characters or by bytes
(`bytes_lt_bytes`). -/
namespace SharedViews.Text
variable {a b : Nat} {left right : List UInt8}

/-- The bytes of a text in UTF-8. -/
def bytes (s : String) : List UInt8 := s.toUTF8.data.toList

theorem bytes_eq (s : String) : bytes s = s.toList.flatMap String.utf8EncodeChar := by
  rw [bytes, String.toUTF8_eq_toByteArray, ← String.utf8Encode_toList, List.utf8Encode,
    List.toList_data_toByteArray]

/-! ### Characters -/

/-- The last digits of a code, each as a byte. -/
def digits : Nat → Nat → List UInt8
  | 0, _ => []
  | n + 1, code => UInt8.ofNat (code / 64 ^ n % 64 + 128) :: digits n code

/-- How many bytes follow the first one. -/
def trailing (code : Nat) : Nat :=
  if code ≤ 0x7f then 0 else if code ≤ 0x7ff then 1 else if code ≤ 0xffff then 2 else 3

/-- The first byte, as a number. -/
def leading (code : Nat) : Nat :=
  if code ≤ 0x7f then code
  else if code ≤ 0x7ff then code / 64 % 32 + 192
  else if code ≤ 0xffff then code / 4096 % 16 + 224
  else code / 262144 % 8 + 240

theorem utf8EncodeChar_eq (c : Char) : String.utf8EncodeChar c =
    UInt8.ofNat (leading c.val.toNat) :: digits (trailing c.val.toNat) c.val.toNat := by
  simp only [String.utf8EncodeChar, leading, trailing]
  split
  · rfl
  · split
    · simp [digits]
    · split <;> simp [digits]

theorem ofNat_lt_ofNat (hb : b < 256) (h : a < b) : UInt8.ofNat a < UInt8.ofNat b := by
  rw [UInt8.lt_iff_toNat_lt, UInt8.toNat_ofNat_of_lt' hb, UInt8.toNat_ofNat_of_lt' (h.trans hb)]
  exact h

theorem digits_append_lt (n : Nat) (hhigh : a / 64 ^ n = b / 64 ^ n) (h : a < b) :
    digits n a ++ left < digits n b ++ right := by
  induction n with
  | zero => simp at hhigh; omega
  | succ n ih =>
    have hdigits (code : Nat) : code / 64 ^ (n + 1) = code / 64 ^ n / 64 := by
      rw [pow_succ, Nat.div_div_eq_div_mul]
    rw [hdigits, hdigits] at hhigh
    have hle : a / 64 ^ n ≤ b / 64 ^ n := Nat.div_le_div_right h.le
    -- Either the highest digits differ, or it is the lower ones that do.
    rcases Nat.lt_or_eq_of_le hle with hlt | heq
    · exact List.cons_lt_cons_iff.mpr (.inl (ofNat_lt_ofNat (by omega) (by omega)))
    · exact List.cons_lt_cons_iff.mpr (.inr ⟨by rw [heq], ih heq⟩)

/-- The first byte tells how many follow, and grows with the code. -/
theorem leading_lt_or (hb : b < 0x110000) (h : a < b) :
    leading a < leading b ∨ leading a = leading b ∧ trailing a = trailing b ∧
      a / 64 ^ trailing b = b / 64 ^ trailing b := by
  simp only [leading, trailing]
  split_ifs <;> simp only [pow_succ, pow_zero, true_and] <;> omega

theorem leading_lt (code : Nat) : leading code < 256 := by
  simp only [leading]
  split_ifs <;> omega

theorem code_lt (c : Char) : c.val.toNat < 0x110000 := by
  rcases c.valid with h | ⟨_, h⟩
  · exact Nat.lt_trans h (by decide)
  · exact h

/-- Whatever follows, the smaller character comes first. -/
theorem utf8EncodeChar_append_lt {c d : Char} (h : c < d) :
    String.utf8EncodeChar c ++ left < String.utf8EncodeChar d ++ right := by
  have hcode : c.val.toNat < d.val.toNat := UInt32.lt_iff_toNat_lt.mp h
  rw [utf8EncodeChar_eq, utf8EncodeChar_eq]
  rcases leading_lt_or (code_lt d) hcode with hlt | ⟨hfirst, hlength, hhigh⟩
  · exact List.cons_lt_cons_iff.mpr (.inl (ofNat_lt_ofNat (leading_lt _) hlt))
  · rw [hfirst, hlength]
    exact List.cons_lt_cons_iff.mpr (.inr ⟨rfl, digits_append_lt _ hhigh hcode⟩)

/-! ### Texts -/

theorem bytes_lt_of_lt {s t : String} (h : s < t) : bytes s < bytes t := by
  rw [bytes_eq, bytes_eq]
  have hlex : s.toList < t.toList := h
  generalize s.toList = left, t.toList = right at hlex
  induction hlex with
  | @nil c rest =>
    rw [List.flatMap_nil, List.flatMap_cons, utf8EncodeChar_eq]
    exact List.nil_lt_cons _ _
  | rel hchar => exact utf8EncodeChar_append_lt hchar
  | cons _ ih => exact List.append_left_lt ih

theorem bytes_lt_bytes {s t : String} : bytes s < bytes t ↔ s < t := by
  refine ⟨fun h => ?_, bytes_lt_of_lt⟩
  rcases Std.lt_trichotomy s t with hlt | rfl | hgt
  · exact hlt
  · exact absurd h (List.lt_irrefl _)
  · exact absurd h (List.lt_asymm (bytes_lt_of_lt hgt))

end SharedViews.Text
