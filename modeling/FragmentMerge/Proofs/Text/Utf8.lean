import FragmentMerge.Text.Utf8
import Mathlib.Tactic.SplitIfs

/-! Text that has been read from bytes has these bytes. Every character is read from the bytes that encode
it, since the ranges of the bytes leave no other form. -/

namespace FragmentMerge.Utf8

variable {a b c d : UInt8}

theorem bytes_ofList (cs : List Char) : bytes (String.ofList cs) = cs.flatMap String.utf8EncodeChar := by
  rw [bytes, String.toUTF8_eq_toByteArray, String.toByteArray_ofList, List.utf8Encode]
  simp

theorem isTail_iff : isTail b = true ↔ 0x80 ≤ b.toNat ∧ b.toNat ≤ 0xBF := by
  simp [isTail, UInt8.le_iff_toNat_le]

theorem secondAllowed_iff : secondAllowed a b = true ↔
    0x80 ≤ b.toNat ∧ b.toNat ≤ 0xBF ∧ (a.toNat = 0xE0 → 0xA0 ≤ b.toNat) ∧ (a.toNat = 0xED → b.toNat ≤ 0x9F) ∧
      (a.toNat = 0xF0 → 0x90 ≤ b.toNat) ∧ (a.toNat = 0xF4 → b.toNat ≤ 0x8F) := by
  unfold secondAllowed
  simp only [beq_iff_eq, ← UInt8.toNat_inj, UInt8.reduceToNat]
  split_ifs <;>
    simp only [isTail_iff, Bool.and_eq_true, decide_eq_true_eq, UInt8.le_iff_toNat_le, UInt8.reduceToNat] <;>
    omega

theorem width_cases (a : UInt8) :
    (width a = 1 ∧ a.toNat < 0x80) ∨ (width a = 2 ∧ 0xC2 ≤ a.toNat ∧ a.toNat ≤ 0xDF) ∨
      (width a = 3 ∧ 0xE0 ≤ a.toNat ∧ a.toNat ≤ 0xEF) ∨ (width a = 4 ∧ 0xF0 ≤ a.toNat ∧ a.toNat ≤ 0xF4) ∨
      width a = 0 := by
  unfold width
  simp only [UInt8.lt_iff_toNat_lt, UInt8.le_iff_toNat_le, UInt8.reduceToNat]
  split_ifs <;> simp_all

theorem val_ofNat {n : Nat} (h : n.isValidChar) : (Char.ofNat n).val.toNat = n := by
  rw [Char.ofNat, dif_pos h]
  rfl

theorem encode_one (ha : a.toNat < 0x80) : String.utf8EncodeChar (Char.ofNat a.toNat) = [a] := by
  have hval := val_ofNat (n := a.toNat) (.inl (by omega))
  rw [String.utf8EncodeChar, hval, if_pos (by omega), UInt8.ofNat_toNat]

theorem encode_two (ha : 0xC2 ≤ a.toNat ∧ a.toNat ≤ 0xDF) (hb : isTail b = true) :
    String.utf8EncodeChar (Char.ofNat (a.toNat % 32 * 64 + low b)) = [a, b] := by
  rw [isTail_iff] at hb
  unfold low
  have hval := val_ofNat (n := a.toNat % 32 * 64 + b.toNat % 64) (.inl (by omega))
  rw [String.utf8EncodeChar, hval, if_neg (by omega), if_pos (by omega)]
  simp only [List.cons.injEq, ← UInt8.toNat_inj, UInt8.toNat_ofNat', and_true]
  omega

theorem encode_three (ha : 0xE0 ≤ a.toNat ∧ a.toNat ≤ 0xEF) (hb : secondAllowed a b = true)
    (hc : isTail c = true) :
    String.utf8EncodeChar (Char.ofNat (a.toNat % 16 * 4096 + low b * 64 + low c)) = [a, b, c] := by
  rw [isTail_iff] at hc
  rw [secondAllowed_iff] at hb
  unfold low
  have hval := val_ofNat (n := a.toNat % 16 * 4096 + b.toNat % 64 * 64 + c.toNat % 64)
    (by unfold Nat.isValidChar; omega)
  rw [String.utf8EncodeChar, hval, if_neg (by omega), if_neg (by omega), if_pos (by omega)]
  simp only [List.cons.injEq, ← UInt8.toNat_inj, UInt8.toNat_ofNat', and_true]
  omega

theorem encode_four (ha : 0xF0 ≤ a.toNat ∧ a.toNat ≤ 0xF4) (hb : secondAllowed a b = true)
    (hc : isTail c = true) (hd : isTail d = true) :
    String.utf8EncodeChar (Char.ofNat (a.toNat % 8 * 262144 + low b * 4096 + low c * 64 + low d)) =
      [a, b, c, d] := by
  rw [isTail_iff] at hc hd
  rw [secondAllowed_iff] at hb
  unfold low
  have hval := val_ofNat
    (n := a.toNat % 8 * 262144 + b.toNat % 64 * 4096 + c.toNat % 64 * 64 + d.toNat % 64)
    (by unfold Nat.isValidChar; omega)
  rw [String.utf8EncodeChar, hval, if_neg (by omega), if_neg (by omega), if_neg (by omega)]
  simp only [List.cons.injEq, ← UInt8.toNat_inj, UInt8.toNat_ofNat', and_true]
  omega

theorem decodeFrom_cons {i : Nat} {done cs : List Char} {r : List UInt8}
    (h : decodeFrom i done (a :: r) = .ok cs) :
    ∃ x rest j, a :: r = String.utf8EncodeChar x ++ rest ∧ rest.length ≤ r.length ∧
      decodeFrom j (x :: done) rest = .ok cs := by
  rw [decodeFrom.eq_def] at h
  rcases width_cases a with ⟨hw, ha⟩ | ⟨hw, ha⟩ | ⟨hw, ha⟩ | ⟨hw, ha⟩ | hw
  · simp only [hw] at h
    exact ⟨_, r, _, by rw [encode_one ha]; rfl, Nat.le_refl _, h⟩
  · simp only [hw] at h
    split at h
    · cases h
    · next b r =>
      split at h
      · next hb => exact ⟨_, r, _, by rw [encode_two ha hb]; rfl, by simp, h⟩
      · cases h
  · simp only [hw] at h
    split at h
    · cases h
    · cases h
    · next b c r =>
      split_ifs at h with hb hc
      simp only [Bool.not_eq_true', Bool.not_eq_false] at hb hc
      exact ⟨_, r, _, by rw [encode_three ha hb hc]; rfl, by simp; omega, h⟩
  · simp only [hw] at h
    split at h
    · cases h
    · cases h
    · cases h
    · next b c d r =>
      split_ifs at h with hb hc hd
      simp only [Bool.not_eq_true', Bool.not_eq_false] at hb hc hd
      exact ⟨_, r, _, by rw [encode_four ha hb hc hd]; rfl, by simp; omega, h⟩
  · simp only [hw] at h
    cases h

/-- The characters read so far have the bytes that have been read. -/
theorem bytes_of_decodeFrom {i : Nat} {done cs : List Char} {bs : List UInt8}
    (h : decodeFrom i done bs = .ok cs) :
    cs.flatMap String.utf8EncodeChar = done.reverse.flatMap String.utf8EncodeChar ++ bs := by
  -- a character takes several bytes, so the induction is on how many are left
  induction hn : bs.length using Nat.strongRecOn generalizing i done bs with
  | ind n ih =>
    cases bs with
    | nil =>
      obtain rfl := Except.ok.inj h
      rw [List.append_nil]
    | cons a r =>
      obtain ⟨x, rest, j, hbytes, hlength, hrest⟩ := decodeFrom_cons h
      rw [List.length_cons] at hn
      rw [ih rest.length (by omega) hrest rfl, hbytes, List.reverse_cons, List.flatMap_append,
        List.flatMap_singleton, List.append_assoc]

theorem bytes_of_decode {bs : List UInt8} {s : String} (h : decode bs = .ok s) : bytes s = bs := by
  rw [decode] at h
  cases hcs : decodeFrom 0 [] bs with
  | error e =>
    rw [hcs] at h
    cases h
  | ok cs =>
    rw [hcs] at h
    obtain rfl := Except.ok.inj h
    rw [bytes_ofList, bytes_of_decodeFrom hcs]
    rfl

end FragmentMerge.Utf8
