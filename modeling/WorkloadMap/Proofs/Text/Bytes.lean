import Mathlib.Data.String.Basic

/-!
The order of names. Names are kept in the order of their characters, and are told in that of their
bytes. Main statement: the two orders are one.
-/
namespace WorkloadMap.Text

def bytes (s : String) : List UInt8 := s.toUTF8.data.toList

theorem bytes_eq_flatMap (s : String) : bytes s = s.toList.flatMap String.utf8EncodeChar := by
  have hencoded : s.toUTF8 = s.toList.utf8Encode := String.utf8Encode_toList.symm
  unfold bytes
  rw [hencoded, List.utf8Encode, List.data_toByteArray]

theorem cons_ofNat_lt_cons_ofNat {m n : Nat} (hm : m < 256) (hn : n < 256) {s t : List UInt8} :
    UInt8.ofNat m :: s < UInt8.ofNat n :: t ↔ m < n ∨ m = n ∧ s < t := by
  rw [List.cons_lt_cons_iff, UInt8.lt_iff_toNat_lt, ← UInt8.toNat_inj, UInt8.toNat_ofNat',
    UInt8.toNat_ofNat', Nat.mod_eq_of_lt hm, Nat.mod_eq_of_lt hn]

/-- The digits of a character to base 64, of which the first is less than 8. -/
theorem digits_toNat (c : Char) :
    c.val.toNat / 262144 % 8 = c.val.toNat / 262144 ∧
      c.val.toNat / 4096 / 64 = c.val.toNat / 262144 ∧
      c.val.toNat / 64 / 64 = c.val.toNat / 4096 := by
  have hmax : c.val.toNat < 0x110000 := by
    rcases c.valid with hc | ⟨_, hc⟩
    · omega
    · exact hc
  exact ⟨Nat.mod_eq_of_lt (by omega), Nat.div_div_eq_div_mul .., Nat.div_div_eq_div_mul ..⟩

/-- Neither encoding begins the other, so that nothing after them counts. -/
theorem utf8EncodeChar_append_lt {c d : Char} (h : c < d) (s t : List UInt8) :
    String.utf8EncodeChar c ++ s < String.utf8EncodeChar d ++ t := by
  have hval : c.val.toNat < d.val.toNat := h
  have hc := digits_toNat c
  have hd := digits_toNat d
  simp only [String.utf8EncodeChar]
  -- One case for each pair of lengths. Different lengths differ in the first byte already.
  split_ifs
  all_goals
    simp (disch := omega) only [List.cons_append, List.nil_append, cons_ofNat_lt_cons_ofNat]
    omega

/-- Of two texts the smaller has the smaller bytes, as its first character that differs has. -/
theorem flatMap_utf8EncodeChar_lt {s t : List Char} (h : s < t) :
    s.flatMap String.utf8EncodeChar < t.flatMap String.utf8EncodeChar := by
  induction s generalizing t with
  | nil =>
    cases t with
    | nil => exact absurd h (List.lt_irrefl [])
    | cons d t =>
      have hne : String.utf8EncodeChar d ≠ [] := String.utf8EncodeChar_ne_nil
      obtain ⟨b, bs, hd⟩ := List.exists_cons_of_ne_nil hne
      rw [List.flatMap_cons, hd]
      exact List.nil_lt_cons b _
  | cons c s ih =>
    cases t with
    | nil => exact absurd h (List.not_lt_nil _)
    | cons d t =>
      rw [List.flatMap_cons, List.flatMap_cons]
      rcases List.cons_lt_cons_iff.1 h with hchar | ⟨rfl, hrest⟩
      · exact utf8EncodeChar_append_lt hchar _ _
      · exact List.append_left_lt (ih hrest)

theorem bytes_lt_of_lt {s t : String} (h : s < t) : bytes s < bytes t := by
  rw [bytes_eq_flatMap, bytes_eq_flatMap]
  exact flatMap_utf8EncodeChar_lt h

theorem bytes_lt_iff {s t : String} : bytes s < bytes t ↔ s < t := by
  constructor
  · intro h
    rcases lt_trichotomy s t with hlt | rfl | hgt
    · exact hlt
    · exact absurd h (List.lt_irrefl _)
    · exact absurd h (List.lt_asymm (bytes_lt_of_lt hgt))
  · exact bytes_lt_of_lt

end WorkloadMap.Text
