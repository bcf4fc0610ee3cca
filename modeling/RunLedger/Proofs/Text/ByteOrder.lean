import Mathlib.Tactic.SplitIfs

/-!
# The order of texts by their bytes

Texts are compared character by character. The UTF-8 bytes of the texts give the same order: of two
different characters the smaller one has the smaller byte where their encodings first differ, and no
encoding is the beginning of another one.
-/

namespace RunLedger.Text

variable {c d : Char} {s t : String} {cs ds : List Char} {xs ys ps qs : List UInt8}

/-- The UTF-8 bytes of a text. -/
def bytes (s : String) : List UInt8 := s.toUTF8.data.toList

/-- The bytes of a text are those of its characters one after the other. -/
theorem bytes_eq (s : String) : bytes s = s.toList.flatMap String.utf8EncodeChar := by
  have encoded : s.toUTF8 = s.toList.utf8Encode := by
    rw [String.toUTF8_eq_toByteArray, ← String.toByteArray_ofList, String.ofList_toList]
  rw [bytes, encoded, List.utf8Encode, List.data_toByteArray]

/-- What follows two lists does not matter if they differ before one of them ends. -/
theorem append_lt_append (less : ps < qs) (different : ¬ ps <+: qs) : ps ++ xs < qs ++ ys := by
  induction ps generalizing qs with
  | nil => exact absurd List.nil_prefix different
  | cons p ps ih =>
    cases qs with
    | nil => exact absurd less (List.not_lt_nil _)
    | cons q qs =>
      rw [List.cons_append, List.cons_append, List.cons_lt_cons_iff]
      rcases List.cons_lt_cons_iff.mp less with first | ⟨same, rest⟩
      · exact .inl first
      · refine .inr ⟨same, ih rest fun initial => different ?_⟩
        exact List.cons_prefix_cons.mpr ⟨same, initial⟩

/-- The smaller of two characters has the smaller encoding, and they differ before one of them
ends. -/
theorem utf8EncodeChar_lt (less : c < d) :
    String.utf8EncodeChar c < String.utf8EncodeChar d ∧
      ¬ String.utf8EncodeChar c <+: String.utf8EncodeChar d := by
  have less : c.val.toNat < d.val.toNat := less
  have valid : d.val.toNat ≤ 0x10ffff := by
    have valid := d.valid
    simp only [UInt32.isValidChar, Nat.isValidChar] at valid
    omega
  -- The length of an encoding is a matter of the size of the character.
  unfold String.utf8EncodeChar
  dsimp only
  split_ifs <;>
    simp only [List.cons_lt_cons_iff, List.cons_prefix_cons, UInt8.lt_iff_toNat_lt,
      ← UInt8.toNat_inj, UInt8.toNat_ofNat', List.not_lt_nil, and_false, or_false] <;>
    simp (disch := omega) only [Nat.mod_eq_of_lt] <;>
    omega

/-- What comes first by characters comes first by bytes. -/
theorem flatMap_utf8EncodeChar_lt (less : cs < ds) :
    cs.flatMap String.utf8EncodeChar < ds.flatMap String.utf8EncodeChar := by
  induction cs generalizing ds with
  | nil =>
    cases ds with
    | nil => exact absurd less (List.not_lt_nil _)
    | cons d ds =>
      rw [List.flatMap_nil, List.flatMap_cons]
      obtain ⟨b, bs, encoded⟩ := List.exists_cons_of_ne_nil (String.utf8EncodeChar_ne_nil (c := d))
      rw [encoded, List.cons_append]
      exact List.nil_lt_cons b _
  | cons c cs ih =>
    cases ds with
    | nil => exact absurd less (List.not_lt_nil _)
    | cons d ds =>
      rw [List.flatMap_cons, List.flatMap_cons]
      rcases List.cons_lt_cons_iff.mp less with first | ⟨rfl, rest⟩
      · obtain ⟨smaller, different⟩ := utf8EncodeChar_lt first
        exact append_lt_append smaller different
      · exact List.append_left_lt (ih rest)

/-- The order of texts is that of their bytes. -/
theorem lt_iff_bytes_lt : s < t ↔ bytes s < bytes t := by
  rw [bytes_eq, bytes_eq, String.lt_iff]
  constructor
  · exact flatMap_utf8EncodeChar_lt
  · intro smaller
    refine Decidable.byContradiction fun notLess => ?_
    rcases List.le_iff_lt_or_eq.mp (List.not_lt.mp notLess) with greater | same
    · exact List.lt_asymm smaller (flatMap_utf8EncodeChar_lt greater)
    · exact List.lt_irrefl _ (same ▸ smaller)

end RunLedger.Text
