import PromptTemplate.Text.Basic

/-!
# Proofs/Text/Slice — the bytes of one text within those of another

    a  é     {  b         characters of `aé{b`
    61 C3 A9 7B 62        bytes; those from 3 up to 5 are `{b`

A `Slice` is a range of bytes, and nothing is asked of its two ends. But no byte inside a character
begins another one, and no character is the beginning of another. So **the bytes of a text stand
only where its characters do** (`slice_iff`), and both ends lie between characters.
-/

namespace PromptTemplate.Text

variable {s t : Text} {i j : Nat}

/-- The bytes of `s` from offset `i` up to offset `j` are the bytes of `t`. -/
structure Slice (s : Text) (i j : Nat) (t : Text) : Prop where
  le : i ≤ j
  le_bytes : j ≤ bytes s
  extract_eq : s.utf8Encode.extract i j = t.utf8Encode

theorem length_le_bytes (t : Text) : t.length ≤ bytes t := by
  induction t with
  | nil => exact Nat.le_refl 0
  | cons c t ih =>
    have hpos := c.utf8Size_pos
    rw [List.length_cons, bytes_cons]
    omega

/-- The offset is the index where each character takes one byte. -/
theorem bytes_eq_length_iff {t : Text} : bytes t = t.length ↔ ∀ c ∈ t, c.utf8Size = 1 := by
  induction t with
  | nil => simp
  | cons c t ih =>
    have hpos := c.utf8Size_pos
    have hle := length_le_bytes t
    rw [List.forall_mem_cons, ← ih, List.length_cons, bytes_cons]
    omega

/-- `bytes` counts the bytes of the UTF-8 form. -/
theorem size_utf8Encode (t : Text) : t.utf8Encode.size = bytes t := by
  induction t with
  | nil => rfl
  | cons c t ih =>
    rw [List.utf8Encode_cons, ByteArray.size_append, ih, List.utf8Encode_singleton,
      List.size_toByteArray, String.length_utf8EncodeChar, bytes_cons]

theorem byteIdx_rawEndPos_ofList (t : Text) : (String.ofList t).rawEndPos.byteIdx = bytes t := by
  rw [String.byteIdx_rawEndPos, ← String.size_toByteArray, String.toByteArray_ofList,
    size_utf8Encode]

/-- Between two characters, or at an end. -/
theorem isValid_append (a b : Text) :
    String.Pos.Raw.IsValid (String.ofList (a ++ b)) ⟨bytes a⟩ := by
  refine String.Pos.Raw.isValid_iff_exists_append.mpr ⟨.ofList a, .ofList b, ?_, ?_⟩
  · exact String.ofList_append
  · exact String.Pos.Raw.ext (byteIdx_rawEndPos_ofList a).symm

/-- An offset between two characters cuts the text. -/
theorem exists_append_of_isValid (h : String.Pos.Raw.IsValid (String.ofList s) ⟨i⟩) :
    ∃ a b : Text, s = a ++ b ∧ bytes a = i := by
  obtain ⟨s₁, s₂, hs, hi⟩ := String.Pos.Raw.isValid_iff_exists_append.mp h
  obtain ⟨a, rfl⟩ := s₁.exists_eq_ofList
  obtain ⟨b, rfl⟩ := s₂.exists_eq_ofList
  refine ⟨a, b, ?_, ?_⟩
  · rwa [← String.ofList_append, String.ofList_inj] at hs
  · rw [← byteIdx_rawEndPos_ofList, ← hi]

/-- A slice that is not empty ends at boundaries. -/
theorem Slice.isValid (h : Slice s i j t) (ht : t ≠ []) :
    String.Pos.Raw.IsValid (String.ofList s) ⟨i⟩ ∧
      String.Pos.Raw.IsValid (String.ofList s) ⟨j⟩ := by
  have hend : (⟨j⟩ : String.Pos.Raw) ≤ (String.ofList s).rawEndPos := by
    rw [String.Pos.Raw.le_iff, byteIdx_rawEndPos_ofList]
    exact h.le_bytes
  have hvalid : ((String.ofList s).toByteArray.extract i j).IsValidUTF8 := by
    rw [String.toByteArray_ofList, h.extract_eq]
    exact ByteArray.isValidUTF8_utf8Encode
  refine ((String.Pos.Raw.isValidUTF8_extract_iff ⟨i⟩ ⟨j⟩ h.le hend).mp hvalid).resolve_left ?_
  intro heq
  obtain rfl : i = j := congrArg String.Pos.Raw.byteIdx heq
  have hempty := h.extract_eq
  rw [ByteArray.extract_same] at hempty
  exact ht (List.utf8Encode_eq_empty.mp hempty.symm)

/-- A slice is as long as its text. -/
theorem Slice.add_bytes (h : Slice s i j t) : i + bytes t = j := by
  have hsize := congrArg ByteArray.size h.extract_eq
  rw [ByteArray.size_extract, size_utf8Encode, size_utf8Encode, Nat.min_eq_left h.le_bytes] at hsize
  have := h.le
  omega

theorem slice_append (a t b : Text) : Slice (a ++ (t ++ b)) (bytes a) (bytes a + bytes t) t where
  le := Nat.le_add_right _ _
  le_bytes := by
    rw [bytes_append, bytes_append]
    omega
  extract_eq := by
    have h := ByteArray.extract_append_size_add (a := a.utf8Encode)
      (b := t.utf8Encode ++ b.utf8Encode) (i := 0) (j := t.utf8Encode.size)
    rwa [Nat.add_zero, ByteArray.extract_append_eq_left rfl, size_utf8Encode, size_utf8Encode,
      ← List.utf8Encode_append, ← List.utf8Encode_append] at h

/-- What a text cut in two has behind the cut begins with the slice there. -/
theorem Slice.isPrefix {a r : Text} (h : Slice (a ++ r) (bytes a) j t) : t <+: r := by
  have hright : (a ++ r).utf8Encode.extract (bytes a) (bytes (a ++ r)) = r.utf8Encode := by
    rw [List.utf8Encode_append]
    refine ByteArray.extract_append_eq_right (size_utf8Encode a).symm ?_
    rw [size_utf8Encode, size_utf8Encode, bytes_append]
  refine List.isPrefix_of_utf8Encode_append_eq_utf8Encode
    ((a ++ r).utf8Encode.extract j (bytes (a ++ r))) ?_
  rw [← h.extract_eq, ← ByteArray.extract_eq_extract_append_extract _ h.le h.le_bytes, hright]

/-- **The bytes of a text stand only where its characters do.** -/
theorem slice_iff (ht : t ≠ []) :
    Slice s i j t ↔ ∃ a b, s = a ++ (t ++ b) ∧ bytes a = i ∧ i + bytes t = j := by
  constructor
  · intro h
    obtain ⟨a, r, rfl, rfl⟩ := exists_append_of_isValid (h.isValid ht).1
    obtain ⟨b, rfl⟩ := h.isPrefix
    exact ⟨a, b, rfl, rfl, h.add_bytes⟩
  · rintro ⟨a, b, rfl, rfl, rfl⟩
    exact slice_append a t b

end PromptTemplate.Text
