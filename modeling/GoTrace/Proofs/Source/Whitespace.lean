import GoTrace.Proofs.Source.Slice

/-!
# Whitespace in bytes

A character of whitespace is one byte, so a stretch of whitespace is a stretch of the bytes
`spaceBytes`. `space_of_blank` finds the byte at an offset inside such a stretch. No other character
begins with one of these bytes, so the bytes of a stretch tell whether it is whitespace
(`blank_of_space`).
-/

namespace GoTrace

open String (utf8Len)

/-- The bytes that may stand between tokens and comments: a space, a tab, a carriage return and a
line feed. -/
def spaceBytes : List UInt8 := [0x20, 0x09, 0x0d, 0x0a]

/-- The codes of the characters of whitespace. -/
private theorem isSpace_iff_code {c : Char} :
    Gap.isSpace c ↔ c.val.toNat ∈ spaceBytes.map UInt8.toNat := by
  have hcode : ∀ d : Char, c = d ↔ c.val.toNat = d.val.toNat := fun d => by
    rw [UInt32.toNat_inj, Char.ext_iff]
  simp only [Gap.isSpace, Bool.or_eq_true, beq_iff_eq, hcode, or_assoc]
  simp [spaceBytes]

/-- The first byte of a character is one of whitespace iff the character is. -/
private theorem head_utf8EncodeChar {c : Char} {b : UInt8}
    (h : b ∈ (String.utf8EncodeChar c).head?) : b ∈ spaceBytes ↔ Gap.isSpace c := by
  have hcode : b ∈ spaceBytes ↔ b.toNat ∈ spaceBytes.map UInt8.toNat :=
    (List.mem_map_of_injective fun _ _ => UInt8.toNat_inj.1).symm
  rw [hcode, isSpace_iff_code]
  have hbyte : b.toNat = c.val.toNat ∨ 127 < b.toNat ∧ 127 < c.val.toNat := by
    rw [String.utf8EncodeChar] at h
    split_ifs at h <;> obtain rfl := Option.mem_some.1 h <;> rw [UInt8.toNat_ofNat'] <;> omega
  have hascii : ∀ n ∈ spaceBytes.map UInt8.toNat, n ≤ 127 := by decide
  rcases hbyte with hbyte | ⟨hb, hc⟩
  · rw [hbyte]
  · exact iff_of_false (fun h => Nat.not_le.2 hb (hascii _ h)) fun h => Nat.not_le.2 hc (hascii _ h)

/-- The first byte of a character is in the text where the character starts. -/
private theorem byte_of_cut {text : String} {front rest : List Char} {c : Char}
    (htext : text.toList = front ++ c :: rest) :
    ∃ h : utf8Len front < text.toByteArray.size,
      text.toByteArray[utf8Len front] ∈ spaceBytes ↔ Gap.isSpace c := by
  have hbytes : text.toByteArray = front.utf8Encode ++ ([c].utf8Encode ++ rest.utf8Encode) := by
    rw [← List.utf8Encode_cons, ← List.utf8Encode_append, ← htext,
      ← String.ofList_toList (s := text)]
    simp
  have hfront : front.utf8Encode.size = utf8Len front := String.utf8ByteSize_ofList front
  have hpos : 0 < [c].utf8Encode.size := by
    rw [List.utf8Encode_singleton, List.size_toByteArray, String.length_utf8EncodeChar]
    exact c.utf8Size_pos
  have hhead : [c].utf8Encode[0] ∈ (String.utf8EncodeChar c).head? := by
    simp [List.utf8Encode_singleton, List.head?_eq_getElem?]
  refine ⟨?_, ?_⟩
  · rw [hbytes, ByteArray.size_append, ByteArray.size_append]
    omega
  · simp only [hbytes]
    rw [ByteArray.getElem_append_right (by omega), ByteArray.getElem_append_left (by omega)]
    simpa [hfront] using head_utf8EncodeChar hhead

/-- Every byte of a stretch of whitespace is that of one of its characters. -/
private theorem exists_cut_of_isSpace {front w : List Char} {i : Nat} (hw : ∀ c ∈ w, Gap.isSpace c)
    (hfront : utf8Len front ≤ i) (hi : i < utf8Len (front ++ w)) :
    ∃ v c v', w = v ++ c :: v' ∧ utf8Len (front ++ v) = i := by
  induction w generalizing front with
  | nil =>
    rw [List.append_nil] at hi
    omega
  | cons c w ih =>
    by_cases heq : utf8Len front = i
    · exact ⟨[], c, w, rfl, by rw [List.append_nil, heq]⟩
    · have hc := utf8Size_of_isSpace (hw c List.mem_cons_self)
      have hle : utf8Len (front ++ [c]) ≤ i := by
        rw [String.utf8Len_append, String.utf8Len_cons, String.utf8Len_nil]
        omega
      obtain ⟨v, d, v', rfl, hv⟩ := ih (fun d hd => hw d (List.mem_cons_of_mem c hd)) hle
        (by rwa [List.append_assoc, List.singleton_append])
      exact ⟨c :: v, d, v', rfl, by rw [← hv, List.append_assoc, List.singleton_append]⟩

/-- The bytes of a stretch of whitespace are bytes of whitespace. -/
theorem space_of_blank {text : String} {front w rest : List Char} {i : Nat}
    (htext : text.toList = front ++ w ++ rest) (hw : ∀ c ∈ w, Gap.isSpace c)
    (hfront : utf8Len front ≤ i) (hi : i < utf8Len (front ++ w)) :
    ∃ h : i < text.toByteArray.size, text.toByteArray[i] ∈ spaceBytes := by
  obtain ⟨v, c, v', rfl, rfl⟩ := exists_cut_of_isSpace hw hfront hi
  have htext' : text.toList = (front ++ v) ++ c :: (v' ++ rest) := by
    rw [htext]
    simp
  obtain ⟨hlt, hbyte⟩ := byte_of_cut htext'
  exact ⟨hlt, hbyte.2 (hw c (by simp))⟩

/-- Characters whose bytes are all bytes of whitespace are whitespace. -/
theorem blank_of_space {text : String} {front w rest : List Char}
    (htext : text.toList = front ++ w ++ rest)
    (hspace : ∀ i, utf8Len front ≤ i → i < utf8Len (front ++ w) →
      ∀ h : i < text.toByteArray.size, text.toByteArray[i] ∈ spaceBytes) :
    ∀ c ∈ w, Gap.isSpace c := by
  intro c hc
  obtain ⟨v, v', rfl⟩ := List.append_of_mem hc
  have htext' : text.toList = (front ++ v) ++ c :: (v' ++ rest) := by
    rw [htext]
    simp
  obtain ⟨hlt, hbyte⟩ := byte_of_cut htext'
  have hpos := c.utf8Size_pos
  refine hbyte.1 (hspace _ ?_ ?_ hlt) <;>
    simp only [String.utf8Len_append, String.utf8Len_cons] <;> omega

end GoTrace
