import TemplateSyntax.Source.Position

/-! # Bytes and Characters

  A source text is a row of bytes to whoever holds a span and a row of characters to
  whoever scans it. A text that is cut into characters `u`, `v` and `w` has the bytes
  of `v` between the offsets `byteLength u` and `byteLength (u ++ v)`
  (`slice_eq_of_split`), both offsets lie between characters (`isValid_of_split`), and
  the characters before the first of them are `u` (`upTo_byteLength`).
-/

namespace TemplateSyntax

theorem byteLength_pos {cs : List Char} (h : cs ≠ []) : 0 < byteLength cs := by
  obtain ⟨c, cs, rfl⟩ := List.exists_cons_of_ne_nil h
  have := c.utf8Size_pos
  simp only [byteLength]
  omega

/-- Of two beginnings of the same characters the one with no more bytes begins the other. -/
theorem prefix_of_byteLength_le {u v w : List Char} (hu : u <+: w) (hv : v <+: w)
    (h : byteLength u ≤ byteLength v) : u <+: v := by
  rcases List.prefix_or_prefix_of_prefix hu hv with huv | ⟨r, rfl⟩
  · exact huv
  · by_cases hr : r = []
    · exact ⟨[], by rw [hr, List.append_nil, List.append_nil]⟩
    · have hpos := byteLength_pos hr
      rw [byteLength_append] at h
      omega

theorem size_utf8Encode (cs : List Char) : cs.utf8Encode.size = byteLength cs := by
  induction cs with
  | nil => rfl
  | cons c cs ih =>
    rw [List.utf8Encode_cons, ByteArray.size_append, ih]
    simp [byteLength, List.utf8Encode]

theorem utf8ByteSize_eq (source : String) : source.utf8ByteSize = byteLength source.toList := by
  rw [← size_utf8Encode, String.utf8Encode_toList, String.size_toByteArray]

/-! ## Bytes -/

/-- The bytes of a text from one offset up to another. -/
def slice (source : String) (start stop : Nat) : ByteArray :=
  source.toByteArray.extract start stop

/-- The bytes of a text that is cut in three. -/
theorem toByteArray_of_split {source : String} {u v w : List Char}
    (h : source.toList = u ++ (v ++ w)) :
    source.toByteArray = u.utf8Encode ++ (v.utf8Encode ++ w.utf8Encode) := by
  rw [← String.utf8Encode_toList, h, List.utf8Encode_append, List.utf8Encode_append]

/-- The bytes between the offsets of two cuts are those of the characters between. -/
theorem slice_eq_of_split {source : String} {u v w : List Char}
    (h : source.toList = u ++ (v ++ w)) :
    slice source (byteLength u) (byteLength (u ++ v)) = v.utf8Encode := by
  have hleft : u.utf8Encode.extract u.utf8Encode.size (u.utf8Encode.size + v.utf8Encode.size)
      = ByteArray.empty := by
    rw [ByteArray.extract_eq_empty_iff]
    omega
  rw [slice, toByteArray_of_split h, byteLength_append, ← size_utf8Encode u, ← size_utf8Encode v,
    ByteArray.extract_append, hleft, ByteArray.empty_append, Nat.sub_self, Nat.add_sub_cancel_left,
    ByteArray.extract_append_eq_left rfl]

/-- The offset of a cut lies between two characters, or at an end of the text. -/
theorem isValid_of_split {source : String} {u v : List Char} (h : source.toList = u ++ v) :
    (String.Pos.Raw.mk (byteLength u)).IsValid source := by
  refine String.Pos.Raw.isValid_iff_exists_append.mpr ⟨.ofList u, .ofList v, ?_, ?_⟩
  · rw [← String.ofList_append, ← h, String.ofList_toList]
  · have hsize := utf8ByteSize_eq (.ofList u)
    rw [String.toList_ofList] at hsize
    simp [String.rawEndPos, hsize]

/-- The byte at an offset among the characters in the middle is one of theirs. -/
theorem getElem_of_split {source : String} {u v w : List Char}
    (h : source.toList = u ++ (v ++ w)) {i : Nat} (hi : i < source.toByteArray.size)
    (hu : byteLength u ≤ i) (hv : i < byteLength (u ++ v)) :
    source.toByteArray[i] ∈ v.utf8Encode.data := by
  have hb := toByteArray_of_split h
  rw [byteLength_append] at hv
  have hlen : i - u.utf8Encode.size < v.utf8Encode.size := by
    rw [size_utf8Encode, size_utf8Encode]
    omega
  have hle : u.utf8Encode.size ≤ i := by rwa [size_utf8Encode]
  simp only [hb]
  rw [ByteArray.getElem_append_right hle, ByteArray.getElem_append_left hlen,
    ByteArray.getElem_eq_getElem_data]
  exact Array.getElem_mem _

/-- Equal stretches have equal bytes at the same distance from where they begin. -/
theorem getElem_eq_of_slice_eq {s s' : String} {a b a' b' k : Nat}
    (h : slice s a b = slice s' a' b') (hb : a + k < b) (hb' : a' + k < b')
    (hs : a + k < s.toByteArray.size) (hs' : a' + k < s'.toByteArray.size) :
    s.toByteArray[a + k] = s'.toByteArray[a' + k] := by
  have hk : k < (slice s a b).size := by
    rw [slice, ByteArray.size_extract]
    omega
  have hk' : k < (slice s' a' b').size := by
    rw [slice, ByteArray.size_extract]
    omega
  have heq : (slice s a b)[k] = (slice s' a' b')[k] := by simp only [h]
  simpa only [slice, ByteArray.getElem_extract] using heq

/-! ## Characters -/

/-- The characters that end within so many bytes. -/
def upTo : Nat → List Char → List Char
  | _, [] => []
  | n, c :: cs => if c.utf8Size ≤ n then c :: upTo (n - c.utf8Size) cs else []

/-- The characters before a cut are those up to its offset. -/
theorem upTo_byteLength (u v : List Char) : upTo (byteLength u) (u ++ v) = u := by
  induction u with
  | nil =>
    cases v with
    | nil => rfl
    | cons c cs =>
      have := c.utf8Size_pos
      simp only [byteLength, List.nil_append, upTo]
      rw [if_neg (by omega)]
  | cons c u ih =>
    simp only [byteLength, List.cons_append, upTo]
    rw [if_pos (by omega), Nat.add_sub_cancel_left, ih]

end TemplateSyntax
