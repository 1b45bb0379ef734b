import TemplateSyntax.Proofs.Scan.Tiles

/-! # Nothing Is Lost

  The tokens of a source text cover it but for blanks, and each holds the bytes that it
  covers, a string those between its quotes (`Lossless`). A source text is therefore
  known from its tokens, its blanks and its quotes: two texts with all of these in common
  are the same (`Lossless.source_unique`).

  The quotes have to be added. A string in single quotes and the same string in double
  quotes have the same token (`quotes_not_told`).
-/

namespace TemplateSyntax

open Lexeme (Body Closes)

/-! ## Lossless Tokens -/

/-- A string token that begins with the quote `q` behind the characters `u` and in front
    of the characters `v`. Its text is what stands between the quotes if the closing quote
    is present, and all that is left of the source if it is not. -/
structure Quoted (source : String) (t : Token) (q : Char) (u v : List Char) : Prop where
  quote : q = '"' ∨ q = '\''
  split : source.toList = u ++ q :: v
  start : t.span.start = byteLength u
  closed : Closes q v →
    Body q t.text.toList ∧ (∃ w, v = t.text.toList ++ q :: w) ∧
      t.span.stop = t.span.start + t.text.utf8ByteSize + 2 ∧
      t.text.toByteArray = slice source (t.span.start + 1) (t.span.stop - 1)
  unclosed : ¬ Closes q v →
    t.span.stop = source.utf8ByteSize ∧
      t.text.toByteArray = slice source (t.span.start + 1) t.span.stop

/-- The bytes of blanks: space, tab, line feed and carriage return. -/
def blankBytes : List UInt8 := [0x20, 0x09, 0x0A, 0x0D]

/-- A token covers an offset. -/
def Token.Covers (t : Token) (i : Nat) : Prop := t.span.start ≤ i ∧ i < t.span.stop

/-- Some tokens account for every byte of a source text. -/
structure Lossless (source : String) (ts : List Token) : Prop where
  ordered : ts.Pairwise fun t t' => t.span.stop ≤ t'.span.start
  boundaries : ∀ t ∈ ts, (String.Pos.Raw.mk t.span.start).IsValid source ∧
    (String.Pos.Raw.mk t.span.stop).IsValid source
  nonempty : ∀ t ∈ ts, t.kind ≠ .eof → t.span.start < t.span.stop
  ending : ∃ us e, ts = us ++ [e] ∧ (∀ t ∈ us, t.kind ≠ .eof) ∧ e.kind = .eof ∧
    e.span.start = source.utf8ByteSize ∧ e.span.stop = source.utf8ByteSize ∧ e.text = ""
  gaps : ∀ i (hi : i < source.toByteArray.size), (∀ t ∈ ts, ¬ t.Covers i) →
    source.toByteArray[i] ∈ blankBytes
  text : ∀ t ∈ ts, t.kind ≠ .string →
    t.text.toByteArray = slice source t.span.start t.span.stop
  string : ∀ t ∈ ts, t.kind = .string → ∃ q u v, Quoted source t q u v

/-! ## Tiles Are Lossless -/

theorem utf8Encode_blank {c : Char} (h : isBlank c = true) :
    ∃ b ∈ blankBytes, [c].utf8Encode.data = #[b] := by
  simp only [isBlank, Bool.or_eq_true, decide_eq_true_eq] at h
  rcases h with ((rfl | rfl) | rfl) | rfl
  · exact ⟨0x20, .head _, rfl⟩
  · exact ⟨0x09, .tail _ (.head _), rfl⟩
  · exact ⟨0x0A, .tail _ (.tail _ (.head _)), rfl⟩
  · exact ⟨0x0D, .tail _ (.tail _ (.tail _ (.head _))), rfl⟩

/-- Blanks have the bytes of blanks. -/
theorem mem_blankBytes {gap : List Char} (h : ∀ c ∈ gap, isBlank c) :
    ∀ b ∈ gap.utf8Encode.data, b ∈ blankBytes := by
  induction gap with
  | nil => simp [List.utf8Encode]
  | cons c cs ih =>
    intro b hb
    rw [List.utf8Encode_cons, ByteArray.data_append, Array.mem_append] at hb
    rcases hb with hb | hb
    · obtain ⟨b', hb', hbytes⟩ := utf8Encode_blank (h c List.mem_cons_self)
      rw [hbytes] at hb
      rwa [Array.mem_singleton.mp hb]
    · exact ih (fun d hd => h d (List.mem_cons_of_mem c hd)) b hb

theorem utf8Size_quote {q : Char} (h : q = '"' ∨ q = '\'') : q.utf8Size = 1 := by
  rcases h with rfl | rfl <;> rfl

theorem toByteArray_eq (s : String) : s.toByteArray = s.toList.utf8Encode :=
  String.utf8Encode_toList.symm

/-- A string that is written with its quote `q`, and with another one if `q` closes it. -/
theorem Written.quoted {source : String} {t : Token} {u us v : List Char}
    (hsplit : source.toList = u ++ (us ++ v))
    (hspan : t.span = .between (Position.start.after u) (Position.start.after (u ++ us)))
    (h : Written t us v) (hk : t.kind = .string) : ∃ q u v, Quoted source t q u v := by
  have hstart : t.span.start = byteLength u := by
    rw [hspan]
    exact Tiled.offset_start u
  have hstop : t.span.stop = byteLength (u ++ us) := by
    rw [hspan]
    exact Tiled.offset_start (u ++ us)
  have hbytes := toByteArray_eq t.text
  have hsize := utf8ByteSize_eq t.text
  rcases h with ⟨hne, -⟩ | ⟨q, -, hq, hbody, rfl⟩ | ⟨q, -, hq, hopen, rfl, rfl⟩
  · exact absurd hk hne
  -- Both quotes are there, and a byte long each.
  · have hone := utf8Size_quote hq
    have hsplit' : source.toList = (u ++ [q]) ++ (t.text.toList ++ ([q] ++ v)) := by
      rw [hsplit]
      simp
    have hslice := slice_eq_of_split hsplit'
    have hcloses : Closes q (t.text.toList ++ q :: v) := ⟨t.text.toList, v, hbody, rfl⟩
    simp only [byteLength_append, byteLength, hone] at hslice hstop
    refine ⟨q, u, t.text.toList ++ q :: v, hq, by rw [hsplit]; simp, hstart, fun _ => ?_,
      fun hn => absurd hcloses hn⟩
    refine ⟨hbody, ⟨v, rfl⟩, by omega, ?_⟩
    rw [hbytes, ← hslice]
    congr 1 <;> omega
  -- The opening quote is there alone, and the string takes the rest of the source.
  · have hone := utf8Size_quote hq
    have hsplit' : source.toList = (u ++ [q]) ++ (t.text.toList ++ []) := by
      rw [hsplit]
      simp
    have hslice := slice_eq_of_split hsplit'
    have htotal := utf8ByteSize_eq source
    rw [hsplit] at htotal
    simp only [byteLength_append, byteLength, hone, List.cons_append] at hslice hstop htotal
    refine ⟨q, u, t.text.toList, hq, by rw [hsplit]; simp, hstart, fun hc => absurd hc hopen,
      fun _ => ⟨by omega, ?_⟩⟩
    rw [hbytes, ← hslice]
    congr 1 <;> omega

namespace Tiled

variable {source : String} {ts : List Token}

/-- The end of the input stands behind all the characters. -/
theorem ending_of_source (h : Tiled [] ts source.toList) :
    ∃ us, ts = us ++ [.ending (.at (Position.start.after source.toList))] ∧
      (∀ t ∈ us, t.kind ≠ .eof) ∧
      (Position.start.after source.toList).offset = source.utf8ByteSize := by
  obtain ⟨us, hts, hus⟩ := h.eq_concat
  exact ⟨us, hts, hus, by rw [offset_start, utf8ByteSize_eq]⟩

/-- Whatever covers a source text is lossless. -/
theorem lossless (h : Tiled [] ts source.toList) : Lossless source ts := by
  have hend : ∀ t ∈ ts, t.kind = .eof →
      t = .ending (.at (Position.start.after source.toList)) := by
    intro t ht hk
    obtain ⟨us, hts, hus, -⟩ := h.ending_of_source
    rw [hts, List.mem_append, List.mem_singleton] at ht
    rcases ht with ht | ht
    · exact absurd hk (hus t ht)
    · exact ht
  refine ⟨h.pairwise, ?_, ?_, ?_, ?_, ?_, ?_⟩
  -- Every token begins and ends between two characters.
  · intro t ht
    by_cases hk : t.kind = .eof
    · have hvalid : (String.Pos.Raw.mk (byteLength source.toList)).IsValid source :=
        isValid_of_split (List.append_nil _).symm
      rw [hend t ht hk]
      rw [← offset_start] at hvalid
      exact ⟨hvalid, hvalid⟩
    · obtain ⟨u, us, v, hsplit, -, hspan, -⟩ := h.exists_written t ht hk
      rw [List.nil_append] at hsplit
      rw [hspan]
      refine ⟨?_, ?_⟩
      · show (String.Pos.Raw.mk (Position.start.after u).offset).IsValid source
        rw [offset_start]
        exact isValid_of_split hsplit
      · show (String.Pos.Raw.mk (Position.start.after (u ++ us)).offset).IsValid source
        rw [offset_start]
        exact isValid_of_split (by rw [hsplit, List.append_assoc])
  -- Only the ending token is empty, and it is the last.
  · intro t ht hk
    obtain ⟨u, us, v, -, hne, hspan, -⟩ := h.exists_written t ht hk
    have hpos := byteLength_pos hne
    rw [hspan]
    show (Position.start.after u).offset < (Position.start.after (u ++ us)).offset
    rw [offset_start, offset_start, byteLength_append]
    omega
  · obtain ⟨us, hts, hus, hsize⟩ := h.ending_of_source
    exact ⟨us, _, hts, hus, rfl, hsize, hsize, rfl⟩
  -- What no token covers is blank.
  · intro i hi hout
    have hlt : i < byteLength ([] ++ source.toList) := by
      rwa [List.nil_append, ← size_utf8Encode, String.utf8Encode_toList]
    obtain ⟨u, gap, v, hsplit, hgap, hu, hv⟩ := h.exists_gap (Nat.zero_le i) hlt hout
    exact mem_blankBytes hgap _ (getElem_of_split hsplit hi hu hv)
  -- A token is the text that it covers, or the text between its quotes.
  · intro t ht hk
    by_cases heof : t.kind = .eof
    · rw [hend t ht heof]
      exact ByteArray.extract_same.symm
    · obtain ⟨u, us, v, hsplit, -, hspan, hw⟩ := h.exists_written t ht heof
      have hslice := slice_eq_of_split hsplit
      have hus : us = t.text.toList := by
        rcases hw with ⟨-, hus⟩ | ⟨_, hstr, -⟩ | ⟨_, hstr, -⟩
        · exact hus
        · exact absurd hstr hk
        · exact absurd hstr hk
      rw [toByteArray_eq, ← hus, ← hslice, hspan, ← offset_start, ← offset_start]
      rfl
  · intro t ht hk
    have heof : t.kind ≠ .eof := by
      rw [hk]
      nofun
    obtain ⟨u, us, v, hsplit, -, hspan, hw⟩ := h.exists_written t ht heof
    exact hw.quoted hsplit hspan hk

end Tiled

/-! ## The Source Is Known -/

/-- Two source texts have the same byte at an offset that lies in both. -/
def AgreeAt (source other : String) (i : Nat) : Prop :=
  ∀ (hi : i < source.toByteArray.size) (hi' : i < other.toByteArray.size),
    source.toByteArray[i] = other.toByteArray[i]

/-- A closing quote is the same byte as the opening one. -/
theorem Quoted.closing_eq_opening {source : String} {t : Token} {q : Char} {u v : List Char}
    (h : Quoted source t q u v) (hc : Closes q v)
    (hstart : t.span.start < source.toByteArray.size)
    (hlast : t.span.start + t.text.utf8ByteSize + 1 < source.toByteArray.size) :
    source.toByteArray[t.span.start + t.text.utf8ByteSize + 1] =
      source.toByteArray[t.span.start] := by
  obtain ⟨-, ⟨w, rfl⟩, -, -⟩ := h.closed hc
  have hone := utf8Size_quote h.quote
  have hopening : source.toList = u ++ ([q] ++ (t.text.toList ++ q :: w)) := h.split
  have hclosing : source.toList = (u ++ q :: t.text.toList) ++ ([q] ++ w) := by
    rw [h.split]
    simp
  have hslice := (slice_eq_of_split hopening).trans (slice_eq_of_split hclosing).symm
  have hu := h.start
  have hsize := utf8ByteSize_eq t.text
  simp only [byteLength_append, byteLength, hone] at hslice
  have hplace : t.span.start + t.text.utf8ByteSize + 1 =
      byteLength u + (1 + byteLength t.text.toList) + 0 := by omega
  have hplace' : t.span.start = byteLength u + 0 := by omega
  have hclosing' : byteLength u + (1 + byteLength t.text.toList) + 0 < source.toByteArray.size :=
    hplace ▸ hlast
  have hopening' : byteLength u + 0 < source.toByteArray.size := hplace' ▸ hstart
  calc source.toByteArray[t.span.start + t.text.utf8ByteSize + 1]
      = source.toByteArray[byteLength u + (1 + byteLength t.text.toList) + 0] :=
        getElem_congr_idx hplace
    _ = source.toByteArray[byteLength u + 0] :=
        (getElem_eq_of_slice_eq hslice (by omega) (by omega) _ _).symm
    _ = source.toByteArray[t.span.start] := getElem_congr_idx hplace'.symm

/-- Two source texts that a string token belongs to agree in it if they agree in the quote
    where it begins. -/
theorem Quoted.agreeAt {source other : String} {t : Token} {q q' : Char}
    {u u' v v' : List Char} (h : Quoted source t q u v) (h' : Quoted other t q' u' v')
    (hsize : source.toByteArray.size = other.toByteArray.size) {i : Nat} (hcovers : t.Covers i)
    (hquote : AgreeAt source other t.span.start) : AgreeAt source other i := by
  intro hi hi'
  obtain ⟨hle, hlt⟩ := hcovers
  have hstart : t.span.start < source.toByteArray.size := by omega
  have hlen : ∀ s : String, s.utf8ByteSize = s.toByteArray.size := fun _ => rfl
  have htext := hlen t.text
  have hbytes := hlen source
  have hbytes' := hlen other
  by_cases hfirst : i = t.span.start
  · subst hfirst
    exact hquote _ _
  obtain ⟨k, rfl⟩ := Nat.exists_eq_add_of_le (show t.span.start + 1 ≤ i by omega)
  -- Whether the closing quote is present shows in the length of the text.
  by_cases hc : Closes q v
  · obtain ⟨-, -, hstop, hslice⟩ := h.closed hc
    by_cases hc' : Closes q' v'
    · obtain ⟨-, -, -, hslice'⟩ := h'.closed hc'
      by_cases hlast : k = t.text.utf8ByteSize
      · subst hlast
        have heq := h.closing_eq_opening hc hstart (by omega)
        have heq' := h'.closing_eq_opening hc' (by omega) (by omega)
        have hplace : t.span.start + 1 + t.text.utf8ByteSize =
            t.span.start + t.text.utf8ByteSize + 1 := by omega
        simp only [hplace]
        rw [heq, heq', hquote hstart (hsize ▸ hstart)]
      · exact getElem_eq_of_slice_eq (hslice.symm.trans hslice') (by omega) (by omega) hi hi'
    -- The text of an open string is longer than the token has room for with two quotes.
    · obtain ⟨hstop', hslice'⟩ := h'.unclosed hc'
      rw [hslice', slice, ByteArray.size_extract] at htext
      omega
  · obtain ⟨hstop, hslice⟩ := h.unclosed hc
    by_cases hc' : Closes q' v'
    · obtain ⟨-, -, hstop', -⟩ := h'.closed hc'
      rw [hslice, slice, ByteArray.size_extract] at htext
      omega
    · obtain ⟨-, hslice'⟩ := h'.unclosed hc'
      exact getElem_eq_of_slice_eq (hslice.symm.trans hslice') (by omega) (by omega) hi hi'

/-- Two source texts that the same tokens account for are the same if they agree where no
    token stands and where a string begins. -/
theorem Lossless.source_unique {source other : String} {ts : List Token}
    (h : Lossless source ts) (h' : Lossless other ts)
    (hgaps : ∀ i, (∀ t ∈ ts, ¬ t.Covers i) → AgreeAt source other i)
    (hquotes : ∀ t ∈ ts, t.kind = .string → AgreeAt source other t.span.start) :
    source = other := by
  -- The ending token tells how long a text is.
  have hsize : source.toByteArray.size = other.toByteArray.size := by
    obtain ⟨us, e, hts, -, -, hstart, -⟩ := h.ending
    obtain ⟨us', e', hts', -, -, hstart', -⟩ := h'.ending
    have he : e = e' := by
      rw [hts] at hts'
      exact (List.concat_inj.mp (by simpa using hts')).2
    rw [← he] at hstart'
    exact hstart.symm.trans hstart'
  refine String.toByteArray_inj.mp (ByteArray.ext_getElem hsize fun i hi hi' => ?_)
  by_cases hout : ∀ t ∈ ts, ¬ t.Covers i
  · exact hgaps i hout hi hi'
  · simp only [not_forall, not_not] at hout
    obtain ⟨t, ht, hcovers⟩ := hout
    by_cases hk : t.kind = .string
    · obtain ⟨q, u, v, hquoted⟩ := h.string t ht hk
      obtain ⟨q', u', v', hquoted'⟩ := h'.string t ht hk
      exact hquoted.agreeAt hquoted' hsize hcovers (hquotes t ht hk) hi hi'
    · obtain ⟨hle, hlt⟩ := hcovers
      obtain ⟨k, rfl⟩ := Nat.exists_eq_add_of_le hle
      exact getElem_eq_of_slice_eq ((h.text t ht hk).symm.trans (h'.text t ht hk)) hlt hlt hi hi'

/-- Scanning is lossless. The tokens of a source text account for every byte of it; laid
    side by side with the blanks between them, they are the source again; and no other text
    has the same tokens, blanks and quotes. -/
theorem tokenize_lossless (source : String) :
    Lossless source (tokenize source) ∧
    Tiled [] (tokenize source) source.toList ∧
    ∀ other, tokenize other = tokenize source →
      (∀ i, (∀ t ∈ tokenize source, ¬ t.Covers i) → AgreeAt source other i) →
      (∀ t ∈ tokenize source, t.kind = .string → AgreeAt source other t.span.start) →
      other = source := by
  have htiled := tiled_tokenize source
  have hsource := htiled.lossless
  refine ⟨hsource, htiled, ?_⟩
  intro other htokens hgaps hquotes
  have hother := (tiled_tokenize other).lossless
  rw [htokens] at hother
  exact (hsource.source_unique hother hgaps hquotes).symm

/-- Without the quotes a text is not known. These two have the same tokens, and with no blanks
    between them the tokens leave nothing to agree in. -/
theorem quotes_not_told :
    tokenize "\x7b\"a\"\x7d" = tokenize "\x7b'a'\x7d" ∧
    (∀ i, (∀ t ∈ tokenize "\x7b'a'\x7d", ¬ t.Covers i) →
      AgreeAt "\x7b'a'\x7d" "\x7b\"a\"\x7d" i) ∧
    "\x7b\"a\"\x7d" ≠ "\x7b'a'\x7d" := by
  refine ⟨by decide +kernel, fun i hout hi _ => ?_, by decide⟩
  have hcovered : ∀ i < 5, ∃ t ∈ tokenize "\x7b'a'\x7d", t.span.start ≤ i ∧ i < t.span.stop := by
    decide +kernel
  obtain ⟨t, ht, hcovers⟩ := hcovered i hi
  exact absurd hcovers (hout t ht)

end TemplateSyntax
