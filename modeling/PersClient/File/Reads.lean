import PersClient.File.Calls
import PersClient.File.Crc32

/-! # Checksums of files read in pieces

`read` may deliver a file in pieces. `pclCalcCrc32Csum` puts every piece at the
start of its buffer, sums up the whole buffer and starts again: the string it
leaves belongs to the file only if one piece was the whole file.
-/

namespace PersClient.File

open Text

section Pieces

/-- What `read` may deliver of a file: pieces that are not empty, then nothing. -/
structure Delivers (content : Bytes) (chunks : List Bytes) : Prop where
  whole : chunks.flatten = content
  positive : [] ∉ chunks

/-- The buffer of `pclCalcCrc32Csum` after these pieces. -/
def bufferAfter (memory : Bytes) (chunks : List Bytes) : Bytes :=
  chunks.foldl (fun buf chunk => chunk ++ buf.drop chunk.length) memory

/-- The string `pclCalcCrc32Csum` leaves in an empty buffer, its memory being
what `malloc` returns. -/
def csumOfDelivery (memory content : Bytes) (chunks : List Bytes) : CStr :=
  csumOfReads content.length memory [] chunks

/-- The string for the checksum of these bytes. -/
def csumString (bytes : Bytes) : CStr := hex (pclCrc32 0 bytes).toNat

theorem snprintf_csumString (bytes : Bytes) :
    snprintf (checksumBufSize - 1) (csumString bytes) = csumString bytes := by
  apply snprintf_of_lt
  have hlt : (pclCrc32 0 bytes).toNat < 16 ^ 8 := UInt32.toNat_lt _
  exact lt_of_le_of_lt (hex_length_le (by omega) hlt) (by decide)

theorem csumString_inj {bytes bytes' : Bytes} :
    csumString bytes = csumString bytes' ↔ pclCrc32 0 bytes = pclCrc32 0 bytes' := by
  unfold csumString
  rw [hex_injective.eq_iff, UInt32.toNat_inj]

theorem csumOfReads_eq (stSize : ℕ) (memory : Bytes) (text : CStr) (chunks : List Bytes) :
    csumOfReads stSize memory text chunks =
      if chunks = [] then text else csumString ((bufferAfter memory chunks).take stSize) := by
  induction chunks generalizing memory text with
  | nil => rfl
  | cons chunk chunks ih =>
    rw [csumOfReads, ih, if_neg (List.cons_ne_nil chunk chunks)]
    cases chunks with
    | nil => exact snprintf_csumString _
    | cons => rfl

theorem bufferAfter_append {memory rest : Bytes} {chunks : List Bytes}
    (h : ∀ chunk ∈ chunks, chunk.length ≤ memory.length) :
    bufferAfter (memory ++ rest) chunks = bufferAfter memory chunks ++ rest ∧
      (bufferAfter memory chunks).length = memory.length := by
  induction chunks generalizing memory with
  | nil => exact ⟨rfl, rfl⟩
  | cons chunk chunks ih =>
    have hchunk := h chunk (List.mem_cons_self ..)
    have hlen : (chunk ++ memory.drop chunk.length).length = memory.length := by
      rw [List.length_append, List.length_drop]
      omega
    have hstep : chunk ++ (memory ++ rest).drop chunk.length =
        (chunk ++ memory.drop chunk.length) ++ rest := by
      rw [List.drop_append_of_le_length hchunk, List.append_assoc]
    have hrest : ∀ c ∈ chunks, c.length ≤ (chunk ++ memory.drop chunk.length).length := by
      intro c hc
      rw [hlen]
      exact h c (List.mem_cons_of_mem _ hc)
    have hafter := ih hrest
    rw [hlen] at hafter
    simp only [bufferAfter, List.foldl_cons, hstep]
    exact hafter

theorem Delivers.length_lt {content : Bytes} {chunks : List Bytes} (h : Delivers content chunks)
    (hmany : 2 ≤ chunks.length) : ∀ chunk ∈ chunks, chunk.length < content.length := by
  intro chunk hchunk
  obtain ⟨before, behind, rfl⟩ := List.append_of_mem hchunk
  have hother : ∃ other ∈ before ++ behind, other ≠ [] := by
    cases hall : before ++ behind with
    | nil =>
      obtain ⟨rfl, rfl⟩ := List.append_eq_nil_iff.mp hall
      simp at hmany
    | cons other others =>
      refine ⟨other, List.mem_cons_self .., ?_⟩
      rintro rfl
      apply h.positive
      have : [] ∈ before ++ behind := hall ▸ List.mem_cons_self ..
      rcases List.mem_append.mp this with hm | hm
      · exact List.mem_append_left _ hm
      · exact List.mem_append_right _ (List.mem_cons_of_mem _ hm)
  obtain ⟨other, hmem, hne⟩ := hother
  have hpos : 0 < (before ++ behind).flatten.length := by
    rw [List.length_pos_iff, ne_eq, List.flatten_eq_nil_iff]
    exact fun hall => hne (hall other hmem)
  rw [← h.whole]
  simp only [List.flatten_append, List.flatten_cons, List.length_append] at hpos ⊢
  omega

end Pieces

section Coverage

/-- Two bytes behind the same ones give different checksums, whatever these are. -/
theorem exists_last_bytes_apart (before : Bytes) :
    ∃ a b : UInt8, pclCrc32 0 (before ++ [a]) ≠ pclCrc32 0 (before ++ [b]) := by
  -- at most one byte is left out, so two of three are not
  have hapart : ∀ a b : UInt8, a ≠ b → ¬ LeftOut before a → ¬ LeftOut before b →
      pclCrc32 0 (before ++ [a]) ≠ pclCrc32 0 (before ++ [b]) := by
    intro a b hne ha hb heq
    rw [pclCrc32_eq_iff, registerAfter_concat, registerAfter_concat, if_neg ha, if_neg hb,
      crc32Update_right_inj] at heq
    exact hne heq
  have hone : ∀ a b : UInt8, a ≠ b → LeftOut before a → ¬ LeftOut before b := by
    intro a b hne ha hb
    unfold LeftOut at ha hb
    rw [← hb, tableIndex_right_inj] at ha
    exact hne ha
  by_cases h0 : LeftOut before 0
  · exact ⟨1, 2, hapart 1 2 (by decide) (hone 0 1 (by decide) h0) (hone 0 2 (by decide) h0)⟩
  · by_cases h1 : LeftOut before 1
    · exact ⟨0, 2, hapart 0 2 (by decide) h0 (hone 1 2 (by decide) h1)⟩
    · exact ⟨0, 1, hapart 0 1 (by decide) h0 h1⟩

/-- Whatever memory the buffer has, the string is the one of the whole file,
exactly if the file arrives in one piece. -/
theorem csum_covers_iff {content : Bytes} {chunks : List Bytes} (h : Delivers content chunks) :
    (∀ memory : Bytes, memory.length = content.length →
      csumOfDelivery memory content chunks = csumString content) ↔ chunks.length = 1 := by
  unfold csumOfDelivery
  simp only [csumOfReads_eq]
  constructor
  · intro hall
    by_contra hlen
    rcases Nat.lt_or_ge chunks.length 2 with hfew | hmany
    · have hnil : chunks = [] := List.length_eq_zero_iff.mp (by omega)
      have := hall content rfl
      rw [if_pos hnil] at this
      exact hex_ne_nil _ this.symm
    · have hlt := h.length_lt hmany
      have hsome : chunks ≠ [] := by
        rintro rfl
        simp at hmany
      obtain ⟨first, hfirst⟩ := List.exists_mem_of_ne_nil _ hsome
      have hpos := hlt first hfirst
      -- the last byte of the buffer is never written
      obtain ⟨hkeep, hsize⟩ : (∀ rest, bufferAfter (List.replicate (content.length - 1) 0 ++ rest)
          chunks = bufferAfter (List.replicate (content.length - 1) 0) chunks ++ rest) ∧
          (bufferAfter (List.replicate (content.length - 1) 0) chunks).length =
            content.length - 1 := by
        have hreach : ∀ chunk ∈ chunks,
            chunk.length ≤ (List.replicate (content.length - 1) (0 : UInt8)).length := by
          intro chunk hchunk
          have := hlt chunk hchunk
          rw [List.length_replicate]
          omega
        refine ⟨fun rest => (bufferAfter_append hreach).1, ?_⟩
        rw [(@bufferAfter_append _ [] _ hreach).2, List.length_replicate]
      obtain ⟨a, b, hne⟩ := exists_last_bytes_apart
        (bufferAfter (List.replicate (content.length - 1) 0) chunks)
      have hlast : ∀ g : UInt8,
          csumString (bufferAfter (List.replicate (content.length - 1) 0) chunks ++ [g]) =
            csumString content := by
        intro g
        have := hall (List.replicate (content.length - 1) 0 ++ [g]) (by simp; omega)
        rwa [if_neg hsome, hkeep, List.take_of_length_le (by simp [hsize]; omega)] at this
      exact hne (csumString_inj.mp ((hlast a).trans (hlast b).symm))
  · intro hone memory hmem
    obtain ⟨chunk, rfl⟩ := List.length_eq_one_iff.mp hone
    have hchunk : chunk = content := by simpa using h.whole
    subst hchunk
    rw [if_neg (List.cons_ne_nil _ _)]
    simp [bufferAfter]

theorem one_piece_covers :
    csumOfDelivery [0xFF, 0] [0x61, 0x62] [[0x61, 0x62]] = csumString [0x61, 0x62] := by
  have hdelivers : Delivers [0x61, 0x62] [[0x61, 0x62]] := ⟨rfl, by simp⟩
  exact (csum_covers_iff hdelivers).mpr rfl [0xFF, 0] rfl

/-- Nothing is stored for an empty file, and of a file in two pieces the first
byte is summed up twice. -/
theorem pieces_not_covered :
    ¬ (∀ (memory content : Bytes) (chunks : List Bytes), Delivers content chunks →
      memory.length = content.length →
        csumOfDelivery memory content chunks = csumString content) ∧
    csumOfDelivery [] [] [] = [] ∧ Delivers [] [] ∧
    csumOfDelivery [0, 0] [0x61, 0x62] [[0x61], [0x62]] = csumString [0x62, 0] ∧
    csumString [0x62, 0] ≠ csumString [0x61, 0x62] := by
  refine ⟨?_, rfl, ⟨rfl, by simp⟩, ?_, ?_⟩
  · intro h
    exact hex_ne_nil _ (h [] [] [] ⟨rfl, by simp⟩ rfl).symm
  · unfold csumOfDelivery
    rw [csumOfReads_eq, if_neg (List.cons_ne_nil _ _)]
    simp [bufferAfter]
  · rw [ne_eq, csumString_inj]
    decide +kernel

end Coverage

end PersClient.File
