import PersClient.Lib.Text

/-! # Character buffers

An array of characters and the functions that fill it as a C string. What is
written behind the end of the array is lost and only remembered as a spill.
-/

namespace PersClient

abbrev nul : Char := '\x00'

/-- An array of characters, and whether anything was written outside it. -/
structure Buffer where
  cells : List Char
  spilled : Bool := false
  deriving DecidableEq, Repr

namespace Buffer

def zeros (size : ℕ) : Buffer where
  cells := List.replicate size nul

def string (b : Buffer) : CStr := b.cells.takeWhile fun c => c ≠ nul

def write (b : Buffer) (position : ℕ) (text : List Char) : Buffer where
  cells := (b.cells.take position ++ text ++ b.cells.drop (position + text.length)).take
    b.cells.length
  spilled := b.spilled || b.cells.length < position + text.length

def snprintf (b : Buffer) (size : ℕ) (text : CStr) : Buffer :=
  if size = 0 then b else b.write 0 (text.take (size - 1) ++ [nul])

/-- `strncpy`: the zeros come behind a text that is shorter than `count`. -/
def strncpy (b : Buffer) (text : CStr) (count : ℕ) : Buffer :=
  b.write 0 (text.take count ++ List.replicate (count - text.length) nul)

/-- `strncat`: `count` bounds what is added, not what the array holds. -/
def strncat (b : Buffer) (text : CStr) (count : ℕ) : Buffer :=
  b.write b.string.length (text.take count ++ [nul])

structure Holds (b : Buffer) : Prop where
  inside : b.spilled = false
  terminated : nul ∈ b.cells

structure Spells (b : Buffer) (s : CStr) : Prop where
  inside : b.spilled = false
  cells : ∃ rest, b.cells = s ++ nul :: rest
  free : nul ∉ s

variable {b : Buffer} {s text : CStr} {size count position : ℕ}

theorem takeWhile_free {rest : List Char} (h : nul ∉ s) :
    (s ++ nul :: rest).takeWhile (fun c => c ≠ nul) = s := by
  have hs : ∀ c ∈ s, decide (c ≠ nul) = true := by
    intro c hc
    exact decide_eq_true fun heq => h (heq ▸ hc)
  rw [List.takeWhile_append_of_pos hs]
  simp

theorem Spells.string_eq (h : b.Spells s) : b.string = s := by
  obtain ⟨rest, hcells⟩ := h.cells
  unfold string
  rw [hcells]
  exact takeWhile_free h.free

theorem Spells.holds (h : b.Spells s) : b.Holds := by
  obtain ⟨rest, hcells⟩ := h.cells
  exact ⟨h.inside, hcells ▸ List.mem_append_right s List.mem_cons_self⟩

section Write

theorem write_length (h : position ≤ b.cells.length) :
    (b.write position text).cells.length = b.cells.length := by
  simp only [write, List.length_take, List.length_append, List.length_drop]
  omega

theorem write_spilled_of_le (h : position + text.length ≤ b.cells.length) :
    (b.write position text).spilled = b.spilled := by
  simp [write, not_lt.mpr h]

theorem write_spilled_of_lt (h : b.cells.length < position + text.length) :
    (b.write position text).spilled = true := by
  simp [write, h]

theorem write_cells (h : position + text.length ≤ b.cells.length) :
    (b.write position text).cells =
      b.cells.take position ++ text ++ b.cells.drop (position + text.length) := by
  refine List.take_of_length_le ?_
  simp only [List.length_append, List.length_take, List.length_drop]
  omega

end Write

section Snprintf

theorem snprintf_length : (b.snprintf size text).cells.length = b.cells.length := by
  unfold snprintf
  split
  · rfl
  · exact write_length (Nat.zero_le _)

theorem printed_length (hpos : 0 < size) (hsize : size ≤ b.cells.length) :
    0 + (text.take (size - 1) ++ [nul]).length ≤ b.cells.length := by
  simp only [List.length_append, List.length_take, List.length_singleton]
  omega

theorem Holds.snprintf (h : b.Holds) (hsize : size ≤ b.cells.length) :
    (b.snprintf size text).Holds := by
  unfold Buffer.snprintf
  split
  · exact h
  · rename_i hzero
    have hroom := @printed_length b text size (Nat.pos_of_ne_zero hzero) hsize
    constructor
    · rw [write_spilled_of_le hroom, h.inside]
    · rw [write_cells hroom]
      simp

theorem Holds.snprintf_spells (h : b.Holds) (hpos : 0 < size) (hsize : size ≤ b.cells.length)
    (hfree : nul ∉ text) : (b.snprintf size text).Spells (PersClient.snprintf size text) := by
  have hroom := @printed_length b text size hpos hsize
  unfold Buffer.snprintf
  rw [if_neg hpos.ne']
  constructor
  · rw [write_spilled_of_le hroom, h.inside]
  · rw [write_cells hroom]
    exact ⟨_, by simp [PersClient.snprintf]; rfl⟩
  · exact fun hmem => hfree (List.mem_of_mem_take hmem)

end Snprintf

section Zeros

@[simp] theorem zeros_length : (zeros size).cells.length = size := List.length_replicate

theorem zeros_spells (h : 0 < size) : (zeros size).Spells [] := by
  constructor
  · rfl
  · refine ⟨List.replicate (size - 1) nul, ?_⟩
    rw [List.nil_append, ← List.replicate_succ, Nat.sub_add_cancel h]
    rfl
  · exact List.not_mem_nil

theorem zeros_string : (zeros size).string = [] := by
  cases size with
  | zero => rfl
  | succ n => exact (zeros_spells (Nat.succ_pos n)).string_eq

theorem strncpy_zeros_holds (h : text.length < size) :
    ((zeros size).strncpy text text.length).Holds := by
  have hroom : 0 + (text.take text.length ++ List.replicate (text.length - text.length) nul).length
      ≤ (zeros size).cells.length := by
    simpa using h.le
  unfold strncpy
  constructor
  · rw [write_spilled_of_le hroom]
    rfl
  · rw [write_cells hroom]
    have hzeros : (zeros size).cells.drop text.length ≠ [] := by
      simp only [ne_eq, List.drop_eq_nil_iff, zeros_length]
      omega
    simp only [List.take_zero, List.nil_append, List.take_length, Nat.sub_self, List.replicate_zero,
      List.append_nil, Nat.zero_add]
    refine List.mem_append_right _ ?_
    obtain ⟨c, hc⟩ := List.exists_mem_of_ne_nil _ hzeros
    exact List.eq_of_mem_replicate (List.mem_of_mem_drop hc) ▸ hc

theorem strncpy_zeros_spells (h : text.length < size) (hfree : nul ∉ text) :
    ((zeros size).strncpy text text.length).Spells text := by
  have hroom : 0 + (text.take text.length ++ List.replicate (text.length - text.length) nul).length
      ≤ (zeros size).cells.length := by
    simpa using h.le
  refine ⟨(strncpy_zeros_holds h).inside, ?_, hfree⟩
  refine ⟨List.replicate (size - text.length - 1) nul, ?_⟩
  unfold strncpy
  rw [write_cells hroom, ← List.replicate_succ, show size - text.length - 1 + 1 = size - text.length
    by omega]
  simp [zeros]

/-- A text as long as the array leaves no room for an end, a longer one is
written behind it. -/
theorem strncpy_not_holds (h : b.cells.length ≤ text.length) (hfree : nul ∉ text) :
    ¬ (b.strncpy text text.length).Holds := by
  rintro ⟨hinside, hend⟩
  have htext : text.take text.length ++ List.replicate (text.length - text.length) nul = text := by
    simp
  unfold strncpy at hinside hend
  rw [htext] at hinside hend
  rcases h.lt_or_eq with hlt | heq
  · rw [write_spilled_of_lt (by omega)] at hinside
    cases hinside
  · rw [write_cells (by omega)] at hend
    have hbehind : b.cells.drop (0 + text.length) = [] := List.drop_of_length_le (by omega)
    rw [hbehind] at hend
    simp [hfree] at hend

end Zeros

section Strncat

theorem Spells.strncat (h : b.Spells s) (hfree : nul ∉ text) (hcount : text.length ≤ count)
    (hroom : s.length + text.length < b.cells.length) :
    (b.strncat text count).Spells (s ++ text) := by
  obtain ⟨rest, hcells⟩ := h.cells
  have hadded : text.take count = text := List.take_of_length_le hcount
  have hwithin : s.length + (text ++ [nul]).length ≤ b.cells.length := by
    simp only [List.length_append, List.length_singleton]
    omega
  unfold Buffer.strncat
  rw [h.string_eq, hadded]
  constructor
  · rw [write_spilled_of_le hwithin, h.inside]
  · refine ⟨b.cells.drop (s.length + (text ++ [nul]).length), ?_⟩
    rw [write_cells hwithin]
    simp [hcells]
  · exact fun hmem => (List.mem_append.mp hmem).elim h.free hfree

theorem strncat_length : (b.strncat text count).cells.length = b.cells.length :=
  write_length ((List.takeWhile_sublist _).length_le)

theorem Spells.strncat_spilled (h : b.Spells s) (hcount : text.length ≤ count)
    (hroom : b.cells.length ≤ s.length + text.length) : (b.strncat text count).spilled = true := by
  have hadded : text.take count = text := List.take_of_length_le hcount
  unfold Buffer.strncat
  rw [h.string_eq, hadded]
  refine write_spilled_of_lt ?_
  simp only [List.length_append, List.length_singleton]
  omega

theorem strncat_spilled_of (h : b.spilled = true) : (b.strncat text count).spilled = true := by
  simp [Buffer.strncat, write, h]

end Strncat

end Buffer

end PersClient
