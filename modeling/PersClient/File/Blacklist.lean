import PersClient.File.Backup
import PersClient.Lib.Pieces

/-! # The backup blacklist

The configuration file is mapped and cut in place: each character that is not
printable becomes a zero, and a fixed array keeps where the pieces start. The
array is not cleared between loads. What is stored are the checksums of those
pieces behind which another pointer stands.
-/

namespace PersClient.File

open Text Pieces

section Load

def tokenArraySize : ℕ := 255

/-- `gCharLookup`: the characters up to the blank, then the printable ones. -/
def gCharLookup : List ℕ :=
  List.replicate 32 0 ++ (0 :: List.replicate 31 1) ++ List.replicate 32 1 ++ List.replicate 31 1

structure Pointer where
  mapping : ℕ
  offset : ℕ
  deriving DecidableEq

structure Blacklist where
  gpTokenArray : ℕ → Option Pointer := fun _ => none
  gRbTreeBl : Option (List UInt32) := none
  mappings : ℕ := 0

/-- The loop of `fillFileBackupCharTokenArray` from a position on: the array and
the rest of the mapping as it leaves them, `none` for an index outside
`gCharLookup`. Characters beyond ASCII are outside, whether `char` is signed or not. -/
def fillFrom (mapping offset blankCount : ℕ) (array : ℕ → Option Pointer) :
    Bytes → Option ((ℕ → Option Pointer) × Bytes)
  | [] => some (array, [])
  | b :: rest =>
    match gCharLookup[b.toNat]? with
    | none => none
    | some 1 =>
      (fillFrom mapping (offset + 1) blankCount array rest).map fun (array, map) => (array, b :: map)
    | some _ =>
      if tokenArraySize ≤ blankCount then some (array, 0 :: rest)
      else
        let array := Function.update array blankCount (some ⟨mapping, offset + 1⟩)
        (fillFrom mapping (offset + 1) (blankCount + 1) array rest).map fun (array, map) =>
          (array, 0 :: map)

def fillFileBackupCharTokenArray (mapping customConfigFileSize : ℕ) (fileMap : Bytes)
    (array : ℕ → Option Pointer) : Option ((ℕ → Option Pointer) × Bytes) :=
  let array := Function.update array 0 (some ⟨mapping, 0⟩)
  (fillFrom mapping 0 1 array (fileMap.take customConfigFileSize)).map fun (array, map) =>
    (array, map ++ fileMap.drop customConfigFileSize)

def readString (fileMap : Bytes) (offset : ℕ) : Option Bytes :=
  if 0 ∈ fileMap.drop offset then some (textOf (fileMap.drop offset)) else none

/-- The string a pointer leads to: only the current mapping can be read. -/
def readPointer (mapping : ℕ) (fileMap : Bytes) (pointer : Option Pointer) : Option Bytes :=
  pointer.bind fun p => if p.mapping = mapping then readString fileMap p.offset else none

/-- The key of a file name: it is copied to a buffer of 128 characters first. -/
def nameKey (name : Bytes) : UInt32 := pclCrc32 0 (name.take 127)

/-- The loop of `createAndStoreFileNames`, `n` turns before the end of the array. -/
def storeFrom (mapping : ℕ) (fileMap : Bytes) (array : ℕ → Option Pointer) :
    ℕ → ℕ → List UInt32 → Option (List UInt32)
  | 0, _, keys => some keys
  | n + 1, i, keys =>
    if array (i + 1) = none then some keys
    else (readPointer mapping fileMap (array i)).bind fun name =>
      storeFrom mapping fileMap array n (i + 1) (keys.insert (nameKey name))

def createAndStoreFileNames (mapping : ℕ) (fileMap : Bytes) (array : ℕ → Option Pointer) :
    Option (List UInt32) := storeFrom mapping fileMap array (tokenArraySize - 1) 0 []

def mapFile (pageSize : ℕ) (content : Bytes) : Bytes :=
  content ++ List.replicate ((pageSize - content.length % pageSize) % pageSize) 0

/-- `readBlacklistConfigFile` for a file that is there and can be opened: its
result and the state after it, `none` where an access goes astray. -/
def readBlacklistConfigFile (pageSize : ℕ) (content : Bytes) (s : Blacklist) :
    Option (ℤ × Blacklist) :=
  if content = [] then some (epersCommon, s)
  else
    -- the size is handed on as an unsigned int
    (fillFileBackupCharTokenArray s.mappings (content.length % 2 ^ 32) (mapFile pageSize content)
      s.gpTokenArray).bind fun (array, fileMap) =>
        (createAndStoreFileNames s.mappings fileMap array).map fun keys =>
          (0, { gpTokenArray := array, gRbTreeBl := some keys, mappings := s.mappings + 1 })

def deleteBackupTree (s : Blacklist) : Blacklist := { s with gRbTreeBl := none }

/-- Successful loads one after the other, with `deleteBackupTree` before each. -/
def loads (pageSize : ℕ) : List Bytes → Blacklist → Option Blacklist
  | [], s => some s
  | content :: contents, s =>
    (readBlacklistConfigFile pageSize content (deleteBackupTree s)).bind fun r =>
      loads pageSize contents r.2

end Load

section Spec

def separator (b : UInt8) : Bool := gCharLookup[b.toNat]? ≠ some 1

/-- The characters the loop looks at, if `n` more pointers fit the array. -/
def scanned : ℕ → Bytes → Bytes
  | _, [] => []
  | n, b :: rest =>
    b :: if separator b then (match n with | 0 => [] | n + 1 => scanned n rest) else scanned n rest

def blanked (n : ℕ) (text : Bytes) : Bytes :=
  (scanned n text).map (fun b => if separator b then 0 else b) ++ text.drop (scanned n text).length

def added (n : ℕ) (text : Bytes) : ℕ := min n ((scanned n text).countP separator)

variable {n : ℕ} {b : UInt8} {rest tail : Bytes}

theorem lookup_eq_none : gCharLookup[b.toNat]? = none ↔ ¬ b < 0x7F := by
  rw [List.getElem?_eq_none_iff, UInt8.lt_iff_toNat_lt, not_lt]
  rfl

theorem lookup_eq_one : gCharLookup[b.toNat]? = some 1 ↔ separator b = false := by
  simp [separator]

theorem plain_ne_zero (hb : separator b = false) : b ≠ 0 := by
  rintro rfl
  exact absurd hb (by decide)

theorem scanned_plain (hb : separator b = false) : scanned n (b :: rest) = b :: scanned n rest := by
  simp [scanned, hb]

theorem scanned_break (hb : separator b = true) : scanned 0 (b :: rest) = [b] := by
  simp [scanned, hb]

theorem scanned_separator (hb : separator b = true) :
    scanned (n + 1) (b :: rest) = b :: scanned n rest := by
  simp [scanned, hb]

theorem blanked_plain (hb : separator b = false) : blanked n (b :: rest) = b :: blanked n rest := by
  simp [blanked, scanned_plain hb, hb]

theorem blanked_break (hb : separator b = true) : blanked 0 (b :: rest) = 0 :: rest := by
  simp [blanked, scanned_break hb, hb]

theorem blanked_separator (hb : separator b = true) :
    blanked (n + 1) (b :: rest) = 0 :: blanked n rest := by
  simp [blanked, scanned_separator hb, hb]

theorem added_plain (hb : separator b = false) : added n (b :: rest) = added n rest := by
  simp [added, scanned_plain hb, hb]

theorem added_separator (hb : separator b = true) : added (n + 1) (b :: rest) = added n rest + 1 := by
  simp [added, scanned_separator hb, hb]

def memoryPieces (memory : Bytes) : List Bytes := memory.splitOnP (· == 0)

theorem memoryPieces_zero (memory : Bytes) :
    memoryPieces (0 :: memory) = [] :: memoryPieces memory := by
  rw [memoryPieces, List.splitOnP_cons_eq_if_modifyHead]
  rfl

theorem memoryPieces_plain (hb : b ≠ 0) (memory : Bytes) :
    memoryPieces (b :: memory) = (memoryPieces memory).modifyHead (List.cons b) := by
  rw [memoryPieces, List.splitOnP_cons_eq_if_modifyHead, if_neg (by simpa using hb)]
  rfl

theorem memoryPieces_ne_nil {memory : Bytes} : memoryPieces memory ≠ [] :=
  List.splitOnP_ne_nil _ _

def pointersFrom (mapping offset blankCount count : ℕ) (memory : Bytes)
    (array : ℕ → Option Pointer) (j : ℕ) : Option Pointer :=
  if blankCount ≤ j ∧ j < blankCount + count then
    some ⟨mapping, offset + startOf (memoryPieces memory) (j - blankCount + 1)⟩
  else array j

theorem pointersFrom_zero {mapping offset blankCount count j : ℕ} {memory : Bytes}
    {array : ℕ → Option Pointer} :
    pointersFrom mapping (offset + 1) (blankCount + 1) count memory
        (Function.update array blankCount (some ⟨mapping, offset + 1⟩)) j =
      pointersFrom mapping offset blankCount (count + 1) (0 :: memory) array j := by
  unfold pointersFrom
  by_cases hlow : j < blankCount
  · rw [if_neg (by omega), if_neg (by omega), Function.update_of_ne (by omega)]
  by_cases hj : j = blankCount
  · subst hj
    rw [if_neg (by omega), if_pos (by omega), Function.update_self, memoryPieces_zero, Nat.sub_self,
      startOf_cons]
    rfl
  by_cases hhigh : j < blankCount + 1 + count
  · have hnext : j - blankCount = j - (blankCount + 1) + 1 := by omega
    rw [if_pos (by omega), if_pos (by omega), memoryPieces_zero, hnext, startOf_cons]
    simp only [List.length_nil, Nat.zero_add, Nat.add_assoc]
  · rw [if_neg (by omega), if_neg (by omega), Function.update_of_ne hj]

def InTable (n : ℕ) (text : Bytes) : Prop := ∀ b ∈ scanned n text, b < 0x7F

instance (n : ℕ) (text : Bytes) : Decidable (InTable n text) := List.decidableBAll _ _

theorem inTable_plain (h : separator b = false) (hlt : b < 0x7F) :
    InTable n (b :: rest) ↔ InTable n rest := by
  simp only [InTable, scanned_plain h, List.forall_mem_cons, hlt, true_and]

theorem inTable_separator (h : separator b = true) (hlt : b < 0x7F) :
    InTable (n + 1) (b :: rest) ↔ InTable n rest := by
  simp only [InTable, scanned_separator h, List.forall_mem_cons, hlt, true_and]

theorem inTable_break (h : separator b = true) (hlt : b < 0x7F) : InTable 0 (b :: rest) := by
  simpa only [InTable, scanned_break h, List.forall_mem_singleton] using hlt

/-- The loop stays inside the table as long as all it looks at is ASCII, and
sets the pointers to the pieces of the memory it leaves. -/
theorem fillFrom_eq (mapping offset : ℕ) {blankCount : ℕ} (hcount : blankCount ≤ tokenArraySize)
    (array : ℕ → Option Pointer) (text tail : Bytes) :
    fillFrom mapping offset blankCount array text =
      if InTable (tokenArraySize - blankCount) text then
        some (pointersFrom mapping offset blankCount (added (tokenArraySize - blankCount) text)
          (blanked (tokenArraySize - blankCount) text ++ tail) array,
          blanked (tokenArraySize - blankCount) text)
      else none := by
  induction text generalizing offset blankCount array with
  | nil =>
    have hsame : pointersFrom mapping offset blankCount 0 tail array = array := by
      funext j
      exact if_neg (by omega)
    simp [fillFrom, InTable, scanned, blanked, added, hsame]
  | cons b rest ih =>
    unfold fillFrom
    split
    · rename_i hnone
      rw [if_neg]
      intro hall
      exact lookup_eq_none.mp hnone (hall b (by simp [scanned]))
    · rename_i hsome
      have hb := lookup_eq_one.mp hsome
      have hlt : b < 0x7F := by
        by_contra hge
        rw [lookup_eq_none.mpr hge] at hsome
        cases hsome
      have hpointers : pointersFrom mapping (offset + 1) blankCount
            (added (tokenArraySize - blankCount) rest)
            (blanked (tokenArraySize - blankCount) rest ++ tail) array =
          pointersFrom mapping offset blankCount (added (tokenArraySize - blankCount) rest)
            (b :: (blanked (tokenArraySize - blankCount) rest ++ tail)) array := by
        funext j
        unfold pointersFrom
        rw [memoryPieces_plain (plain_ne_zero hb), startOf_modifyHead memoryPieces_ne_nil]
        simp only [Nat.add_right_comm offset 1, Nat.add_assoc]
      rw [ih (offset + 1) hcount, blanked_plain hb, added_plain hb]
      simp only [inTable_plain hb hlt]
      split
      · simp only [Option.map_some, List.cons_append, hpointers]
      · rfl
    · rename_i value hone hsome
      have hb : separator b = true := by
        by_contra hplain
        rw [lookup_eq_one.mpr (Bool.eq_false_iff.mpr hplain)] at hsome
        exact hone (Option.some.inj hsome).symm
      have hlt : b < 0x7F := by
        by_contra hge
        rw [lookup_eq_none.mpr hge] at hsome
        cases hsome
      split
      · -- the array is full
        have hfull : tokenArraySize - blankCount = 0 := by omega
        have hsame : pointersFrom mapping offset blankCount (added 0 (b :: rest))
            (blanked 0 (b :: rest) ++ tail) array = array := by
          funext j
          exact if_neg (by simp only [added]; omega)
        rw [hfull, hsame, if_pos (inTable_break hb hlt), blanked_break hb]
      · have hleft : tokenArraySize - blankCount = tokenArraySize - (blankCount + 1) + 1 := by omega
        have hpointers : pointersFrom mapping (offset + 1) (blankCount + 1)
              (added (tokenArraySize - (blankCount + 1)) rest)
              (blanked (tokenArraySize - (blankCount + 1)) rest ++ tail)
              (Function.update array blankCount (some ⟨mapping, offset + 1⟩)) =
            pointersFrom mapping offset blankCount
              (added (tokenArraySize - (blankCount + 1)) rest + 1)
              (0 :: (blanked (tokenArraySize - (blankCount + 1)) rest ++ tail)) array := by
          funext j
          exact pointersFrom_zero
        extract_lets filled
        rw [ih (offset + 1) (by omega), hleft, blanked_separator hb, added_separator hb]
        simp only [inTable_separator hb hlt]
        split
        · simp only [Option.map_some, List.cons_append, filled, hpointers]
        · rfl

end Spec

section Loads

def mapped (content : Bytes) : Bytes := content.take (content.length % 2 ^ 32)

def memoryAfter (pageSize : ℕ) (content : Bytes) : Bytes :=
  blanked (tokenArraySize - 1) (mapped content) ++
    (mapFile pageSize content).drop (content.length % 2 ^ 32)

/-- How many pointers a load sets: one for each separator and the first. -/
def pointerCount (content : Bytes) : ℕ := 1 + added (tokenArraySize - 1) (mapped content)

/-- A load stays inside the table and inside the mapping: everything it looks at
is ASCII, at most one pointer of earlier loads stands behind its own, and the
names it reads are ended inside the mapping. -/
structure Loadable (pageSize earlier : ℕ) (content : Bytes) : Prop where
  ascii : ∀ b ∈ scanned (tokenArraySize - 1) (mapped content), b < 0x7F
  fresh : earlier ≤ pointerCount content + 1
  ended : max earlier (pointerCount content) ≤
    (memoryPieces (memoryAfter pageSize content)).length

/-- How many pointers a sequence of loads leaves in the array. -/
def pointersLeft (earlier : ℕ) (contents : List Bytes) : ℕ :=
  contents.foldl (fun count content => max count (pointerCount content)) earlier

/-- All loads of a sequence stay inside. -/
def AllLoadable (pageSize : ℕ) : ℕ → List Bytes → Prop
  | _, [] => True
  | earlier, content :: contents =>
    Loadable pageSize earlier content ∧
      AllLoadable pageSize (max earlier (pointerCount content)) contents

/-- The names a load stores: those behind which another pointer stands. -/
def storedNames (pageSize earlier : ℕ) (content : Bytes) : List Bytes :=
  (memoryPieces (memoryAfter pageSize content)).take (max earlier (pointerCount content) - 1)

def printable (b : UInt8) : Bool := 0x21 ≤ b && b ≤ 0x7E

/-- The maximal runs of printable non-blank characters. -/
def fileTokens (content : Bytes) : List Bytes :=
  (content.splitOnP fun b => !printable b).filter (· ≠ [])

/-- The array between loads: `count` pointers, all into earlier mappings. -/
structure Blacklist.Filled (s : Blacklist) (count : ℕ) : Prop where
  bound : count ≤ tokenArraySize
  filled : ∀ j, s.gpTokenArray j = none ↔ count ≤ j
  old : ∀ j p, s.gpTokenArray j = some p → p.mapping < s.mappings

variable {pageSize mapping earlier count i n : ℕ} {content : Bytes} {fileMap : Bytes}
  {array : ℕ → Option Pointer} {s : Blacklist}

theorem pointerCount_le (content : Bytes) : pointerCount content ≤ tokenArraySize := by
  simp only [pointerCount, added, tokenArraySize]
  omega

theorem readString_piece {memory : Bytes} {j : ℕ} (hj : j + 1 < (memoryPieces memory).length) :
    readString memory (startOf (memoryPieces memory) j) = some (memoryPieces memory)[j] := by
  obtain ⟨c, rest, hc, hfree, hdrop⟩ := drop_startOf hj
  have hzero : c = 0 := by simpa using hc
  subst hzero
  have hdrop : memory.drop (startOf (memoryPieces memory) j) = (memoryPieces memory)[j] ++ 0 :: rest :=
    hdrop
  unfold readString
  rw [hdrop, if_pos (by simp), textOf, List.takeWhile_append_of_pos]
  · simp
  · intro b hb
    have := hfree b hb
    simpa using this

theorem readString_last {memory : Bytes} {j : ℕ} (hj : (memoryPieces memory).length ≤ j + 1) :
    readString memory (startOf (memoryPieces memory) j) = none := by
  unfold readString
  rw [if_neg]
  intro hzero
  have := drop_startOf_last hj 0 hzero
  simp at this

theorem storeFrom_some {name : ℕ → Bytes} (hbound : count ≤ tokenArraySize)
    (hfilled : ∀ j, array j = none ↔ count ≤ j) (hn : n + i = tokenArraySize - 1)
    (hread : ∀ j, i ≤ j → j + 1 < count → readPointer mapping fileMap (array j) = some (name j))
    (keys : List UInt32) :
    ∃ stored, storeFrom mapping fileMap array n i keys = some stored ∧
      ∀ k, k ∈ stored ↔ k ∈ keys ∨ ∃ j, i ≤ j ∧ j + 1 < count ∧ nameKey (name j) = k := by
  induction n generalizing i keys with
  | zero =>
    refine ⟨keys, rfl, fun k => ⟨Or.inl, ?_⟩⟩
    rintro (hk | ⟨j, hij, hj, -⟩)
    · exact hk
    · omega
  | succ n ih =>
    unfold storeFrom
    split
    · rename_i hend
      have hend := (hfilled (i + 1)).mp hend
      refine ⟨keys, rfl, fun k => ⟨Or.inl, ?_⟩⟩
      rintro (hk | ⟨j, hij, hj, -⟩)
      · exact hk
      · omega
    · rename_i hmore
      have hmore : i + 1 < count := not_le.mp (mt (hfilled (i + 1)).mpr hmore)
      obtain ⟨stored, hstored, hmem⟩ := ih (i := i + 1) (by omega) (fun j hj => hread j (by omega))
        (keys.insert (nameKey (name i)))
      refine ⟨stored, by rw [hread i le_rfl hmore]; exact hstored, fun k => ?_⟩
      rw [hmem, List.mem_insert_iff]
      constructor
      · rintro ((rfl | hk) | ⟨j, hij, hj⟩)
        · exact Or.inr ⟨i, le_rfl, hmore, rfl⟩
        · exact Or.inl hk
        · exact Or.inr ⟨j, by omega, hj⟩
      · rintro (hk | ⟨j, hij, hj, rfl⟩)
        · exact Or.inl (Or.inr hk)
        · rcases hij.eq_or_lt with rfl | hlt
          · exact Or.inl (Or.inl rfl)
          · exact Or.inr ⟨j, hlt, hj, rfl⟩

theorem storeFrom_none (hfilled : ∀ j, array j = none ↔ count ≤ j)
    (hn : n + i = tokenArraySize - 1) (hbound : count ≤ tokenArraySize) {j : ℕ} (hij : i ≤ j)
    (hj : j + 1 < count) (hread : readPointer mapping fileMap (array j) = none)
    (keys : List UInt32) : storeFrom mapping fileMap array n i keys = none := by
  induction n generalizing i keys with
  | zero => omega
  | succ n ih =>
    unfold storeFrom
    have hmore : ¬ array (i + 1) = none := by
      rw [hfilled (i + 1)]
      omega
    rw [if_neg hmore]
    rcases hij.eq_or_lt with rfl | hlt
    · rw [hread]
      rfl
    · cases readPointer mapping fileMap (array i) with
      | none => rfl
      | some name => exact ih (by omega) hlt _

theorem mapFile_take (pageSize : ℕ) (content : Bytes) :
    (mapFile pageSize content).take (content.length % 2 ^ 32) = mapped content :=
  List.take_append_of_le_length (Nat.mod_le _ _)

def arrayAfter (mapping pageSize : ℕ) (content : Bytes) (array : ℕ → Option Pointer) (j : ℕ) :
    Option Pointer :=
  if j < pointerCount content then
    some ⟨mapping, startOf (memoryPieces (memoryAfter pageSize content)) j⟩
  else array j

theorem fillFileBackupCharTokenArray_eq (mapping pageSize : ℕ) (content : Bytes)
    (array : ℕ → Option Pointer) :
    fillFileBackupCharTokenArray mapping (content.length % 2 ^ 32) (mapFile pageSize content) array =
      if InTable (tokenArraySize - 1) (mapped content) then
        some (arrayAfter mapping pageSize content array, memoryAfter pageSize content)
      else none := by
  have hone : 1 ≤ tokenArraySize := by decide
  have harray : pointersFrom mapping 0 1 (added (tokenArraySize - 1) (mapped content))
      (memoryAfter pageSize content) (Function.update array 0 (some ⟨mapping, 0⟩)) =
        arrayAfter mapping pageSize content array := by
    funext j
    unfold pointersFrom arrayAfter pointerCount
    rcases Nat.eq_zero_or_pos j with rfl | hj
    · rw [if_neg (by omega), if_pos (by omega), Function.update_self, startOf_zero]
    · simp only [Nat.sub_add_cancel hj, Nat.zero_add, Function.update_of_ne hj.ne']
      exact if_congr (and_iff_right hj) rfl rfl
  unfold fillFileBackupCharTokenArray
  extract_lets first
  rw [mapFile_take, fillFrom_eq mapping 0 hone first (mapped content)
    ((mapFile pageSize content).drop (content.length % 2 ^ 32))]
  split
  · exact congrArg (fun array => some (array, memoryAfter pageSize content)) harray
  · rfl

/-- The pointers after a load: those of the earlier loads reach further or not. -/
theorem arrayAfter_filled (hs : s.Filled earlier) (pageSize : ℕ) (content : Bytes)
    (keys : List UInt32) :
    Blacklist.Filled {
      gpTokenArray := arrayAfter s.mappings pageSize content s.gpTokenArray
      gRbTreeBl := some keys, mappings := s.mappings + 1 } (max earlier (pointerCount content)) where
  bound := max_le hs.bound (pointerCount_le content)
  filled j := by
    change arrayAfter s.mappings pageSize content s.gpTokenArray j = none ↔ _
    unfold arrayAfter
    split
    · simp only [reduceCtorEq, false_iff]
      omega
    · rw [hs.filled j]
      omega
  old j p hp := by
    change arrayAfter s.mappings pageSize content s.gpTokenArray j = some p at hp
    unfold arrayAfter at hp
    split at hp
    · cases hp
      exact Nat.lt_succ_self _
    · exact Nat.lt_succ_of_lt (hs.old j p hp)

theorem readPointer_fresh {j : ℕ} (hj : j < pointerCount content)
    (hended : j + 1 < (memoryPieces (memoryAfter pageSize content)).length) :
    readPointer mapping (memoryAfter pageSize content)
        (arrayAfter mapping pageSize content array j) =
      some (memoryPieces (memoryAfter pageSize content))[j] := by
  unfold readPointer arrayAfter
  rw [if_pos hj, Option.bind_some, if_pos rfl]
  exact readString_piece hended

theorem readPointer_stale (hs : s.Filled earlier) {j : ℕ}
    (hj : ¬ (j < pointerCount content ∧
      j + 1 < (memoryPieces (memoryAfter pageSize content)).length)) :
    readPointer s.mappings (memoryAfter pageSize content)
        (arrayAfter s.mappings pageSize content s.gpTokenArray j) = none := by
  unfold readPointer arrayAfter
  split
  · rename_i hfresh
    rw [Option.bind_some, if_pos rfl]
    exact readString_last (by omega)
  · cases hp : s.gpTokenArray j with
    | none => rfl
    | some p => exact if_neg (hs.old j p hp).ne

theorem loadable_iff :
    Loadable pageSize earlier content ↔
      InTable (tokenArraySize - 1) (mapped content) ∧
        ∀ j, j + 1 < max earlier (pointerCount content) → j < pointerCount content ∧
          j + 1 < (memoryPieces (memoryAfter pageSize content)).length := by
  have hpieces : 0 < (memoryPieces (memoryAfter pageSize content)).length :=
    List.length_pos_iff.mpr memoryPieces_ne_nil
  have hpos : 1 ≤ pointerCount content := Nat.le_add_right _ _
  constructor
  · rintro ⟨hascii, hfresh, hended⟩
    exact ⟨hascii, fun j hj => by omega⟩
  · rintro ⟨hascii, hread⟩
    constructor
    · exact hascii
    · have := hread (max earlier (pointerCount content) - 2)
      omega
    · have := hread (max earlier (pointerCount content) - 2)
      omega

theorem readBlacklistConfigFile_some (hs : s.Filled earlier) (hne : content ≠ [])
    (h : Loadable pageSize earlier content) :
    ∃ bl keys, readBlacklistConfigFile pageSize content s = some (0, bl) ∧
      bl.Filled (max earlier (pointerCount content)) ∧ bl.gRbTreeBl = some keys ∧
      ∀ k, k ∈ keys ↔ ∃ name ∈ storedNames pageSize earlier content, nameKey name = k := by
  have hfilled := arrayAfter_filled hs pageSize content
  obtain ⟨hascii, hread⟩ := loadable_iff.mp h
  have hname : ∀ j, 0 ≤ j → j + 1 < max earlier (pointerCount content) →
      readPointer s.mappings (memoryAfter pageSize content)
          (arrayAfter s.mappings pageSize content s.gpTokenArray j) =
        some ((memoryPieces (memoryAfter pageSize content))[j]?.getD []) := by
    intro j _ hj
    obtain ⟨hfresh, hended⟩ := hread j hj
    rw [readPointer_fresh hfresh hended, List.getElem?_eq_getElem, Option.getD_some]
  obtain ⟨keys, hkeys, hmem⟩ := storeFrom_some (hfilled []).bound (hfilled []).filled
    (Nat.add_zero _) hname []
  refine ⟨_, keys, ?_, hfilled keys, rfl, fun k => ?_⟩
  · unfold readBlacklistConfigFile
    rw [if_neg hne, fillFileBackupCharTokenArray_eq, if_pos hascii, Option.bind_some]
    simp only [createAndStoreFileNames, hkeys, Option.map_some]
  · rw [hmem]
    constructor
    · rintro (hk | ⟨j, -, hj, rfl⟩)
      · cases hk
      · have hlt := (hread j hj).2
        refine ⟨_, List.mem_take_iff_getElem.mpr ⟨j, by omega, rfl⟩, ?_⟩
        rw [List.getElem?_eq_getElem, Option.getD_some]
    · rintro ⟨name, hname, rfl⟩
      obtain ⟨j, hj, rfl⟩ := List.mem_take_iff_getElem.mp hname
      refine Or.inr ⟨j, Nat.zero_le j, by omega, ?_⟩
      rw [List.getElem?_eq_getElem, Option.getD_some]

theorem readBlacklistConfigFile_none (hs : s.Filled earlier) (hne : content ≠ [])
    (h : ¬ Loadable pageSize earlier content) :
    readBlacklistConfigFile pageSize content s = none := by
  have hfilled := arrayAfter_filled hs pageSize content []
  unfold readBlacklistConfigFile
  rw [if_neg hne, fillFileBackupCharTokenArray_eq]
  split
  · rename_i hascii
    have hread : ∃ j, j + 1 < max earlier (pointerCount content) ∧
        ¬ (j < pointerCount content ∧
          j + 1 < (memoryPieces (memoryAfter pageSize content)).length) := by
      by_contra hall
      refine h (loadable_iff.mpr ⟨hascii, fun j hj => ?_⟩)
      by_contra hstale
      exact hall ⟨j, hj, hstale⟩
    obtain ⟨j, hj, hstale⟩ := hread
    have hnone := storeFrom_none hfilled.filled (Nat.add_zero _) hfilled.bound (Nat.zero_le j) hj
      (readPointer_stale hs hstale) []
    simp only [Option.bind_some, createAndStoreFileNames, hnone, Option.map_none]
  · rfl

theorem deleteBackupTree_filled (hs : s.Filled earlier) : (deleteBackupTree s).Filled earlier :=
  ⟨hs.bound, hs.filled, hs.old⟩

theorem loads_some {contents : List Bytes} (hs : s.Filled earlier) (hne : ∀ c ∈ contents, c ≠ [])
    (h : AllLoadable pageSize earlier contents) :
    ∃ bl, loads pageSize contents s = some bl ∧ bl.Filled (pointersLeft earlier contents) := by
  induction contents generalizing earlier s with
  | nil => exact ⟨s, rfl, hs⟩
  | cons content contents ih =>
    obtain ⟨bl, keys, hload, hfilled, -⟩ := readBlacklistConfigFile_some
      (deleteBackupTree_filled hs) (hne content List.mem_cons_self) h.1
    obtain ⟨bl', hloads, hfilled'⟩ := ih hfilled
      (fun c hc => hne c (List.mem_cons_of_mem _ hc)) h.2
    refine ⟨bl', ?_, hfilled'⟩
    simp only [loads, hload, Option.bind_some, hloads]

theorem loads_none {contents : List Bytes} (hs : s.Filled earlier) (hne : ∀ c ∈ contents, c ≠ [])
    (h : ¬ AllLoadable pageSize earlier contents) : loads pageSize contents s = none := by
  induction contents generalizing earlier s with
  | nil => exact absurd trivial h
  | cons content contents ih =>
    have hs := deleteBackupTree_filled hs
    by_cases hload : Loadable pageSize earlier content
    · obtain ⟨bl, keys, hload', hfilled, -⟩ := readBlacklistConfigFile_some hs
        (hne content List.mem_cons_self) hload
      have hrest := ih hfilled (fun c hc => hne c (List.mem_cons_of_mem _ hc))
        (fun hall => h ⟨hload, hall⟩)
      simp only [loads, hload', Option.bind_some, hrest]
    · simp only [loads, readBlacklistConfigFile_none hs (hne content List.mem_cons_self) hload,
        Option.bind_none]

theorem loads_append (contents rest : List Bytes) (s : Blacklist) :
    loads pageSize (contents ++ rest) s =
      (loads pageSize contents s).bind (loads pageSize rest) := by
  induction contents generalizing s with
  | nil => rfl
  | cons content contents ih =>
    simp only [List.cons_append, loads, ih, Option.bind_assoc]

theorem allLoadable_append (contents rest : List Bytes) (earlier : ℕ) :
    AllLoadable pageSize earlier (contents ++ rest) ↔
      AllLoadable pageSize earlier contents ∧
        AllLoadable pageSize (pointersLeft earlier contents) rest := by
  induction contents generalizing earlier with
  | nil => exact ⟨fun h => ⟨trivial, h⟩, fun h => h.2⟩
  | cons content contents ih =>
    simp only [List.cons_append, AllLoadable, ih, and_assoc]
    rfl

/-- After the loads `contents` and `last`, all of them inside the table and the
mapping, a path needs no backup if and only if it is a token of `last`. -/
def ExactAfter (pageSize : ℕ) (contents : List Bytes) (last : Bytes) (path : CStr) : Prop :=
  ∃ bl, loads pageSize (contents ++ [last]) {} = some bl ∧
    (pclBackupNeeded bl.gRbTreeBl path = false ↔ CStr.toBytes path ∈ fileTokens last)

theorem start_filled : Blacklist.Filled {} 0 where
  bound := Nat.zero_le _
  filled j := ⟨fun _ => Nat.zero_le j, fun _ => rfl⟩
  old j p hp := by cases hp

theorem loads_last {contents : List Bytes} {last : Bytes} (hne : ∀ c ∈ contents, c ≠ [])
    (hlast : last ≠ []) (h : AllLoadable pageSize 0 (contents ++ [last])) :
    ∃ bl, loads pageSize (contents ++ [last]) {} = some bl ∧
      ∀ path, pclBackupNeeded bl.gRbTreeBl path = false ↔
        ∃ name ∈ storedNames pageSize (pointersLeft 0 contents) last,
          nameKey name = pclCrc32 0 (CStr.toBytes path) := by
  obtain ⟨hcontents, hload, -⟩ := (allLoadable_append contents [last] 0).mp h
  obtain ⟨s, hloads, hs⟩ := loads_some start_filled hne hcontents
  obtain ⟨bl, keys, hlast, -, hkeys, hmem⟩ :=
    readBlacklistConfigFile_some (deleteBackupTree_filled hs) hlast hload
  refine ⟨bl, ?_, fun path => ?_⟩
  · rw [loads_append, hloads, Option.bind_some, loads, hlast]
    rfl
  · rw [pclBackupNeeded, hkeys, ← hmem]
    simp [needBackupKey]

end Loads

/-- The loads have to stay inside, a token has to be among the stored names or
share the checksum of one, and any other path must not. Names are stored without
what stands behind their 127th character. -/
theorem exactAfter_iff {pageSize : ℕ} {contents : List Bytes} {last : Bytes}
    (hne : ∀ c ∈ contents, c ≠ []) (hlast : last ≠ []) (path : CStr) :
    ExactAfter pageSize contents last path ↔
      AllLoadable pageSize 0 (contents ++ [last]) ∧
      (CStr.toBytes path ∈ fileTokens last →
        ∃ name ∈ storedNames pageSize (pointersLeft 0 contents) last,
          nameKey name = pclCrc32 0 (CStr.toBytes path)) ∧
      (CStr.toBytes path ∉ fileTokens last →
        ∀ name ∈ storedNames pageSize (pointersLeft 0 contents) last,
          nameKey name ≠ pclCrc32 0 (CStr.toBytes path)) := by
  by_cases hall : AllLoadable pageSize 0 (contents ++ [last])
  · obtain ⟨bl, hbl, hneeded⟩ := loads_last hne hlast hall
    constructor
    · rintro ⟨bl', hbl', hexact⟩
      cases hbl.symm.trans hbl'
      refine ⟨hall, fun htoken => (hneeded path).mp (hexact.mpr htoken), ?_⟩
      rintro hno name hname hkey
      exact hno (hexact.mp ((hneeded path).mpr ⟨name, hname, hkey⟩))
    · rintro ⟨-, htoken, hother⟩
      refine ⟨bl, hbl, fun hno => ?_, fun h => (hneeded path).mpr (htoken h)⟩
      by_contra hnot
      obtain ⟨name, hname, hkey⟩ := (hneeded path).mp hno
      exact hother hnot name hname hkey
  · constructor
    · rintro ⟨bl, hbl, -⟩
      have hnone : loads pageSize (contents ++ [last]) {} = none := by
        refine loads_none start_filled (fun c hc => ?_) hall
        rcases List.mem_append.mp hc with hc | hc
        · exact hne c hc
        · rwa [List.mem_singleton.mp hc]
      cases hnone.symm.trans hbl
    · exact fun h => absurd h.1 hall

/-- A file of one line. -/
theorem line_exactAfter :
    ExactAfter 4096 [] (CStr.toBytes (cstr "/a\n")) (cstr "/a") := by
  refine (exactAfter_iff (by simp) (by decide +kernel) _).mpr ⟨⟨⟨?_, ?_, ?_⟩, trivial⟩, ?_, ?_⟩
  · decide +kernel
  · decide +kernel
  · decide +kernel
  · exact fun _ => ⟨CStr.toBytes (cstr "/a"), by decide +kernel, by decide +kernel⟩
  · exact fun hno => absurd (by decide +kernel) hno

/-- Without a newline at its end the last line of a file is not stored. -/
theorem openLine_not_exactAfter :
    ¬ ∀ (contents : List Bytes) (last : Bytes) (path : CStr), (∀ c ∈ contents, c ≠ []) →
      last ≠ [] → ExactAfter 4096 contents last path := by
  intro h
  obtain ⟨bl, hbl, hexact⟩ := h [] (CStr.toBytes (cstr "/a")) (cstr "/a") (by simp)
    (by decide +kernel)
  have hneeded : (loads 4096 ([] ++ [CStr.toBytes (cstr "/a")]) {}).map
      (fun bl => pclBackupNeeded bl.gRbTreeBl (cstr "/a")) = some true := by decide +kernel
  rw [hbl, Option.map_some, hexact.mpr (by decide +kernel)] at hneeded
  cases hneeded

end PersClient.File
