import PersClient.File.Blacklist
import PersClient.Key.Plugin

/-! # The configuration of the custom libraries

`custom_loader.c`: the configuration file is cut in place like the backup
blacklist. The pieces are read four at a time, until one of the four pointers is
null; each group is the name of a library, its path and when and how it is
initialised. The pointers are not cleared before another file is loaded, and a
name nobody knows has a number behind the array.
-/

namespace PersClient.Key

open File Text Pieces

section Source

/-- The value of `PersistenceCustomLibs_e`; there is no library with number 3. -/
def PersistenceCustomLibs.code : PersistenceCustomLibs → ℕ
  | .default => 0
  | .early => 1
  | .secure => 2
  | .emergency => 4
  | .hwInfo => 5
  | .custom1 => 6
  | .custom2 => 7
  | .custom3 => 8
  | .lastEntry => 9

def persCustomPathSize : ℕ := 24

/-- `strncmp`, as a test for equality. -/
def sameText (a b : CStr) (n : ℕ) : Bool := a.take n = b.take n

/-- `custom_client_name_to_id` for a whole name. -/
def customClientNameToIdExact (libName : CStr) : PersistenceCustomLibs :=
  if sameText libName (cstr "default") persCustomPathSize then .default
  else if sameText libName (cstr "early") persCustomPathSize then .early
  else if sameText libName (cstr "secure") persCustomPathSize then .secure
  else if sameText libName (cstr "emergency") persCustomPathSize then .emergency
  else if sameText libName (cstr "hwinfo") persCustomPathSize then .hwInfo
  else if sameText libName (cstr "custom1") persCustomPathSize then .custom1
  else if sameText libName (cstr "custom2") persCustomPathSize then .custom2
  else if sameText libName (cstr "custom3") persCustomPathSize then .custom3
  else .lastEntry

def getLoadingType (type : CStr) : PersLoadingType :=
  if type = cstr "init" then .pclInit
  else if type = cstr "od" then .onDemand
  else .undefined

def getInitType (policy : CStr) : PersInitType :=
  if policy = cstr "sync" then .synchronous
  else if policy = cstr "async" then .asynchronous
  else .undefined

structure CustomLibEntry where
  info : PersCustomLibInfo
  valid : ℤ

/-- The variables of the loader. The mappings of all files loaded so far stay. -/
structure CustomLoader where
  gpCustomTokenArray : ℕ → Option Pointer := fun _ => none
  gCustomLibArray : ℕ → CustomLibEntry
  mappings : List Bytes := []

/-- `fillCustomCharTokenArray` is the function of the blacklist on another array. -/
def fillCustomCharTokenArray (mapping customConfigFileSize : ℕ) (fileMap : Bytes)
    (gpCustomTokenArray : ℕ → Option Pointer) : Option ((ℕ → Option Pointer) × Bytes) :=
  fillFileBackupCharTokenArray mapping customConfigFileSize fileMap gpCustomTokenArray

/-- Characters as they are compared and stored. -/
def chars (text : Bytes) : CStr := text.map fun b => Char.ofNat b.toNat

/-- The string a pointer leads to, `none` if it does not end inside its mapping. -/
def CustomLoader.stringAt (s : CustomLoader) (i : ℕ) : Option CStr :=
  (s.gpCustomTokenArray i).bind fun p =>
    s.mappings[p.mapping]?.bind fun fileMap => (readString fileMap p.offset).map chars

variable (maxLengthCustomName : ℕ)

/-- The assignments for one group of four strings, `none` for a number outside
`gCustomLibArray`. -/
def CustomLoader.assign (s : CustomLoader) (i : ℕ) : Option CustomLoader :=
  (s.stringAt i).bind fun name =>
    let libId := (customClientNameToIdExact name).code
    if libId < PersistenceCustomLibs.lastEntry.code then
      (s.stringAt (i + 1)).bind fun path =>
        (s.stringAt (i + 2)).bind fun type =>
          (s.stringAt (i + 3)).map fun policy =>
            let entry : CustomLibEntry :=
              { info :=
                  { libname := snprintf maxLengthCustomName path
                    initFunction := getInitType policy
                    loadingType := getLoadingType type }
                valid := 1 }
            { s with gCustomLibArray := Function.update s.gCustomLibArray libId entry }
    else none

/-- The loop over the groups, `n` turns before the end of the array. -/
def CustomLoader.assignFrom : ℕ → ℕ → CustomLoader → Option CustomLoader
  | 0, _, s => some s
  | n + 1, i, s =>
    if s.gpCustomTokenArray i ≠ none ∧ s.gpCustomTokenArray (i + 1) ≠ none ∧
        s.gpCustomTokenArray (i + 2) ≠ none ∧ s.gpCustomTokenArray (i + 3) ≠ none then
      (s.assign maxLengthCustomName i).bind (assignFrom n (i + 4))
    else some s

/-- The turns of `while( i < (TOKENARRAYSIZE-3) )` with steps of four. -/
def groupCount : ℕ := tokenArraySize / 4

def initPositions (gCustomLibArray : ℕ → CustomLibEntry) (j : ℕ) : CustomLibEntry :=
  if j < PersistenceCustomLibs.lastEntry.code then { gCustomLibArray j with valid := -1 }
  else gCustomLibArray j

/-- `get_custom_libraries` for a file that is there and can be opened: its result
and the state after it, `none` where an access goes astray. -/
def getCustomLibraries (pageSize : ℕ) (content : Bytes) (s : CustomLoader) :
    Option (ℤ × CustomLoader) :=
  let s := { s with gCustomLibArray := initPositions s.gCustomLibArray }
  if content = [] then some (epersCommon, s)
  else
    -- the size is handed on as an unsigned int
    (fillCustomCharTokenArray s.mappings.length (content.length % 2 ^ 32) (mapFile pageSize content)
      s.gpCustomTokenArray).bind fun (gpCustomTokenArray, fileMap) =>
        (CustomLoader.assignFrom maxLengthCustomName groupCount 0
          { s with gpCustomTokenArray, mappings := s.mappings ++ [fileMap] }).map fun s => (0, s)

end Source

section Purpose

/-- A token of a configuration: printable characters that are no blanks. -/
structure Token where
  text : Bytes
  nonempty : text ≠ []
  printable : ∀ b ∈ text, printable b = true

structure ConfigLine where
  name : Token
  path : Token
  loadingType : Token
  initType : Token

def ConfigLine.ended (l : ConfigLine) : List (Token × UInt8) :=
  [(l.name, 0x20), (l.path, 0x20), (l.loadingType, 0x20), (l.initType, 0x0A)]

/-- Tokens as they are written down. -/
def written (ts : List (Token × UInt8)) : Bytes := ts.flatMap fun t => t.1.text ++ [t.2]

def configText (lines : List ConfigLine) : Bytes := written (lines.flatMap ConfigLine.ended)

def pluginName : PersistenceCustomLibs → Option CStr
  | .default => some (cstr "default")
  | .early => some (cstr "early")
  | .secure => some (cstr "secure")
  | .emergency => some (cstr "emergency")
  | .hwInfo => some (cstr "hwinfo")
  | .custom1 => some (cstr "custom1")
  | .custom2 => some (cstr "custom2")
  | .custom3 => some (cstr "custom3")
  | .lastEntry => none

def ConfigLine.Names (l : ConfigLine) (id : PersistenceCustomLibs) : Prop :=
  pluginName id = some (chars l.name.text)

instance (l : ConfigLine) (id : PersistenceCustomLibs) : Decidable (l.Names id) :=
  inferInstanceAs (Decidable (_ = _))

/-- The entry a line asks for: the path is cut to its field. -/
def ConfigLine.entry (maxLengthCustomName : ℕ) (l : ConfigLine) : CustomLibEntry where
  info :=
    { libname := snprintf maxLengthCustomName (chars l.path.text)
      initFunction := getInitType (chars l.initType.text)
      loadingType := getLoadingType (chars l.loadingType.text) }
  valid := 1

def lastNaming (id : PersistenceCustomLibs) (lines : List ConfigLine) : Option ConfigLine :=
  lines.reverse.find? fun l => l.Names id

/-- The slots after a configuration: one is valid if a line names its plugin, and
holds what the last such line says. The others keep what they held. -/
structure Configured (maxLengthCustomName : ℕ) (lines : List ConfigLine)
    (before after : ℕ → CustomLibEntry) : Prop where
  valid : ∀ id ≠ PersistenceCustomLibs.lastEntry,
    ((after id.code).valid = 1 ↔ ∃ l ∈ lines, l.Names id)
  named : ∀ id l, lastNaming id lines = some l → after id.code = l.entry maxLengthCustomName
  others : ∀ j < PersistenceCustomLibs.lastEntry.code,
    (∀ id : PersistenceCustomLibs, id.code = j → ∀ l ∈ lines, ¬ l.Names id) →
      after j = { before j with valid := -1 }

/-- A configuration is read without any access outside an array, and the slots
are what it asks for. -/
def ReadsConfiguration (maxLengthCustomName pageSize : ℕ) (lines : List ConfigLine)
    (s : CustomLoader) : Prop :=
  ∃ rval s', getCustomLibraries maxLengthCustomName pageSize (configText lines) s =
      some (rval, s') ∧
    Configured maxLengthCustomName lines s.gCustomLibArray s'.gCustomLibArray

def AllKnown (lines : List ConfigLine) : Prop := ∀ l ∈ lines, ∃ id, l.Names id

/-- The pointers an earlier configuration left behind those of `count` lines do
not make another group: there is no room for one, or one is null. -/
def NoStaleGroup (count : ℕ) (s : CustomLoader) : Prop :=
  count = 0 ∨ groupCount ≤ count ∨ s.gpCustomTokenArray (4 * count + 1) = none ∨
    s.gpCustomTokenArray (4 * count + 2) = none ∨ s.gpCustomTokenArray (4 * count + 3) = none

end Purpose

section Tokens

variable {ts : List (Token × UInt8)} {lines : List ConfigLine} (pageSize : ℕ)

theorem gCharLookup_eq_one {n : ℕ} : gCharLookup[n]? = some 1 ↔ 0x21 ≤ n ∧ n ≤ 0x7E := by
  simp only [gCharLookup, List.getElem?_append, List.length_append, List.length_cons,
    List.length_replicate, List.getElem?_replicate, List.getElem?_cons]
  split_ifs <;> simp <;> omega

theorem separator_eq (b : UInt8) : separator b = !printable b := by
  rw [separator, printable, Bool.eq_iff_iff]
  simp only [ne_eq, gCharLookup_eq_one, decide_eq_true_eq, Bool.not_eq_true',
    Bool.and_eq_false_iff, decide_eq_false_iff_not, not_and_or, UInt8.le_iff_toNat_le,
    UInt8.reduceToNat]

theorem Token.plain (t : Token) : ∀ b ∈ t.text, separator b = false := by
  intro b hb
  rw [separator_eq, t.printable b hb]
  rfl

def Ended (ts : List (Token × UInt8)) : Prop := ∀ t ∈ ts, separator t.2 = true ∧ t.2 < 0x7F

theorem ended_lines (lines : List ConfigLine) : Ended (lines.flatMap ConfigLine.ended) := by
  intro t ht
  obtain ⟨l, -, ht⟩ := List.mem_flatMap.mp ht
  have hcases : t.2 = 0x20 ∨ t.2 = 0x0A := by
    simp only [ConfigLine.ended, List.mem_cons, List.not_mem_nil, or_false] at ht
    rcases ht with rfl | rfl | rfl | rfl
    · exact Or.inl rfl
    · exact Or.inl rfl
    · exact Or.inl rfl
    · exact Or.inr rfl
  rcases hcases with h | h <;> rw [h] <;> decide

theorem ended_length (lines : List ConfigLine) :
    (lines.flatMap ConfigLine.ended).length = 4 * lines.length := by
  induction lines with
  | nil => rfl
  | cons l lines ih =>
    rw [List.flatMap_cons, List.length_append, ih, List.length_cons]
    have hfour : l.ended.length = 4 := rfl
    omega

theorem countP_written (h : Ended ts) : (written ts).countP separator = ts.length := by
  induction ts with
  | nil => rfl
  | cons t ts ih =>
    have hplain : t.1.text.countP separator = 0 :=
      List.countP_eq_zero.mpr fun b hb => by simp [t.1.plain b hb]
    have hend : [t.2].countP separator = 1 := by
      simp [(h t List.mem_cons_self).1]
    have hrest : written (t :: ts) = (t.1.text ++ [t.2]) ++ written ts := rfl
    rw [hrest, List.countP_append, List.countP_append, hplain, hend,
      ih fun u hu => h u (List.mem_cons_of_mem _ hu), List.length_cons]
    omega

theorem written_lt (h : Ended ts) : ∀ b ∈ written ts, b < 0x7F := by
  intro b hb
  obtain ⟨t, ht, hb⟩ := List.mem_flatMap.mp hb
  rcases List.mem_append.mp hb with hb | hb
  · have hlow := t.1.printable b hb
    simp only [printable, Bool.and_eq_true, decide_eq_true_eq] at hlow
    exact UInt8.lt_of_le_of_lt hlow.2 (by decide)
  · rw [List.mem_singleton.mp hb]
    exact (h t ht).2

theorem scanned_all {n : ℕ} {text : Bytes} (h : text.countP separator ≤ n) :
    scanned n text = text := by
  induction text generalizing n with
  | nil => cases n <;> rfl
  | cons b rest ih =>
    cases hb : separator b with
    | false =>
      rw [List.countP_cons_of_neg (by simp [hb])] at h
      rw [scanned_plain hb, ih h]
    | true =>
      rw [List.countP_cons_of_pos hb] at h
      cases n with
      | zero => omega
      | succ n => rw [scanned_separator hb, ih (by omega)]

theorem blanked_written (h : Ended ts) {n : ℕ} (hn : ts.length ≤ n) :
    blanked n (written ts) =
      (ts.map fun t => (t.1.text, (0 : UInt8))).flatMap fun q => q.1 ++ [q.2] := by
  have hall : scanned n (written ts) = written ts := by
    apply scanned_all
    rwa [countP_written h]
  rw [blanked, hall, List.drop_length, List.append_nil, written, List.map_flatMap, List.flatMap_map]
  refine List.flatMap_congr fun t ht => ?_
  have hplain : (t.1.text.map fun b => if separator b then 0 else b) = t.1.text := by
    have hsame : ∀ b ∈ t.1.text, (if separator b then 0 else b) = b :=
      fun b hb => if_neg (by simp [t.1.plain b hb])
    exact (List.map_congr_left hsame).trans (List.map_id _)
  rw [List.map_append, hplain]
  simp [(h t ht).1]

def tokenTexts (lines : List ConfigLine) : List Bytes :=
  (lines.flatMap ConfigLine.ended).map fun t => t.1.text

theorem tokenTexts_length (lines : List ConfigLine) :
    (tokenTexts lines).length = 4 * lines.length := by
  rw [tokenTexts, List.length_map, ended_length]

theorem ended_fits (hlines : lines.length ≤ groupCount) :
    (lines.flatMap ConfigLine.ended).length ≤ tokenArraySize - 1 := by
  have hgroups : groupCount = 63 := rfl
  have harray : tokenArraySize = 255 := rfl
  rw [ended_length]
  omega

theorem mapped_configText (hsize : (configText lines).length < 2 ^ 32) :
    mapped (configText lines) = configText lines := by
  rw [mapped, Nat.mod_eq_of_lt hsize, List.take_length]

theorem tokenTexts_line {k r : ℕ} {l : ConfigLine} {text : Bytes} (hl : lines[k]? = some l)
    (hr : (l.ended.map fun t => t.1.text)[r]? = some text) :
    (tokenTexts lines)[4 * k + r]? = some text := by
  induction lines generalizing k with
  | nil => cases hl
  | cons m lines ih =>
    have hcons : tokenTexts (m :: lines) = (m.ended.map fun t => t.1.text) ++ tokenTexts lines :=
      List.map_append
    have hfour : (m.ended.map fun t => t.1.text).length = 4 := rfl
    cases k with
    | zero =>
      cases hl
      obtain ⟨hlt, -⟩ := List.getElem?_eq_some_iff.mp hr
      rw [hcons, Nat.mul_zero, Nat.zero_add, List.getElem?_append_left hlt, hr]
    | succ k =>
      have hpos : 4 * (k + 1) + r - 4 = 4 * k + r := by omega
      rw [hcons, List.getElem?_append_right (by omega), hfour, hpos]
      exact ih hl

variable (hlines : lines.length ≤ groupCount) (hsize : (configText lines).length < 2 ^ 32)
include hlines hsize

theorem inTable_configText : InTable (tokenArraySize - 1) (mapped (configText lines)) := by
  have hcount : (configText lines).countP separator ≤ tokenArraySize - 1 := by
    rw [configText, countP_written (ended_lines lines)]
    exact ended_fits hlines
  rw [InTable, mapped_configText hsize, scanned_all hcount]
  exact written_lt (ended_lines lines)

theorem pointerCount_configText : pointerCount (configText lines) = 4 * lines.length + 1 := by
  have hfits := ended_fits hlines
  have hcount : (configText lines).countP separator = 4 * lines.length := by
    rw [configText, countP_written (ended_lines lines), ended_length]
  rw [ended_length] at hfits
  rw [pointerCount, added, mapped_configText hsize, scanned_all (by omega), hcount]
  omega

/-- The memory of a configuration: its tokens and what is left of the last page. -/
theorem memoryPieces_configText :
    memoryPieces (memoryAfter pageSize (configText lines)) =
      tokenTexts lines ++ memoryPieces (List.replicate
        ((pageSize - (configText lines).length % pageSize) % pageSize) 0) := by
  have hfits := ended_fits hlines
  have hmemory : memoryAfter pageSize (configText lines) =
      ((lines.flatMap ConfigLine.ended).map fun t => (t.1.text, (0 : UInt8))).flatMap
        (fun q => q.1 ++ [q.2]) ++ List.replicate
          ((pageSize - (configText lines).length % pageSize) % pageSize) 0 := by
    rw [memoryAfter, mapped_configText hsize, Nat.mod_eq_of_lt hsize, mapFile,
      List.drop_left, ← blanked_written (ended_lines lines) hfits]
    rfl
  rw [hmemory, memoryPieces, splitOnP_flatMap, memoryPieces, List.map_map]
  · rfl
  · intro q hq
    obtain ⟨t, -, rfl⟩ := List.mem_map.mp hq
    constructor
    · intro b hb
      simpa using plain_ne_zero (t.1.plain b hb)
    · rfl

end Tokens

section Groups

variable {maxLengthCustomName : ℕ} {s : CustomLoader} {l : ConfigLine} {lines : List ConfigLine}
  {i n : ℕ}

/-- The four pointers from a position on lead to the tokens of a line. -/
structure CustomLoader.Leads (s : CustomLoader) (i : ℕ) (l : ConfigLine) : Prop where
  name : s.stringAt i = some (chars l.name.text)
  path : s.stringAt (i + 1) = some (chars l.path.text)
  loadingType : s.stringAt (i + 2) = some (chars l.loadingType.text)
  initType : s.stringAt (i + 3) = some (chars l.initType.text)

theorem pointer_of_string {text : CStr} (h : s.stringAt i = some text) :
    s.gpCustomTokenArray i ≠ none := by
  intro hnone
  rw [CustomLoader.stringAt, hnone] at h
  cases h

def ConfigLine.library (l : ConfigLine) : PersistenceCustomLibs :=
  customClientNameToIdExact (chars l.name.text)

theorem sameText_iff {a b : CStr} {m : ℕ} (hb : b.length < m) : sameText a b m = true ↔ a = b := by
  rw [sameText, decide_eq_true_eq, List.take_of_length_le hb.le]
  constructor
  · intro h
    have hlength := congrArg List.length h
    rw [List.length_take] at hlength
    rwa [List.take_of_length_le (by omega)] at h
  · rintro rfl
    exact List.take_of_length_le hb.le

theorem pluginName_length {id : PersistenceCustomLibs} {text : CStr}
    (h : pluginName id = some text) : text.length < persCustomPathSize := by
  cases id with
  | lastEntry => cases h
  | _ =>
    cases h
    decide +kernel

theorem pluginName_ite {name text : CStr} {id other : PersistenceCustomLibs}
    (hid : pluginName id = some text) (hother : other ≠ .lastEntry → pluginName other = some name)
    (hknown : (if sameText name text persCustomPathSize then id else other) ≠ .lastEntry) :
    pluginName (if sameText name text persCustomPathSize then id else other) = some name := by
  by_cases hsame : sameText name text persCustomPathSize = true
  · rw [if_pos hsame, hid, (sameText_iff (pluginName_length hid)).mp hsame]
  · rw [if_neg hsame] at hknown ⊢
    exact hother hknown

theorem exact_iff {name : CStr} {id : PersistenceCustomLibs} :
    customClientNameToIdExact name = id ∧ id ≠ .lastEntry ↔ pluginName id = some name := by
  constructor
  · rintro ⟨rfl, hknown⟩
    refine pluginName_ite rfl ?_ hknown
    -- the other seven names, and what is left is none
    repeat refine pluginName_ite rfl ?_
    exact fun hne => absurd rfl hne
  · intro h
    cases id with
    | lastEntry => cases h
    | _ =>
      cases h
      exact ⟨by decide +kernel, by decide⟩

theorem names_iff {id : PersistenceCustomLibs} : l.Names id ↔ l.library = id ∧ id ≠ .lastEntry :=
  exact_iff.symm

theorem customClientNameToIdExact_nil : customClientNameToIdExact [] = .lastEntry := by
  decide +kernel

theorem code_injective : Function.Injective PersistenceCustomLibs.code := by
  intro a b
  cases a <;> cases b <;> decide

theorem code_lt_iff {id : PersistenceCustomLibs} :
    id.code < PersistenceCustomLibs.lastEntry.code ↔ id ≠ .lastEntry := by
  cases id <;> decide

theorem known_iff : (∃ id, l.Names id) ↔ l.library ≠ .lastEntry := by
  constructor
  · rintro ⟨id, h⟩
    obtain ⟨rfl, hne⟩ := names_iff.mp h
    exact hne
  · exact fun hne => ⟨l.library, names_iff.mpr ⟨rfl, hne⟩⟩

/-- The slots after a line that names a plugin. -/
def ConfigLine.store (maxLengthCustomName : ℕ) (slots : ℕ → CustomLibEntry) (l : ConfigLine) :
    ℕ → CustomLibEntry :=
  Function.update slots l.library.code (l.entry maxLengthCustomName)

theorem assign_eq (h : s.Leads i l) :
    s.assign maxLengthCustomName i =
      if l.library = .lastEntry then none
      else some { s with gCustomLibArray := l.store maxLengthCustomName s.gCustomLibArray } := by
  have hlibrary : customClientNameToIdExact (chars l.name.text) = l.library := rfl
  rw [CustomLoader.assign, h.name, h.path, h.loadingType, h.initType]
  simp only [Option.bind_some, Option.map_some, hlibrary]
  by_cases hl : l.library = .lastEntry
  · rw [if_pos hl, if_neg fun hlt => code_lt_iff.mp hlt hl]
  · rw [if_neg hl, if_pos (code_lt_iff.mpr hl)]
    rfl

theorem assignFrom_eq (hleads : ∀ k l, lines[k]? = some l → s.Leads (i + 4 * k) l)
    (hn : lines.length ≤ n) :
    s.assignFrom maxLengthCustomName n i =
      if ∀ l ∈ lines, l.library ≠ .lastEntry then
        CustomLoader.assignFrom maxLengthCustomName (n - lines.length) (i + 4 * lines.length)
          { s with
            gCustomLibArray :=
              lines.foldl (ConfigLine.store maxLengthCustomName) s.gCustomLibArray }
      else none := by
  induction lines generalizing i n s with
  | nil => rfl
  | cons l lines ih =>
    obtain ⟨n, rfl⟩ : ∃ m, n = m + 1 := Nat.exists_eq_succ_of_ne_zero (by
      rw [List.length_cons] at hn
      omega)
    have hl : s.Leads i l := hleads 0 l rfl
    rw [CustomLoader.assignFrom, if_pos ⟨pointer_of_string hl.name, pointer_of_string hl.path,
      pointer_of_string hl.loadingType, pointer_of_string hl.initType⟩, assign_eq hl]
    by_cases hknown : l.library = .lastEntry
    · rw [if_pos hknown, Option.bind_none, if_neg fun h => h l List.mem_cons_self hknown]
    · have hrest : ∀ k m, lines[k]? = some m →
          CustomLoader.Leads
            { s with gCustomLibArray := l.store maxLengthCustomName s.gCustomLibArray }
            (i + 4 + 4 * k) m := by
        intro k m hm
        have hm := hleads (k + 1) m hm
        have hpos : i + 4 * (k + 1) = i + 4 + 4 * k := by omega
        rw [hpos] at hm
        exact ⟨hm.name, hm.path, hm.loadingType, hm.initType⟩
      rw [if_neg hknown, Option.bind_some, ih hrest (Nat.le_of_succ_le_succ hn)]
      have hpos : i + 4 + 4 * lines.length = i + 4 * (l :: lines).length := by
        rw [List.length_cons]
        omega
      have hleft : n - lines.length = n + 1 - (l :: lines).length := by
        rw [List.length_cons]
        omega
      rw [hpos, hleft]
      simp only [List.forall_mem_cons, List.foldl_cons, ne_eq, hknown, not_false_eq_true, true_and]

/-- The slots behind the lines: the last line that names a plugin fills its slot. -/
theorem foldl_store (lines : List ConfigLine) (slots : ℕ → CustomLibEntry) (j : ℕ) :
    lines.foldl (ConfigLine.store maxLengthCustomName) slots j =
      match lines.reverse.find? fun l => l.library.code = j with
      | some l => l.entry maxLengthCustomName
      | none => slots j := by
  induction lines using List.reverseRecOn with
  | nil => rfl
  | append_singleton lines l ih =>
    rw [List.foldl_append, List.reverse_append]
    by_cases hl : l.library.code = j
    · subst hl
      simp [ConfigLine.store]
    · simp [ConfigLine.store, hl, Function.update_of_ne (Ne.symm hl), ih]

theorem find_library (id : PersistenceCustomLibs) (hid : id ≠ .lastEntry) :
    (lines.reverse.find? fun l => l.library.code = id.code) = lastNaming id lines := by
  refine congrArg (fun p => lines.reverse.find? p) (funext fun l => ?_)
  simp [names_iff, code_injective.eq_iff, hid]

theorem lastNaming_eq_none {id : PersistenceCustomLibs} :
    lastNaming id lines = none ↔ ∀ l ∈ lines, ¬ l.Names id := by
  simp [lastNaming]

theorem foldl_configured (lines : List ConfigLine) (slots : ℕ → CustomLibEntry) :
    Configured maxLengthCustomName lines slots
      (lines.foldl (ConfigLine.store maxLengthCustomName) (initPositions slots)) where
  valid id hid := by
    rw [foldl_store, find_library id hid]
    cases hlast : lastNaming id lines with
    | none =>
      have hnone := lastNaming_eq_none.mp hlast
      simp only [initPositions, if_pos (code_lt_iff.mpr hid)]
      refine iff_of_false (by decide) ?_
      rintro ⟨l, hl, hnames⟩
      exact hnone l hl hnames
    | some l =>
      refine iff_of_true rfl ⟨l, ?_, ?_⟩
      · exact List.mem_reverse.mp (List.mem_of_find?_eq_some hlast)
      · simpa using List.find?_some hlast
  named id l hlast := by
    have hid : id ≠ .lastEntry := by
      rintro rfl
      have hnames : l.Names .lastEntry := by simpa using List.find?_some hlast
      exact (names_iff.mp hnames).2 rfl
    rw [foldl_store, find_library id hid, hlast]
  others j hj hnone := by
    have hfind : (lines.reverse.find? fun l => l.library.code = j) = none := by
      refine List.find?_eq_none.mpr fun l hl hcode => ?_
      have hcode : l.library.code = j := by simpa using hcode
      refine hnone l.library hcode l (List.mem_reverse.mp hl) (names_iff.mpr ⟨rfl, ?_⟩)
      exact code_lt_iff.mp (hcode ▸ hj)
    rw [foldl_store, hfind]
    exact if_pos hj

end Groups

section Load

variable {maxLengthCustomName pageSize : ℕ} {s : CustomLoader} {lines : List ConfigLine}

def CustomLoader.loaded (pageSize : ℕ) (lines : List ConfigLine) (s : CustomLoader)
    (slots : ℕ → CustomLibEntry) : CustomLoader where
  gpCustomTokenArray :=
    arrayAfter s.mappings.length pageSize (configText lines) s.gpCustomTokenArray
  gCustomLibArray := slots
  mappings := s.mappings ++ [memoryAfter pageSize (configText lines)]

variable (hlines : lines.length ≤ groupCount) (hsize : (configText lines).length < 2 ^ 32)
  (slots : ℕ → CustomLibEntry)
include hlines hsize

theorem pointer_loaded {j : ℕ} (hj : j ≤ 4 * lines.length) :
    (s.loaded pageSize lines slots).gpCustomTokenArray j =
      some ⟨s.mappings.length,
        startOf (memoryPieces (memoryAfter pageSize (configText lines))) j⟩ := by
  have hcount := pointerCount_configText hlines hsize
  exact if_pos (by omega)

theorem pointer_behind {j : ℕ} (hj : 4 * lines.length < j) :
    (s.loaded pageSize lines slots).gpCustomTokenArray j = s.gpCustomTokenArray j := by
  have hcount := pointerCount_configText hlines hsize
  exact if_neg (by omega)

theorem stringAt_loaded {j : ℕ} (hj : j ≤ 4 * lines.length) :
    (s.loaded pageSize lines slots).stringAt j =
      (readString (memoryAfter pageSize (configText lines))
        (startOf (memoryPieces (memoryAfter pageSize (configText lines))) j)).map chars := by
  have hmapping : (s.loaded pageSize lines slots).mappings[s.mappings.length]? =
      some (memoryAfter pageSize (configText lines)) := by
    simp [CustomLoader.loaded]
  rw [CustomLoader.stringAt, pointer_loaded hlines hsize slots hj, Option.bind_some, hmapping]
  rfl

theorem stringAt_piece {j : ℕ} (hj : j ≤ 4 * lines.length) {text : Bytes}
    (hpiece : (memoryPieces (memoryAfter pageSize (configText lines)))[j]? = some text)
    (hnext : j + 1 < (memoryPieces (memoryAfter pageSize (configText lines))).length) :
    (s.loaded pageSize lines slots).stringAt j = some (chars text) := by
  obtain ⟨_, hpiece⟩ := List.getElem?_eq_some_iff.mp hpiece
  rw [stringAt_loaded hlines hsize slots hj, readString_piece hnext, hpiece]
  rfl

theorem stringAt_token {j : ℕ} {text : Bytes} (htext : (tokenTexts lines)[j]? = some text) :
    (s.loaded pageSize lines slots).stringAt j = some (chars text) := by
  have hpieces := memoryPieces_configText pageSize hlines hsize
  have hlength := tokenTexts_length lines
  obtain ⟨hj, -⟩ := List.getElem?_eq_some_iff.mp htext
  refine stringAt_piece hlines hsize slots (by omega) ?_ ?_
  · rw [hpieces, List.getElem?_append_left hj, htext]
  · have hpad : 0 < (memoryPieces (List.replicate
        ((pageSize - (configText lines).length % pageSize) % pageSize) 0)).length :=
      List.length_pos_iff.mpr memoryPieces_ne_nil
    rw [hpieces, List.length_append]
    omega

theorem leads_loaded {k : ℕ} {l : ConfigLine} (hl : lines[k]? = some l) :
    (s.loaded pageSize lines slots).Leads (0 + 4 * k) l := by
  rw [Nat.zero_add]
  exact ⟨stringAt_token hlines hsize slots (tokenTexts_line hl (r := 0) rfl),
    stringAt_token hlines hsize slots (tokenTexts_line hl (r := 1) rfl),
    stringAt_token hlines hsize slots (tokenTexts_line hl (r := 2) rfl),
    stringAt_token hlines hsize slots (tokenTexts_line hl (r := 3) rfl)⟩

theorem stringAt_end {text : CStr}
    (h : (s.loaded pageSize lines slots).stringAt (4 * lines.length) = some text) : text = [] := by
  have hpieces := memoryPieces_configText pageSize hlines hsize
  have hlength := tokenTexts_length lines
  cases hpad : (pageSize - (configText lines).length % pageSize) % pageSize with
  | zero =>
    have hlast : (memoryPieces (memoryAfter pageSize (configText lines))).length ≤
        4 * lines.length + 1 := by
      rw [hpieces, hpad, List.length_append, hlength]
      exact le_rfl
    rw [stringAt_loaded hlines hsize slots le_rfl, readString_last hlast] at h
    cases h
  | succ pad =>
    rw [hpad, List.replicate_succ, memoryPieces_zero] at hpieces
    have hpiece : (memoryPieces (memoryAfter pageSize (configText lines)))[4 * lines.length]? =
        some [] := by
      rw [hpieces, List.getElem?_append_right hlength.le, hlength, Nat.sub_self]
      rfl
    have hnext : 4 * lines.length + 1 <
        (memoryPieces (memoryAfter pageSize (configText lines))).length := by
      have hpos : 0 < (memoryPieces (List.replicate pad 0)).length :=
        List.length_pos_iff.mpr memoryPieces_ne_nil
      rw [hpieces, List.length_append, List.length_cons]
      omega
    rw [stringAt_piece hlines hsize slots le_rfl hpiece hnext] at h
    exact (Option.some.inj h).symm

theorem assignFrom_fresh (hne : lines ≠ []) (h : NoStaleGroup lines.length s) :
    (s.loaded pageSize lines slots).assignFrom maxLengthCustomName (groupCount - lines.length)
        (4 * lines.length) = some (s.loaded pageSize lines slots) := by
  cases hleft : groupCount - lines.length with
  | zero => rfl
  | succ n =>
    rw [CustomLoader.assignFrom, if_neg]
    rintro ⟨-, h1, h2, h3⟩
    rw [pointer_behind hlines hsize slots (by omega)] at h1 h2 h3
    rcases h with h | h | h | h | h
    · exact hne (List.length_eq_zero_iff.mp h)
    · omega
    · exact h1 h
    · exact h2 h
    · exact h3 h

/-- Pointers of an earlier configuration are taken for a group whose name is
empty, or astray. -/
theorem assignFrom_stale (h : ¬ NoStaleGroup lines.length s) :
    (s.loaded pageSize lines slots).assignFrom maxLengthCustomName (groupCount - lines.length)
        (4 * lines.length) = none := by
  simp only [NoStaleGroup, not_or] at h
  obtain ⟨hne, hroom, h1, h2, h3⟩ := h
  obtain ⟨n, hleft⟩ : ∃ n, groupCount - lines.length = n + 1 :=
    Nat.exists_eq_succ_of_ne_zero (by omega)
  have hname : (s.loaded pageSize lines slots).gpCustomTokenArray (4 * lines.length) ≠ none := by
    rw [pointer_loaded hlines hsize slots le_rfl]
    exact Option.some_ne_none _
  rw [hleft, CustomLoader.assignFrom, if_pos]
  · have hastray : (s.loaded pageSize lines slots).assign maxLengthCustomName
        (4 * lines.length) = none := by
      rw [CustomLoader.assign]
      cases hstring : (s.loaded pageSize lines slots).stringAt (4 * lines.length) with
      | none => rfl
      | some text =>
        rw [stringAt_end hlines hsize slots hstring, Option.bind_some]
        exact if_neg fun hlt => code_lt_iff.mp hlt customClientNameToIdExact_nil
    rw [hastray]
    rfl
  · have hbehind : ∀ j, 4 * lines.length < j → s.gpCustomTokenArray j ≠ none →
        (s.loaded pageSize lines slots).gpCustomTokenArray j ≠ none :=
      fun j hj hold => (pointer_behind hlines hsize slots hj).symm ▸ hold
    exact ⟨hname, hbehind _ (by omega) h1, hbehind _ (by omega) h2, hbehind _ (by omega) h3⟩

theorem getCustomLibraries_eq (hne : lines ≠ []) :
    getCustomLibraries maxLengthCustomName pageSize (configText lines) s =
      (CustomLoader.assignFrom maxLengthCustomName groupCount 0
        (s.loaded pageSize lines (initPositions s.gCustomLibArray))).map fun s => (0, s) := by
  have htext : configText lines ≠ [] := by
    obtain ⟨l, rest, rfl⟩ := List.exists_cons_of_ne_nil hne
    simp [configText, written, ConfigLine.ended]
  rw [getCustomLibraries, if_neg htext, fillCustomCharTokenArray, fillFileBackupCharTokenArray_eq,
    if_pos (inTable_configText hlines hsize)]
  rfl

theorem getCustomLibraries_unknown (h : ¬ AllKnown lines) :
    getCustomLibraries maxLengthCustomName pageSize (configText lines) s = none := by
  have hne : lines ≠ [] := by
    rintro rfl
    exact h fun l hl => absurd hl List.not_mem_nil
  have hunknown : ¬ ∀ l ∈ lines, l.library ≠ .lastEntry :=
    fun hall => h fun l hl => known_iff.mpr (hall l hl)
  rw [getCustomLibraries_eq hlines hsize hne,
    assignFrom_eq (fun _ _ => leads_loaded hlines hsize _) hlines, if_neg hunknown]
  rfl

theorem getCustomLibraries_known (hne : lines ≠ []) (h : AllKnown lines) :
    getCustomLibraries maxLengthCustomName pageSize (configText lines) s =
      (CustomLoader.assignFrom maxLengthCustomName (groupCount - lines.length) (4 * lines.length)
        (s.loaded pageSize lines (lines.foldl (ConfigLine.store maxLengthCustomName)
          (initPositions s.gCustomLibArray)))).map fun s => (0, s) := by
  have hknown : ∀ l ∈ lines, l.library ≠ .lastEntry := fun l hl => known_iff.mp (h l hl)
  rw [getCustomLibraries_eq hlines hsize hne,
    assignFrom_eq (fun _ _ => leads_loaded hlines hsize _) hlines, if_pos hknown, Nat.zero_add]
  rfl

theorem getCustomLibraries_some {rval : ℤ} {s' : CustomLoader} (hne : lines ≠ [])
    (hload : getCustomLibraries maxLengthCustomName pageSize (configText lines) s =
      some (rval, s')) :
    AllKnown lines ∧ NoStaleGroup lines.length s ∧
      ∃ slots, s' = s.loaded pageSize lines slots := by
  have hknown : AllKnown lines := by
    by_contra hunknown
    rw [getCustomLibraries_unknown hlines hsize hunknown] at hload
    cases hload
  rw [getCustomLibraries_known hlines hsize hne hknown] at hload
  by_cases hfresh : NoStaleGroup lines.length s
  · rw [assignFrom_fresh hlines hsize _ hne hfresh] at hload
    exact ⟨hknown, hfresh, _, (Prod.mk.inj (Option.some.inj hload)).2.symm⟩
  · rw [assignFrom_stale hlines hsize _ hfresh] at hload
    cases hload

theorem noStaleGroup_after {rval : ℤ} {s' : CustomLoader} {count : ℕ} (hne : lines ≠ [])
    (hload : getCustomLibraries maxLengthCustomName pageSize (configText lines) s =
      some (rval, s'))
    (hpos : 0 < count) (hroom : count < groupCount) :
    NoStaleGroup count s' ↔ lines.length ≤ count ∧ NoStaleGroup count s := by
  obtain ⟨-, -, slots, rfl⟩ := getCustomLibraries_some hlines hsize hne hload
  rcases Nat.lt_or_ge count lines.length with hshort | hlong
  · have hpointer : ∀ j ≤ 4 * lines.length,
        (s.loaded pageSize lines slots).gpCustomTokenArray j ≠ none := by
      intro j hj
      rw [pointer_loaded hlines hsize slots hj]
      exact Option.some_ne_none _
    refine iff_of_false ?_ (fun h => absurd h.1 (not_le.mpr hshort))
    rintro (h | h | h | h | h)
    · omega
    · omega
    · exact hpointer _ (by omega) h
    · exact hpointer _ (by omega) h
    · exact hpointer _ (by omega) h
  · have hbehind : ∀ j, 4 * lines.length < j →
        (s.loaded pageSize lines slots).gpCustomTokenArray j = s.gpCustomTokenArray j :=
      fun j hj => pointer_behind hlines hsize slots hj
    rw [NoStaleGroup, NoStaleGroup, hbehind _ (by omega), hbehind _ (by omega),
      hbehind _ (by omega)]
    exact (and_iff_right hlong).symm

end Load

/-- A configuration is read as it is meant exactly when each of its lines names a
plugin and nothing is left of a longer one. -/
theorem readsConfiguration_iff {maxLengthCustomName pageSize : ℕ} {s : CustomLoader}
    {lines : List ConfigLine} (hlines : lines.length ≤ groupCount)
    (hsize : (configText lines).length < 2 ^ 32) :
    ReadsConfiguration maxLengthCustomName pageSize lines s ↔
      AllKnown lines ∧ NoStaleGroup lines.length s := by
  constructor
  · rintro ⟨rval, s', hload, -⟩
    by_cases hne : lines = []
    · subst hne
      exact ⟨fun l hl => absurd hl List.not_mem_nil, Or.inl rfl⟩
    · obtain ⟨hknown, hfresh, -⟩ := getCustomLibraries_some hlines hsize hne hload
      exact ⟨hknown, hfresh⟩
  · rintro ⟨hknown, hfresh⟩
    by_cases hne : lines = []
    · subst hne
      exact ⟨_, _, rfl, foldl_configured [] s.gCustomLibArray⟩
    · refine ⟨0, s.loaded pageSize lines (lines.foldl (ConfigLine.store maxLengthCustomName)
        (initPositions s.gCustomLibArray)), ?_, foldl_configured lines s.gCustomLibArray⟩
      rw [getCustomLibraries_known hlines hsize hne hknown,
        assignFrom_fresh hlines hsize _ hne hfresh]
      rfl

/-- The loader before the first configuration. -/
def CustomLoader.start : CustomLoader where
  gCustomLibArray _ :=
    { info := { libname := [], initFunction := .synchronous, loadingType := .pclInit }, valid := 0 }

/-- Two lines of a test configuration. -/
def hwinfoLine : ConfigLine where
  name := ⟨CStr.toBytes (cstr "hwinfo"), by decide +kernel, by decide +kernel⟩
  path := ⟨CStr.toBytes (cstr "/lib/libhwinfoperscustom.so"), by decide +kernel, by decide +kernel⟩
  loadingType := ⟨CStr.toBytes (cstr "init"), by decide +kernel, by decide +kernel⟩
  initType := ⟨CStr.toBytes (cstr "async"), by decide +kernel, by decide +kernel⟩

def invalidLine : ConfigLine where
  name := ⟨CStr.toBytes (cstr "anInvalidEntry"), by decide +kernel, by decide +kernel⟩
  path := ⟨CStr.toBytes (cstr "/wrongPath/wrongLib"), by decide +kernel, by decide +kernel⟩
  loadingType := ⟨CStr.toBytes (cstr "do"), by decide +kernel, by decide +kernel⟩
  initType := ⟨CStr.toBytes (cstr "cnys"), by decide +kernel, by decide +kernel⟩

theorem hwinfo_configured : ReadsConfiguration 128 4096 [hwinfoLine] .start := by
  refine (readsConfiguration_iff (by decide) (by decide +kernel)).mpr ⟨?_, ?_⟩
  · rintro l hl
    rw [List.mem_singleton.mp hl]
    exact ⟨.hwInfo, by decide +kernel⟩
  · exact Or.inr (Or.inr (Or.inl rfl))

/-- With the line of the unknown library the entry behind the array is written. -/
theorem unknown_name_outside :
    ¬ ∀ (lines : List ConfigLine) (s : CustomLoader), lines.length ≤ 63 →
      ReadsConfiguration 128 4096 lines s := by
  intro h
  obtain ⟨rval, s', hload, -⟩ := h [hwinfoLine, invalidLine] .start (by decide)
  have hunknown : ¬ AllKnown [hwinfoLine, invalidLine] := by
    intro hknown
    have hline := hknown invalidLine (by simp)
    exact known_iff.mp hline (by decide +kernel)
  rw [getCustomLibraries_unknown (by decide) (by decide +kernel) hunknown] at hload
  cases hload

end PersClient.Key
