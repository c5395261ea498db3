import PersClient.Lib.Buffer
import PersClient.File.Names

/-! # The folders of a new file

`pclCreateFile` cuts its path at slashes and line ends, keeps at most 23 pieces,
and puts the path together again piece by piece, making a folder after each but
the first and the last. A path that names a file below a folder, and has no line
end in it, comes back as it was.
-/

namespace PersClient.File

open Text

/-- The calls `pclCreateFile` makes to the system. -/
inductive CreateCall
  | mkdir (path : CStr)
  | open (path : CStr)
  deriving DecidableEq, Repr

/-- What `pclCreateFile` leaves in `createPath`, and the calls it has made. -/
structure Creation where
  createPath : Buffer
  calls : List CreateCall
  deriving DecidableEq, Repr

section Source

variable (com : CommonObject)

/-- The loop that fills `tokenArray`: the number of tokens, and `validPath`. -/
def countTokens : ℕ → List CStr → ℕ × Bool
  | numTokens, [] => (numTokens, true)
  | numTokens, _ :: rest =>
    if 24 ≤ numTokens + 1 then (numTokens + 1, false) else countTokens (numTokens + 1) rest

/-- The two calls that add a token, `none` where there is no such token. -/
def appendToken (tokenArray : List CStr) (i : ℕ) (createPath : Buffer) : Option Buffer :=
  tokenArray[i]?.map fun token =>
    (createPath.strncat ['/'] (com.maxLengthPathFilename - 1)).strncat token
      (com.maxLengthPathFilename - 1)

def createFolders (tokenArray : List CStr) : ℕ → ℕ → Buffer → Option Creation
  | 0, _, createPath => some ⟨createPath, []⟩
  | count + 1, i, createPath =>
    (appendToken com tokenArray i createPath).bind fun createPath =>
      (createFolders tokenArray count (i + 1) createPath).map fun c =>
        { c with calls := .mkdir createPath.string :: c.calls }

/-- The calls of `pclCreateFile`, `none` where it reads a token it does not have. -/
def createFileCalls (path : CStr) : Option Creation :=
  let size := com.maxLengthPathFilename
  let toks := tokens splits (PersClient.snprintf size path)
  let tokenArray := toks.take 24
  let (numTokens, validPath) := countTokens 1 toks.tail
  if validPath then
    tokenArray[0]?.bind fun token =>
      let createPath := (Buffer.zeros size).snprintf size ('/' :: token)
      (createFolders com tokenArray (numTokens - 2) 1 createPath).bind fun c =>
        (appendToken com tokenArray (numTokens - 2 + 1) c.createPath).map fun createPath =>
          ⟨createPath, c.calls ++ [.open createPath.string]⟩
  else some ⟨.zeros size, []⟩

end Source

section Purpose

/-- A path as far as its `k`-th component, with single slashes. -/
def upTo (path : CStr) (k : ℕ) : CStr :=
  (if path.head? = some '/' then ['/'] else []) ++
    ['/'].intercalate ((tokens (· == '/') path).take k)

/-- The folders of a path from the second component to the last but one. -/
def foldersOf (path : CStr) : List CStr :=
  (List.range' 2 ((tokens (· == '/') path).length - 2)).map (upTo path)

/-- The path is left alone, or its folders are made and then the path itself
opened; every token used exists and the array holds what is put into it. -/
def CreatesPath (com : CommonObject) (path : CStr) : Prop :=
  ∃ c, createFileCalls com path = some c ∧ c.createPath.spilled = false ∧
    (c.calls = [] ∨ c.calls = (foldersOf path).map .mkdir ++ [.open (collapse path)])

/-- The path has more tokens than the array takes. -/
def TooDeep (path : CStr) : Prop := 24 ≤ (tokens splits path).length

/-- The path names a file in a folder from the root on, in one line. -/
structure NamesFile (path : CStr) : Prop where
  root : path.head? = some '/'
  oneLine : '\n' ∉ path
  name : path.getLast? ≠ some '/'
  folder : 2 ≤ (tokens (· == '/') path).length

end Purpose

section Array

variable {com : CommonObject} {b : Buffer} {s : CStr}

structure Collects (com : CommonObject) (b : Buffer) (s : CStr) : Prop where
  size : b.cells.length = com.maxLengthPathFilename
  short : s.length < com.maxLengthPathFilename → b.Spells s
  long : com.maxLengthPathFilename ≤ s.length → b.spilled = true

theorem Collects.strncat (h : Collects com b s) {text : CStr} (hfree : nul ∉ text)
    (hcount : text.length ≤ com.maxLengthPathFilename - 1) :
    Collects com (b.strncat text (com.maxLengthPathFilename - 1)) (s ++ text) where
  size := Buffer.strncat_length.trans h.size
  short hlength := by
    rw [List.length_append] at hlength
    exact (h.short (by omega)).strncat hfree hcount (h.size ▸ hlength)
  long hlength := by
    rw [List.length_append] at hlength
    rcases lt_or_ge s.length com.maxLengthPathFilename with hshort | hlong
    · exact (h.short hshort).strncat_spilled hcount (h.size ▸ hlength)
    · exact Buffer.strncat_spilled_of (h.long hlong)

structure TokensOf (com : CommonObject) (toks : List CStr) : Prop where
  free : ∀ t ∈ toks, nul ∉ t
  short : ∀ t ∈ toks, t.length ≤ com.maxLengthPathFilename - 1
  room : 2 ≤ com.maxLengthPathFilename

variable {toks : List CStr}

def joined (toks : List CStr) : CStr := toks.flatMap fun t => '/' :: t

theorem joined_take_succ {i : ℕ} (hi : i < toks.length) :
    joined (toks.take (i + 1)) = joined (toks.take i) ++ ['/'] ++ toks[i] := by
  rw [joined, List.take_add_one, List.flatMap_append, List.getElem?_eq_getElem hi]
  simp [joined]

theorem joined_take_length_le (i : ℕ) : (joined (toks.take i)).length ≤ (joined toks).length := by
  have h := congrArg List.length (congrArg joined (List.take_append_drop i toks))
  rw [joined, List.flatMap_append, List.length_append] at h
  simp only [joined] at h ⊢
  omega

theorem appendToken_collects (htoks : TokensOf com toks) {i : ℕ} (hi : i < toks.length)
    (h : Collects com b (joined (toks.take i))) :
    ∃ b', appendToken com toks i b = some b' ∧ Collects com b' (joined (toks.take (i + 1))) := by
  have hmem : toks[i] ∈ toks := List.getElem_mem hi
  have hslash : Collects com (b.strncat ['/'] (com.maxLengthPathFilename - 1))
      (joined (toks.take i) ++ ['/']) := by
    refine h.strncat (by decide) ?_
    have := htoks.room
    simp only [List.length_singleton]
    omega
  refine ⟨(b.strncat ['/'] (com.maxLengthPathFilename - 1)).strncat toks[i]
    (com.maxLengthPathFilename - 1), ?_, ?_⟩
  · rw [appendToken, List.getElem?_eq_getElem hi]
    rfl
  · rw [joined_take_succ hi]
    exact hslash.strncat (htoks.free _ hmem) (htoks.short _ hmem)

theorem createFolders_collects (htoks : TokensOf com toks) (count : ℕ) {i : ℕ}
    (hi : i + count ≤ toks.length) (h : Collects com b (joined (toks.take i))) :
    ∃ c, createFolders com toks count i b = some c ∧
      Collects com c.createPath (joined (toks.take (i + count))) ∧
      ((joined toks).length < com.maxLengthPathFilename → c.calls =
        (List.range' (i + 1) count).map fun k => .mkdir (joined (toks.take k))) := by
  induction count generalizing i b with
  | zero => exact ⟨⟨b, []⟩, rfl, h, fun _ => rfl⟩
  | succ count ih =>
    obtain ⟨b', happend, hb'⟩ := appendToken_collects htoks (by omega) h
    obtain ⟨c, hfolders, hc, hcalls⟩ := ih (by omega) hb'
    refine ⟨{ c with calls := .mkdir b'.string :: c.calls }, ?_, ?_, ?_⟩
    · rw [createFolders, happend, Option.bind_some, hfolders]
      rfl
    · rwa [show i + (count + 1) = i + 1 + count by omega]
    · intro hshort
      have hspelled := hb'.short ((joined_take_length_le (i + 1)).trans_lt hshort)
      rw [List.range'_succ, List.map_cons, hspelled.string_eq, hcalls hshort]

theorem countTokens_valid {n : ℕ} (hn : n < 24) (rest : List CStr) :
    ((countTokens n rest).2 = true ↔ n + rest.length < 24) ∧
      (n + rest.length < 24 → (countTokens n rest).1 = n + rest.length) := by
  fun_induction countTokens n rest with
  | case1 n => simpa using hn
  | case2 n t rest h =>
    rw [List.length_cons]
    constructor
    · constructor
      · exact fun hfalse => absurd hfalse Bool.false_ne_true
      · omega
    · omega
  | case3 n t rest h ih =>
    obtain ⟨hvalid, hcount⟩ := ih (not_le.mp h)
    simp only [List.length_cons]
    rw [hvalid]
    constructor
    · omega
    · intro hlt
      rw [hcount (by omega)]
      omega

end Array

section Calls

variable {com : CommonObject} {path : CStr}

theorem length_lt_joined {toks : List CStr} {t : CStr} (ht : t ∈ toks) :
    t.length < (joined toks).length := by
  obtain ⟨before, after, rfl⟩ := List.append_of_mem ht
  simp only [joined, List.flatMap_append, List.flatMap_cons, List.length_append, List.length_cons]
  omega

theorem joined_tokens_length_le (path : CStr) :
    (joined (tokens splits path)).length ≤ path.length + 1 := tokens_length_le path '/'

theorem tokensOf_path (hfree : nul ∉ path) (hlength : path.length < com.maxLengthPathFilename)
    (htwo : 2 ≤ (tokens splits path).length) : TokensOf com (tokens splits path) := by
  have hjoined := joined_tokens_length_le path
  refine ⟨fun t ht hnul => hfree (mem_of_mem_tokens ht hnul), fun t ht => ?_, ?_⟩
  · have := length_lt_joined ht
    omega
  · obtain ⟨t, ht⟩ := List.exists_mem_of_length_pos (Nat.zero_lt_of_lt htwo)
    have hne := List.length_pos_iff.mpr (mem_tokens ht).1
    have := length_lt_joined ht
    omega

theorem createFileCalls_deep (hlength : path.length < com.maxLengthPathFilename)
    (h : TooDeep path) :
    createFileCalls com path = some ⟨.zeros com.maxLengthPathFilename, []⟩ := by
  have hinvalid := (countTokens_valid (show 1 < 24 by omega) (tokens splits path).tail).1
  unfold TooDeep at h
  unfold createFileCalls
  dsimp only
  rw [snprintf_of_lt hlength]
  rw [if_neg]
  rw [hinvalid, List.length_tail]
  omega

theorem createFileCalls_few (hlength : path.length < com.maxLengthPathFilename)
    (h : (tokens splits path).length < 2) : createFileCalls com path = none := by
  unfold createFileCalls
  dsimp only
  rw [snprintf_of_lt hlength]
  cases htoks : tokens splits path with
  | nil => rfl
  | cons t rest =>
    have hrest : rest = [] := by
      rw [htoks, List.length_cons] at h
      exact List.length_eq_zero_iff.mp (by omega)
    subst hrest
    rfl

theorem createFileCalls_valid (hfree : nul ∉ path)
    (hlength : path.length < com.maxLengthPathFilename) (htwo : 2 ≤ (tokens splits path).length)
    (hdeep : ¬ TooDeep path) :
    ∃ c, createFileCalls com path = some c ∧ c.calls ≠ [] ∧
      Collects com c.createPath (joined (tokens splits path)) ∧
      ((joined (tokens splits path)).length < com.maxLengthPathFilename → c.calls =
        ((List.range' 2 ((tokens splits path).length - 2)).map fun k =>
          .mkdir (joined ((tokens splits path).take k))) ++
          [.open (joined (tokens splits path))]) := by
  have hjoined := joined_tokens_length_le path
  have htoks := tokensOf_path hfree hlength htwo
  obtain ⟨hvalid, hcount⟩ := countTokens_valid (show 1 < 24 by omega) (tokens splits path).tail
  unfold TooDeep at hdeep
  unfold createFileCalls
  dsimp only
  rw [snprintf_of_lt hlength]
  rw [List.length_tail, show 1 + ((tokens splits path).length - 1) = (tokens splits path).length by
    omega] at hvalid hcount
  rw [if_pos (hvalid.mpr (not_le.mp hdeep)), hcount (not_le.mp hdeep),
    List.take_of_length_le (not_le.mp hdeep).le]
  generalize tokens splits path = toks at *
  obtain ⟨t, rest, rfl⟩ := List.exists_cons_of_length_pos (Nat.zero_lt_of_lt htwo)
  have hfirst : Collects com ((Buffer.zeros com.maxLengthPathFilename).snprintf
      com.maxLengthPathFilename ('/' :: t)) (joined ((t :: rest).take 1)) := by
    have hone : joined ((t :: rest).take 1) = '/' :: t := by simp [joined]
    have hshort : ('/' :: t).length < com.maxLengthPathFilename := by
      obtain ⟨u, rest', rfl⟩ : ∃ u rest', rest = u :: rest' :=
        List.exists_cons_of_length_pos (Nat.le_of_succ_le_succ htwo)
      simp only [joined, List.flatMap_cons, List.length_append, List.length_cons] at hjoined
      rw [List.length_cons]
      omega
    have hnul : nul ∉ '/' :: t := by
      rw [List.mem_cons, not_or]
      exact ⟨by decide, htoks.free t List.mem_cons_self⟩
    have hspells := (Buffer.zeros_spells (Nat.zero_lt_of_lt hshort)).holds.snprintf_spells
      (Nat.zero_lt_of_lt hshort) Buffer.zeros_length.ge hnul
    rw [snprintf_of_lt hshort] at hspells
    rw [hone]
    exact ⟨Buffer.snprintf_length.trans Buffer.zeros_length, fun _ => hspells,
      fun hlong => absurd hlong (not_le.mpr hshort)⟩
  obtain ⟨c, hfolders, hc, hcalls⟩ :=
    createFolders_collects htoks ((t :: rest).length - 2) (i := 1) (by omega) hfirst
  obtain ⟨b, happend, hb⟩ := appendToken_collects htoks
    (show (t :: rest).length - 2 + 1 < (t :: rest).length by omega)
    (by rwa [Nat.add_comm 1] at hc)
  rw [show (t :: rest).length - 2 + 1 + 1 = (t :: rest).length by omega, List.take_length] at hb
  refine ⟨⟨b, c.calls ++ [.open b.string]⟩, ?_, ?_, hb, ?_⟩
  · simp only [List.getElem?_cons_zero, Option.bind_some]
    rw [hfolders, Option.bind_some, happend]
    rfl
  · exact List.append_ne_nil_of_right_ne_nil _ (List.cons_ne_nil _ _)
  · intro hshort
    rw [hcalls hshort, (hb.short hshort).string_eq]

end Calls

section Exact

variable {com : CommonObject} {path : CStr}

theorem joined_head? {toks : List CStr} (hne : toks ≠ []) : (joined toks).head? = some '/' := by
  obtain ⟨t, rest, rfl⟩ := List.exists_cons_of_ne_nil hne
  rfl

theorem joined_getLast? (path : CStr) : (joined (tokens splits path)).getLast? ≠ some '/' := by
  intro hlast
  rcases List.eq_nil_or_concat' (tokens splits path) with hnil | ⟨toks, t, htoks⟩
  · rw [hnil] at hlast
    cases hlast
  · have ht := mem_tokens (htoks ▸ List.mem_append_right toks List.mem_cons_self :
      t ∈ tokens splits path)
    obtain ⟨init, c, hc⟩ := (List.eq_nil_or_concat' t).resolve_left ht.1
    rw [htoks, joined, List.flatMap_append, List.flatMap_singleton, hc, ← List.cons_append,
      ← List.append_assoc, List.getLast?_concat, Option.some.injEq] at hlast
    have hsplits := ht.2 c (hc ▸ List.mem_append_right init List.mem_cons_self)
    rw [hlast] at hsplits
    cases hsplits

theorem newline_notMem_joined (path : CStr) : '\n' ∉ joined (tokens splits path) := by
  intro hmem
  obtain ⟨t, ht, hc⟩ := List.mem_flatMap.mp hmem
  rcases List.mem_cons.mp hc with hslash | hc
  · exact absurd hslash (by decide)
  · exact absurd ((mem_tokens ht).2 _ hc) (by decide)

theorem tokens_splits_eq (h : '\n' ∉ path) : tokens splits path = tokens (· == '/') path := by
  refine tokens_congr fun c hc => ?_
  have hne : c ≠ '\n' := fun heq => h (heq ▸ hc)
  simp [splits, hne]

theorem namesFile_of_joined (htwo : 2 ≤ (tokens splits path).length)
    (h : joined (tokens splits path) = collapse path) : NamesFile path := by
  have hline : '\n' ∉ path := fun hmem =>
    newline_notMem_joined path (h ▸ (mem_collapse path).mpr hmem)
  refine ⟨?_, hline, ?_, ?_⟩
  · rw [← head?_collapse, ← h]
    exact joined_head? (List.ne_nil_of_length_pos (Nat.zero_lt_of_lt htwo))
  · rw [← getLast?_collapse, ← h]
    exact joined_getLast? path
  · rwa [← tokens_splits_eq hline]

theorem NamesFile.exists_cons (h : NamesFile path) :
    ∃ s, path = '/' :: s ∧ s ≠ [] ∧ s.getLast? ≠ some '/' := by
  obtain ⟨s, rfl⟩ : ∃ s, path = '/' :: s := by
    cases path with
    | nil => cases h.root
    | cons c s => exact ⟨s, by rw [Option.some.inj h.root]⟩
  have hname := h.name
  have hs : s ≠ [] := by
    rintro rfl
    exact hname rfl
  refine ⟨s, rfl, hs, ?_⟩
  obtain ⟨d, s, rfl⟩ := List.exists_cons_of_ne_nil hs
  rwa [List.getLast?_cons_cons] at hname

theorem NamesFile.joined_eq (h : NamesFile path) : joined (tokens splits path) = collapse path := by
  obtain ⟨s, rfl, hs, hlast⟩ := h.exists_cons
  rw [tokens_splits_eq h.oneLine, tokens_cons_delim rfl]
  exact (flatMap_tokens_slash s hlast).1 hs

theorem NamesFile.joined_length_lt (h : NamesFile path)
    (hlength : path.length < com.maxLengthPathFilename) :
    (joined (tokens splits path)).length < com.maxLengthPathFilename := by
  obtain ⟨s, rfl, -, -⟩ := h.exists_cons
  have hjoined := joined_tokens_length_le s
  rw [tokens_cons_delim rfl]
  rw [List.length_cons] at hlength
  omega

theorem joined_eq_intercalate {toks : List CStr} (hne : toks ≠ []) :
    joined toks = '/' :: ['/'].intercalate toks := by
  induction toks with
  | nil => exact absurd rfl hne
  | cons t rest ih =>
    cases rest with
    | nil => simp [joined]
    | cons u rest =>
      have ih := ih (List.cons_ne_nil _ _)
      simp only [joined, List.flatMap_cons] at ih ⊢
      rw [ih]
      simp [List.intercalate]

theorem NamesFile.upTo_eq (h : NamesFile path) {k : ℕ} (hk : 0 < k) :
    upTo path k = joined ((tokens splits path).take k) := by
  have hne : (tokens splits path).take k ≠ [] := by
    have htwo := h.folder
    rw [← tokens_splits_eq h.oneLine] at htwo
    exact List.ne_nil_of_length_pos (by rw [List.length_take]; omega)
  rw [upTo, if_pos h.root, ← tokens_splits_eq h.oneLine, joined_eq_intercalate hne]
  rfl

theorem CreatesPath.cases (hfree : nul ∉ path) (hlength : path.length < com.maxLengthPathFilename)
    (h : CreatesPath com path) : TooDeep path ∨ NamesFile path := by
  obtain ⟨c, hcalls, hinside, hmade⟩ := h
  by_cases hdeep : TooDeep path
  · exact Or.inl hdeep
  refine Or.inr ?_
  rcases lt_or_ge (tokens splits path).length 2 with hfew | htwo
  · rw [createFileCalls_few hlength hfew] at hcalls
    cases hcalls
  obtain ⟨c', hcalls', hne, hcollects, hopened⟩ := createFileCalls_valid hfree hlength htwo hdeep
  cases hcalls'.symm.trans hcalls
  have hshort : (joined (tokens splits path)).length < com.maxLengthPathFilename := by
    by_contra hlong
    rw [hcollects.long (not_lt.mp hlong)] at hinside
    cases hinside
  have hmade := hmade.resolve_left hne
  rw [hopened hshort] at hmade
  have hlast := (List.append_inj' hmade rfl).2
  simp only [List.cons.injEq, CreateCall.open.injEq, and_true] at hlast
  exact namesFile_of_joined htwo hlast

theorem NamesFile.createsPath (h : NamesFile path) (hfree : nul ∉ path)
    (hlength : path.length < com.maxLengthPathFilename) : CreatesPath com path := by
  by_cases hdeep : TooDeep path
  · exact ⟨_, createFileCalls_deep hlength hdeep, rfl, Or.inl rfl⟩
  have htwo := h.folder
  rw [← tokens_splits_eq h.oneLine] at htwo
  obtain ⟨c, hcalls, -, hcollects, hopened⟩ := createFileCalls_valid hfree hlength htwo hdeep
  have hshort := h.joined_length_lt hlength
  refine ⟨c, hcalls, (hcollects.short hshort).inside, Or.inr ?_⟩
  rw [hopened hshort, h.joined_eq, foldersOf, ← tokens_splits_eq h.oneLine, List.map_map]
  congr 1
  refine List.map_congr_left fun k hk => ?_
  rw [Function.comp_apply, h.upTo_eq]
  exact Nat.lt_of_lt_of_le (by omega) (List.mem_range'_1.mp hk).1

/-- `pclCreateFile` creates the path it is given exactly when the path is too
deep for it or names a file in a folder, in one line. -/
theorem createsPath_iff (hfree : nul ∉ path) (hlength : path.length < com.maxLengthPathFilename) :
    CreatesPath com path ↔ TooDeep path ∨ NamesFile path := by
  constructor
  · exact CreatesPath.cases hfree hlength
  · rintro (hdeep | hnames)
    · exact ⟨_, createFileCalls_deep hlength hdeep, rfl, Or.inl rfl⟩
    · exact hnames.createsPath hfree hlength

theorem createsPath_data :
    CreatesPath .standard ['/', 'D', '/', 'a', '/', '/', 'b'] :=
  (createsPath_iff (by decide) (by decide)).mpr
    (Or.inr ⟨rfl, by decide, by decide, by decide⟩)

/-- A line end in the name makes a folder of what stands before it. -/
theorem line_end_creates_other :
    ¬ ∀ path : CStr, nul ∉ path → path.length < CommonObject.standard.maxLengthPathFilename →
      CreatesPath .standard path := by
  intro h
  rcases (h ['/', 'D', '/', 'a', '\n', 'b'] (by decide) (by decide)).cases (by decide) (by decide)
    with hdeep | hnames
  · revert hdeep
    unfold TooDeep
    decide
  · exact hnames.oneLine (by decide)

/-- The file that is opened is the one of `createPath`, while the array has room. -/
theorem createFileCalls_opened (hfree : nul ∉ path)
    (hlength : path.length < com.maxLengthPathFilename)
    (hroom : (joined (tokens splits path)).length < com.maxLengthPathFilename) :
    (createFileCalls com path).bind (fun c => c.calls.getLast?) =
      (createPath com path).map .open := by
  have hpath : createPath com path =
      if 2 ≤ (tokens splits path).length ∧ (tokens splits path).length < 24 then
        some (joined (tokens splits path)) else none := by
    unfold createPath
    rw [snprintf_of_lt hlength]
    rfl
  rw [hpath]
  by_cases hdeep : TooDeep path
  · have hnot : ¬ (tokens splits path).length < 24 := not_lt.mpr hdeep
    rw [createFileCalls_deep hlength hdeep, if_neg fun h => hnot h.2]
    rfl
  rcases lt_or_ge (tokens splits path).length 2 with hfew | htwo
  · rw [createFileCalls_few hlength hfew, if_neg fun h => absurd h.1 (not_le.mpr hfew)]
    rfl
  · obtain ⟨c, hcalls, -, -, hopened⟩ := createFileCalls_valid hfree hlength htwo hdeep
    rw [hcalls, Option.bind_some, hopened hroom, List.getLast?_concat,
      if_pos ⟨htwo, not_le.mp hdeep⟩]
    rfl

/-- `pclCreateFile`, as the other functions call it, is the last of these calls. -/
theorem pclCreateFile_opened (hfree : nul ∉ path) (hlength : path.length < com.maxLengthPathFilename)
    (hroom : (joined (tokens splits path)).length < com.maxLengthPathFilename) (env : Env) (os : Os) :
    pclCreateFile com env path os =
      match (createFileCalls com path).bind fun c => c.calls.getLast? with
      | some (.open p) => os.openPath env p { oRdwr with creat := true, trunc := true }
      | _ => (-1, os) := by
  rw [createFileCalls_opened hfree hlength hroom, pclCreateFile]
  cases createPath com path <;> rfl

end Exact

end PersClient.File
