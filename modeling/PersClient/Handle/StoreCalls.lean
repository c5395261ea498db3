import Mathlib.Data.List.Induction
import PersClient.Handle.Store

/-! # Runs of the file handle store

What the getters should answer for an index is a matter of the calls on that
index alone: for each field the last value it was set to since the index was
last removed. A run is compared with that.
-/

namespace PersClient.Handle.FileStore

open Rbtree

inductive FileHandleCall
  | setFileHandleData (idx : ℤ) (permission : PersistencePermission) (backup csumPath : CStr)
      (filePath : Option CStr)
  | setFileBackupStatus (idx : ℤ) (status : ℤ)
  | setFileCacheStatus (idx : ℤ) (status : ℤ)
  | setFileUserId (idx : ℤ) (userId : ℤ)
  | removeFileHandleData (idx : ℤ)
  deriving DecidableEq, Repr

namespace FileHandleCall

def idx : FileHandleCall → ℤ
  | setFileHandleData idx .. => idx
  | setFileBackupStatus idx _ => idx
  | setFileCacheStatus idx _ => idx
  | setFileUserId idx _ => idx
  | removeFileHandleData idx => idx

def setter : FileHandleCall → Bool
  | removeFileHandleData _ => false
  | _ => true

def Fits (com : CommonObject) : FileHandleCall → Prop
  | setFileHandleData _ _ backup csumPath _ =>
    backup.length < com.maxLengthPathFilename ∧ csumPath.length < com.maxLengthPathFilename
  | _ => True

def perform (com : CommonObject) (junk : ℕ → FileHandleData) (store : FileStore) :
    FileHandleCall → Option FileStore
  | .setFileHandleData idx permission backup csumPath filePath =>
    FileStore.setFileHandleData com junk store idx permission backup csumPath filePath
  | .setFileBackupStatus idx status => FileStore.setFileBackupStatus junk store idx status
  | .setFileCacheStatus idx status => FileStore.setFileCacheStatus junk store idx status
  | .setFileUserId idx userId => FileStore.setFileUserId junk store idx userId
  | .removeFileHandleData idx => (FileStore.removeFileHandleData junk store idx).map Prod.snd

def performAll (com : CommonObject) (junk : ℕ → FileHandleData) (calls : List FileHandleCall) :
    Option FileStore :=
  calls.foldlM (perform com junk) init

end FileHandleCall

section Expected

open FileHandleCall

def givenPermission : FileHandleCall → Option (Option PersistencePermission)
  | .setFileHandleData _ permission .. => some (some permission)
  | _ => none

def givenPaths : FileHandleCall → Option (CStr × CStr)
  | .setFileHandleData _ _ backup csumPath _ => some (backup, csumPath)
  | _ => none

def givenBackupStatus : FileHandleCall → Option ℤ
  | .setFileBackupStatus _ status => some status
  | _ => none

def givenCacheStatus : FileHandleCall → Option ℤ
  | .setFileCacheStatus _ status => some status
  | _ => none

def givenUserId : FileHandleCall → Option ℤ
  | .setFileUserId _ userId => some userId
  | _ => none

/-- The calls on an index since it was last removed, the last one first. -/
def sinceRemoval (calls : List FileHandleCall) (idx : ℤ) : List FileHandleCall :=
  (calls.filter fun c => c.idx = idx).reverse.takeWhile setter

/-- The permission an index has before one is given, which depends on the call that set it up. -/
def defaultPermission (since : List FileHandleCall) : Option PersistencePermission :=
  match since.getLast? with
  | some (.setFileUserId ..) => none
  | _ => some .lastEntry

/-- The value last given, or the default where only other fields are set. -/
def lastGiven {β : Type} (given : FileHandleCall → Option β) (default absent : β)
    (since : List FileHandleCall) : β :=
  match since with
  | [] => absent
  | c :: since => ((c :: since).findSome? given).getD default

/-- Some call on the index sets a field of it. -/
def EverSet (calls : List FileHandleCall) (idx : ℤ) : Prop := ∃ c ∈ calls, c.idx = idx ∧ c.setter

/-- The getters answer for an index what the calls on it say: the value last
given to the field since its last removal, or its default where only other
fields are set. The answers for an index without a record are those of one that
was never set or of one that was removed. -/
structure Answers (junk : ℕ → FileHandleData) (store : FileStore) (calls : List FileHandleCall)
    (idx : ℤ) : Prop where
  permission : (getFilePermission junk store idx).map Prod.fst =
    some (lastGiven givenPermission (defaultPermission (sinceRemoval calls idx))
      (if calls.any (fun c => c.idx = idx && c.setter) then none else some .lastEntry)
      (sinceRemoval calls idx))
  backupStatus : (getFileBackupStatus junk store idx).map Prod.fst =
    some (lastGiven givenBackupStatus 0 (-1) (sinceRemoval calls idx))
  cacheStatus : (getFileCacheStatus junk store idx).map Prod.fst =
    some (lastGiven givenCacheStatus (-1) (-1) (sinceRemoval calls idx))
  userId : (getFileUserId junk store idx).map Prod.fst =
    some (lastGiven givenUserId 0 (-1) (sinceRemoval calls idx))
  paths : ∀ paths, (sinceRemoval calls idx).findSome? givenPaths = some paths →
    (getFileBackupPath junk store idx).map Prod.fst = some (some paths.1) ∧
      (getFileChecksumPath junk store idx).map Prod.fst = some (some paths.2)

end Expected

section Records

namespace FileHandleCall

variable (com : CommonObject)

/-- What a setter does to the record that is there. -/
def change : FileHandleCall → FileHandleData → FileHandleData
  | setFileHandleData _ permission backup csumPath filePath, found =>
    { found with
      permission := some permission, filePath
      backupPath := pathField com backup, csumPath := pathField com csumPath }
  | setFileBackupStatus _ status, found => { found with backupCreated := status }
  | setFileCacheStatus _ status, found => { found with cacheStatus := status }
  | setFileUserId _ userId, found => { found with userId }
  | removeFileHandleData _, found => found

def fresh : FileHandleCall → FileHandleData → FileHandleData
  | setFileHandleData _ permission backup csumPath filePath, _ =>
    { permission := some permission, backupCreated := 0, cacheStatus := -1, userId := 0, filePath
      backupPath := pathField com backup, csumPath := pathField com csumPath }
  | setFileBackupStatus _ status, item =>
    { item with
      backupCreated := status, permission := some .lastEntry, cacheStatus := -1, userId := 0
      filePath := none }
  | setFileCacheStatus _ status, _ =>
    { cacheStatus := status, backupCreated := 0, permission := some .lastEntry, userId := 0
      filePath := none, csumPath := [], backupPath := [] }
  | setFileUserId _ userId, _ =>
    { userId, backupCreated := 0, permission := none, cacheStatus := -1, filePath := none
      csumPath := [], backupPath := [] }
  | removeFileHandleData _, item => item

def Stale (tree : FileTree) : FileHandleCall → Prop
  | setFileUserId idx _ => Tree.lookup tree idx ≠ none
  | _ => False

end FileHandleCall

open FileHandleCall

variable {com : CommonObject} {junk : ℕ → FileHandleData} {store store' : FileStore}
  {tree : FileTree} {c : FileHandleCall}

theorem perform_setter (h : Keeping store tree) (hset : c.setter) (hstale : ¬ c.Stale tree) :
    ∃ store', perform com junk store c = some store' ∧
      Keeping store' (Handle.setItem tree c.idx (c.change com)
        (c.fresh com (junk store.memory.nextItem))) := by
  have hitem : ∃ found store', setItem junk store c.idx (c.change com) (c.fresh com) =
      some (found, store') ∧ Keeping store' (Handle.setItem tree c.idx (c.change com)
        (c.fresh com (junk store.memory.nextItem))) ∧
      (Tree.lookup tree c.idx = none → found = none) := by
    cases hlookup : Tree.lookup tree c.idx with
    | none =>
      obtain ⟨store', hcall, hkeeping⟩ := setItem_absent h hlookup
      exact ⟨none, store', hcall, hkeeping, fun _ => rfl⟩
    | some found =>
      obtain ⟨d, store', hcall, -, hkeeping⟩ := setItem_present h hlookup
      exact ⟨some d, store', hcall, hkeeping, fun habsent => (by cases habsent)⟩
  obtain ⟨found, store', hcall, hkeeping, hfound⟩ := hitem
  refine ⟨store', ?_, hkeeping⟩
  cases c with
  | setFileHandleData idx permission backup csumPath filePath =>
    exact congrArg (fun r => r.bind fun r => some r.2) hcall
  | setFileBackupStatus idx status => exact congrArg (fun r => r.bind fun r => some r.2) hcall
  | setFileCacheStatus idx status => exact congrArg (fun r => r.bind fun r => some r.2) hcall
  | setFileUserId idx userId =>
    obtain rfl := hfound (not_not.mp hstale)
    refine (congrArg (fun r => r.bind fun r => (rel r.2.memory r.1).bind fun m =>
      some { r.2 with memory := m }) hcall).trans ?_
    rfl
  | removeFileHandleData idx => cases hset

theorem perform_stale (h : Keeping store tree) (hstale : c.Stale tree) :
    perform com junk store c = none := by
  cases c with
  | setFileUserId idx userId =>
    obtain ⟨found, hlookup⟩ := Option.ne_none_iff_exists'.mp hstale
    obtain ⟨d, store', hcall, hreleased, -⟩ := @setItem_present junk store idx tree
      (change com (.setFileUserId idx userId)) (fresh com (.setFileUserId idx userId)) found h hlookup
    refine (congrArg (fun r => r.bind fun r => (rel r.2.memory r.1).bind fun m =>
      some { r.2 with memory := m }) hcall).trans ?_
    simp [rel, freeItem, hreleased]
  | _ => cases hstale

theorem perform_remove {idx : ℤ} (h : Keeping store tree) :
    ∃ store', perform com junk store (.removeFileHandleData idx) = some store' ∧
      Keeping store' (Handle.removeFileHandleData tree idx) := by
  obtain ⟨rval, store', hcall, hkeeping⟩ :
      ∃ rval store', FileStore.removeFileHandleData junk store idx = some (rval, store') ∧ _ :=
    removeFileHandleData_spec h
  exact ⟨store', by simp [perform, hcall], hkeeping⟩

/-- What a call does to the trees of records that the rest of the library is modelled with. -/
def FileHandleCall.records (com : CommonObject) (tree : FileTree) : FileHandleCall → FileTree
  | setFileHandleData idx permission backup csumPath filePath =>
    Handle.setFileHandleData tree idx permission (pathField com backup) (pathField com csumPath)
      filePath
  | setFileBackupStatus idx status => Handle.setFileBackupStatus tree idx status
  | setFileCacheStatus idx status => Handle.setFileCacheStatus tree idx status
  | setFileUserId idx userId => Handle.setFileUserId tree idx userId
  | removeFileHandleData idx => Handle.removeFileHandleData tree idx

/-- The store refines the trees of records, if what is not set in a new item is empty. -/
theorem perform_refines (h : Keeping store tree) (hstale : ¬ c.Stale tree)
    (hjunk : ∀ item, (junk item).backupPath = [] ∧ (junk item).csumPath = []) :
    ∃ store', perform com junk store c = some store' ∧ Keeping store' (c.records com tree) := by
  cases hset : c.setter with
  | false =>
    cases c with
    | removeFileHandleData idx => exact perform_remove h
    | _ => cases hset
  | true =>
    obtain ⟨store', hcall, hkeeping⟩ : ∃ store', perform com junk store c = some store' ∧ _ :=
      perform_setter h hset hstale
    refine ⟨store', hcall, ?_⟩
    cases c with
    | setFileBackupStatus idx status =>
      have hfresh : fresh com (.setFileBackupStatus idx status) (junk store.memory.nextItem) =
          { permission := some .lastEntry, backupCreated := status, cacheStatus := -1, userId := 0
            backupPath := [], csumPath := [], filePath := none } := by
        simp [fresh, hjunk]
      rwa [hfresh] at hkeeping
    | removeFileHandleData idx => cases hset
    | _ => exact hkeeping

end Records

section Runs

open FileHandleCall

variable {com : CommonObject} {junk : ℕ → FileHandleData} {store : FileStore}
  {tree : FileTree} {c : FileHandleCall} {calls since : List FileHandleCall} {idx : ℤ}
  {data : FileHandleData}

structure Describes (since : List FileHandleCall) (data : FileHandleData) : Prop where
  permission : data.permission =
    (since.findSome? givenPermission).getD (defaultPermission since)
  backupCreated : data.backupCreated = (since.findSome? givenBackupStatus).getD 0
  cacheStatus : data.cacheStatus = (since.findSome? givenCacheStatus).getD (-1)
  userId : data.userId = (since.findSome? givenUserId).getD 0
  paths : ∀ paths, since.findSome? givenPaths = some paths →
    data.backupPath = paths.1 ∧ data.csumPath = paths.2

theorem pathField_fits {path : CStr} (h : path.length < com.maxLengthPathFilename) :
    pathField com path = path := snprintf_of_lt h

theorem describes_fresh (hset : c.setter) (hfits : c.Fits com) (item : FileHandleData) :
    Describes [c] (c.fresh com item) := by
  cases c with
  | setFileHandleData idx permission backup csumPath filePath =>
    refine ⟨rfl, rfl, rfl, rfl, ?_⟩
    rintro paths ⟨⟩
    exact ⟨pathField_fits hfits.1, pathField_fits hfits.2⟩
  | removeFileHandleData idx => cases hset
  | _ => exact ⟨rfl, rfl, rfl, rfl, fun _ h => (by cases h)⟩

theorem describes_change (h : Describes since data) (hne : since ≠ []) (hset : c.setter)
    (hfits : c.Fits com) : Describes (c :: since) (c.change com data) := by
  have hdefault : defaultPermission (c :: since) = defaultPermission since := by
    rw [defaultPermission, defaultPermission, List.getLast?_cons_of_ne_nil hne]
  obtain ⟨hpermission, hbackup, hcache, huser, hpaths⟩ := h
  cases c with
  | setFileHandleData idx permission backup csumPath filePath =>
    refine ⟨rfl, hbackup, hcache, huser, ?_⟩
    rintro paths ⟨⟩
    exact ⟨pathField_fits hfits.1, pathField_fits hfits.2⟩
  | setFileBackupStatus idx status => exact ⟨hdefault ▸ hpermission, rfl, hcache, huser, hpaths⟩
  | setFileCacheStatus idx status => exact ⟨hdefault ▸ hpermission, hbackup, rfl, huser, hpaths⟩
  | setFileUserId idx userId => exact ⟨hdefault ▸ hpermission, hbackup, hcache, rfl, hpaths⟩
  | removeFileHandleData idx => cases hset

theorem sinceRemoval_append_ne (h : c.idx ≠ idx) :
    sinceRemoval (calls ++ [c]) idx = sinceRemoval calls idx := by
  simp [sinceRemoval, h]

theorem sinceRemoval_append_setter (h : c.idx = idx) (hset : c.setter) :
    sinceRemoval (calls ++ [c]) idx = c :: sinceRemoval calls idx := by
  simp [sinceRemoval, h, hset]

theorem sinceRemoval_append_remove (h : c.idx = idx) (hset : c.setter = false) :
    sinceRemoval (calls ++ [c]) idx = [] := by
  simp [sinceRemoval, h, hset]

structure Recorded (calls : List FileHandleCall) (tree : FileTree) : Prop where
  made : tree.isSome ↔ ∃ c ∈ calls, c.setter
  records : ∀ idx, (sinceRemoval calls idx = [] ∧ Tree.lookup tree idx = none) ∨
    (sinceRemoval calls idx ≠ [] ∧ ∃ data, Tree.lookup tree idx = some data ∧
      Describes (sinceRemoval calls idx) data)

theorem recorded_nil : Recorded [] none :=
  ⟨by simp, fun _ => Or.inl ⟨rfl, rfl⟩⟩

theorem Recorded.setter (h : Recorded calls tree) (hset : c.setter) (hfits : c.Fits com)
    (item : FileHandleData) :
    Recorded (calls ++ [c]) (Handle.setItem tree c.idx (c.change com) (c.fresh com item)) := by
  constructor
  · rw [isSome_setItem]
    exact iff_of_true rfl ⟨c, by simp, hset⟩
  · intro idx
    rw [lookup_setItem]
    by_cases hidx : idx = c.idx
    · subst hidx
      rw [if_pos rfl, sinceRemoval_append_setter rfl hset]
      refine Or.inr ⟨List.cons_ne_nil _ _, ?_⟩
      rcases h.records c.idx with ⟨hsince, hlookup⟩ | ⟨hsince, data, hlookup, hdata⟩
      · rw [hsince, hlookup]
        exact ⟨_, rfl, describes_fresh hset hfits item⟩
      · rw [hlookup]
        exact ⟨_, rfl, describes_change hdata hsince hset hfits⟩
    · rw [if_neg hidx, sinceRemoval_append_ne (Ne.symm hidx)]
      exact h.records idx

theorem Recorded.remove (h : Recorded calls tree) (idx : ℤ) :
    Recorded (calls ++ [.removeFileHandleData idx]) (Handle.removeFileHandleData tree idx) := by
  constructor
  · rw [Handle.removeFileHandleData, Option.isSome_map, h.made]
    simp [FileHandleCall.setter]
  · intro j
    rw [lookup_removeFileHandleData]
    by_cases hj : j = idx
    · have heq : (FileHandleCall.removeFileHandleData idx).idx = j := hj.symm
      rw [if_pos hj, sinceRemoval_append_remove heq rfl]
      exact Or.inl ⟨rfl, rfl⟩
    · have hne : (FileHandleCall.removeFileHandleData idx).idx ≠ j := Ne.symm hj
      rw [if_neg hj, sinceRemoval_append_ne hne]
      exact h.records j

/-- No user id is set for an index that has a record. -/
def UserIdsFirst (calls : List FileHandleCall) : Prop :=
  ∀ before idx userId after, calls = before ++ .setFileUserId idx userId :: after →
    sinceRemoval before idx = []

theorem userIdsFirst_append : UserIdsFirst (calls ++ [c]) ↔
    UserIdsFirst calls ∧ ∀ idx userId, c = .setFileUserId idx userId → sinceRemoval calls idx = [] := by
  constructor
  · intro h
    refine ⟨?_, ?_⟩
    · rintro before idx userId after rfl
      exact h before idx userId (after ++ [c]) (by simp)
    · rintro idx userId rfl
      exact h calls idx userId [] rfl
  · rintro ⟨hcalls, hlast⟩ before idx userId after heq
    rcases List.eq_nil_or_concat' after with rfl | ⟨after, last, rfl⟩
    · obtain ⟨rfl, hc⟩ := List.append_inj' heq rfl
      exact hlast idx userId (List.cons.inj hc).1
    · have hsplit : calls ++ [c] = (before ++ .setFileUserId idx userId :: after) ++ [last] := by
        rw [heq]
        simp
      obtain ⟨rfl, -⟩ := List.append_inj' hsplit rfl
      exact hcalls before idx userId after rfl

theorem performAll_append : performAll com junk (calls ++ [c]) =
    (performAll com junk calls).bind fun store => perform com junk store c := by
  rw [performAll, List.foldlM_append]
  simp [performAll]

theorem Recorded.stale_iff (h : Recorded calls tree) :
    ¬ c.Stale tree ↔ ∀ idx userId, c = .setFileUserId idx userId → sinceRemoval calls idx = [] := by
  cases c with
  | setFileUserId idx userId =>
    rcases h.records idx with ⟨hsince, hlookup⟩ | ⟨hsince, data, hlookup, -⟩
    · refine iff_of_true (fun hne => hne hlookup) ?_
      rintro _ _ ⟨⟩
      exact hsince
    · refine iff_of_false (fun hnot => hnot ?_) fun hall => hsince (hall idx userId rfl)
      simp [Stale, hlookup]
  | _ => exact iff_of_true (fun h => h) (fun _ _ h => (by cases h))

theorem performAll_spec (hfits : ∀ c ∈ calls, c.Fits com) :
    (UserIdsFirst calls → ∃ store tree, performAll com junk calls = some store ∧
      Keeping store tree ∧ Recorded calls tree) ∧
    (¬ UserIdsFirst calls → performAll com junk calls = none) := by
  induction calls using List.reverseRecOn with
  | nil =>
    refine ⟨fun _ => ⟨init, none, rfl, keeping_init, recorded_nil⟩, fun h => absurd ?_ h⟩
    intro before idx userId after heq
    simp at heq
  | append_singleton calls c ih =>
    obtain ⟨hrun, hstop⟩ := ih fun c hc => hfits c (List.mem_append_left _ hc)
    rw [userIdsFirst_append, performAll_append]
    by_cases hfirst : UserIdsFirst calls
    · obtain ⟨store, tree, hall, hkeeping, hrecorded⟩ := hrun hfirst
      rw [hall, Option.bind_some, ← hrecorded.stale_iff]
      refine ⟨fun ⟨_, hstale⟩ => ?_, fun hnot => ?_⟩
      · cases hset : c.setter with
        | true =>
          obtain ⟨store', hcall, hkeeping'⟩ := perform_setter hkeeping hset hstale
          exact ⟨store', _, hcall, hkeeping', hrecorded.setter hset (hfits c (by simp)) _⟩
        | false =>
          cases c with
          | removeFileHandleData idx =>
            obtain ⟨store', hcall, hkeeping'⟩ := perform_remove hkeeping
            exact ⟨store', _, hcall, hkeeping', hrecorded.remove idx⟩
          | _ => cases hset
      · exact perform_stale hkeeping (not_not.mp fun hstale => hnot ⟨hfirst, hstale⟩)
    · rw [hstop hfirst]
      exact ⟨fun h => absurd h.1 hfirst, fun _ => rfl⟩

theorem getItem_answer {β : Type} {missing absent default : β} {field : FileHandleData → β}
    {given : FileHandleCall → Option β} (h : Keeping store tree) (hrecorded : Recorded calls tree)
    (hfield : ∀ data, Describes (sinceRemoval calls idx) data →
      field data = ((sinceRemoval calls idx).findSome? given).getD default) :
    (getItem junk store idx missing absent field).map Prod.fst =
      some (if tree.isSome then lastGiven given default absent (sinceRemoval calls idx)
        else missing) := by
  obtain ⟨store', hcall, -⟩ : ∃ store', getItem junk store idx missing absent field = _ ∧ _ :=
    getItem_spec h
  rw [hcall]
  simp only [Option.map_some]
  congr 2
  rcases hrecorded.records idx with ⟨hsince, hlookup⟩ | ⟨hsince, data, hlookup, hdata⟩
  · rw [hsince, hlookup]
    rfl
  · rw [hlookup, Option.map_some, Option.getD_some, hfield data hdata]
    cases hcases : sinceRemoval calls idx with
    | nil => exact absurd hcases hsince
    | cons c since => rfl

theorem any_setter_iff : (calls.any fun c => c.idx = idx && c.setter) = true ↔ EverSet calls idx := by
  simp [EverSet]

theorem everSet_of_since (h : sinceRemoval calls idx ≠ []) : EverSet calls idx := by
  obtain ⟨c, hc⟩ := List.exists_mem_of_ne_nil _ h
  have hset := List.mem_takeWhile_imp hc
  have hmem := List.mem_reverse.mp (List.takeWhile_subset _ hc)
  obtain ⟨hcalls, hidx⟩ := List.mem_filter.mp hmem
  exact ⟨c, hcalls, of_decide_eq_true hidx, hset⟩

theorem Recorded.missing (h : Recorded calls tree) (hnone : tree.isSome ≠ true) :
    sinceRemoval calls idx = [] := by
  by_contra hne
  obtain ⟨c, hc, -, hset⟩ := everSet_of_since hne
  exact hnone (h.made.mpr ⟨c, hc, hset⟩)

theorem getItem_answer_absent {β : Type} {absent default : β} {field : FileHandleData → β}
    {given : FileHandleCall → Option β} (h : Keeping store tree) (hrecorded : Recorded calls tree)
    (hfield : ∀ data, Describes (sinceRemoval calls idx) data →
      field data = ((sinceRemoval calls idx).findSome? given).getD default) :
    (getItem junk store idx absent absent field).map Prod.fst =
      some (lastGiven given default absent (sinceRemoval calls idx)) := by
  rw [getItem_answer h hrecorded hfield]
  split
  · rfl
  · rename_i hnone
    rw [hrecorded.missing hnone]
    rfl

theorem getItem_path {pick : CStr × CStr → CStr} {field : FileHandleData → Option CStr}
    {paths : CStr × CStr} (h : Keeping store tree) (hrecorded : Recorded calls tree)
    (hgiven : (sinceRemoval calls idx).findSome? givenPaths = some paths)
    (hfield : ∀ data, Describes (sinceRemoval calls idx) data → field data = some (pick paths)) :
    (getItem junk store idx none none field).map Prod.fst = some (some (pick paths)) := by
  obtain ⟨store', hcall, -⟩ : ∃ store', getItem junk store idx none none field = _ ∧ _ :=
    getItem_spec h
  rcases hrecorded.records idx with ⟨hsince, -⟩ | ⟨hsince, data, hlookup, hdata⟩
  · rw [hsince] at hgiven
    cases hgiven
  · obtain ⟨c, hc, -, hset⟩ := everSet_of_since hsince
    rw [hcall, if_pos (hrecorded.made.mpr ⟨c, hc, hset⟩), hlookup]
    simp [hfield data hdata]

/-- The store answers as a finite map exactly if no user id is set for an index
that has a record, and the index asked for was set if any was. -/
theorem fileStore_answers_iff (hfits : ∀ c ∈ calls, c.Fits com) :
    (∃ store, performAll com junk calls = some store ∧ Answers junk store calls idx) ↔
      UserIdsFirst calls ∧ ((∃ c ∈ calls, c.setter) → EverSet calls idx) := by
  by_cases hfirst : UserIdsFirst calls
  · obtain ⟨store, tree, hall, hkeeping, hrecorded⟩ := (performAll_spec hfits).1 hfirst
    have hpermission : (getFilePermission junk store idx).map Prod.fst =
        some (if tree.isSome then lastGiven givenPermission
          (defaultPermission (sinceRemoval calls idx)) none (sinceRemoval calls idx)
          else some .lastEntry) :=
      getItem_answer hkeeping hrecorded fun _ hdata => hdata.permission
    constructor
    · rintro ⟨store', hall', hanswers⟩
      obtain rfl : store = store' := Option.some.inj (hall.symm.trans hall')
      refine ⟨hfirst, fun hset => ?_⟩
      by_contra hnever
      have hsince : sinceRemoval calls idx = [] := by
        by_contra hne
        exact hnever (everSet_of_since hne)
      have hexpected := hpermission.symm.trans hanswers.permission
      rw [if_pos (hrecorded.made.mpr hset), hsince, if_neg (mt any_setter_iff.mp hnever)] at hexpected
      cases hexpected
    · rintro ⟨-, hset⟩
      refine ⟨store, hall, ?_, getItem_answer_absent hkeeping hrecorded fun _ h => h.backupCreated,
        getItem_answer_absent hkeeping hrecorded fun _ h => h.cacheStatus,
        getItem_answer_absent hkeeping hrecorded fun _ h => h.userId, fun paths hgiven =>
        ⟨getItem_path hkeeping hrecorded hgiven fun _ h => congrArg some (h.paths paths hgiven).1,
        getItem_path hkeeping hrecorded hgiven fun _ h => congrArg some (h.paths paths hgiven).2⟩⟩
      rw [hpermission]
      by_cases hsome : tree.isSome = true
      · have hever := hset (hrecorded.made.mp hsome)
        rw [if_pos hsome, if_pos (any_setter_iff.mpr hever)]
      · have hnever : ¬ EverSet calls idx := by
          rintro ⟨c, hc, -, hset⟩
          exact hsome (hrecorded.made.mpr ⟨c, hc, hset⟩)
        rw [if_neg hsome, if_neg (mt any_setter_iff.mp hnever), hrecorded.missing hsome]
        rfl
  · refine iff_of_false ?_ fun h => hfirst h.1
    rintro ⟨store, hall, -⟩
    cases ((performAll_spec hfits).2 hfirst).symm.trans hall

/-- Memory as it may come from `malloc`. -/
def clearedItem : FileHandleData := ⟨none, 0, 0, 0, [], [], none⟩

theorem fileStore_answers_after_updates :
    ∃ store, performAll CommonObject.standard (fun _ => clearedItem)
        [.setFileUserId 5 7, .setFileHandleData 5 .readOnly (cstr "b") (cstr "c") none,
          .setFileBackupStatus 3 1, .setFileCacheStatus 5 1, .removeFileHandleData 3] = some store ∧
      Answers (fun _ => clearedItem) store
        [.setFileUserId 5 7, .setFileHandleData 5 .readOnly (cstr "b") (cstr "c") none,
          .setFileBackupStatus 3 1, .setFileCacheStatus 5 1, .removeFileHandleData 3] 5 := by
  refine (fileStore_answers_iff ?_).mpr ⟨?_, fun _ => ⟨.setFileUserId 5 7, by simp, rfl, rfl⟩⟩
  · intro c hc
    simp only [List.mem_cons, List.not_mem_nil, or_false] at hc
    rcases hc with rfl | rfl | rfl | rfl | rfl <;> simp [Fits, CommonObject.standard, cstr_eq]
  · intro before idx userId after heq
    cases before with
    | nil => rfl
    | cons c before =>
      have hmem := congrArg (fun l => FileHandleCall.setFileUserId idx userId ∈ l) (List.cons.inj heq).2
      simp at hmem

/-- The second update of a record with its user id releases the record found
twice; and a permission asked for before anything is set is another one afterwards. -/
theorem fileStore_user_id_released_twice :
    (¬ ∃ store, performAll CommonObject.standard (fun _ => clearedItem)
        [.setFileHandleData 5 .readOnly [] [] none, .setFileUserId 5 1] = some store ∧
      Answers (fun _ => clearedItem) store
        [.setFileHandleData 5 .readOnly [] [] none, .setFileUserId 5 1] 5) ∧
    ((getFilePermission (fun _ => clearedItem) init 7).map Prod.fst = some (some .lastEntry) ∧
      ((performAll CommonObject.standard (fun _ => clearedItem)
        [.setFileHandleData 5 .readOnly [] [] none]).bind fun store =>
          (getFilePermission (fun _ => clearedItem) store 7).map Prod.fst) = some none) := by
  refine ⟨?_, rfl, by decide +kernel⟩
  rintro ⟨store, hall, -⟩
  have hnone : (performAll CommonObject.standard (fun _ => clearedItem)
      [.setFileHandleData 5 .readOnly [] [] none, .setFileUserId 5 1]).isNone := by decide +kernel
  rw [hall] at hnone
  cases hnone

end Runs

end PersClient.Handle.FileStore
