import PersClient.File.Session

/-! # The two entry points of a file resource

`pclFileOpen` keeps the side files of a resource below the backup folder,
`pclFileCreatePath` beside the original if it keeps any, and each asks the
blacklist for a piece of a different string. No resource is treated alike: the
paths always differ, and the two names are never both the plain one.
-/

namespace PersClient.File

variable (com : CommonObject)

section Names

/-- The backup path of `pclFileCreatePath`. -/
def pathBackupPath (dbPath : CStr) : CStr :=
  snprintf (com.maxLengthPathFilename - 1) (dbPath ++ gBackupPostfix)

/-- The checksum path of `pclFileCreatePath`. -/
def pathCsumPath (dbPath : CStr) : CStr :=
  snprintf (com.maxLengthPathFilename - 1) (dbPath ++ gBackupCsPostfix)

/-- The name `pclFileOpenRegular` looks up in the blacklist. -/
def openRawName (ctx : DbContext) : CStr :=
  getRawString com.maxLengthKeyName ctx.dbKey ctx.behindKey

/-- The name `pclFileCreatePath` looks up in the blacklist. -/
def pathRawName (ctx : DbContext) : CStr :=
  getRawString com.maxLengthKeyName ctx.dbPath (ctx.dbPath.drop com.maxLengthKeyName)

/-- `get_raw_string` stays inside a buffer of this size: it finds its slash in
the characters it looks at, or these end before the buffer does. -/
def RawInside (size : ℕ) (buf : CStr) : Prop :=
  (fifthSlash (buf.take com.maxLengthKeyName)).isSome ∨ com.maxLengthKeyName < size

/-- The two entry points use the same side files, and both look up the plain
name of the resource inside their buffers. The paths are those of a resource that
is backed up: for a read-only or blacklisted one `pclFileCreatePath` leaves both
empty (`backupPath_ne_sideOfPath`). -/
structure TreatedAlike (ctx : DbContext) (resourceId : CStr) : Prop where
  backup : backupPath com ctx.configKey.policy ctx.dbPath = pathBackupPath com ctx.dbPath
  csum : csumPath com ctx.configKey.policy ctx.dbPath = pathCsumPath com ctx.dbPath
  openName : openRawName com ctx = '/' :: resourceId
  pathName : pathRawName com ctx = '/' :: resourceId
  openInside : RawInside com com.maxLengthKeyName ctx.dbKey
  pathInside : RawInside com com.maxLengthPathFilename ctx.dbPath

end Names

section Differ

variable {com} {ctx : DbContext}

theorem fileSubPath_length (policy : PersistencePolicy) {dbPath : CStr}
    (hfit : dbPath.length < com.maxLengthPathFilename) :
    (fileSubPath com policy dbPath).length = dbPath.length - (com.rootPath.length + 7) ∨
      (fileSubPath com policy dbPath).length = dbPath.length - (com.rootPath.length + 8) := by
  have hcache : (cachePrefix com).length = com.rootPath.length + 7 := by simp [cachePrefix, cstr_eq]
  have hwt : (wtPrefix com).length = com.rootPath.length + 8 := by simp [wtPrefix, cstr_eq]
  unfold fileSubPath
  dsimp only
  rw [snprintf_of_lt (by rw [List.length_drop]; omega), List.length_drop]
  split
  · exact Or.inl (by rw [hcache])
  · exact Or.inr (by rw [hwt])

theorem backupPath_length (policy : PersistencePolicy) {dbPath : CStr}
    (hfit : dbPath.length + 13 ≤ com.maxLengthPathFilename)
    (hroot : com.rootPath.length + 15 ≤ com.maxLengthPathFilename) :
    (backupPath com policy dbPath).length =
      com.rootPath.length + 13 + (fileSubPath com policy dbPath).length := by
  have hfolder : (gBackupPrefix com).length = com.rootPath.length + 12 := by
    simp [gBackupPrefix, cstr_eq]
  have hending : gBackupPostfix.length = 1 := by simp [gBackupPostfix, cstr_eq]
  have hside : (gBackupPrefix com ++ fileSubPath com policy dbPath ++ gBackupPostfix).length =
      com.rootPath.length + 13 + (fileSubPath com policy dbPath).length := by
    simp only [List.length_append, hfolder, hending]
    omega
  have hsub := @fileSubPath_length com policy dbPath (by omega)
  unfold backupPath sidePath
  rw [snprintf_of_lt (by omega), hside]

theorem backupPath_ne_pathBackupPath (policy : PersistencePolicy) {dbPath : CStr}
    (hfit : dbPath.length + 13 ≤ com.maxLengthPathFilename)
    (hroot : com.rootPath.length + 15 ≤ com.maxLengthPathFilename) :
    backupPath com policy dbPath ≠ pathBackupPath com dbPath := by
  intro heq
  have hlength := congrArg List.length heq
  have hbeside : (dbPath ++ gBackupPostfix).length = dbPath.length + 1 := by
    simp [gBackupPostfix, cstr_eq]
  have hsub := @fileSubPath_length com policy dbPath (by omega)
  unfold pathBackupPath at hlength
  rw [backupPath_length policy hfit hroot, snprintf_of_lt (by omega), hbeside] at hlength
  omega

/-- The side file that `pclFileCreatePath` enters with this ending, in a state. -/
def sideOfPath (com : CommonObject) (c : Client) (ctx : DbContext) (ending : CStr) : CStr :=
  if pathWantsBackup com c ctx then snprintf (com.maxLengthPathFilename - 1) (ctx.dbPath ++ ending)
  else []

/-- Nor do they agree where `pclFileCreatePath` keeps no backup. -/
theorem backupPath_ne_sideOfPath (c : Client)
    (hfit : ctx.dbPath.length + 13 ≤ com.maxLengthPathFilename)
    (hroot : com.rootPath.length + 15 ≤ com.maxLengthPathFilename) :
    backupPath com ctx.configKey.policy ctx.dbPath ≠ sideOfPath com c ctx gBackupPostfix := by
  unfold sideOfPath
  split
  · exact backupPath_ne_pathBackupPath _ hfit hroot
  · intro heq
    have hlength := backupPath_length ctx.configKey.policy hfit hroot
    rw [heq, List.length_nil] at hlength
    omega

theorem FileResource.dbPath_fits (r : FileResource com) (room : com.Roomy) :
    r.dbContext.dbPath.length + 13 ≤ com.maxLengthPathFilename := by
  have hsub := r.subPath_length_le room
  have hprefix := @Prct.policyPrefix_length_le com r.info.configKey.policy
  rw [r.dbPath_eq room, List.length_append]
  omega

end Differ

section Raw

variable {com : CommonObject} {limit size i : ℕ} {buf front name behind : CStr}

theorem fifthSlash_eq_some_iff : fifthSlash buf = some i ↔
    i < buf.length ∧ 5 ≤ (buf.take (i + 1)).count '/' ∧
      ∀ j < i, (buf.take (j + 1)).count '/' < 5 := by
  unfold fifthSlash
  rw [List.find?_range_eq_some]
  simp [and_left_comm]

theorem fifthSlash_isSome_iff : (fifthSlash buf).isSome ↔ 5 ≤ buf.count '/' := by
  unfold fifthSlash
  rw [List.find?_isSome]
  constructor
  · rintro ⟨i, -, hcount⟩
    rw [decide_eq_true_eq] at hcount
    exact hcount.trans ((buf.take_sublist (i + 1)).count_le '/')
  · intro hcount
    have hpos : 0 < buf.length := by
      have := buf.count_le_length (a := '/')
      omega
    refine ⟨buf.length - 1, List.mem_range.mpr (by omega), ?_⟩
    rw [Nat.sub_add_cancel hpos, List.take_length, decide_eq_true_eq]
    exact hcount

/-- The fifth slash is the one before the name exactly if four stand before it. -/
theorem fifthSlash_before_iff :
    fifthSlash (front ++ '/' :: name) = some front.length ↔ front.count '/' = 4 := by
  have htake : (front ++ '/' :: name).take (front.length + 1) = front ++ ['/'] := by
    rw [List.take_append, List.take_of_length_le (Nat.le_succ _), Nat.add_sub_cancel_left]
    rfl
  rw [fifthSlash_eq_some_iff, htake, List.count_append, List.count_singleton_self]
  constructor
  · rintro ⟨-, hfive, hbefore⟩
    rcases Nat.eq_zero_or_pos front.length with hzero | hpos
    · rw [List.length_eq_zero_iff.mp hzero] at hfive
      simp at hfive
    · have hlast := hbefore (front.length - 1) (by omega)
      rw [Nat.sub_add_cancel hpos, List.take_left] at hlast
      omega
  · intro hfour
    refine ⟨by simp, by omega, fun j hj => ?_⟩
    rw [List.take_append_of_le_length (by omega)]
    have hle := ((front.take_sublist (j + 1)).count_le '/')
    omega

/-- `get_raw_string` gives the name with its slash exactly if four slashes stand
before it, or if there are fewer than five and the name lies behind the buffer. -/
theorem getRawString_plain_iff (hfit : (front ++ '/' :: name).length ≤ limit) :
    getRawString limit (front ++ '/' :: name) behind = '/' :: name ↔
      if 5 ≤ (front ++ '/' :: name).count '/' then front.count '/' = 4
      else behind = '/' :: name := by
  unfold getRawString
  have hbefore : front.count '/' = 4 ↔ fifthSlash (front ++ '/' :: name) = some front.length :=
    fifthSlash_before_iff.symm
  rw [List.take_of_length_le hfit, hbefore]
  simp only [← fifthSlash_isSome_iff]
  cases hslash : fifthSlash (front ++ '/' :: name) with
  | none => simp
  | some i =>
    have hlt := (fifthSlash_eq_some_iff.mp hslash).1
    simp only [Option.isSome_some, if_true, Option.some.injEq]
    constructor
    · intro hdrop
      have hlength := congrArg List.length hdrop
      rw [List.length_drop, List.length_append, List.length_cons] at hlength
      rw [List.length_append, List.length_cons] at hlt
      omega
    · rintro rfl
      exact List.drop_left

theorem rawInside_key_iff : RawInside com com.maxLengthKeyName buf ↔
    5 ≤ (buf.take com.maxLengthKeyName).count '/' := by
  unfold RawInside
  rw [fifthSlash_isSome_iff]
  exact or_iff_left (lt_irrefl _)

end Raw

section Plain

open Prct Text

def keyFront (com : CommonObject) (context : PersistenceDbContext) : CStr :=
  if context.ldbid < 0x80 ∨ context.ldbid = pclLdbidLocal then
    if context.userNo = 0 ∧ context.seatNo = 0 then com.gNode
    else if context.seatNo = 0 then com.gUser ++ decimal context.userNo.toNat
    else com.gUser ++ decimal context.userNo.toNat ++ com.gSeat ++ decimal context.seatNo.toNat
  else if context.seatNo ≠ 0 then
    '/' :: hex context.ldbid.toNat ++ com.gUser ++ decimal context.userNo.toNat ++ com.gSeat ++
      decimal context.seatNo.toNat
  else '/' :: hex context.ldbid.toNat ++ com.gUser ++ decimal context.userNo.toNat

theorem dbKeyText_eq (com : CommonObject) (context : PersistenceDbContext) (resourceId : CStr) :
    dbKeyText com context resourceId = keyFront com context ++ '/' :: resourceId := by
  unfold dbKeyText keyFront
  split
  · split
    · rfl
    · split
      · rfl
      · rfl
  · split
    · rfl
    · rfl

theorem count_keyFront (context : PersistenceDbContext) :
    (keyFront .standard context).count '/' =
      if context.ldbid < 0x80 ∨ context.ldbid = pclLdbidLocal then
        if context.userNo = 0 ∧ context.seatNo = 0 then 1 else if context.seatNo = 0 then 2 else 4
      else if context.seatNo ≠ 0 then 5 else 3 := by
  have hnode : CommonObject.standard.gNode.count '/' = 1 := by decide +kernel
  have huser : CommonObject.standard.gUser.count '/' = 2 := by decide +kernel
  have hseat : CommonObject.standard.gSeat.count '/' = 2 := by decide +kernel
  have hdecimal : ∀ n, (decimal n).count '/' = 0 :=
    fun n => List.count_eq_zero.mpr (slash_notMem_decimal n)
  have hhex : ∀ n, (hex n).count '/' = 0 := fun n => List.count_eq_zero.mpr (slash_notMem_hex n)
  unfold keyFront
  split
  · split
    · exact hnode
    · split <;> simp only [List.count_append, huser, hseat, hdecimal]
  · split <;> simp only [List.cons_append, List.count_cons_self, List.count_append, huser, hseat,
      hdecimal, hhex]

theorem count_policyPrefix {policy : PersistencePolicy} (h : policy ≠ .na) :
    (policyPrefix .standard policy).count '/' = 3 := by
  cases policy with
  | na => exact absurd rfl h
  | wc => decide +kernel
  | wt => decide +kernel

theorem count_folder (ldbid : UInt32) :
    (folder ldbid).count '/' = if ldbid < 0x80 then 1 else 0 := by
  have hgroup : (cstr "/shared_group_").count '/' = 1 := by decide +kernel
  have hpublic : sharedPublicFolder.count '/' = 1 := by decide +kernel
  unfold folder
  split
  · split
    · rw [sharedGroupFolder, List.count_append, hgroup,
        List.count_eq_zero.mpr (slash_notMem_hex _)]
    · exact hpublic
  · rfl

variable {r : FileResource CommonObject.standard}

theorem dbKey_eq (hkey : (dbKeyText .standard r.info.context r.resourceId).length <
    CommonObject.standard.maxLengthKeyName) :
    r.dbContext.dbKey = keyFront .standard r.info.context ++ '/' :: r.resourceId := by
  rw [← dbKeyText_eq]
  exact snprintf_of_lt hkey

/-- `pclFileOpen` asks for the plain name of the shared and local resources of a
seat, and for no other. -/
theorem openName_iff (hkey : (dbKeyText .standard r.info.context r.resourceId).length <
      CommonObject.standard.maxLengthKeyName)
    (hfifth : 5 ≤ r.dbContext.dbKey.count '/') :
    openRawName .standard r.dbContext = '/' :: r.resourceId ↔
      (r.info.context.ldbid < 0x80 ∨ r.info.context.ldbid = pclLdbidLocal) ∧
        r.info.context.seatNo ≠ 0 := by
  have hfit := hkey.le
  rw [dbKeyText_eq] at hfit
  rw [dbKey_eq hkey] at hfifth
  unfold openRawName
  rw [dbKey_eq hkey, getRawString_plain_iff hfit, if_pos hfifth, count_keyFront]
  by_cases hlocal : r.info.context.ldbid < 0x80 ∨ r.info.context.ldbid = pclLdbidLocal
  · by_cases hseat : r.info.context.seatNo = 0
    · by_cases huser : r.info.context.userNo = 0 <;> simp [hlocal, hseat, huser]
    · simp [hlocal, hseat]
  · by_cases hseat : r.info.context.seatNo = 0 <;> simp [hlocal, hseat]

/-- `pclFileCreatePath` asks for the plain name of the local resources of the
node, and for no other. -/
theorem pathName_iff (hkey : (dbKeyText .standard r.info.context r.resourceId).length <
      CommonObject.standard.maxLengthKeyName)
    (happ : '/' ∉ r.appId.chars)
    (hfit : r.dbContext.dbPath.length ≤ CommonObject.standard.maxLengthKeyName)
    (hfifth : 5 ≤ r.dbContext.dbPath.count '/') :
    pathRawName .standard r.dbContext = '/' :: r.resourceId ↔
      r.info.context.ldbid = pclLdbidLocal ∧ r.info.context.userNo = 0 ∧
        r.info.context.seatNo = 0 := by
  have hpath : r.dbContext.dbPath = (policyPrefix .standard r.info.configKey.policy ++
      r.appId.chars ++ folder r.info.context.ldbid ++ keyFront .standard r.info.context) ++
        '/' :: r.resourceId := by
    have hsub : r.subPath = r.appId.chars ++ folder r.info.context.ldbid ++ r.dbContext.dbKey := rfl
    rw [r.dbPath_eq CommonObject.standard_roomy, hsub, dbKey_eq hkey]
    simp only [List.append_assoc]
  rw [hpath] at hfit hfifth
  unfold pathRawName
  rw [hpath, getRawString_plain_iff hfit, if_pos hfifth]
  simp only [List.count_append, count_policyPrefix r.stored, count_folder, count_keyFront,
    List.count_eq_zero.mpr happ]
  have hhigh : ¬ pclLdbidLocal < 0x80 := by decide
  by_cases hshared : r.info.context.ldbid < 0x80
  · have hne : r.info.context.ldbid ≠ pclLdbidLocal := by
      intro heq
      rw [heq] at hshared
      exact hhigh hshared
    by_cases hseat : r.info.context.seatNo = 0 <;>
      by_cases huser : r.info.context.userNo = 0 <;> simp [hshared, hseat, huser, hne]
  · by_cases hlocal : r.info.context.ldbid = pclLdbidLocal <;>
      by_cases hseat : r.info.context.seatNo = 0 <;>
      by_cases huser : r.info.context.userNo = 0 <;> simp [hshared, hlocal, hseat, huser, hhigh]

end Plain

/-- Whatever the tables hold, no resource is treated alike by the two entry points. -/
theorem not_treatedAlike {com : CommonObject} (room : com.Roomy) (ctx : DbContext)
    (hfit : ctx.dbPath.length + 13 ≤ com.maxLengthPathFilename) (resourceId : CStr) :
    ¬ TreatedAlike com ctx resourceId := by
  intro h
  have hroot := room.room
  exact backupPath_ne_pathBackupPath ctx.configKey.policy hfit (by omega) h.backup

theorem document_not_treatedAlike :
    ¬ TreatedAlike .standard (document .readWrite).dbContext (cstr "doc") :=
  not_treatedAlike CommonObject.standard_roomy _
    ((document .readWrite).dbPath_fits CommonObject.standard_roomy) _

/-- The two backup paths of one document. -/
theorem document_two_backups :
    ¬ ∀ (r : FileResource CommonObject.standard), TreatedAlike .standard r.dbContext r.resourceId := by
  intro h
  have hopen : backupPath .standard .wc (document .readWrite).dbContext.dbPath =
      cstr "/Data/mnt-backup/app/node/doc~" := by decide +kernel
  have hpath : pathBackupPath .standard (document .readWrite).dbContext.dbPath =
      cstr "/Data/mnt-c/app/node/doc~" := by decide +kernel
  have halike := hopen.symm.trans ((h (document .readWrite)).backup.trans hpath)
  exact absurd halike (by decide +kernel)

end PersClient.File
