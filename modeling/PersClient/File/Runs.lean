import PersClient.File.Routes
import PersClient.Lib.Steps

/-! # Runs of file calls

The calls of the file interface in any order, with any faults and any outcome
of the resource tables. A descriptor that stands open is spared by all calls but
its own close: it leads to the same file, and its cache status stays.
-/

namespace PersClient.File

open Handle

/-- The calls of the file interface. -/
inductive FileCall
  | fileOpen (env : Env) (ctx : DbContext) (resourceId : CStr) (userNo seatNo : UInt32)
  | fileClose (fd : ℤ)
  | fileSeek (fd offset : ℤ) (whence : Whence)
  | fileReadData (fd : ℤ) (count : ℕ)
  | fileWriteData (env : Env) (fd : ℤ) (buffer : Bytes)
  | fileRemove (ctx : DbContext)
  | fileCreatePath (env : Env) (ctx : DbContext) (resourceId : CStr) (userNo seatNo : UInt32)
  | fileReleasePath (pathHandle : ℤ)

def fileStep (com : CommonObject) (appId : CStr) (c : Client) : FileCall → Client
  | .fileOpen env ctx resourceId userNo seatNo =>
    (pclFileOpen com appId env ctx resourceId userNo seatNo c).2
  | .fileClose fd => (pclFileClose fd c).2
  | .fileSeek fd offset whence => (pclFileSeek fd offset whence c).2
  | .fileReadData fd count => (pclFileReadData fd count c).2.2
  | .fileWriteData env fd buffer => (pclFileWriteData com env fd buffer c).2
  | .fileRemove ctx => (pclFileRemove ctx c).2
  | .fileCreatePath env ctx resourceId userNo seatNo =>
    (pclFileCreatePath com appId env ctx resourceId userNo seatNo c).2
  | .fileReleasePath pathHandle => (pclFileReleasePath pathHandle c).2

section CacheStatus

variable {tree : FileTree} {idx fd : ℤ}

/-- A setter of another field leaves the cache status, and a new record has none. -/
theorem getFileCacheStatus_setItem {change : FileHandleData → FileHandleData}
    {fresh : FileHandleData} (hchange : ∀ item, (change item).cacheStatus = item.cacheStatus)
    (hfresh : fresh.cacheStatus = -1) :
    getFileCacheStatus (setItem tree idx change fresh) fd = getFileCacheStatus tree fd := by
  unfold getFileCacheStatus
  rw [lookup_setItem]
  split
  · rename_i heq
    rw [heq]
    cases Tree.lookup tree idx with
    | none => exact hfresh
    | some item => exact hchange item
  · rfl

theorem getFileCacheStatus_setFileHandleData (permission : PersistencePermission)
    (backup csum : CStr) (filePath : Option CStr) :
    getFileCacheStatus (setFileHandleData tree idx permission backup csum filePath) fd =
      getFileCacheStatus tree fd := getFileCacheStatus_setItem (fun _ => rfl) rfl

theorem getFileCacheStatus_setFileBackupStatus (status : ℤ) :
    getFileCacheStatus (setFileBackupStatus tree idx status) fd = getFileCacheStatus tree fd :=
  getFileCacheStatus_setItem (fun _ => rfl) rfl

theorem getFileCacheStatus_setFileUserId (userId : ℤ) :
    getFileCacheStatus (setFileUserId tree idx userId) fd = getFileCacheStatus tree fd :=
  getFileCacheStatus_setItem (fun _ => rfl) rfl

theorem getFileCacheStatus_setFileCacheStatus (status : ℤ) :
    getFileCacheStatus (setFileCacheStatus tree idx status) fd =
      if fd = idx then status else getFileCacheStatus tree fd := by
  unfold getFileCacheStatus setFileCacheStatus
  rw [lookup_setItem]
  split
  · cases Tree.lookup tree idx with
    | none => rfl
    | some item => rfl
  · rfl

theorem getFileCacheStatus_remove (hne : fd ≠ idx) :
    getFileCacheStatus (removeFileHandleData tree idx) fd = getFileCacheStatus tree fd := by
  unfold getFileCacheStatus
  rw [lookup_removeFileHandleData, if_neg hne]

theorem getFileCacheStatus_registerRegular (com : CommonObject) (ctx : DbContext)
    (handle wantBackup : ℤ) (c : Client) :
    getFileCacheStatus (registerRegular com ctx handle wantBackup c).gFileHandleTree fd =
      getFileCacheStatus c.gFileHandleTree fd := by
  unfold registerRegular
  dsimp only
  split
  · rw [getFileCacheStatus_setFileBackupStatus, getFileCacheStatus_setFileHandleData]
  · rw [getFileCacheStatus_setFileHandleData]

end CacheStatus

section Spared

/-- What another call leaves of an open descriptor. -/
structure Client.Spares (c c' : Client) (x : ℤ) : Prop where
  file : (c'.os.fds.get x).map OpenFile.file = (c.os.fds.get x).map OpenFile.file
  status : getFileCacheStatus c'.gFileHandleTree x = getFileCacheStatus c.gFileHandleTree x

variable {com : CommonObject} {appId : CStr} {c c' c'' : Client} {x : ℤ}

theorem Client.Spares.refl (c : Client) (x : ℤ) : c.Spares c x := ⟨rfl, rfl⟩

theorem Client.Spares.trans (h : c.Spares c' x) (h' : c'.Spares c'' x) : c.Spares c'' x :=
  ⟨h'.file.trans h.file, h'.status.trans h.status⟩

theorem Client.Spares.open (h : c.Spares c' x) (hx : (c.os.fds.get x).isSome) :
    (c'.os.fds.get x).isSome := by
  have := congrArg Option.isSome h.file
  rwa [Option.isSome_map, Option.isSome_map, hx] at this

theorem Client.spares_keeps {os : Os} (hk : c.os.Keeps os) : c.Spares { c with os } x := ⟨hk x, rfl⟩

theorem Os.Opens.spares {A : Set ℤ} {os : Os} (h : c.os.Opens A os) (hx : (c.os.fds.get x).isSome) :
    x ∉ A ∧ c.Spares { c with os } x := by
  obtain ⟨f, hf⟩ := Option.isSome_iff_exists.mp hx
  have hnew := (h.get hf).1
  exact ⟨hnew, h.kept x hnew, rfl⟩

theorem Client.spares_closed {os : Os} {fd : ℤ} (hk : c.os.Keeps os) (hne : x ≠ fd) :
    c.Spares { c with os := (os.close fd).2 } x := by
  refine ⟨?_, rfl⟩
  rw [← hk x]
  unfold Os.close
  split
  · show (((os.fds.clear fd).get x).map OpenFile.file) = _
    rw [FdTable.get_clear, if_neg hne]
  · rfl

theorem spares_registerRegular (ctx : DbContext) (handle wantBackup : ℤ) (h : c.Spares c' x) :
    c.Spares (registerRegular com ctx handle wantBackup c') x := by
  refine ⟨?_, (getFileCacheStatus_registerRegular ..).trans h.status⟩
  unfold registerRegular
  dsimp only
  split <;> exact h.file

theorem spares_setFileCacheStatus {fd : ℤ} (status : ℤ) (h : c.Spares c' x) (hne : x ≠ fd) :
    c.Spares { c' with
      gFileHandleTree := setFileCacheStatus c'.gFileHandleTree fd status } x :=
  ⟨h.file, ((getFileCacheStatus_setFileCacheStatus status).trans (if_neg hne)).trans h.status⟩

theorem OpenRoute.spares {env : Env} {ctx : DbContext} {r : ℤ × Client}
    (h : OpenRoute com env ctx c r) (hx : (c.os.fds.get x).isSome) : c.Spares r.2 x := by
  cases h with
  | rejected _ hopens => exact (hopens.spares hx).2
  | limit _ hopens => exact (hopens.spares hx).2
  | unopened _ hopens _ => exact spares_registerRegular ctx _ _ (hopens.spares hx).2
  | found _ _ _ hopens _ => exact spares_registerRegular ctx _ _ (hopens.spares hx).2
  | created _ _ _ hopens _ =>
    obtain ⟨hnew, hsp⟩ := hopens.spares hx
    have hne : x ≠ _ := fun heq => hnew (Or.inl heq)
    exact spares_registerRegular ctx _ _ (spares_setFileCacheStatus _ hsp hne)

theorem Os.OpensOne.spares {A : Set ℤ} {r : ℤ × Os} (h : c.os.OpensOne A r)
    (hx : (c.os.fds.get x).isSome) : x ≠ r.1 ∧ c.Spares { c with os := r.2 } x := by
  obtain ⟨f, hf⟩ := Option.isSome_iff_exists.mp hx
  rcases h with ⟨hneg, hopens⟩ | ⟨-, -, hopens⟩
  · refine ⟨fun heq => ?_, (hopens.spares hx).2⟩
    have := (FdTable.nonneg_of_get hf).1
    omega
  · obtain ⟨hnew, hsp⟩ := hopens.spares hx
    exact ⟨fun heq => hnew (Or.inl heq), hsp⟩

theorem Os.OpensOne.spares_close {A : Set ℤ} {r : ℤ × Os} (h : c.os.OpensOne A r)
    (hx : (c.os.fds.get x).isSome) : c.Spares { c with os := (r.2.close r.1).2 } x := by
  rcases h with ⟨hneg, hopens⟩ | ⟨-, hnew, hopens⟩
  · exact ((hopens.close_negative (by omega)).spares hx).2
  · exact ((hopens.close_new hnew).spares hx).2

theorem openUnlisted_spares (env : Env) (ctx : DbContext) (resourceId : CStr)
    (userNo seatNo : UInt32) (hx : (c.os.fds.get x).isSome) :
    c.Spares (openUnlisted com appId env ctx resourceId userNo seatNo c).2 x := by
  unfold openUnlisted
  extract_lets dbPath
  have hone := pclCreateFile_opensOne (.refl c.os) com env dbPath
  obtain ⟨hne, hsp⟩ := hone.spares hx
  have hclose := hone.spares_close hx
  split
  rename_i handle os heq
  rw [heq] at hne hsp hclose
  have hset := spares_setFileCacheStatus 1 hsp hne
  split
  · extract_lets tree
    split
    · refine ⟨hset.file, ?_⟩
      dsimp only
      rw [getFileCacheStatus_setFileBackupStatus, getFileCacheStatus_setFileHandleData]
      exact hset.status
    · exact hset
  · exact hclose

theorem pclFileOpen_spares (env : Env) (ctx : DbContext) (resourceId : CStr)
    (userNo seatNo : UInt32) (hx : (c.os.fds.get x).isSome) :
    c.Spares (pclFileOpen com appId env ctx resourceId userNo seatNo c).2 x := by
  unfold pclFileOpen
  split
  swap
  · exact .refl c x
  split
  swap
  · exact .refl c x
  split
  · have hone : c.os.OpensOne ∅ (pclFileOpenDefaultData com appId env ctx resourceId c.os) :=
      (Os.Opens.refl c.os).openPath env _ _
    obtain ⟨-, hsp⟩ := hone.spares hx
    have hclose := hone.spares_close hx
    split
    rename_i handle os heq
    rw [heq] at hsp hclose
    split
    · exact hclose
    · refine ⟨hsp.file, ?_⟩
      dsimp only
      rw [getFileCacheStatus_setFileHandleData, getFileCacheStatus_setFileUserId]
  · unfold pclFileOpenRegular
    split
    · exact (openValid_route resourceId c).spares hx
    · exact openUnlisted_spares env ctx resourceId userNo seatNo hx

theorem pclFileClose_spares {fd : ℤ} (hne : x ≠ fd) : c.Spares (pclFileClose fd c).2 x := by
  unfold pclFileClose
  split
  swap
  · exact .refl c x
  split
  · exact .refl c x
  · extract_lets os₁
    have hk : c.os.Keeps os₁ := by
      unfold os₁
      split
      · exact (remove_keeps _ c.os).trans (remove_keeps _ _)
      · exact .refl c.os
    have hclosed := Client.spares_closed (hk.trans (Os.fsync_frame fd os₁).2) hne
    exact ⟨hclosed.file, getFileCacheStatus_remove hne⟩

theorem backupBeforeWrite_spares (env : Env) (fd : ℤ) (hx : (c.os.fds.get x).isSome) :
    c.Spares (backupBeforeWrite com env fd c) x := by
  unfold backupBeforeWrite
  split
  swap
  · exact .refl c x
  have hsum := (Os.Opens.refl c.os).keeps (pclCalcCrc32Csum_keeps fd c.os)
  refine ⟨?_, getFileCacheStatus_setFileBackupStatus 1⟩
  dsimp only
  split
  · exact (pclCreateBackup_opens hsum com env _ fd _ _).spares hx |>.2.file
  · exact (hsum.spares hx).2.file

theorem pclFileWriteData_spares (env : Env) (fd : ℤ) (buffer : Bytes)
    (hx : (c.os.fds.get x).isSome) : c.Spares (pclFileWriteData com env fd buffer c).2 x := by
  unfold pclFileWriteData
  split
  swap
  · exact .refl c x
  split
  swap
  · exact .refl c x
  split
  · exact .refl c x
  · split
    swap
    · exact .refl c x
    have hbackup : c.Spares (backupBeforeWrite com env fd c) x := backupBeforeWrite_spares env fd hx
    refine hbackup.trans ?_
    extract_lets c₁
    have hwrite := Os.write_keeps env fd buffer c₁.os
    dsimp only
    split
    · exact Client.spares_keeps (hwrite.trans (Os.fsync_frame fd _).2)
    · exact Client.spares_keeps hwrite

theorem createForPath_spares (env : Env) (ctx : DbContext) (resourceId : CStr)
    (hx : (c.os.fds.get x).isSome) :
    c.Spares (createForPath com appId env ctx resourceId c) x := by
  unfold createForPath
  split
  swap
  · exact .refl c x
  have hone := pclCreateFile_opensOne (.refl c.os) com env ctx.dbPath
  obtain ⟨hne, hsp⟩ := hone.spares hx
  have hset := spares_setFileCacheStatus (cacheStatusOf com ctx.dbPath) hsp hne
  extract_lets cacheStatus
  split
  rename_i handle os heq
  rw [heq] at hone hset
  extract_lets c₁
  split
  · exact hset
  · rcases hone with ⟨hneg, -⟩ | ⟨-, hnew, hopens⟩
    · exact absurd hneg ‹_›
    · have hclosed := (pclFileGetDefaultData_opens hopens com appId env handle resourceId
        ctx.configKey.policy).close_new hnew
      exact ⟨(hclosed.spares hx).2.file, hset.status⟩

theorem enterPath_spares (env : Env) (ctx : DbContext) (resourceId backup csum : CStr)
    (hx : (c.os.fds.get x).isSome) :
    c.Spares (enterPath com appId env ctx resourceId backup csum c).2 x := by
  unfold enterPath
  split
  rename_i handle pool heq
  extract_lets c₁
  have hcreate : c₁.Spares (createForPath com appId env ctx resourceId c₁) x :=
    createForPath_spares env ctx resourceId hx
  split
  swap
  · exact ⟨rfl, rfl⟩
  split
  swap
  · exact ⟨rfl, rfl⟩
  exact ⟨hcreate.file, hcreate.status⟩

theorem pclFileCreatePath_spares (env : Env) (ctx : DbContext) (resourceId : CStr)
    (userNo seatNo : UInt32) (hx : (c.os.fds.get x).isSome) :
    c.Spares (pclFileCreatePath com appId env ctx resourceId userNo seatNo c).2 x := by
  unfold pclFileCreatePath
  split
  swap
  · exact .refl c x
  split
  swap
  · exact .refl c x
  split
  swap
  · unfold enterUnlisted
    extract_lets dbPath
    split
    extract_lets c₁
    split
    · split
      · exact ⟨rfl, rfl⟩
      · exact ⟨rfl, rfl⟩
    · exact ⟨rfl, rfl⟩
  split
  swap
  · exact enterPath_spares env ctx resourceId [] [] hx
  extract_lets backup csum
  obtain ⟨B, hout, hopens⟩ := pclVerifyConsistency_grants (.refl c.os) env ctx.dbPath backup csum
    (pclGetPosixPermission ctx.configKey.permission)
  split
  rename_i handle os heq
  rw [heq] at hout hopens
  split
  · exact (hopens.spares hx).2
  extract_lets os₁
  have hkept : c.Spares { c with os := os₁ } x := by
    unfold os₁
    split
    · rename_i hpos
      dsimp only at hout hopens
      cases hout with
      | opened _ hnew => exact ((hopens.close_new hnew).spares hx).2
      | failed => omega
      | leaked => omega
      | unopened => omega
    · exact (hopens.spares hx).2
  exact hkept.trans (enterPath_spares env ctx resourceId backup csum (hkept.open hx))

theorem pclFileReleasePath_spares (pathHandle : ℤ) :
    c.Spares (pclFileReleasePath pathHandle c).2 x := by
  unfold pclFileReleasePath
  split
  swap
  · exact .refl c x
  split
  · exact .refl c x
  · refine ⟨?_, rfl⟩
    dsimp only
    split
    · exact (remove_keeps _ c.os).trans (remove_keeps _ _) x
    · rfl

theorem fileStep_spares (call : FileCall) (hx : (c.os.fds.get x).isSome)
    (hclose : call ≠ .fileClose x) : c.Spares (fileStep com appId c call) x := by
  cases call with
  | fileOpen env ctx resourceId userNo seatNo =>
    exact pclFileOpen_spares env ctx resourceId userNo seatNo hx
  | fileClose fd => exact pclFileClose_spares fun heq => hclose (heq ▸ rfl)
  | fileSeek fd offset whence =>
    simp only [fileStep, pclFileSeek]
    split
    · split
      · exact Client.spares_keeps (Os.lseek_frame fd offset whence c.os).2
      · exact .refl c x
    · exact .refl c x
  | fileReadData fd count =>
    simp only [fileStep, pclFileReadData]
    split
    · exact Client.spares_keeps (Os.read_frame fd count c.os).2
    · exact .refl c x
  | fileWriteData env fd buffer => exact pclFileWriteData_spares env fd buffer hx
  | fileRemove ctx =>
    simp only [fileStep, pclFileRemove]
    split
    · split
      · split
        · exact Client.spares_keeps (remove_keeps ctx.dbPath c.os)
        · exact .refl c x
      · exact .refl c x
    · exact .refl c x
  | fileCreatePath env ctx resourceId userNo seatNo =>
    exact pclFileCreatePath_spares env ctx resourceId userNo seatNo hx
  | fileReleasePath pathHandle => exact pclFileReleasePath_spares pathHandle

theorem run_spares (calls : List FileCall) (hx : (c.os.fds.get x).isSome)
    (hclose : FileCall.fileClose x ∉ calls) :
    c.Spares (Steps.run (fileStep com appId) c calls) x := by
  induction calls generalizing c with
  | nil => exact .refl c x
  | cons call calls ih =>
    rw [List.mem_cons, not_or] at hclose
    have hstep : c.Spares (fileStep com appId c call) x :=
      fileStep_spares call hx (Ne.symm hclose.1)
    exact hstep.trans (ih (hstep.open hx) hclose.2)

end Spared

end PersClient.File
