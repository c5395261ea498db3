import PersClient.File.Creation
import PersClient.File.FirstWrite

/-! # What a call leaves alone

A backup touches its two side files, a creation the new file, and a closing the
side files it removes. Every other file and every other open descriptor is as it
was before.
-/

namespace PersClient.File

open Access Crash Handle Prct Text

variable {com : CommonObject}

section System

theorem FdTable.ne_of_free {t : FdTable} {x fd : ℤ} {f : OpenFile} (hfree : t.get fd = none)
    (hf : t.get x = some f) : x ≠ fd := by
  rintro rfl
  rw [hfree] at hf
  cases hf

namespace Os

structure Elsewhere (os : Os) (ps : List Path) (os' : Os) : Prop where
  names : ∀ q ∉ ps, os'.fs.names q = os.fs.names q
  content : ∀ q ∉ ps, os'.fs.content q = os.fs.content q

def Others (os : Os) (fd : ℤ) (os' : Os) : Prop :=
  ∀ x f, x ≠ fd → os.fds.get x = some f → os'.fds.get x = some f

variable {os os' os'' : Os} {ps : List Path} {p : Path} {fd k : ℤ}

theorem Elsewhere.trans (h : os.Elsewhere ps os') (h' : os'.Elsewhere ps os'') :
    os.Elsewhere ps os'' :=
  ⟨fun q hq => (h'.names q hq).trans (h.names q hq),
    fun q hq => (h'.content q hq).trans (h.content q hq)⟩

theorem Elsewhere.mono {qs : List Path} (h : os.Elsewhere ps os') (hsub : ps ⊆ qs) :
    os.Elsewhere qs os' :=
  ⟨fun q hq => h.names q fun hp => hq (hsub hp), fun q hq => h.content q fun hp => hq (hsub hp)⟩

theorem Elsewhere.of_disk (h : os'.disk = os.disk) : os.Elsewhere ps os' := by
  have hfs : os'.fs = os.fs := congrArg Logged.now h
  constructor
  · intro q _
    rw [hfs]
  · intro q _
    rw [hfs]

theorem Sets.elsewhere {x : Option Bytes} (h : os.Sets p x os') (hp : p ∈ ps) :
    os.Elsewhere ps os' := by
  constructor
  · rintro q hq
    exact h.others q fun heq => hq (heq ▸ hp)
  · rintro q hq
    have hne : q ≠ p := fun heq => hq (heq ▸ hp)
    rw [h.content, if_neg hne]

theorem Touches.elsewhere (h : os.Touches p os') (hp : p ∈ ps) : os.Elsewhere ps os' := by
  constructor
  · rintro q -
    rw [h.names]
  · rintro q hq
    exact h.content q fun heq => hq (heq ▸ hp)

theorem Others.trans (h : os.Others fd os') (h' : os'.Others fd os'') : os.Others fd os'' :=
  fun x f hne hf => h' x f hne (h x f hne hf)

theorem Others.of_get (h : ∀ x, x ≠ fd → os'.fds.get x = os.fds.get x) : os.Others fd os' := by
  intro x f hne hf
  rw [h x hne, hf]

theorem close_fs (fd : ℤ) (os : Os) : (os.close fd).2.fs = os.fs :=
  congrArg Logged.now (close_disk fd os)

theorem lseek_others (fd offset : ℤ) (whence : Whence) (os : Os) :
    os.Others fd (os.lseek fd offset whence).2 := by
  apply Others.of_get
  intro x hne
  cases hf : os.fds.get fd with
  | none => rw [lseek, hf]; rfl
  | some f =>
    have hpos := (FdTable.nonneg_of_get hf).1
    unfold lseek
    rw [hf]
    dsimp only
    split <;> split
    all_goals first
      | rfl
      | exact setFile_spares hpos hne.symm _

theorem write_others (env : Env) (fd : ℤ) (b : Bytes) (os : Os) :
    os.Others fd (os.write env fd b).2 :=
  .of_get fun _ hne => write_spares env hne.symm b os

theorem fsync_others (fd : ℤ) (os : Os) : os.Others fd (os.fsync fd).2 := by
  apply Others.of_get
  intro x hne
  cases hf : os.fds.get fd with
  | none => rw [fsync, hf]; rfl
  | some f =>
    rw [fsync, hf]
    exact setFile_spares (FdTable.nonneg_of_get hf).1 hne.symm _

theorem sendfile_get (env : Env) {outFd inFd x : ℤ} (hout : x ≠ outFd) (hin : x ≠ inFd) (count : ℕ)
    (os : Os) : (os.sendfile env outFd inFd count).2.fds.get x = os.fds.get x := by
  unfold sendfile
  split
  · rename_i src dst hsrc hdst
    have hsrcpos := (FdTable.nonneg_of_get hsrc).1
    have hdstpos := (FdTable.nonneg_of_get hdst).1
    have htransfer : ∀ (fault : Option Fault) (b : Bytes) (os : Os),
        (os.transfer fault outFd dst b).2.fds.get x = os.fds.get x := by
      intro fault b os
      unfold transfer
      split
      · rfl
      · exact setFile_spares hdstpos hout.symm _
      · exact setFile_spares hdstpos hout.symm _
    split
    · dsimp only
      split
      · exact htransfer ..
      · exact (setFile_spares hsrcpos hin.symm _).trans (htransfer ..)
    · rfl
  · rfl

end Os

end System

section Backup

variable {os : Os} {fd : ℤ} {ps : List Path}

theorem makeBackupFile_elsewhere (env : Env) {dstPath : CStr}
    (hp : ∀ p, createPath com (snprintf com.maxLengthPathFilename dstPath) = some p →
      resolve p ∈ ps) (os : Os) : os.Elsewhere ps (makeBackupFile com env dstPath os) := by
  unfold makeBackupFile
  split
  · rcases pclCreateFile_cases com env (snprintf com.maxLengthPathFilename dstPath) os with
      ⟨os₁, heq, hsame⟩ | ⟨p, os₁, i, hpath, heq, hsets, -⟩
    · rw [heq]
      exact .of_disk hsame.disk
    · rw [heq]
      dsimp only
      split
      · exact (hsets.elsewhere (hp p hpath)).trans (.of_disk (Os.close_disk _ _))
      · exact hsets.elsewhere (hp p hpath)
  · exact .of_disk rfl

/-- Whatever the faults, a file that is opened and truncated is the only one touched. -/
theorem openPath_elsewhere (env : Env) {path : CStr} (flags : OpenFlags) (hc : flags.creat = true)
    (ht : flags.trunc = true) (hne : resolve path ≠ []) (hp : resolve path ∈ ps) (os : Os) :
    os.Elsewhere ps (os.openPath env path flags).2 ∧
      ∀ f, (os.openPath env path flags).2.fds.get (os.openPath env path flags).1 = some f →
        (os.openPath env path flags).2.fs.names (resolve path) = some f.ino := by
  rcases Os.openPath_cases env path flags os with ⟨e, heq⟩ | heq
  · rw [heq]
    refine ⟨.of_disk rfl, fun f hf => ?_⟩
    have hneg : (0 : ℤ) ≤ -1 := (FdTable.nonneg_of_get hf).1
    omega
  · obtain ⟨os', i, hopen, hsets, hi, hget⟩ := Os.openFile_emptied os.tick flags hc ht hne
    have hsets' : os.Sets (resolve path) (some []) os' := hsets.of_same rfl
    rw [heq, hopen]
    refine ⟨hsets'.elsewhere hp, fun f hf => ?_⟩
    dsimp only at hf ⊢
    rw [hget, Function.update_self, Option.some.injEq] at hf
    rw [hi, ← hf]

theorem writeCsumFile_elsewhere (env : Env) {csumPath : CStr} (hne : resolve csumPath ≠ [])
    (hp : resolve csumPath ∈ ps) (csumBuf : Bytes) (os : Os) :
    os.Elsewhere ps (writeCsumFile env csumPath csumBuf os) := by
  obtain ⟨hopen, hfile⟩ := openPath_elsewhere env { oWronly with creat := true, trunc := true }
    rfl rfl hne hp os
  unfold writeCsumFile
  generalize os.openPath env csumPath { oWronly with creat := true, trunc := true } = opened at *
  obtain ⟨csfd, os₁⟩ := opened
  dsimp only at hopen hfile ⊢
  split
  · have hwrite : os₁.Elsewhere ps (os₁.write env csfd csumBuf).2 :=
      (Os.write_touches hfile csumBuf).elsewhere hp
    exact hopen.trans (hwrite.trans (.of_disk (Os.close_disk _ _)))
  · exact hopen

theorem pclBackupDoFileCopy_elsewhere (env : Env) (srcFd : ℤ) {dstFd : ℤ} {p : Path}
    (hfile : ∀ f, os.fds.get dstFd = some f → os.fs.names p = some f.ino) (hp : p ∈ ps) :
    os.Elsewhere ps (pclBackupDoFileCopy env srcFd dstFd os).2 := by
  unfold pclBackupDoFileCopy
  split
  · exact .of_disk rfl
  · rename_i n _
    have hsend := (Os.sendfile_touches env srcFd hfile n).elsewhere hp
    exact hsend.trans (.of_disk (Os.lseek_frame dstFd 0 .set _).1)

theorem copyToBackup_elsewhere (env : Env) {dstPath : CStr} (hne : resolve dstPath ≠ [])
    (hp : resolve dstPath ∈ ps) (srcfd : ℤ) (os : Os) :
    os.Elsewhere ps (copyToBackup env dstPath srcfd os).2 := by
  obtain ⟨hopen, hfile⟩ := openPath_elsewhere env { oWronly with creat := true, trunc := true }
    rfl rfl hne hp os
  unfold copyToBackup
  generalize os.openPath env dstPath { oWronly with creat := true, trunc := true } = opened at *
  obtain ⟨dstFd, os₁⟩ := opened
  dsimp only at hopen hfile ⊢
  split
  swap
  · exact hopen
  obtain ⟨hdisk₂, hkeeps₂⟩ := Os.lseek_frame srcfd 0 .cur os₁
  generalize os₁.lseek srcfd 0 .cur = sought at *
  obtain ⟨curPos, os₂⟩ := sought
  dsimp only at hdisk₂ hkeeps₂ ⊢
  -- wherever the source stands, the rewinding keeps the open files
  have hrewind : (if curPos ≠ 0 then (os₂.lseek srcfd 0 .set).2 else os₂).disk = os₁.disk ∧
      os₁.Keeps (if curPos ≠ 0 then (os₂.lseek srcfd 0 .set).2 else os₂) := by
    obtain ⟨hdisk, hkeeps⟩ := Os.lseek_frame srcfd 0 .set os₂
    split
    · exact ⟨hdisk.trans hdisk₂, hkeeps₂.trans hkeeps⟩
    · exact ⟨hdisk₂, hkeeps₂⟩
  generalize (if curPos ≠ 0 then (os₂.lseek srcfd 0 .set).2 else os₂) = os₃ at *
  obtain ⟨hdisk₃, hkeeps₃⟩ := hrewind
  have hfile₃ : ∀ f, os₃.fds.get dstFd = some f → os₃.fs.names (resolve dstPath) = some f.ino := by
    intro f hf
    obtain ⟨f', hf', hsame⟩ : ∃ f', os₁.fds.get dstFd = some f' ∧ f'.file = f.file := by
      have hmap := hkeeps₃ dstFd
      rw [hf, Option.map_some] at hmap
      exact Option.map_eq_some_iff.mp hmap.symm
    have hino : f'.ino = f.ino := congrArg Prod.fst hsame
    rw [show os₃.fs = os₁.fs from congrArg Logged.now hdisk₃, hfile f' hf', hino]
  have hcopy := pclBackupDoFileCopy_elsewhere env srcfd hfile₃ hp
  exact hopen.trans ((Os.Elsewhere.of_disk hdisk₃).trans (hcopy.trans
    ((Os.Elsewhere.of_disk (Os.close_disk _ _)).trans (.of_disk (Os.lseek_frame srcfd _ .set _).1))))

theorem copyToBackup_others (env : Env) (dstPath : CStr) (srcfd : ℤ) (os : Os) :
    os.Others srcfd (copyToBackup env dstPath srcfd os).2 := by
  intro x g hne hg
  obtain ⟨hnew, hget⟩ := Os.openPath_spares env dstPath
    { oWronly with creat := true, trunc := true } hg
  unfold copyToBackup
  generalize os.openPath env dstPath { oWronly with creat := true, trunc := true } = opened at *
  obtain ⟨dstFd, os₁⟩ := opened
  dsimp only at hnew hget ⊢
  split
  swap
  · exact hget
  have hcur := Os.lseek_others srcfd 0 .cur os₁ x g hne hget
  generalize os₁.lseek srcfd 0 .cur = sought at *
  obtain ⟨curPos, os₂⟩ := sought
  dsimp only at hcur ⊢
  have hrewind : (if curPos ≠ 0 then (os₂.lseek srcfd 0 .set).2 else os₂).fds.get x = some g := by
    split
    · exact Os.lseek_others srcfd 0 .set os₂ x g hne hcur
    · exact hcur
  generalize (if curPos ≠ 0 then (os₂.lseek srcfd 0 .set).2 else os₂) = os₃ at *
  have hcopy : (pclBackupDoFileCopy env srcfd dstFd os₃).2.fds.get x = some g := by
    unfold pclBackupDoFileCopy
    split
    · exact hrewind
    · refine Os.lseek_others dstFd 0 .set _ x g hnew.symm ?_
      rw [Os.sendfile_get env hnew.symm hne, hrewind]
  apply Os.lseek_others srcfd curPos .set _ x g hne
  rw [Os.close_spares hnew, hcopy]

theorem pclCreateBackup_others (com : CommonObject) (env : Env) (dstPath csumPath : CStr)
    (srcfd : ℤ) (csumBuf : Bytes) (os : Os) :
    os.Others srcfd (pclCreateBackup com env dstPath srcfd csumPath csumBuf os).2 := by
  intro x g hne hg
  exact copyToBackup_others env dstPath srcfd _ x g hne
    (writeCsumFile_spares env csumPath csumBuf (makeBackupFile_spares com env dstPath hg))

end Backup

section Resources

variable {r : FileResource com} {room : com.Roomy} {fd : ℤ} {f : OpenFile} {c : Client} {env : Env}

theorem FileResource.OneLine.dbPath (h : r.OneLine) (room : com.Roomy) :
    '\n' ∉ r.dbContext.dbPath := by
  have hcut : '\n' ∉ policyPrefix com r.info.configKey.policy := by
    cases hp : r.info.configKey.policy with
    | na => exact absurd hp r.stored
    | wc => simpa [policyPrefix, cachePrefix, cstr_eq] using room.root
    | wt => simpa [policyPrefix, wtPrefix, cstr_eq] using room.root
  rw [r.dbPath_eq room, List.mem_append, not_or]
  exact ⟨hcut, h⟩

theorem FileResource.OneLine.made_backup (h : r.OneLine) (room : com.Roomy) {p : CStr}
    (hp : createPath com (snprintf com.maxLengthPathFilename (r.names room).backup) = some p) :
    resolve p = resolve (r.names room).backup := by
  have he : gBackupPostfix.length = 1 := by simp [gBackupPostfix, cstr_eq]
  have heq : (r.names room).backup =
      com.rootPath ++ cstr "/mnt-backup/" ++ r.subPath ++ gBackupPostfix :=
    r.sidePath_eq room (show gBackupPostfix.length ≤ 5 by omega)
  have hlen : (r.names room).backup.length < com.maxLengthPathFilename := by
    have hroom := r.subPath_length_le room
    have hfolder : (cstr "/mnt-backup/").length = 12 := by simp [cstr_eq]
    rw [heq]
    simp only [List.length_append, hfolder]
    omega
  rw [snprintf_of_lt hlen] at hp
  rw [FileResource.resolve_createPath hlen hp]
  apply tokens_splits_eq
  rw [heq]
  simp only [List.mem_append, not_or]
  exact ⟨⟨⟨room.root, by simp [cstr_eq]⟩, h⟩, by simp [gBackupPostfix, cstr_eq]⟩

theorem FileResource.OneLine.made_orig (h : r.OneLine) (room : com.Roomy) {p : CStr}
    (hp : createPath com r.dbContext.dbPath = some p) : resolve p = resolve r.dbContext.dbPath := by
  have hlen : r.dbContext.dbPath.length < com.maxLengthPathFilename := by
    have hroom := r.subPath_length_le room
    have hcut := @policyPrefix_length_le com r.info.configKey.policy
    rw [r.dbPath_eq room, List.length_append]
    omega
  rw [FileResource.resolve_createPath hlen hp]
  exact tokens_splits_eq (h.dbPath room)

/-- The backup before the first write touches the side files alone, and no other descriptor. -/
theorem AwaitsBackup.frame (h : AwaitsBackup r room fd f c) (env : Env) :
    c.os.Elsewhere [resolve (r.names room).backup, resolve (r.names room).csum]
        (backupBeforeWrite com env fd c).os ∧
      c.os.Others fd (backupBeforeWrite com env fd c).os := by
  obtain ⟨item, hitem, hrec⟩ := h.recorded
  obtain ⟨os₁, hcsum, hsame⟩ := pclCalcCrc32Csum_open h.get
  rw [backupBeforeWrite_first room hitem hrec hcsum]
  dsimp only
  constructor
  · apply (Os.Elsewhere.of_disk hsame.disk).trans
    have hmade : os₁.Elsewhere [resolve (r.names room).backup, resolve (r.names room).csum]
        (makeBackupFile com env (r.names room).backup os₁) :=
      makeBackupFile_elsewhere env (fun p hp => by
        rw [h.oneLine.made_backup room hp]
        exact List.mem_cons_self) os₁
    exact hmade.trans ((writeCsumFile_elsewhere env (r.names room).csum_ne_nil
      (List.mem_cons_of_mem _ List.mem_cons_self) _ _).trans
        (copyToBackup_elsewhere env (r.names room).backup_ne_nil List.mem_cons_self fd _))
  · intro x g hne hg
    rw [← hsame.get] at hg
    exact pclCreateBackup_others com env _ _ fd _ os₁ x g hne hg

end Resources

section Defaults

variable (com) (appId : CStr) (policy : PersistencePolicy) (resourceId : CStr)

/-- The paths of the default data of a resource: the configured ones come first. -/
def defaultPaths : List CStr :=
  [defaultDataPath com appId policy com.configDefaultDataFolderName resourceId,
    defaultDataPath com appId policy com.defaultDataFolderName resourceId]

def defaultData (os : Os) : Bytes :=
  (((defaultPaths com appId policy resourceId).findSome? fun path => os.content path)).getD []

variable {com appId policy resourceId} {os : Os} {handle : ℤ} {g : OpenFile} {p : Path}

theorem copyDefaultData_reliable {defaultHandle : ℤ} {f : OpenFile}
    (hf : os.fds.get defaultHandle = some f) (hr : f.readable = true) (hf0 : f.offset = 0)
    (hg : os.fds.get handle = some g) (hw : g.writable = true) (hg0 : g.offset = 0)
    (hp : os.fs.names p = some g.ino) (hempty : os.fs.data g.ino = [])
    (hne : defaultHandle ≠ handle) :
    ∃ b, (copyDefaultData .reliable handle defaultHandle os).2.fs.content p =
        some (os.fs.data f.ino) ∧
      (copyDefaultData .reliable handle defaultHandle os).2.fds.get handle =
        some { g with synced := b } ∧
      ∀ x, x ≠ handle → x ≠ defaultHandle →
        (copyDefaultData .reliable handle defaultHandle os).2.fds.get x = os.fds.get x := by
  obtain ⟨os₁, hsend, hsets, -, hget⟩ := Os.sendfile_quiet hf hg (Env.quiet_reliable _) hr hw hp
    (os.fs.data f.ino).length
  simp only [hf0, hg0, hempty, List.drop_zero, List.take_length, Os.writeAt_empty, zero_add]
    at hsend hsets hget
  have hstat : os.fstat defaultHandle = some (os.fs.data f.ino).length := by
    rw [Os.fstat, hf, Option.map_some]
  have hne' : ((os.fs.data f.ino).length : ℤ) ≠ -1 := by omega
  have hg₁ : os₁.fds.get handle = some { g with
      offset := (os.fs.data f.ino).length, synced := false } := by
    rw [hget, Function.update_of_ne hne.symm, Function.update_self]
  obtain ⟨os₂, hseek, hdisk, hget₂⟩ := Os.lseek_set hg₁ 0
  rw [Nat.cast_zero] at hseek
  unfold copyDefaultData
  rw [hstat]
  dsimp only
  rw [hsend, if_pos hne', hseek]
  refine ⟨false, ?_, ?_, fun x hx hx' => ?_⟩
  · rw [show os₂.fs = os₁.fs from congrArg Logged.now hdisk, hsets.content, if_pos rfl]
  · rw [hget₂, Function.update_self, hg0]
  · rw [hget₂, Function.update_of_ne hx, hget, Function.update_of_ne hx', Function.update_of_ne hx]

theorem defaultData_eq {dp : CStr} (hdp : (if os.access
    (defaultDataPath com appId policy com.configDefaultDataFolderName resourceId) ≠ 0 then
      defaultDataPath com appId policy com.defaultDataFolderName resourceId
    else defaultDataPath com appId policy com.configDefaultDataFolderName resourceId) = dp) :
    defaultData com appId policy resourceId os = (os.content dp).getD [] := by
  rw [← hdp]
  unfold defaultData defaultPaths
  rw [List.findSome?_cons, List.findSome?_cons, List.findSome?_nil]
  cases hconf : os.content
    (defaultDataPath com appId policy com.configDefaultDataFolderName resourceId) with
  | some d =>
    have hthere := Os.access_eq_zero.mpr (Option.ne_none_iff_exists'.mpr ⟨d, hconf⟩)
    rw [if_neg (not_not.mpr hthere), hconf]
  | none =>
    have hmissing : os.access
        (defaultDataPath com appId policy com.configDefaultDataFolderName resourceId) ≠ 0 :=
      fun hzero => Os.access_eq_zero.mp hzero hconf
    rw [if_pos hmissing]
    cases os.content (defaultDataPath com appId policy com.defaultDataFolderName resourceId) <;> rfl

theorem pclFileGetDefaultData_reliable (hg : os.fds.get handle = some g) (hw : g.writable = true)
    (hg0 : g.offset = 0) (hp : os.fs.names p = some g.ino) (hempty : os.fs.data g.ino = []) :
    ∃ os', (pclFileGetDefaultData com appId .reliable handle resourceId policy os).2 = os' ∧
      os'.fs.content p = some (defaultData com appId policy resourceId os) ∧
      (∃ b, os'.fds.get handle = some { g with synced := b }) ∧ os.Others handle os' := by
  refine ⟨_, rfl, ?_⟩
  unfold pclFileGetDefaultData
  dsimp only
  generalize hdp : (if os.access
    (defaultDataPath com appId policy com.configDefaultDataFolderName resourceId) ≠ 0 then
      defaultDataPath com appId policy com.defaultDataFolderName resourceId
    else defaultDataPath com appId policy com.configDefaultDataFolderName resourceId) = dp
  rw [defaultData_eq hdp]
  cases hd : os.content dp with
  | none =>
    obtain ⟨os₁, heq, hsame, -⟩ := Os.openPath_missing oRdonly (Env.quiet_reliable dp)
      (Fs.content_eq_none.mp hd) rfl
    rw [heq, if_neg (show ¬ (-1 : ℤ) ≠ -1 from not_not.mpr rfl)]
    refine ⟨?_, ⟨g.synced, ?_⟩, ?_⟩
    · rw [hsame.fs, Fs.content_of_names hp, hempty, Option.getD_none]
    · rw [hsame.get, hg]
    · exact .of_get fun x _ => congrFun hsame.get x
  | some d =>
    obtain ⟨j, hj, hdata⟩ := Fs.content_eq_some.mp hd
    obtain ⟨os₁, heq, hdisk, hget⟩ := Os.openPath_existing oRdonly (Env.quiet_reliable dp) hj rfl
    have hfs : os₁.fs = os.fs := congrArg Logged.now hdisk
    have hne : (os.fds.lowestFree : ℤ) ≠ handle :=
      (FdTable.ne_of_free FdTable.get_lowestFree hg).symm
    have hnn : (os.fds.lowestFree : ℤ) ≠ -1 := by omega
    have hf₁ : os₁.fds.get os.fds.lowestFree = some ⟨j, dp, 0, true, false, true⟩ := by
      rw [hget, Function.update_self]
      rfl
    obtain ⟨b, hcontent, hhandle, hothers⟩ := copyDefaultData_reliable (p := p) hf₁ rfl rfl
      (by rw [hget, Function.update_of_ne hne.symm, hg]) hw hg0 (by rw [hfs, hp])
      (by rw [hfs, hempty]) hne
    rw [heq, if_pos hnn]
    dsimp only
    refine ⟨?_, ⟨b, ?_⟩, fun x f hx hf => ?_⟩
    · rw [Os.close_fs, hcontent, hfs, hdata, Option.getD_some]
    · rw [Os.close_spares hne, hhandle]
    · have hxne : x ≠ os.fds.lowestFree := FdTable.ne_of_free FdTable.get_lowestFree hf
      rw [Os.close_spares hxne.symm, hothers x hx hxne, hget, Function.update_of_ne hxne, hf]

theorem defaultData_elsewhere {os' : Os} {ps : List Path} (h : os.Elsewhere ps os')
    (hapart : ∀ path ∈ defaultPaths com appId policy resourceId, resolve path ∉ ps) :
    defaultData com appId policy resourceId os' = defaultData com appId policy resourceId os := by
  have hsame : ∀ path ∈ defaultPaths com appId policy resourceId,
      os'.content path = os.content path := fun path hin => h.content _ (hapart path hin)
  unfold defaultData
  simp only [defaultPaths, List.mem_cons, List.not_mem_nil, or_false, forall_eq_or_imp,
    forall_eq] at hsame ⊢
  simp only [List.findSome?_cons, List.findSome?_nil, hsame.1, hsame.2]

/-- A file of a resource that is made new: it holds the default data, or it stays
empty where its descriptor is beyond the limit. -/
inductive Created (com : CommonObject) (appId : CStr) (ctx : DbContext) (resourceId : CStr)
    (cacheStatus : ℤ) (p : Path) (c : Client) : ℤ × Client → Prop
  | made {fd : ℤ} {f : OpenFile} {os : Os} : 0 ≤ fd → c.os.fds.get fd = none →
      os.fds.get fd = some f → f.readable = true → f.writable = true → f.offset = 0 →
      os.fs.names p = some f.ino →
      os.fs.content p = some (defaultData com appId ctx.configKey.policy resourceId c.os) →
      c.os.Elsewhere [p] os → c.os.Others fd os →
      Created com appId ctx resourceId cacheStatus p c (fd, { c with
        os, gFileHandleTree := setFileCacheStatus c.gFileHandleTree fd cacheStatus })
  | refused {os : Os} : os.fs.content p = some [] → c.os.Elsewhere [p] os →
      (∀ x f, c.os.fds.get x = some f → os.fds.get x = some f) →
      Created com appId ctx resourceId cacheStatus p c (epersMaxhandle, { c with os })

theorem createRegular_reliable {ctx : DbContext} {path : CStr}
    (hpath : createPath com ctx.dbPath = some path) (cacheStatus : ℤ) (c : Client)
    (hapart : ∀ dp ∈ defaultPaths com appId ctx.configKey.policy resourceId,
      resolve dp ≠ resolve path) :
    Created com appId ctx resourceId cacheStatus (resolve path) c
      (createRegular com appId .reliable ctx resourceId cacheStatus c) := by
  obtain ⟨os₁, i, hopen, hsets, hi, hget⟩ := Os.openPath_emptied c.os
    { oRdwr with creat := true, trunc := true } (Env.quiet_reliable path) rfl rfl
    (createPath_resolve hpath).2
  have hcreate : pclCreateFile com .reliable ctx.dbPath c.os =
      ((c.os.fds.lowestFree : ℤ), os₁) := by
    unfold pclCreateFile
    rw [hpath]
    exact hopen
  have hne : (c.os.fds.lowestFree : ℤ) ≠ -1 := by omega
  have helse : c.os.Elsewhere [resolve path] os₁ := hsets.elsewhere List.mem_cons_self
  have hfree : ∀ x f, c.os.fds.get x = some f → x ≠ c.os.fds.lowestFree :=
    fun x f hf => FdTable.ne_of_free FdTable.get_lowestFree hf
  have hold : ∀ x f, c.os.fds.get x = some f → os₁.fds.get x = some f := by
    intro x f hf
    rw [hget, Function.update_of_ne (hfree x f hf), hf]
  have hg : os₁.fds.get c.os.fds.lowestFree = some ⟨i, path, 0, true, true, true⟩ := by
    rw [hget, Function.update_self]
    rfl
  unfold createRegular
  simp only [hcreate, hne, if_false]
  split
  · refine .refused ?_ (helse.trans (.of_disk (Os.close_disk _ _))) fun x f hf => ?_
    · rw [Os.close_fs, hsets.content, if_pos rfl]
    · rw [Os.close_spares (hfree x f hf).symm, hold x f hf]
  · have hempty : os₁.fs.data i = [] := hsets.data_self hi
    obtain ⟨keeps, touches⟩ := pclFileGetDefaultData_frame com appId .reliable resourceId
      ctx.configKey.policy hg hi
    obtain ⟨os₂, heq, hcontent, ⟨b, hfd⟩, hothers⟩ := @pclFileGetDefaultData_reliable com
      appId ctx.configKey.policy resourceId _ _ _ _ hg rfl rfl hi hempty
    rw [heq] at touches ⊢
    rw [defaultData_elsewhere helse fun dp hin => by simpa using hapart dp hin] at hcontent
    refine .made (by omega) FdTable.get_lowestFree hfd rfl rfl rfl ?_ hcontent
      (helse.trans (touches.elsewhere List.mem_cons_self)) fun x f hx hf => ?_
    · rw [touches.names]
      exact hi
    · exact hothers x f hx (hold x f hf)

end Defaults

end PersClient.File
