import PersClient.File.Descriptors
import PersClient.File.WriteAhead

/-! # The first write through a descriptor

The backup is made behind the back of the writer: the copy and the checksum are
taken through the writer's own descriptor and leave its position where it was,
so the write that follows is the one the caller asked for. After it the side
files stay as they are.
-/

namespace PersClient.File

open Access Crash Handle Steps

variable {com : CommonObject}

namespace Os

def position (os : Os) (fd : ℤ) : Option ℕ := (os.fds.get fd).map OpenFile.offset

variable {os os' : Os} {env : Env} {fd k : ℤ} {f : OpenFile}

theorem position_of_get (h : os.fds.get fd = some f) : os.position fd = some f.offset := by
  rw [position, h, Option.map_some]

theorem openPath_spares (env : Env) (path : CStr) (flags : OpenFlags) (h : os.fds.get fd = some f) :
    (os.openPath env path flags).1 ≠ fd ∧ (os.openPath env path flags).2.fds.get fd = some f := by
  have hpos := (FdTable.nonneg_of_get h).1
  rcases openPath_fds env path flags os with ⟨hneg, hget⟩ | ⟨hnew, g, -, hget⟩
  · rw [hneg, hget]
    exact ⟨by omega, h⟩
  · have hne : (os.fds.lowestFree : ℤ) ≠ fd := by
      rintro rfl
      rw [FdTable.get_lowestFree] at h
      cases h
    rw [hnew, hget, Function.update_of_ne hne.symm]
    exact ⟨hne, h⟩

theorem setFile_spares (hk : 0 ≤ k) (hne : k ≠ fd) (g : OpenFile) :
    (os.setFile k g).fds.get fd = os.fds.get fd := by
  rw [get_setFile hk, Function.update_of_ne hne.symm]

theorem close_spares (hne : k ≠ fd) (os : Os) : (os.close k).2.fds.get fd = os.fds.get fd := by
  cases hget : os.fds.get k with
  | none =>
    obtain ⟨os', heq, hsame⟩ := close_closed hget
    rw [heq, hsame.get]
  | some g =>
    obtain ⟨os', heq, -, hclear⟩ := close_open hget
    rw [heq, hclear, Function.update_of_ne hne.symm]

theorem write_spares (env : Env) (hne : k ≠ fd) (b : Bytes) (os : Os) :
    (os.write env k b).2.fds.get fd = os.fds.get fd := by
  unfold write
  split
  · rfl
  · rename_i g hg
    have hk := (FdTable.nonneg_of_get hg).1
    split
    · unfold transfer
      split
      · rfl
      · exact setFile_spares hk hne _
      · exact setFile_spares hk hne _
    · rfl

theorem fsync_position (k : ℤ) (os : Os) : (os.fsync k).2.position fd = os.position fd := by
  unfold fsync
  split
  · rfl
  · rename_i g hg
    have hk := (FdTable.nonneg_of_get hg).1
    unfold position
    by_cases hne : k = fd
    · subst hne
      rw [get_setFile hk, Function.update_self, hg]
      rfl
    · rw [setFile_spares hk hne]

end Os

section Position

variable {os : Os} {env : Env} {fd : ℤ} {f : OpenFile}

theorem makeBackupFile_spares (com : CommonObject) (env : Env) (dstPath : CStr)
    (h : os.fds.get fd = some f) :
    (makeBackupFile com env dstPath os).fds.get fd = some f := by
  unfold makeBackupFile pclCreateFile
  split
  · cases createPath com (snprintf com.maxLengthPathFilename dstPath) with
    | none => exact h
    | some p =>
      obtain ⟨hne, hget⟩ := Os.openPath_spares env p { oRdwr with creat := true, trunc := true } h
      dsimp only
      split
      · rw [Os.close_spares hne, hget]
      · exact hget
  · exact h

theorem writeCsumFile_spares (env : Env) (csumPath : CStr) (csumBuf : Bytes)
    (h : os.fds.get fd = some f) :
    (writeCsumFile env csumPath csumBuf os).fds.get fd = some f := by
  obtain ⟨hne, hget⟩ := Os.openPath_spares env csumPath
    { oWronly with creat := true, trunc := true } h
  unfold writeCsumFile
  dsimp only
  split
  · rw [Os.close_spares hne, Os.write_spares env hne, hget]
  · exact hget

theorem copyToBackup_position (env : Env) (dstPath : CStr) (h : os.fds.get fd = some f) :
    (copyToBackup env dstPath fd os).2.position fd = some f.offset := by
  obtain ⟨hne, hget⟩ := Os.openPath_spares env dstPath { oWronly with creat := true, trunc := true } h
  unfold copyToBackup
  dsimp only
  split
  · obtain ⟨os₂, hcur, hsame₂⟩ := Os.lseek_cur hget
    have hf₂ : os₂.fds.get fd = some f := by rw [hsame₂.get, hget]
    obtain ⟨-, hget₃⟩ := Os.rewind hf₂
    rw [hcur]
    generalize (if (f.offset : ℤ) ≠ 0 then (os₂.lseek fd 0 .set).2 else os₂) = os₃ at *
    have hf₃ : os₃.fds.get fd = some { f with offset := 0 } := by rw [hget₃, Function.update_self]
    -- wherever the copy leaves the position, the last seek sets it
    obtain ⟨g, hg, -⟩ := (pclBackupDoFileCopy_keeps env fd
      (os.openPath env dstPath { oWronly with creat := true, trunc := true }).1 os₃).get hf₃
    rw [← Os.close_spares hne] at hg
    obtain ⟨os₅, hset, -, hget₅⟩ := Os.lseek_set hg f.offset
    rw [hset, Os.position, hget₅, Function.update_self]
    rfl
  · exact Os.position_of_get hget

theorem pclCreateBackup_position (com : CommonObject) (env : Env) (dstPath csumPath : CStr)
    (csumBuf : Bytes) (h : os.fds.get fd = some f) :
    (pclCreateBackup com env dstPath fd csumPath csumBuf os).2.position fd = some f.offset :=
  copyToBackup_position env dstPath
    (writeCsumFile_spares env csumPath csumBuf (makeBackupFile_spares com env dstPath h))

end Position

section FirstWrite

/-- The resource stands open, can be read, and no write has come yet. The folders
of its side files can be made, so that the files can be opened. -/
structure AwaitsBackup (r : FileResource com) (room : com.Roomy) (fd : ℤ) (f : OpenFile)
    (c : Client) : Prop where
  initialized : 0 < c.gPclInitCounter
  unlocked : ¬ Locked c.loop
  writable : r.info.configKey.permission = .readWrite
  oneLine : r.OneLine
  creatable : r.SidesCreatable room
  get : c.os.fds.get fd = some f
  ino : c.os.fs.names (resolve (r.names room).orig) = some f.ino
  readable : f.readable = true
  recorded : ∃ item, Tree.lookup c.gFileHandleTree fd = some item ∧ r.Recorded 0 item

/-- The backup stands beside the file, and its descriptor is on record with it. -/
structure BackedUp (r : FileResource com) (room : com.Roomy) (fd : ℤ) (b s : Bytes) (c : Client) :
    Prop where
  opened : ∃ f, c.os.fds.get fd = some f ∧
    c.os.fs.names (resolve (r.names room).orig) = some f.ino
  recorded : ∃ item, Tree.lookup c.gFileHandleTree fd = some item ∧ r.Recorded 1 item
  backup : c.os.content (r.names room).backup = some b
  csum : c.os.content (r.names room).csum = some s

/-- What an application does with a descriptor. -/
inductive FileUse
  | seek (offset : ℤ) (whence : Whence)
  | read (count : ℕ)
  | write (env : Env) (buffer : Bytes)

def useStep (com : CommonObject) (fd : ℤ) (c : Client) : FileUse → Client
  | .seek offset whence => (pclFileSeek fd offset whence c).2
  | .read count => (pclFileReadData fd count c).2.2
  | .write env buffer => (pclFileWriteData com env fd buffer c).2

variable {r : FileResource com} {room : com.Roomy} {fd : ℤ} {f : OpenFile} {c : Client}
  {b s : Bytes} {env : Env}

theorem BackedUp.of_keeps (h : BackedUp r room fd b s c) {os : Os} (hdisk : os.disk = c.os.disk)
    (hk : c.os.Keeps os) : BackedUp r room fd b s { c with os } := by
  have hfs : os.fs = c.os.fs := congrArg Logged.now hdisk
  obtain ⟨f, hf, hino⟩ := h.opened
  obtain ⟨f', hf', hfile⟩ := hk.get hf
  simp only [OpenFile.file, Prod.mk.injEq] at hfile
  refine ⟨⟨f', hf', ?_⟩, h.recorded, ?_, ?_⟩
  · rw [hfs, hino, hfile.1]
  · exact (congrArg (Fs.content · _) hfs).trans h.backup
  · exact (congrArg (Fs.content · _) hfs).trans h.csum

/-- A write through the descriptor goes to the file alone, whatever becomes of it. -/
theorem BackedUp.written (h : BackedUp r room fd b s c) (env : Env) (buffer : Bytes) :
    BackedUp r room fd b s { c with os := (c.os.write env fd buffer).2 } := by
  obtain ⟨f, hf, hino⟩ := h.opened
  obtain ⟨f', hf', hfile⟩ := (Os.write_keeps env fd buffer c.os).get hf
  simp only [OpenFile.file, Prod.mk.injEq] at hfile
  have htouch : c.os.Touches (resolve (r.names room).orig) (c.os.write env fd buffer).2 :=
    Os.write_touches (fun g hg => by rwa [Option.some.inj (hg.symm.trans hf)]) buffer
  refine ⟨⟨f', hf', ?_⟩, h.recorded, ?_, ?_⟩
  · rw [htouch.names, hino, hfile.1]
  · exact (htouch.content _ (r.names room).orig_ne_backup.symm).trans h.backup
  · exact (htouch.content _ (r.names room).orig_ne_csum.symm).trans h.csum

theorem BackedUp.write (h : BackedUp r room fd b s c) (env : Env) (buffer : Bytes) :
    BackedUp r room fd b s (pclFileWriteData com env fd buffer c).2 := by
  obtain ⟨item, hitem, hrec⟩ := h.recorded
  have hdone : getFileBackupStatus c.gFileHandleTree fd ≠ 0 := by
    rw [status_of_recorded hitem hrec]
    decide
  unfold pclFileWriteData
  split
  swap
  · exact h
  split
  swap
  · exact h
  split
  · exact h
  split
  swap
  · exact h
  simp only [backupBeforeWrite_done com env hdone]
  split
  · obtain ⟨hdisk, hk⟩ := Os.fsync_frame fd (c.os.write env fd buffer).2
    exact (h.written env buffer).of_keeps hdisk hk
  · exact h.written env buffer

theorem BackedUp.step (h : BackedUp r room fd b s c) (use : FileUse) :
    BackedUp r room fd b s (useStep com fd c use) := by
  cases use with
  | seek offset whence =>
    show BackedUp r room fd b s (pclFileSeek fd offset whence c).2
    obtain ⟨hdisk, hk⟩ := Os.lseek_frame fd offset whence c.os
    unfold pclFileSeek
    split
    · split
      · exact h.of_keeps hdisk hk
      · exact h
    · exact h
  | read count =>
    show BackedUp r room fd b s (pclFileReadData fd count c).2.2
    obtain ⟨hdisk, hk⟩ := Os.read_frame fd count c.os
    unfold pclFileReadData
    split
    · exact h.of_keeps hdisk hk
    · exact h
  | write env buffer => exact h.write env buffer

theorem BackedUp.run (h : BackedUp r room fd b s c) (uses : List FileUse) :
    BackedUp r room fd b s (run (useStep com fd) c uses) :=
  run_invariant_of_forall (fun _ use hc => hc.step use) h uses

theorem AwaitsBackup.backup (h : AwaitsBackup r room fd f c)
    (hb : env.Quiet (r.names room).backup) (hs : env.Quiet (r.names room).csum) :
    ∃ os' f', backupBeforeWrite com env fd c = { c with
        os := os', gFileHandleTree := setFileBackupStatus c.gFileHandleTree fd 1 } ∧
      (r.names room).trio os'.fs = ⟨some (c.os.fs.data f.ino), some (c.os.fs.data f.ino),
        some (csumOf (c.os.fs.data f.ino))⟩ ∧
      os'.fs.names (resolve (r.names room).orig) = some f.ino ∧
      os'.fds.get fd = some f' ∧ f'.file = f.file ∧ f'.offset = f.offset := by
  obtain ⟨item, hitem, hrec⟩ := h.recorded
  have hC : ((r.names room).trio c.os.fs).orig = some (c.os.fs.data f.ino) :=
    Fs.content_of_names h.ino
  obtain ⟨os', heq, hadv⟩ := backupBeforeWrite_advance hb hs h.get h.ino hC hitem hrec
  obtain ⟨f', hf', hfile⟩ := hadv.keeps.get h.get
  have htrio := hadv.trio
  rw [h.readable, seen_true, Os.copied, if_pos rfl] at htrio
  refine ⟨os', f', heq, htrio, hadv.orig.trans h.ino, hf', hfile, ?_⟩
  have hposition : os'.position fd = some f.offset := by
    obtain ⟨os₁, hcsum, hsame⟩ := pclCalcCrc32Csum_open h.get
    have hos : (backupBeforeWrite com env fd c).os = os' := by rw [heq]
    rw [backupBeforeWrite_first room hitem hrec hcsum] at hos
    rw [← hos]
    exact pclCreateBackup_position com env _ _ _ (by rw [hsame.get, h.get])
  rw [Os.position_of_get hf', Option.some.injEq] at hposition
  exact hposition

/-- A write through a descriptor on the same content and at the same position
does the same. -/
theorem write_alike {os os' : Os} {f' : OpenFile} {p : Path} (hf : os.fds.get fd = some f)
    (hf' : os'.fds.get fd = some f') (hfile : f'.file = f.file) (hoff : f'.offset = f.offset)
    (hp : os.fs.names p = some f.ino) (hp' : os'.fs.names p = some f.ino)
    (hdata : os'.fs.data f.ino = os.fs.data f.ino) (hq : env.Quiet f.path) (buffer : Bytes) :
    (os'.write env fd buffer).1 = (os.write env fd buffer).1 ∧
      (os'.write env fd buffer).2.fs.content p = (os.write env fd buffer).2.fs.content p ∧
      (os'.write env fd buffer).2.position fd = (os.write env fd buffer).2.position fd := by
  simp only [OpenFile.file, Prod.mk.injEq] at hfile
  obtain ⟨hino, hpath, -, hwritable⟩ := hfile
  rw [← hino] at hp'
  rcases Bool.eq_false_or_eq_true f.writable with hw | hw
  · obtain ⟨os₁, heq, hsets, -, hget⟩ := Os.write_quiet hf hw hq hp buffer
    obtain ⟨os₂, heq', hsets', -, hget'⟩ :=
      Os.write_quiet hf' (hwritable.trans hw) (by rwa [hpath]) hp' buffer
    rw [heq, heq']
    refine ⟨rfl, ?_, ?_⟩
    · rw [hsets.content, hsets'.content, if_pos rfl, if_pos rfl, hino, hdata, hoff]
    · rw [Os.position, Os.position, hget, hget', Function.update_self, Function.update_self,
        Option.map_some, Option.map_some, hoff]
  · obtain ⟨os₁, heq, hsame⟩ := Os.write_unwritable env hf hw buffer
    obtain ⟨os₂, heq', hsame'⟩ := Os.write_unwritable env hf' (hwritable.trans hw) buffer
    rw [heq, heq']
    refine ⟨rfl, ?_, ?_⟩
    · rw [hsame.fs, hsame'.fs, Fs.content_of_names hp, Fs.content_of_names hp', hino, hdata]
    · rw [Os.position, Os.position, hsame.get, hsame'.get, hf, hf', Option.map_some,
        Option.map_some, hoff]

end FirstWrite

section Opened

variable {r : FileResource com} {room : com.Roomy} {fd : ℤ} {f : OpenFile} {c c₁ : Client}
  {env : Env}

theorem FileResource.NeedsBackup.readable (h : r.NeedsBackup c) (horig : env.Quiet (r.names room).orig)
    (hopen : r.openFile env c = (fd, c₁)) (hfd : 0 ≤ fd) (hr : r.flags.read = true)
    (hf : c₁.os.fds.get fd = some f) : f.readable = true := by
  have hq : r.Undisturbed room env c.os := ⟨horig, Or.inr fun hfail => by
    rw [FileResource.openFile_failed room h hfail] at hopen
    obtain ⟨rfl, -⟩ := Prod.mk.inj hopen
    omega⟩
  by_cases hv : judge r.flags.read ((r.names room).trio c.os.fs) = .corrupt
  · obtain ⟨c₂, heq, -⟩ := FileResource.openFile_corrupt room h hq hv
    rw [heq] at hopen
    obtain ⟨rfl, -⟩ := Prod.mk.inj hopen
    omega
  by_cases ho : ((r.names room).trio c.os.fs).orig = none
  · obtain ⟨os, cacheStatus, -, heq⟩ := FileResource.openFile_missing room h hq ho hv
    rw [heq] at hopen
    obtain ⟨rfl, rfl⟩ := Prod.mk.inj hopen
    rcases createRegular_cases com r.appId.chars env r.dbContext r.resourceId cacheStatus
        { c with os } with hneg | ⟨p, g, fd, os', -, hcreate, -, hg, hfile, -⟩
    · omega
    rw [hcreate, FileResource.registered_os] at hf
    simp only [OpenFile.file, Prod.mk.injEq] at hfile
    rw [Option.some.inj (hf.symm.trans hg)]
    exact hfile.2.2.1
  · obtain ⟨fd', os', g, heq, -, hg, hreadable⟩ := FileResource.openFile_existing room h hq ho hv
    rw [heq] at hopen
    split at hopen
    · obtain ⟨rfl, rfl⟩ := Prod.mk.inj hopen
      rw [FileResource.registered_os] at hf
      rw [Option.some.inj (hf.symm.trans hg.get)]
      rcases hreadable with hflags | ⟨-, hrestored⟩
      · exact hflags.trans hr
      · exact hrestored
    · obtain ⟨rfl, -⟩ := Prod.mk.inj hopen
      exact absurd hfd (by decide)

theorem opened_awaits_backup (h : r.NeedsBackup c) (horig : env.Quiet (r.names room).orig)
    (hwritable : r.info.configKey.permission = .readWrite) (hline : r.OneLine)
    (hsides : r.SidesCreatable room) (hopen : r.openFile env c = (fd, c₁)) (hfd : 0 ≤ fd)
    (hstale : FileResource.NoDefaultRecord c fd)
    (hthere : c₁.os.content (r.names room).orig ≠ none) (hunlocked : ¬ Locked c₁.loop) :
    ∃ f, AwaitsBackup r room fd f c₁ := by
  obtain ⟨C, hC⟩ := Option.ne_none_iff_exists'.mp hthere
  obtain ⟨f, hon⟩ := FileResource.openFile_success room h horig hopen hfd hstale hC
  have hinit : 0 < c₁.gPclInitCounter := by
    have hfollows := h.openFile_follows env
    rw [hopen] at hfollows
    rw [hfollows.initialized]
    exact h.initialized
  have hread : r.flags.read = true := by
    unfold FileResource.flags
    rw [hwritable]
    rfl
  exact ⟨f, hinit, hunlocked, hwritable, hline, hsides, hon.get, hon.ino,
    h.readable horig hopen hfd hread hon.get, hon.recorded⟩

theorem AwaitsBackup.of_keeps (h : AwaitsBackup r room fd f c) {os : Os} (hdisk : os.disk = c.os.disk)
    (hk : c.os.Keeps os) : ∃ f', f'.file = f.file ∧ AwaitsBackup r room fd f' { c with os } := by
  have hfs : os.fs = c.os.fs := congrArg Logged.now hdisk
  obtain ⟨f', hf', hfile⟩ := hk.get h.get
  have hparts := hfile
  simp only [OpenFile.file, Prod.mk.injEq] at hparts
  refine ⟨f', hfile, h.initialized, h.unlocked, h.writable, h.oneLine, h.creatable, hf', ?_,
    hparts.2.2.1.trans h.readable, h.recorded⟩
  rw [hfs, h.ino, hparts.1]

theorem AwaitsBackup.seek (h : AwaitsBackup r room fd f c) (offset : ℤ) (whence : Whence) :
    ∃ f', f'.file = f.file ∧ AwaitsBackup r room fd f' (pclFileSeek fd offset whence c).2 := by
  obtain ⟨hdisk, hk⟩ := Os.lseek_frame fd offset whence c.os
  unfold pclFileSeek
  rw [if_pos h.initialized, if_pos h.unlocked]
  exact h.of_keeps hdisk hk

theorem AwaitsBackup.read (h : AwaitsBackup r room fd f c) (count : ℕ) :
    ∃ f', f'.file = f.file ∧ AwaitsBackup r room fd f' (pclFileReadData fd count c).2.2 := by
  obtain ⟨hdisk, hk⟩ := Os.read_frame fd count c.os
  unfold pclFileReadData
  rw [if_pos h.initialized]
  exact h.of_keeps hdisk hk

/-- The first write leaves the old content in the backup and its checksum string
in the checksum file, does what it would do without a backup, and no use of the
descriptor after it touches the side files. -/
theorem first_write_invisible (h : AwaitsBackup r room fd f c) (hq : env.Quiet f.path)
    (hb : env.Quiet (r.names room).backup) (hs : env.Quiet (r.names room).csum) (buffer : Bytes) :
    ∃ size c', pclFileWriteData com env fd buffer c = (size, c') ∧
      c'.os.content (r.names room).backup = c.os.content (r.names room).orig ∧
      c'.os.content (r.names room).csum = some (pclCalcCrc32Csum fd c.os).1 ∧
      size = (c.os.write env fd buffer).1 ∧
      c'.os.content (r.names room).orig =
        (c.os.write env fd buffer).2.content (r.names room).orig ∧
      c'.os.position fd = (c.os.write env fd buffer).2.position fd ∧
      ∀ uses : List FileUse,
        (run (useStep com fd) c' uses).os.content (r.names room).backup =
          c'.os.content (r.names room).backup ∧
        (run (useStep com fd) c' uses).os.content (r.names room).csum =
          c'.os.content (r.names room).csum := by
  obtain ⟨os', f', heq, htrio, hino', hf', hfile, hoff⟩ := h.backup hb hs
  obtain ⟨item, hitem, hrec⟩ := h.recorded
  obtain ⟨item', hitem', hrec'⟩ := recorded_done hitem hrec
  obtain ⟨os₁, hcsum, -⟩ := pclCalcCrc32Csum_open h.get
  have hdata : os'.fs.data f.ino = c.os.fs.data f.ino := by
    have hcontent : os'.fs.content (resolve (r.names room).orig) = some (c.os.fs.data f.ino) :=
      congrArg Trio.orig htrio
    rwa [Fs.content_of_names hino', Option.some.injEq] at hcontent
  obtain ⟨hsize, hcontent, hposition⟩ := write_alike h.get hf' hfile hoff h.ino hino' hdata hq buffer
  have hbacked : BackedUp r room fd (c.os.fs.data f.ino) (csumOf (c.os.fs.data f.ino))
      { c with os := os', gFileHandleTree := setFileBackupStatus c.gFileHandleTree fd 1 } := by
    simp only [OpenFile.file, Prod.mk.injEq] at hfile
    refine ⟨⟨f', hf', ?_⟩, ⟨item', hitem', hrec'⟩, congrArg Trio.backup htrio,
      congrArg Trio.csum htrio⟩
    rw [hino', hfile.1]
  have hpermission := permission_of_recorded hitem hrec
  rw [h.writable] at hpermission
  have hdirect : ∃ os'', pclFileWriteData com env fd buffer c =
        ((os'.write env fd buffer).1, { c with
          os := os'', gFileHandleTree := setFileBackupStatus c.gFileHandleTree fd 1 }) ∧
      os''.disk = (os'.write env fd buffer).2.disk ∧
      os''.position fd = (os'.write env fd buffer).2.position fd ∧
      (os'.write env fd buffer).2.Keeps os'' := by
    unfold pclFileWriteData
    rw [if_pos h.initialized, if_pos h.unlocked, hpermission]
    simp only [ne_eq, reduceCtorEq, not_false_eq_true, if_true, heq]
    split
    · obtain ⟨hdisk, hk⟩ := Os.fsync_frame fd (os'.write env fd buffer).2
      exact ⟨_, rfl, hdisk, Os.fsync_position fd _, hk⟩
    · exact ⟨_, rfl, rfl, rfl, .refl _⟩
  obtain ⟨os'', hwrite, hdisk, hposition', hk⟩ := hdirect
  have hfs : os''.fs = (os'.write env fd buffer).2.fs := congrArg Logged.now hdisk
  have hlater : BackedUp r room fd (c.os.fs.data f.ino) (csumOf (c.os.fs.data f.ino))
      { c with os := os'', gFileHandleTree := setFileBackupStatus c.gFileHandleTree fd 1 } :=
    (hbacked.written env buffer).of_keeps hdisk hk
  refine ⟨_, _, hwrite, ?_, ?_, hsize, ?_, ?_, fun uses => ?_⟩
  · exact hlater.backup.trans (Fs.content_of_names h.ino).symm
  · rw [hcsum, h.readable, seen_true]
    exact hlater.csum
  · exact (congrArg (Fs.content · _) hfs).trans hcontent
  · exact hposition'.trans hposition
  · have hrun := hlater.run uses
    exact ⟨hrun.backup.trans hlater.backup.symm, hrun.csum.trans hlater.csum.symm⟩

/-- The document after its opening and a seek behind its first byte. -/
def docSought : Client := (pclFileSeek (docOpened .readWrite [65, 66]).1 1 .set
  (docOpened .readWrite [65, 66]).2).2

theorem document_first_write :
    ∃ size c', pclFileWriteData .standard .reliable (docOpened .readWrite [65, 66]).1 [67]
        docSought = (size, c') ∧
      c'.os.content ((document .readWrite).names CommonObject.standard_roomy).backup =
        docSought.os.content ((document .readWrite).names CommonObject.standard_roomy).orig ∧
      c'.os.content ((document .readWrite).names CommonObject.standard_roomy).csum =
        some (pclCalcCrc32Csum (docOpened .readWrite [65, 66]).1 docSought.os).1 ∧
      size = (docSought.os.write .reliable (docOpened .readWrite [65, 66]).1 [67]).1 ∧
      c'.os.content ((document .readWrite).names CommonObject.standard_roomy).orig =
        (docSought.os.write .reliable (docOpened .readWrite [65, 66]).1 [67]).2.content
          ((document .readWrite).names CommonObject.standard_roomy).orig ∧
      c'.os.position (docOpened .readWrite [65, 66]).1 =
        (docSought.os.write .reliable (docOpened .readWrite [65, 66]).1 [67]).2.position
          (docOpened .readWrite [65, 66]).1 ∧
      ∀ uses : List FileUse,
        (run (useStep .standard (docOpened .readWrite [65, 66]).1) c' uses).os.content
            ((document .readWrite).names CommonObject.standard_roomy).backup =
          c'.os.content ((document .readWrite).names CommonObject.standard_roomy).backup ∧
        (run (useStep .standard (docOpened .readWrite [65, 66]).1) c' uses).os.content
            ((document .readWrite).names CommonObject.standard_roomy).csum =
          c'.os.content ((document .readWrite).names CommonObject.standard_roomy).csum := by
  have needs : (document .readWrite).NeedsBackup (docStart .readWrite [65, 66]) :=
    ⟨by decide, by decide, by decide +kernel⟩
  have hopen : (document .readWrite).openFile .reliable (docStart .readWrite [65, 66]) =
      ((docOpened .readWrite [65, 66]).1, (docOpened .readWrite [65, 66]).2) := rfl
  have hline : (document .readWrite).OneLine := by
    unfold FileResource.OneLine
    decide +kernel
  have hsides : (document .readWrite).SidesCreatable CommonObject.standard_roomy := by
    unfold FileResource.SidesCreatable
    decide +kernel
  obtain ⟨f, hf⟩ : ∃ f, AwaitsBackup (document .readWrite) CommonObject.standard_roomy _ f _ :=
    opened_awaits_backup needs (Env.quiet_reliable _) rfl hline hsides hopen (by decide +kernel)
      (fun item hitem => by cases hitem) (by decide +kernel) (by decide +kernel)
  obtain ⟨f', -, hf'⟩ := hf.seek 1 .set
  exact first_write_invisible hf' (Env.quiet_reliable _) (Env.quiet_reliable _)
    (Env.quiet_reliable _) [67]

end Opened

end PersClient.File
