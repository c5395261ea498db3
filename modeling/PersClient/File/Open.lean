import PersClient.File.Verify

/-! # Opening a file resource

`pclFileOpen` of a resource that needs a backup first reaches the verdict on its
three files. If the file exists and is not corrupt, the descriptor returned
leads to it, and the disk is as the verdict says.
-/

namespace PersClient.File

open Crash Handle Text

variable {com : CommonObject}

section Creation

variable {env : Env} {path : CStr} {os : Os}

/-- Whatever the faults, `pclCreateFile` fails or leaves a new, empty file open. -/
theorem pclCreateFile_cases (com : CommonObject) (env : Env) (path : CStr) (os : Os) :
    (∃ os', pclCreateFile com env path os = (-1, os') ∧ os.Same os') ∨
      ∃ p os' i, createPath com path = some p ∧
        pclCreateFile com env path os = ((os.fds.lowestFree : ℤ), os') ∧
        os.Sets (resolve p) (some []) os' ∧ os'.fs.names (resolve p) = some i ∧
        os'.fds.get = Function.update os.fds.get os.fds.lowestFree
          (some ⟨i, p, 0, true, true, true⟩) := by
  unfold pclCreateFile
  cases hp : createPath com path with
  | none => exact Or.inl ⟨os, rfl, .refl os⟩
  | some p =>
    rcases Os.openPath_cases env p { oRdwr with creat := true, trunc := true } os with
      ⟨e, heq⟩ | heq
    · exact Or.inl ⟨_, heq, rfl, rfl⟩
    · obtain ⟨os', i, hopen, hsets, hi, hget⟩ := Os.openFile_emptied os.tick
        { oRdwr with creat := true, trunc := true } rfl rfl (createPath_resolve hp).2
      exact Or.inr ⟨p, os', i, rfl, heq.trans hopen, hsets.of_same rfl, hi, hget⟩

theorem copyDefaultData_frame (env : Env) {handle : ℤ} (defaultHandle : ℤ) {p : Path}
    (hp : ∀ f, os.fds.get handle = some f → os.fs.names p = some f.ino) :
    os.Keeps (copyDefaultData env handle defaultHandle os).2 ∧
      os.Touches p (copyDefaultData env handle defaultHandle os).2 := by
  unfold copyDefaultData
  split
  · exact ⟨.refl os, .of_disk rfl⟩
  · rename_i n _
    have keeps := Os.sendfile_keeps env handle defaultHandle n os
    have touches := Os.sendfile_touches env defaultHandle hp n
    dsimp only
    split
    · obtain ⟨hd, hk⟩ := Os.lseek_frame handle 0 .set (os.sendfile env handle defaultHandle n).2
      exact ⟨keeps.trans hk, touches.trans (.of_disk hd)⟩
    · exact ⟨keeps, touches⟩

theorem pclFileGetDefaultData_frame (com : CommonObject) (appId : CStr) (env : Env) {handle : ℤ} (resourceId : CStr)
    (policy : PersistencePolicy) {p : Path} {f : OpenFile} (hf : os.fds.get handle = some f)
    (hp : os.fs.names p = some f.ino) :
    os.Keeps (pclFileGetDefaultData com appId env handle resourceId policy os).2 ∧
      os.Touches p (pclFileGetDefaultData com appId env handle resourceId policy os).2 := by
  unfold pclFileGetDefaultData
  dsimp only
  generalize (if os.access (defaultDataPath com appId policy com.configDefaultDataFolderName
    resourceId) ≠ 0 then defaultDataPath com appId policy com.defaultDataFolderName resourceId
    else defaultDataPath com appId policy com.configDefaultDataFolderName resourceId) = dp
  have hdisk : (os.openPath env dp oRdonly).2.disk = os.disk := Os.openPath_disk rfl rfl
  rcases Os.openPath_fds env dp oRdonly os with ⟨hneg, hget⟩ | ⟨hpos, g, -, hget⟩
  · rw [hneg, if_neg (by decide)]
    exact ⟨Os.Same.keeps ⟨hdisk, hget⟩, .of_disk hdisk⟩
  · rw [hpos, if_pos (by omega)]
    generalize (os.openPath env dp oRdonly).2 = os₁ at *
    have hfs : os₁.fs = os.fs := congrArg Logged.now hdisk
    have hne : handle ≠ os.fds.lowestFree := by
      rintro rfl
      rw [FdTable.get_lowestFree] at hf
      cases hf
    have hp₁ : ∀ f, os₁.fds.get handle = some f → os₁.fs.names p = some f.ino := by
      intro f' hf'
      rw [hget, Function.update_of_ne hne, hf, Option.some.injEq] at hf'
      rw [hfs, ← hf', hp]
    obtain ⟨keeps, touches⟩ := copyDefaultData_frame env os.fds.lowestFree hp₁
    exact ⟨Os.Keeps.close FdTable.get_lowestFree hget keeps,
      (Os.Touches.of_disk hdisk).trans (touches.trans (.of_disk (Os.close_disk _ _)))⟩

/-- Whatever the faults, creating a resource's file fails or leaves a new file
open, and only that file is touched. -/
theorem createRegular_cases (com : CommonObject) (appId : CStr) (env : Env) (ctx : DbContext) (resourceId : CStr)
    (cacheStatus : ℤ) (c : Client) :
    ((createRegular com appId env ctx resourceId cacheStatus c).1 < 0) ∨
      ∃ p f fd os', createPath com ctx.dbPath = some p ∧
        createRegular com appId env ctx resourceId cacheStatus c = (fd, { c with
          os := os', gFileHandleTree := setFileCacheStatus c.gFileHandleTree fd cacheStatus }) ∧
        0 ≤ fd ∧ os'.fds.get fd = some f ∧ f.file = (f.ino, p, true, true) ∧
        os'.fs.names (resolve p) = some f.ino ∧
        (∀ q, q ≠ resolve p → os'.fs.content q = c.os.fs.content q) := by
  unfold createRegular
  rcases pclCreateFile_cases com env ctx.dbPath c.os with
    ⟨os₁, heq, -⟩ | ⟨p, os₁, i, hp, heq, hsets, hi, hget⟩
  · rw [heq]
    exact Or.inl (show (-1 : ℤ) < 0 by decide)
  · have hne : (c.os.fds.lowestFree : ℤ) ≠ -1 := by omega
    simp only [heq, hne, if_false]
    split
    · exact Or.inl (show epersMaxhandle < 0 by decide)
    · have hf : os₁.fds.get c.os.fds.lowestFree = some ⟨i, p, 0, true, true, true⟩ := by
        rw [hget, Function.update_self]
      obtain ⟨keeps, touches⟩ := pclFileGetDefaultData_frame com appId env resourceId
        ctx.configKey.policy hf hi
      have hmap := keeps c.os.fds.lowestFree
      rw [hf, Option.map_some, Option.map_eq_some_iff] at hmap
      obtain ⟨f, hf', hfile⟩ := hmap
      have hino : f.ino = i := congrArg Prod.fst hfile
      refine Or.inr ⟨p, f, _, _, hp, rfl, by omega, hf', ?_, ?_, fun q hq => ?_⟩
      · rw [hino]
        exact hfile
      · rw [touches.names, hi, hino]
      · rw [touches.content q hq, hsets.content, if_neg hq]

end Creation

namespace FileResource

variable (r : FileResource com) (room : com.Roomy)

/-- `pclFileOpen` of the resource. -/
def openFile (env : Env) (c : Client) : ℤ × Client :=
  pclFileOpen com r.appId.chars env r.dbContext r.resourceId r.info.context.userNo
    r.info.context.seatNo c

def flags : OpenFlags := pclGetPosixPermission r.info.configKey.permission

/-- The library is initialised, and the resource is no default data and needs a backup. -/
structure NeedsBackup (c : Client) : Prop where
  initialized : 0 < c.gPclInitCounter
  user : r.info.context.userNo ≠ pclUserDefaultdata
  wanted : wantsBackup com c r.dbContext = true

def verify (env : Env) (os : Os) : ℤ × Os :=
  pclVerifyConsistency env (r.names room).orig (r.names room).backup (r.names room).csum r.flags os

/-- The calls for the resource's file meet no fault, and those for its side
files none, or none that the check reports. -/
structure Undisturbed (env : Env) (os : Os) : Prop where
  orig : env.Quiet (r.names room).orig
  sides : (env.Quiet (r.names room).backup ∧ env.Quiet (r.names room).csum) ∨
    (r.verify room env os).1 ≠ -1

theorem undisturbed_reliable (os : Os) : r.Undisturbed room .reliable os :=
  ⟨Env.quiet_reliable _, Or.inl ⟨Env.quiet_reliable _, Env.quiet_reliable _⟩⟩

variable {r} {env : Env} {c : Client}

theorem NeedsBackup.openFile_eq (h : r.NeedsBackup c) :
    r.openFile env c = openValid com r.appId.chars env r.dbContext r.resourceId c := by
  have hvalid : (0 : ℤ) ≤ r.dbContext.rval := le_rfl
  simp only [openFile, pclFileOpen, h.initialized, if_true,
    show r.dbContext.configKey.type = .file from r.isFile, h.user, if_false, pclFileOpenRegular,
    hvalid]

structure Recorded (r : FileResource com) (status : ℤ) (item : FileHandleData) : Prop where
  permission : item.permission = some r.info.configKey.permission
  backup : item.backupPath = backupPath com r.info.configKey.policy r.dbContext.dbPath
  csum : item.csumPath = csumPath com r.info.configKey.policy r.dbContext.dbPath
  status : item.backupCreated = status
  user : item.userId ≠ defaultDataUser

/-- No record of a descriptor for default data is left at this number. -/
def NoDefaultRecord (c : Client) (fd : ℤ) : Prop :=
  ∀ item, Tree.lookup c.gFileHandleTree fd = some item → item.userId ≠ defaultDataUser

def registered (r : FileResource com) (c : Client) (os : Os) (fd : ℤ) : Client :=
  registerRegular com r.dbContext fd 0 { c with os }

def Settled (n : FileNames com) (os os' : Os) : Verdict → Prop
  | .restore b => ∃ os₁, os.Sets (resolve n.orig) (some []) os₁ ∧
      os₁.Sets (resolve n.orig) (some b) os'
  | _ => os'.disk = os.disk

theorem openFile_failed (h : r.NeedsBackup c) (hfail : (r.verify room env c.os).1 = -1) :
    r.openFile env c = (-1, { c with os := ((r.verify room env c.os).2.close (-1)).2 }) := by
  obtain ⟨os', heq⟩ : ∃ os', r.verify room env c.os = (-1, os') := ⟨_, Prod.ext hfail rfl⟩
  have heq' : pclVerifyConsistency env r.dbContext.dbPath
      (backupPath com r.dbContext.configKey.policy r.dbContext.dbPath)
      (csumPath com r.dbContext.configKey.policy r.dbContext.dbPath)
      (pclGetPosixPermission r.dbContext.configKey.permission) c.os = (-1, os') := heq
  rw [h.openFile_eq, heq]
  simp only [openValid, h.wanted, if_true, heq', Bool.true_and, decide_true]

theorem openFile_corrupt (h : r.NeedsBackup c) (hq : r.Undisturbed room env c.os)
    (hv : judge r.flags.read ((r.names room).trio c.os.fs) = .corrupt) :
    ∃ c', r.openFile env c = (-1, c') ∧ (r.names room).trio c'.os.fs = ⟨none, none, none⟩ := by
  obtain ⟨handle, os', heq, ⟨hne, -⟩ | ⟨-, rfl, hgone⟩⟩ := pclVerifyConsistency_judged
    (n := r.names room) c.os (pclGetPosixPermission_plain r.info.configKey.permission)
    hq.orig hq.sides
  · exact absurd hv hne
  · have hclose : ((os'.close (-1)).2).fs = os'.fs :=
      congrArg Logged.now (Os.close_disk (-1) os')
    rw [openFile_failed room h (congrArg Prod.fst heq), show r.verify room env c.os = (-1, os') from heq]
    exact ⟨_, rfl, by rw [hclose]; exact hgone⟩

/-- The descriptor an opening returns: new, and on the resource's file. -/
structure Fresh (n : FileNames com) (os os' : Os) (fd : ℤ) (f : OpenFile) : Prop where
  ino : os'.fs.names (resolve n.orig) = some f.ino
  same : os.fs.names (resolve n.orig) = some f.ino
  path : f.path = n.orig
  offset : f.offset = 0
  nonneg : 0 ≤ fd
  le : fd ≤ os.fds.used.card + 2
  free : os.fds.get fd = none
  get : os'.fds.get fd = some f
  others : ∀ x g, os.fds.get x = some g → os'.fds.get x = some g

theorem Settled.orig {n : FileNames com} {os os' : Os} {v : Verdict} (hs : Settled n os os' v)
    (ho : (n.trio os.fs).orig ≠ none) : (n.trio os'.fs).orig ≠ none := by
  have same : os'.disk = os.disk → (n.trio os'.fs).orig ≠ none := fun hdisk => by
    rwa [show os'.fs = os.fs from congrArg Logged.now hdisk]
  cases v with
  | unchecked => exact same hs
  | keep => exact same hs
  | restore b =>
    obtain ⟨os₁, -, hfull⟩ := hs
    simp [FileNames.trio, hfull.content]
  | corrupt => exact same hs

/-- After the verdict the file is opened, by it or by a second `open`. -/
theorem opened_after_verdict {n : FileNames com} {flags : OpenFlags} (hplain : flags.Plain)
    (hq : env.Quiet n.orig) {os os₁ : Os} {handle : ℤ} {v : Verdict}
    (hj : Judged n flags 2 os handle os₁ v) (hv : v ≠ .corrupt)
    (ho : (n.trio os.fs).orig ≠ none) :
    ∃ fd os' f, ((handle ≤ 0 ∧ os₁.openPath env n.orig flags = (fd, os')) ∨
        (0 < handle ∧ (fd, os') = (handle, os₁))) ∧
      Settled n os os' v ∧ Fresh n os os' fd f ∧
      (f.readable = flags.read ∨ (∃ b, v = .restore b) ∧ f.readable = true) := by
  have again : Settled n os os₁ v → os₁.fds.used.card ≤ os.fds.used.card + 1 →
      os₁.fs.names (resolve n.orig) = os.fs.names (resolve n.orig) →
      (∀ x g, os.fds.get x = some g → os₁.fds.get x = some g) → handle ≤ 0 →
      ∃ fd os' f, ((handle ≤ 0 ∧ os₁.openPath env n.orig flags = (fd, os')) ∨
        (0 < handle ∧ (fd, os') = (handle, os₁))) ∧
      Settled n os os' v ∧ Fresh n os os' fd f ∧
      (f.readable = flags.read ∨ (∃ b, v = .restore b) ∧ f.readable = true) := by
    intro hs hcard hnames hmore hle
    obtain ⟨o, ho₁⟩ := Option.ne_none_iff_exists'.mp (hs.orig ho)
    obtain ⟨i, hi, -⟩ := Fs.content_eq_some.mp ho₁
    obtain ⟨os', f, heq, hdisk, rfl, hre⟩ := reopened_open hplain hq hi
    have hle' := hre.le
    refine ⟨_, os', f, Or.inl ⟨hle, heq⟩, ?_, ⟨hre.ino, by rw [← hnames, hre.same], hre.path,
      hre.offset, hre.nonneg, ?_, ?_, ?_, ?_⟩, Or.inl hre.readable⟩
    · cases v with
      | unchecked => exact hdisk.trans hs
      | keep => exact hdisk.trans hs
      | restore b => exact hs.imp fun _ h => ⟨h.1, h.2.trans_same hdisk⟩
      | corrupt => exact hdisk.trans hs
    · push_cast at hle'
      omega
    · by_contra hne
      obtain ⟨g, hg⟩ := Option.ne_none_iff_exists'.mp hne
      have := hmore _ g hg
      rw [hre.fresh] at this
      cases this
    · rw [hre.get, Function.update_self]
    · intro x g hg
      have hx := hmore x g hg
      rw [hre.get, Function.update_of_ne, hx]
      rintro rfl
      rw [hre.fresh] at hx
      cases hx
  -- a descriptor the verdict returns is taken unless it is 0
  have kept : ∀ {rd w f}, Settled n os os₁ v → Reopened n rd w 2 os handle os₁ f →
      (f.readable = flags.read ∨ (∃ b, v = .restore b) ∧ f.readable = true) →
      ∃ fd os' f, ((handle ≤ 0 ∧ os₁.openPath env n.orig flags = (fd, os')) ∨
        (0 < handle ∧ (fd, os') = (handle, os₁))) ∧
      Settled n os os' v ∧ Fresh n os os' fd f ∧
      (f.readable = flags.read ∨ (∃ b, v = .restore b) ∧ f.readable = true) := by
    intro rd w f hs hre hr
    have others : ∀ x g, os.fds.get x = some g → os₁.fds.get x = some g := by
      intro x g hg
      rw [hre.get, Function.update_of_ne, hg]
      rintro rfl
      rw [hre.fresh] at hg
      cases hg
    rcases lt_or_ge 0 handle with hpos | hle
    · exact ⟨handle, os₁, f, Or.inr ⟨hpos, rfl⟩, hs, ⟨hre.ino, hre.same, hre.path, hre.offset,
        hre.nonneg, hre.le, hre.fresh, by rw [hre.get, Function.update_self], others⟩, hr⟩
    · obtain ⟨m, rfl⟩ := Int.eq_ofNat_of_zero_le hre.nonneg
      exact again hs (FdTable.card_used_update hre.get) (hre.ino.trans hre.same.symm) others hle
  cases v with
  | unchecked =>
    obtain ⟨rfl, hsame⟩ := hj
    have hused : os₁.fds.used = os.fds.used := FdTable.used_congr fun x => by rw [hsame.get]
    exact again hsame.disk (by rw [hused]; omega) (by rw [hsame.fs])
      (fun x g hg => by rwa [hsame.get]) le_rfl
  | keep =>
    obtain ⟨hdisk, f, hre⟩ := hj
    exact kept hdisk hre (Or.inl hre.readable)
  | restore b =>
    obtain ⟨hsets, f, hre⟩ := hj
    exact kept hsets hre (Or.inr ⟨⟨b, rfl⟩, hre.readable⟩)
  | corrupt => exact absurd rfl hv

/-- A resource that exists and is not corrupt is opened, as long as its
descriptor stays below the limit. -/
theorem openFile_existing (h : r.NeedsBackup c) (hq : r.Undisturbed room env c.os)
    (ho : ((r.names room).trio c.os.fs).orig ≠ none)
    (hv : judge r.flags.read ((r.names room).trio c.os.fs) ≠ .corrupt) :
    ∃ (fd : ℤ) (os' : Os) (f : OpenFile), r.openFile env c =
        (if fd < maxPersHandle then (fd, r.registered c os' fd)
        else (epersMaxhandle, { c with os := (os'.close fd).2 })) ∧
      Settled (r.names room) c.os os' (judge r.flags.read ((r.names room).trio c.os.fs)) ∧
      Fresh (r.names room) c.os os' fd f ∧
      (f.readable = r.flags.read ∨
        (∃ b, judge r.flags.read ((r.names room).trio c.os.fs) = .restore b) ∧
          f.readable = true) := by
  have hplain : r.flags.Plain := pclGetPosixPermission_plain r.info.configKey.permission
  obtain ⟨handle, os₁, heq, ⟨-, hj⟩ | ⟨hcorrupt, -, -⟩⟩ := pclVerifyConsistency_judged
    c.os hplain hq.orig hq.sides
  swap
  · exact absurd hcorrupt hv
  have hne : handle ≠ -1 := fun hm => hv (hj.eq_neg_one_iff.mp hm)
  obtain ⟨fd, os', f, hopen, hs, hf, hr⟩ := opened_after_verdict hplain hq.orig hj hv ho
  refine ⟨fd, os', f, ?_, hs, hf, hr⟩
  have heq' : pclVerifyConsistency env r.dbContext.dbPath
      (backupPath com r.dbContext.configKey.policy r.dbContext.dbPath)
      (csumPath com r.dbContext.configKey.policy r.dbContext.dbPath)
      (pclGetPosixPermission r.dbContext.configKey.permission) c.os = (handle, os₁) := heq
  have hfd : ¬ (fd = -1 ∧ os'.errno = .enoent) := fun hm => by
    have := hf.nonneg
    omega
  rw [h.openFile_eq]
  simp only [openValid, h.wanted, if_true, heq', Bool.true_and, decide_eq_true_eq, hne, if_false]
  rcases hopen with ⟨hle, hopen⟩ | ⟨hpos, hsame⟩
  · have hopen' : os₁.openPath env r.dbContext.dbPath
        (pclGetPosixPermission r.dbContext.configKey.permission) = (fd, os') := hopen
    simp only [hle, if_true, hopen', hfd, if_false]
    rfl
  · obtain ⟨rfl, rfl⟩ := Prod.mk.inj hsame
    simp only [not_le.mpr hpos, if_false, hfd]
    rfl

theorem NeedsBackup.permission_ne (h : r.NeedsBackup c) :
    r.info.configKey.permission ≠ .readOnly := by
  have := h.wanted
  simp only [wantsBackup, Bool.and_eq_true, decide_eq_true_eq] at this
  exact this.1

theorem lookup_registered (h : r.NeedsBackup c) {c₁ : Client} {fd : ℤ}
    (hstale : NoDefaultRecord c₁ fd) (os : Os) :
    ∃ item, Tree.lookup (r.registered c₁ os fd).gFileHandleTree fd = some item ∧
      r.Recorded 0 item := by
  have hperm : r.dbContext.configKey.permission ≠ .readOnly := h.permission_ne
  simp only [registered, registerRegular, hperm, ne_eq, not_false_eq_true, if_true,
    setFileBackupStatus, setFileHandleData, lookup_setItem, Option.map_some, Option.getD_some]
  cases hold : Tree.lookup c₁.gFileHandleTree fd with
  | none => exact ⟨_, rfl, ⟨rfl, rfl, rfl, rfl, show (0 : ℤ) ≠ -1 by decide⟩⟩
  | some old => exact ⟨_, rfl, ⟨rfl, rfl, rfl, rfl, hstale old hold⟩⟩

theorem registered_os (c₁ : Client) (os : Os) (fd : ℤ) : (r.registered c₁ os fd).os = os := by
  unfold registered registerRegular
  dsimp only
  split <;> rfl

theorem openFile_missing (h : r.NeedsBackup c) (hq : r.Undisturbed room env c.os)
    (ho : ((r.names room).trio c.os.fs).orig = none)
    (hv : judge r.flags.read ((r.names room).trio c.os.fs) ≠ .corrupt) :
    ∃ (os : Os) (cacheStatus : ℤ), c.os.Same os ∧ r.openFile env c =
      (let created := createRegular com r.appId.chars env r.dbContext r.resourceId cacheStatus
        { c with os }
      (created.1, r.registered created.2 created.2.os created.1)) := by
  have hplain : r.flags.Plain := pclGetPosixPermission_plain r.info.configKey.permission
  obtain ⟨handle, os₁, heq, ⟨-, hj⟩ | ⟨hcorrupt, -, -⟩⟩ := pclVerifyConsistency_judged
    c.os hplain hq.orig hq.sides
  swap
  · exact absurd hcorrupt hv
  have hunchecked := (judge_missing r.flags.read ho).resolve_right hv
  rw [hunchecked] at hj
  obtain ⟨rfl, hsame⟩ := hj
  have heq' : pclVerifyConsistency env r.dbContext.dbPath
      (backupPath com r.dbContext.configKey.policy r.dbContext.dbPath)
      (csumPath com r.dbContext.configKey.policy r.dbContext.dbPath)
      (pclGetPosixPermission r.dbContext.configKey.permission) c.os = (0, os₁) := heq
  have gone : os₁.fs.names (resolve r.dbContext.dbPath) = none := by
    rw [hsame.fs]
    exact Fs.content_eq_none.mp ho
  obtain ⟨os₂, hopen, hsame₂, herrno⟩ := Os.openPath_missing r.flags hq.orig gone hplain.1
  have hopen' : os₁.openPath env r.dbContext.dbPath
      (pclGetPosixPermission r.dbContext.configKey.permission) = (-1, os₂) := hopen
  refine ⟨os₂, cacheStatusOf com r.dbContext.dbPath, hsame.trans hsame₂, ?_⟩
  rw [h.openFile_eq]
  simp only [openValid, h.wanted, if_true, heq', Bool.true_and, decide_eq_true_eq,
    show (0 : ℤ) ≠ -1 by decide, if_false, le_refl, hopen', herrno, and_self,
    show (-1 : ℤ) < maxPersHandle by decide]
  rfl

/-- What a successful opening of a resource with content `C` leaves. -/
structure OpenedOn (r : FileResource com) (room : com.Roomy) (C : Bytes) (fd : ℤ) (f : OpenFile)
    (c' : Client) : Prop where
  get : c'.os.fds.get fd = some f
  ino : c'.os.fs.names (resolve (r.names room).orig) = some f.ino
  orig : ((r.names room).trio c'.os.fs).orig = some C
  restores : Restores r.flags.read ((r.names room).trio c'.os.fs) C
  recorded : ∃ item, Tree.lookup c'.gFileHandleTree fd = some item ∧ r.Recorded 0 item

theorem Settled.trio {n : FileNames com} {os os' : Os} {v : Verdict} (hs : Settled n os os' v) :
    n.trio os'.fs = { n.trio os.fs with
      orig := v.content (n.trio os.fs).orig } := by
  have same : os'.disk = os.disk → n.trio os'.fs = n.trio os.fs := fun hdisk => by
    rw [show os'.fs = os.fs from congrArg Logged.now hdisk]
  cases v with
  | unchecked => exact same hs
  | keep => exact same hs
  | restore b =>
    obtain ⟨os₁, hempty, hfull⟩ := hs
    simp only [FileNames.trio, hfull.content, hempty.content, if_true, if_neg n.orig_ne_backup.symm,
      if_neg n.orig_ne_csum.symm, Verdict.content]
  | corrupt => exact same hs

theorem openFile_success (h : r.NeedsBackup c) (horig : env.Quiet (r.names room).orig) {fd : ℤ} {c' : Client}
    (hopen : r.openFile env c = (fd, c')) (hfd : 0 ≤ fd) (hstale : NoDefaultRecord c fd) {C : Bytes}
    (hC : ((r.names room).trio c'.os.fs).orig = some C) :
    ∃ f, OpenedOn r room C fd f c' := by
  have hq : r.Undisturbed room env c.os := ⟨horig, Or.inr fun hfail => by
    rw [openFile_failed room h hfail] at hopen
    obtain ⟨rfl, -⟩ := Prod.mk.inj hopen
    omega⟩
  by_cases hv : judge r.flags.read ((r.names room).trio c.os.fs) = .corrupt
  · obtain ⟨c₁, heq, -⟩ := openFile_corrupt room h hq hv
    rw [heq] at hopen
    obtain ⟨rfl, -⟩ := Prod.mk.inj hopen
    omega
  by_cases ho : ((r.names room).trio c.os.fs).orig = none
  · obtain ⟨os, cacheStatus, hsame, heq⟩ := openFile_missing room h hq ho hv
    rw [heq] at hopen
    obtain ⟨rfl, rfl⟩ := Prod.mk.inj hopen
    have hunchecked := (judge_missing r.flags.read ho).resolve_right hv
    rcases createRegular_cases com r.appId.chars env r.dbContext r.resourceId cacheStatus
        { c with os } with hneg | ⟨p, f, fd, os', hp, hcreate, -, hf, -, hi, hothers⟩
    · omega
    rw [hcreate] at hC hstale ⊢
    simp only [registered_os] at hC ⊢
    have hfs : os.fs = c.os.fs := hsame.fs
    -- the new file is the resource's, as that is there now
    have hpo : resolve p = resolve (r.names room).orig := by
      by_contra hne
      have hC' : os'.fs.content (resolve (r.names room).orig) = some C := hC
      rw [hothers _ (Ne.symm hne)] at hC'
      have hnone : os.fs.content (resolve (r.names room).orig) = none := by
        rw [hfs]
        exact ho
      rw [hnone] at hC'
      cases hC'
    obtain ⟨hb, hs⟩ := (r.names room).made p hp
    have htrio : (r.names room).trio os'.fs =
        { (r.names room).trio c.os.fs with orig := some C } := by
      rw [← hC]
      simp only [FileNames.trio, hothers _ hb.symm, hothers _ hs.symm, hfs]
    refine ⟨f, ⟨?_, ?_, ?_, ?_, lookup_registered h ?_ os'⟩⟩
    · rw [registered_os]
      exact hf
    · rw [registered_os, ← hpo]
      exact hi
    · rw [registered_os]
      exact hC
    · rw [registered_os, htrio, Restores, judge_unchecked hunchecked]
      exact ⟨Verdict.noConfusion, rfl⟩
    · intro item hitem
      simp only [setFileCacheStatus, lookup_setItem, if_true, Option.some.injEq] at hitem
      rw [← hitem]
      cases hold : Tree.lookup c.gFileHandleTree fd with
      | none => exact show (0 : ℤ) ≠ -1 by decide
      | some old => exact hstale old hold
  · obtain ⟨fd', os', f, heq, hs, hf, hr⟩ := openFile_existing room h hq ho hv
    rw [heq] at hopen
    split at hopen
    · obtain ⟨rfl, rfl⟩ := Prod.mk.inj hopen
      rw [registered_os] at hC
      have htrio := hs.trio
      refine ⟨f, ⟨?_, ?_, ?_, ?_, lookup_registered h hstale os'⟩⟩
      · rw [registered_os]
        exact hf.get
      · rw [registered_os]
        exact hf.ino
      · rw [registered_os]
        exact hC
      · rw [registered_os, htrio]
        rw [htrio] at hC
        have := Restores.settled ⟨hv, hC⟩
        rwa [← hC] at this
    · obtain ⟨rfl, -⟩ := Prod.mk.inj hopen
      exact absurd hfd (by decide)

end FileResource

end PersClient.File
