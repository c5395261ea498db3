import PersClient.File.Runs
import PersClient.File.Session

/-! # Writing through

A write is followed by a synchronisation if the record of the descriptor has
cache status 1. The prefix of write-through resources gives status 0, and an
opening stores the status only for a file it creates. So a write-through file is
written through just when it is found and its descriptor has inherited the
record of a cached file.
-/

namespace PersClient.File

open Access Handle Steps

/-- All that was written through the descriptor has been synchronised. -/
def Os.Synced (os : Os) (fd : ℤ) : Prop := (os.fds.get fd).any OpenFile.synced = true

instance (os : Os) (fd : ℤ) : Decidable (os.Synced fd) := by
  unfold Os.Synced
  infer_instance

section Write

variable {com : CommonObject} {env : Env} {fd n : ℤ} {buffer : Bytes} {c c' : Client} {os os' : Os}

theorem Os.fsync_synced {f : OpenFile} (hf : os.fds.get fd = some f) : (os.fsync fd).2.Synced fd := by
  have hget : (os.fsync fd).2.fds.get fd = some { f with synced := true } := by
    unfold Os.fsync
    rw [hf]
    dsimp only
    rw [Os.get_setFile (FdTable.nonneg_of_get hf).1, Function.update_self]
  rw [Os.Synced, hget]
  rfl

theorem Os.write_unsynced (hwrite : os.write env fd buffer = (n, os')) (hn : 0 ≤ n) :
    ∃ f, os'.fds.get fd = some f ∧ f.synced = false := by
  unfold Os.write at hwrite
  split at hwrite
  · have := (Prod.mk.inj hwrite).1
    omega
  · rename_i f hf
    have hfd := (FdTable.nonneg_of_get hf).1
    split at hwrite
    · unfold Os.transfer at hwrite
      split at hwrite
      · have := (Prod.mk.inj hwrite).1
        omega
      · obtain ⟨-, rfl⟩ := Prod.mk.inj hwrite
        rw [Os.get_setFile hfd, Function.update_self]
        exact ⟨_, rfl, rfl⟩
      · obtain ⟨-, rfl⟩ := Prod.mk.inj hwrite
        rw [Os.get_setFile hfd, Function.update_self]
        exact ⟨_, rfl, rfl⟩
    · have := (Prod.mk.inj hwrite).1
      omega

theorem backupBeforeWrite_cacheStatus (com : CommonObject) (env : Env) (fd x : ℤ) (c : Client) :
    getFileCacheStatus (backupBeforeWrite com env fd c).gFileHandleTree x =
      getFileCacheStatus c.gFileHandleTree x := by
  unfold backupBeforeWrite
  split
  · exact getFileCacheStatus_setFileBackupStatus 1
  · rfl

theorem pclFileWriteData_synced_iff (hwrite : pclFileWriteData com env fd buffer c = (n, c'))
    (hn : 0 ≤ n) : c'.os.Synced fd ↔ getFileCacheStatus c.gFileHandleTree fd = 1 := by
  have failed : ∀ e : ℤ, e < 0 → (e, c) ≠ (n, c') := fun e he heq => by
    have := (Prod.mk.inj heq).1
    omega
  unfold pclFileWriteData at hwrite
  split at hwrite
  swap
  · exact absurd hwrite (failed _ (by decide))
  split at hwrite
  swap
  · exact absurd hwrite (failed _ (by decide))
  split at hwrite
  · exact absurd hwrite (failed _ (by decide))
  split at hwrite
  swap
  · exact absurd hwrite (failed _ (by decide))
  rw [← backupBeforeWrite_cacheStatus com env fd fd c]
  extract_lets c₁ at hwrite
  split at hwrite
  rename_i size os hdata
  obtain ⟨rfl, rfl⟩ := Prod.mk.inj hwrite
  obtain ⟨f, hf, hunsynced⟩ := Os.write_unsynced hdata hn
  dsimp only
  split
  · exact iff_of_true (Os.fsync_synced hf) ‹_›
  · refine iff_of_false ?_ ‹_›
    rw [Os.Synced, hf, Option.any_some, hunsynced]
    decide

end Write

section Opening

variable {com : CommonObject} {appId : CStr} {env env' : Env} {ctx : DbContext}
  {resourceId : CStr} {userNo seatNo : UInt32} {fd n : ℤ} {buffer : Bytes} {c c₁ c₂ : Client}

/-- The status of a new descriptor: that of the path for a file the opening
creates, else what an earlier record has left. -/
theorem pclFileOpenRegular_cacheStatus (hvalid : 0 ≤ ctx.rval)
    (hopen : pclFileOpenRegular com appId env ctx resourceId userNo seatNo c = (fd, c₁))
    (hfd : 0 ≤ fd) :
    (c₁.os.fds.get fd).isSome ∧ getFileCacheStatus c₁.gFileHandleTree fd =
      if Missing com env ctx c then cacheStatusOf com ctx.dbPath
      else getFileCacheStatus c.gFileHandleTree fd := by
  have hroute : OpenRoute com env ctx c (openValid com appId env ctx resourceId c) :=
    openValid_route resourceId c
  rw [pclFileOpenRegular, if_pos hvalid] at hopen
  rw [hopen] at hroute
  have registered : ∀ c', (registerRegular com ctx fd (wantBackup com ctx c) c').os = c'.os := by
    intro c'
    unfold registerRegular
    dsimp only
    split <;> rfl
  cases hroute with
  | rejected => omega
  | limit => exact absurd hfd (by decide)
  | unopened _ _ hneg => omega
  | found _ _ _ hopens hfound =>
    rw [registered, if_neg hfound, getFileCacheStatus_registerRegular]
    exact ⟨(hopens.opened fd (Set.mem_insert fd _)).2, rfl⟩
  | created _ _ _ hopens hmissing =>
    rw [registered, if_pos hmissing, getFileCacheStatus_registerRegular,
      getFileCacheStatus_setFileCacheStatus, if_pos rfl]
    exact ⟨(hopens.opened fd (Set.mem_insert fd _)).2, rfl⟩

/-- After any history, a write-through resource is opened, any calls but the
closing of its descriptor follow, and a write succeeds: it is synchronised if
and only if the opening found the file and a record with cache status 1. -/
theorem written_through_iff (hvalid : 0 ≤ ctx.rval) (hwt : wtPrefix com <:+: ctx.dbPath)
    (hopen : pclFileOpenRegular com appId env ctx resourceId userNo seatNo c = (fd, c₁))
    (hfd : 0 ≤ fd) (calls : List FileCall) (hclose : FileCall.fileClose fd ∉ calls)
    (hwrite : pclFileWriteData com env' fd buffer (run (fileStep com appId) c₁ calls) = (n, c₂))
    (hn : 0 ≤ n) :
    c₂.os.Synced fd ↔ ¬ Missing com env ctx c ∧ getFileCacheStatus c.gFileHandleTree fd = 1 := by
  obtain ⟨hsome, hstatus⟩ := pclFileOpenRegular_cacheStatus hvalid hopen hfd
  rw [pclFileWriteData_synced_iff hwrite hn, (run_spares calls hsome hclose).status, hstatus]
  by_cases hmissing : Missing com env ctx c
  · simp [hmissing, cacheStatusOf, hwt]
  · simp [hmissing]

end Opening

/-- A local, write-through file resource. -/
def journal : FileResource CommonObject.standard where
  appId := ⟨cstr "app", app_bounded⟩
  info :=
    { context := { ldbid := pclLdbidLocal, userNo := 0, seatNo := 0 }
      configKey :=
        { policy := .wt, storage := .local, type := .file, permission := .readWrite, maxSize := 0,
          reponsible := [], customName := [], customID := [] } }
  resourceId := cstr "log"
  isFile := rfl
  stored := nofun

def journalStart : Client :=
  Client.start (Fs.single journal.dbContext.dbPath [65]) standardFds

def journalOpen (c : Client) : ℤ × Client :=
  pclFileOpenRegular .standard journal.appId.chars .reliable journal.dbContext journal.resourceId
    0 0 c

/-- The first opening of an existing write-through file. -/
theorem journal_not_written_through :
    ¬ ∀ (calls : List FileCall) (buffer : Bytes),
      FileCall.fileClose (journalOpen journalStart).1 ∉ calls →
      0 ≤ (pclFileWriteData .standard .reliable (journalOpen journalStart).1 buffer
        (run (fileStep .standard journal.appId.chars) (journalOpen journalStart).2 calls)).1 →
      (pclFileWriteData .standard .reliable (journalOpen journalStart).1 buffer
        (run (fileStep .standard journal.appId.chars) (journalOpen journalStart).2
          calls)).2.os.Synced (journalOpen journalStart).1 := by
  intro h
  exact absurd (h [] [66] List.not_mem_nil (by decide +kernel)) (by decide +kernel)

/-- A path handle on a cached file has left its record behind. -/
def journalAfterPath : Client :=
  fileStep .standard journal.appId.chars journalStart
    (.fileCreatePath .reliable (document .readWrite).dbContext (cstr "doc") 0 0)

theorem journal_after_path_written_through :
    (pclFileWriteData .standard .reliable (journalOpen journalAfterPath).1 [66]
        (run (fileStep .standard journal.appId.chars) (journalOpen journalAfterPath).2
          [])).2.os.Synced (journalOpen journalAfterPath).1 ↔
      ¬ Missing .standard .reliable journal.dbContext journalAfterPath ∧
        getFileCacheStatus journalAfterPath.gFileHandleTree (journalOpen journalAfterPath).1 = 1 := by
  have hopen : pclFileOpenRegular .standard journal.appId.chars .reliable journal.dbContext
      journal.resourceId 0 0 journalAfterPath =
      ((journalOpen journalAfterPath).1, (journalOpen journalAfterPath).2) := rfl
  refine written_through_iff (by decide) ?_ hopen (by decide +kernel) [] List.not_mem_nil rfl
    (by decide +kernel)
  decide +kernel

end PersClient.File
