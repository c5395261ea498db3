import PersClient.File.SavedFiles

/-! # The library as files with saved copies

A write that makes a backup first leaves its descriptor where it was, a closing
takes the side files away, and an opening goes back to what they hold. So whole
runs of the library, over any number of processes, are runs of files with saved
copies.
-/

namespace PersClient.File

open Access Crash Handle Prct Steps Text

variable {ρ : Type} [DecidableEq ρ] {com : CommonObject}

section Writing

variable {r : FileResource com} {room : com.Roomy} {c : Client} {fd : ℤ} {pos : ℕ} {written : Bool}
  {b : Option Bytes}

/-- A write through a descriptor, and the `fsync` that may follow it. -/
theorem write_stored {os : Os} {f : OpenFile} {p : Path} (hf : os.fds.get fd = some f)
    (hw : f.writable = true) (hp : os.fs.names p = some f.ino) (buffer : Bytes) {os' : Os}
    (hos : os' = (os.write .reliable fd buffer).2 ∨
      os' = ((os.write .reliable fd buffer).2.fsync fd).2) :
    (os.write .reliable fd buffer).1 = buffer.length ∧ os.Elsewhere [p] os' ∧ os.Others fd os' ∧
      os'.fs.names p = some f.ino ∧
      os'.fs.content p = some (Os.writeAt (os.fs.data f.ino) f.offset buffer) ∧
      ∃ b, os'.fds.get fd = some { f with offset := f.offset + buffer.length, synced := b } := by
  have hothers := Os.write_others .reliable fd buffer os
  obtain ⟨os₁, heq, hsets, hino, hget⟩ := Os.write_quiet hf hw (Env.quiet_reliable _) hp buffer
  rw [heq] at hos hothers ⊢
  have hg : os₁.fds.get fd =
      some { f with offset := f.offset + buffer.length, synced := false } := by
    rw [hget, Function.update_self]
  have hcontent : os₁.fs.content p = some (Os.writeAt (os.fs.data f.ino) f.offset buffer) := by
    rw [hsets.content, if_pos rfl]
  have helse : os.Elsewhere [p] os₁ := hsets.elsewhere List.mem_cons_self
  refine ⟨rfl, ?_⟩
  rcases hos with rfl | rfl
  · exact ⟨helse, hothers, hino, hcontent, false, hg⟩
  · have hdisk := (Os.fsync_frame fd os₁).1
    have hfs : (os₁.fsync fd).2.fs = os₁.fs := congrArg Logged.now hdisk
    refine ⟨helse.trans (.of_disk hdisk), hothers.trans (Os.fsync_others fd os₁), ?_, ?_, true, ?_⟩
    · rw [hfs, hino]
    · rw [hfs, hcontent]
    · rw [Os.fsync, hg]
      dsimp only
      rw [Os.get_setFile (FdTable.nonneg_of_get hf).1, Function.update_self]

/-- Before a write the content is saved if it was not yet, and the descriptor
stays where it stands. -/
theorem Stands.prepared (h : Stands r room fd pos written c) (hneeds : r.NeedsBackup c)
    (hunlocked : ¬ Locked c.loop) (hwritable : r.info.configKey.permission = .readWrite)
    (hline : r.OneLine) (hsides : r.SidesCreatable room) (hkeeps : r.Keeps room c.os b) {c₁ : Client}
    (hc₁ : backupBeforeWrite com .reliable fd c = c₁) :
    Stands r room fd pos true c₁ ∧ c.Confined (r.files room) fd c₁ ∧
      c₁.os.fs.names (resolve (r.names room).orig) = c.os.fs.names (resolve (r.names room).orig) ∧
      c₁.os.content (r.names room).orig = c.os.content (r.names room).orig ∧
      r.Keeps room c₁.os (if written then b else c.os.content (r.names room).orig) := by
  obtain ⟨f, hf, hino, rfl, hreadable, hw⟩ := h.file
  obtain ⟨item, hitem, hrec⟩ := h.recorded
  have hthere : c.os.content (r.names room).orig = some (c.os.fs.data f.ino) :=
    Fs.content_of_names hino
  cases written with
  | false =>
    have hawaits : AwaitsBackup r room fd f c :=
      ⟨hneeds.initialized, hunlocked, hwritable, hline, hsides, hf, hino, hreadable, item, hitem, hrec⟩
    obtain ⟨helse, hothers⟩ := hawaits.frame .reliable
    obtain ⟨os', f', heq, htrio, hino', hf', hfile, hoff⟩ :=
      hawaits.backup (Env.quiet_reliable _) (Env.quiet_reliable _)
    obtain ⟨item', hitem', hrec'⟩ := recorded_done hitem hrec
    rw [hc₁] at heq helse hothers
    rw [heq] at helse hothers ⊢
    simp only [OpenFile.file, Prod.mk.injEq] at hfile
    obtain ⟨hsame, -, hr', hw'⟩ := hfile
    have hconf : c.Confined (r.files room) fd { c with
        os := os', gFileHandleTree := setFileBackupStatus c.gFileHandleTree fd 1 } := by
      refine ⟨⟨rfl, rfl, fun hno => ?_⟩, rfl, helse.mono (List.subset_cons_self _ _), hothers,
        fun x hx => ?_⟩
      · exact hno.setItem fd (fun _ => rfl) (show (0 : ℤ) ≠ -1 by decide)
      · dsimp only
        rw [setFileBackupStatus, lookup_setItem, if_neg hx]
    refine ⟨⟨⟨f', hf', ?_, hoff, ?_, ?_⟩, item', hitem', hrec'⟩, hconf, ?_, ?_, ?_⟩
    · rw [hino', hsame]
    · rw [hr', hreadable]
    · rw [hw', hw]
    · rw [hino', hino]
    · exact (congrArg Trio.orig htrio).trans hthere.symm
    · rw [hthere]
      exact ⟨congrArg Trio.backup htrio, congrArg Trio.csum htrio⟩
  | true =>
    have hdone : getFileBackupStatus c.gFileHandleTree fd ≠ 0 := by
      rw [status_of_recorded hitem hrec]
      decide
    rw [backupBeforeWrite_done com _ hdone] at hc₁
    rw [← hc₁]
    exact ⟨h, ⟨⟨rfl, rfl, id⟩, rfl, .of_disk rfl, fun _ _ _ hx => hx, fun _ _ => rfl⟩, rfl, rfl,
      hkeeps⟩

theorem Stands.closed (h : Stands r room fd pos written c) (hneeds : r.NeedsBackup c)
    (hwritable : r.info.configKey.permission = .readWrite) :
    ∃ os, pclFileClose fd c = (0, { c with
        os
        gFileHandleTree := removeFileHandleData c.gFileHandleTree fd
        gOpenFdList := listItemRemove c.gOpenFdList fd }) ∧
      os.content (r.names room).orig = c.os.content (r.names room).orig ∧ r.Keeps room os none ∧
      os.fs.names (resolve (r.names room).orig) = c.os.fs.names (resolve (r.names room).orig) ∧
      c.os.Elsewhere (r.files room) os ∧ c.os.Others fd os := by
  obtain ⟨f, hf, -⟩ := h.file
  obtain ⟨item, hitem, hrec⟩ := h.recorded
  have hpermission := permission_of_recorded hitem hrec
  rw [hwritable] at hpermission
  obtain ⟨hb, hget₁⟩ := Os.remove_sets (r.names room).backup c.os
  generalize hos₁ : (c.os.remove (r.names room).backup).2 = os₁ at *
  obtain ⟨hs, hget₂⟩ := Os.remove_sets (r.names room).csum os₁
  generalize hos₂ : (os₁.remove (r.names room).csum).2 = os₂ at *
  obtain ⟨hdisk₃, hkeeps₃⟩ := Os.fsync_frame fd os₂
  obtain ⟨g, hg, -⟩ := hkeeps₃.get (by rw [hget₂, hget₁, hf])
  obtain ⟨os₄, hclose, hdisk₄, hget₄⟩ := Os.close_open hg
  have hfs : os₄.fs = os₂.fs := congrArg Logged.now (hdisk₄.trans hdisk₃)
  have htrio : (r.names room).trio os₄.fs =
      ⟨((r.names room).trio c.os.fs).orig, none, none⟩ := by
    rw [hfs, hs.trio_csum, hb.trio_backup]
  refine ⟨os₄, ?_, congrArg Trio.orig htrio, ⟨congrArg Trio.backup htrio, congrArg Trio.csum htrio⟩,
    ?_, ?_, ?_⟩
  · unfold pclFileClose
    rw [if_pos hneeds.initialized, hpermission, backup_of_recorded room hitem hrec,
      csum_of_recorded room hitem hrec]
    simp only [ne_eq, reduceCtorEq, not_false_eq_true, and_self, if_true, Option.getD_some, hos₁,
      hos₂, hclose]
  · rw [hfs, hs.others _ (r.names room).orig_ne_csum, hb.others _ (r.names room).orig_ne_backup]
  · refine (hb.elsewhere ?_).trans ((hs.elsewhere ?_).trans (.of_disk (hdisk₄.trans hdisk₃)))
    · simp [FileResource.files]
    · simp [FileResource.files]
  · intro x g' hx hg'
    rw [hget₄, Function.update_of_ne hx]
    exact Os.fsync_others fd os₂ x g' hx (by rw [hget₂, hget₁, hg'])

end Writing

section Opening

variable {r : FileResource com} {room : com.Roomy} {c c₁ : Client} {os os' : Os} {fd : ℤ}
  {ps : List Path} {b : Option Bytes} {o : Bytes}

theorem registered_confined (h : c.Confined ps fd c₁) :
    c.Confined ps fd (r.registered c₁ c₁.os fd) := by
  have hfollows : c₁.Follows (r.registered c₁ c₁.os fd) := registerRegular_follows _ _ _ c₁
  have hloop : (r.registered c₁ c₁.os fd).loop = c₁.loop := by
    unfold FileResource.registered registerRegular
    dsimp only
    split <;> rfl
  refine ⟨h.follows.trans hfollows, hloop.trans h.loop, ?_, ?_, fun x hx => ?_⟩
  · rw [FileResource.registered_os]
    exact h.elsewhere
  · rw [FileResource.registered_os]
    exact h.others
  · exact (lookup_registered_of_ne hx c₁.os).trans (h.records x hx)

theorem FileResource.Keeps.verdict (h : r.Keeps room os b)
    (ho : os.content (r.names room).orig = some o) (readable : Bool) :
    judge readable ((r.names room).trio os.fs) =
      ((b.filter (· ≠ [])).map Verdict.restore).getD .unchecked := by
  cases b with
  | none => exact judge_none readable h.1 h.2
  | some b =>
    rw [Saved.judge ⟨h.1, h.2⟩ ho readable]
    by_cases hb : b = []
    · simp [Option.filter_some, hb]
    · simp [Option.filter_some, csumOf_ne_nil hb, hb]

/-- The file is found with this content. Other files and open descriptors are left. -/
structure FileResource.Finds (r : FileResource com) (room : com.Roomy) (os : Os) (o : Bytes)
    (os' : Os) : Prop where
  content : os'.content (r.names room).orig = some o
  names : os'.fs.names (resolve (r.names room).orig) = os.fs.names (resolve (r.names room).orig)
  elsewhere : os.Elsewhere [resolve (r.names room).orig] os'
  kept : ∀ x g, os.fds.get x = some g → os'.fds.get x = some g

def FileResource.Opens (r : FileResource com) (room : com.Roomy) (os : Os) (fd : ℤ) (os' : Os) :
    Prop :=
  os.fds.get fd = none ∧ r.At room os' fd 0

theorem FileResource.Keeps.verified (h : r.Keeps room os b)
    (ho : os.content (r.names room).orig = some o) :
    ∃ handle os', r.verify room .reliable os = (handle, os') ∧
      r.Finds room os ((b.filter (· ≠ [])).getD o) os' ∧
      (handle = 0 ∨ 0 < handle ∧ r.Opens room os handle os') := by
  have hjudge := h.verdict ho r.flags.read
  have hplain : r.flags.Plain := pclGetPosixPermission_plain r.info.configKey.permission
  generalize b.filter (· ≠ []) = back at hjudge ⊢
  obtain ⟨handle, os', heq, ⟨-, hj⟩ | ⟨hcorrupt, -⟩⟩ := pclVerifyConsistency_judged
    (n := r.names room) os hplain (Env.quiet_reliable _)
    (Or.inl ⟨Env.quiet_reliable _, Env.quiet_reliable _⟩)
  swap
  · rw [hjudge] at hcorrupt
    cases back <;> cases hcorrupt
  refine ⟨handle, os', heq, ?_⟩
  rw [hjudge] at hj
  cases back with
  | none =>
    obtain ⟨rfl, hsame⟩ := hj
    refine ⟨⟨?_, ?_, .of_disk hsame.disk, fun x g hg => ?_⟩, Or.inl rfl⟩
    · rw [Os.content, hsame.fs]
      exact ho
    · rw [hsame.fs]
    · rw [hsame.get, hg]
  | some b =>
    obtain ⟨⟨os₁, hempty, hfull⟩, f, hre⟩ := hj
    have hfile : r.At room os' handle 0 := by
      refine ⟨f, ?_, hre.ino, hre.offset, hre.readable, hre.writable⟩
      rw [hre.get, Function.update_self]
    refine ⟨⟨?_, hre.ino.trans hre.same.symm, ?_, fun x g hg => ?_⟩, ?_⟩
    · exact (hfull.content _).trans (if_pos rfl)
    · exact (hempty.elsewhere List.mem_cons_self).trans (hfull.elsewhere List.mem_cons_self)
    · rw [hre.get, Function.update_of_ne (FdTable.ne_of_free hre.fresh hg), hg]
    · rcases hre.nonneg.lt_or_eq with hpos | hzero
      · exact Or.inr ⟨hpos, hre.fresh, hfile⟩
      · exact Or.inl hzero.symm

theorem FileResource.Finds.again (h : r.Finds room os o os') (hw : r.flags = oRdwr) :
    ∃ fd os'', os'.openPath .reliable (r.names room).orig r.flags = (fd, os'') ∧
      r.Finds room os o os'' ∧ r.Opens room os fd os'' := by
  obtain ⟨i, hi, -⟩ := Fs.content_eq_some.mp h.content
  obtain ⟨os'', heq, hdisk, hget⟩ := Os.openPath_existing r.flags (Env.quiet_reliable _) hi
    (pclGetPosixPermission_plain r.info.configKey.permission).2
  have hfs : os''.fs = os'.fs := congrArg Logged.now hdisk
  have hfree : ∀ x g, os.fds.get x = some g → x ≠ os'.fds.lowestFree :=
    fun x g hg => FdTable.ne_of_free FdTable.get_lowestFree (h.kept x g hg)
  refine ⟨os'.fds.lowestFree, os'', heq,
    ⟨?_, ?_, h.elsewhere.trans (.of_disk hdisk), fun x g hg => ?_⟩, ?_,
    ⟨i, (r.names room).orig, 0, r.flags.read, r.flags.write, true⟩, ?_, ?_, rfl, ?_, ?_⟩
  · exact (congrArg (Fs.content · _) hfs).trans h.content
  · rw [hfs, h.names]
  · rw [hget, Function.update_of_ne (hfree x g hg), h.kept x g hg]
  · by_contra hne
    obtain ⟨g, hg⟩ := Option.ne_none_iff_exists'.mp hne
    exact hfree _ g hg rfl
  · rw [hget, Function.update_self]
  · rw [hfs, hi]
  · rw [hw]
    rfl
  · rw [hw]
    rfl

theorem FileResource.NeedsBackup.openFile_found (h : r.NeedsBackup c) (hw : r.flags = oRdwr)
    (hkeeps : r.Keeps room c.os b) (ho : c.os.content (r.names room).orig = some o) :
    ∃ fd os, r.Finds room c.os ((b.filter (· ≠ [])).getD o) os ∧ r.Opens room c.os fd os ∧
      r.openFile .reliable c =
        if fd < maxPersHandle then (fd, r.registered c os fd)
        else (epersMaxhandle, { c with os := (os.close fd).2 }) := by
  obtain ⟨handle, os₁, hverify, hfinds, hhandle⟩ := hkeeps.verified ho
  have hverify' : pclVerifyConsistency .reliable r.dbContext.dbPath
      (backupPath com r.dbContext.configKey.policy r.dbContext.dbPath)
      (csumPath com r.dbContext.configKey.policy r.dbContext.dbPath)
      (pclGetPosixPermission r.dbContext.configKey.permission) c.os = (handle, os₁) := hverify
  have hne : handle ≠ -1 := by omega
  obtain ⟨fd, os, hchosen, hfinds, hopens⟩ : ∃ fd os,
      (if handle ≤ 0 then
        (os₁.openPath .reliable r.dbContext.dbPath
          (pclGetPosixPermission r.dbContext.configKey.permission),
            cacheStatusOf com r.dbContext.dbPath)
      else ((handle, os₁), -1)) = ((fd, os), if handle ≤ 0 then cacheStatusOf com r.dbContext.dbPath
        else -1) ∧
      r.Finds room c.os ((b.filter (· ≠ [])).getD o) os ∧ r.Opens room c.os fd os := by
    rcases hhandle with hzero | ⟨hpos, hopens⟩
    · obtain ⟨fd, os, heq, hagain⟩ := hfinds.again hw
      refine ⟨fd, os, ?_, hagain⟩
      rw [if_pos hzero.le, if_pos hzero.le]
      exact congrArg (·, cacheStatusOf com r.dbContext.dbPath) heq
    · refine ⟨handle, os₁, ?_, hfinds, hopens⟩
      rw [if_neg (not_le.mpr hpos), if_neg (not_le.mpr hpos)]
  have hfd : ¬ (fd = -1 ∧ os.errno = .enoent) := by
    rintro ⟨rfl, -⟩
    obtain ⟨-, f, hf, -⟩ := hopens
    have hnonneg : (0 : ℤ) ≤ -1 := (FdTable.nonneg_of_get hf).1
    omega
  refine ⟨fd, os, hfinds, hopens, ?_⟩
  rw [h.openFile_eq]
  simp only [openValid, h.wanted, if_true, hverify', Bool.true_and, decide_eq_true_eq, hne, if_false,
    hchosen, hfd]
  rfl

end Opening

section Calls

variable {res : ρ → FileResource com} {room : com.Roomy} {c : Client} {s : SavedFiles ρ}
  {fd : ℤ} {i : ρ} {k : Cursor ρ}

theorem Mirrors.write (fam : Family res room) (h : Mirrors res room c s)
    (hopen : s.opened fd = some k) (buffer : Bytes) : Serves res room c s (.write fd buffer) := by
  have hstands := h.opened fd k hopen
  have hneeds := h.needs k.file
  obtain ⟨item, hitem, hrec⟩ := hstands.recorded
  have hpermission := permission_of_recorded hitem hrec
  rw [fam.writable k.file] at hpermission
  unfold Serves
  by_cases hlocked : Locked c.loop
  · have hs : s.locked = true := h.locked.trans (decide_eq_true hlocked)
    have hperform : AppCall.perform res c (.write fd buffer) = ((epersLockfs, none), c) := by
      simp only [AppCall.perform, pclFileWriteData, if_pos hneeds.initialized,
        if_neg (not_not.mpr hlocked)]
    rw [hperform]
    simp only [SavedFiles.Answers, SavedFiles.reply, SavedFiles.next, hopen, hs, Option.map_some,
      if_true]
    exact ⟨trivial, h⟩
  · have hs : s.locked = false := h.locked.trans (decide_eq_false hlocked)
    obtain ⟨c₁, hc₁⟩ : ∃ c₁, backupBeforeWrite com .reliable fd c = c₁ := ⟨_, rfl⟩
    obtain ⟨hstands₁, hconfined, hnames, hcontent, hkeeps⟩ := hstands.prepared hneeds hlocked
      (fam.writable k.file) (fam.oneLine k.file) (fam.sides k.file) (h.sides k.file) hc₁
    -- the descriptor is written through after the backup
    obtain ⟨os, hos, hperform⟩ : ∃ os,
        (os = (c₁.os.write .reliable fd buffer).2 ∨
          os = ((c₁.os.write .reliable fd buffer).2.fsync fd).2) ∧
        AppCall.perform res c (.write fd buffer) =
          (((c₁.os.write .reliable fd buffer).1, none), { c₁ with os }) := by
      simp only [AppCall.perform, pclFileWriteData, if_pos hneeds.initialized, if_pos hlocked,
        hpermission, ne_eq, reduceCtorEq, not_false_eq_true, if_true, hc₁]
      split
      · exact ⟨_, Or.inr rfl, rfl⟩
      · exact ⟨_, Or.inl rfl, rfl⟩
    obtain ⟨f, hf, hino, hpos, hreadable, hw⟩ := hstands₁.file
    have hthere : s.content k.file = some (c₁.os.fs.data f.ino) :=
      (h.content k.file).symm.trans (hcontent.symm.trans (Fs.content_of_names hino))
    have hdata : s.data k.file = c₁.os.fs.data f.ino := by
      rw [SavedFiles.data, hthere, Option.getD_some]
    obtain ⟨hsize, helse, hothers, hino', hcontent', b, hf'⟩ := write_stored hf hw hino buffer hos
    have hc : c.Confined ((res k.file).files room) fd { c₁ with os } :=
      hconfined.trans (.of_os (helse.mono ((res k.file).orig_subset_files room)) hothers)
    rw [hperform, hsize]
    simp only [SavedFiles.Answers, SavedFiles.reply, SavedFiles.next, hopen, hs, Option.map_some,
      Bool.false_eq_true, if_false]
    refine ⟨trivial, h.confined fam hc ?_ ?_ (fun j hj => ⟨?_, ?_⟩) (fun x hx => ?_) ?_ ?_
      (fun _ => ?_) (fun x _ _ _ _ => (hino'.trans hino.symm).trans hnames) fun k' hk => ?_⟩
    · cases k.written <;> rfl
    · cases k.written <;> rfl
    · cases k.written <;> simp [hj]
    · cases k.written <;> simp [hj]
    · cases k.written <;> simp [hx, SavedFiles.store, SavedFiles.save]
    · rw [SavedFiles.place_content, SavedFiles.store_content, if_pos rfl, hdata, ← hpos]
      exact hcontent'
    · have hkept := hkeeps.orig helse
      rw [h.content k.file, hthere] at hkept
      rw [SavedFiles.place_saved, SavedFiles.store_saved, hdata]
      cases hwritten : k.written with
      | false =>
        rw [hwritten] at hkept
        simpa using hkept
      | true =>
        rw [hwritten] at hkept
        exact hkept
    · simp
    · rw [SavedFiles.place_opened, if_pos rfl, Option.some.injEq] at hk
      rw [← hk]
      exact ⟨⟨_, hf', hino', by rw [← hpos], hreadable, hw⟩, hstands₁.recorded⟩

theorem Mirrors.close (fam : Family res room) (h : Mirrors res room c s)
    (hopen : s.opened fd = some k) : Serves res room c s (.close fd) := by
  obtain ⟨os, heq, hcontent, hkeeps, hnames, helse, hothers⟩ :=
    (h.opened fd k hopen).closed (h.needs k.file) (fam.writable k.file)
  have hperform : AppCall.perform res c (.close fd) = ((0, none), { c with
      os
      gFileHandleTree := removeFileHandleData c.gFileHandleTree fd
      gOpenFdList := listItemRemove c.gOpenFdList fd }) := by
    rw [AppCall.perform, heq]
  have hconf : c.Confined ((res k.file).files room) fd { c with
      os
      gFileHandleTree := removeFileHandleData c.gFileHandleTree fd
      gOpenFdList := listItemRemove c.gOpenFdList fd } := by
    refine ⟨⟨rfl, rfl, fun hno x item hx => ?_⟩, rfl, helse, hothers, fun x hx => ?_⟩
    · dsimp only at hx
      rw [lookup_removeFileHandleData] at hx
      split at hx
      · cases hx
      · exact hno x item hx
    · exact lookup_removeFileHandleData.trans (if_neg hx)
  unfold Serves
  rw [hperform]
  simp only [SavedFiles.Answers, SavedFiles.reply, SavedFiles.next, hopen, Option.map_some]
  refine ⟨trivial, h.confined fam hconf rfl rfl (fun j hj => ⟨rfl, ?_⟩) (fun x hx => ?_) ?_ ?_ ?_
    (fun _ _ _ _ _ => hnames) fun k' hk => ?_⟩
  · rw [SavedFiles.place_saved, SavedFiles.save_saved, if_neg hj]
  · rw [SavedFiles.place_opened, if_neg hx]
    rfl
  · exact hcontent.trans (h.content k.file)
  · rw [SavedFiles.place_saved, SavedFiles.save_saved, if_pos rfl]
    exact hkeeps
  · simp
  · simp at hk

theorem Mirrors.opened_new (fam : Family res room) (h : Mirrors res room c s) {c₁ : Client}
    (hc : c.Confined [resolve ((res i).names room).orig] fd c₁)
    (hopens : (res i).Opens room c.os fd c₁.os)
    (hcontent : c₁.os.content ((res i).names room).orig = some (s.found i (s.defaults i)))
    (hnames : c.os.content ((res i).names room).orig ≠ none →
      c₁.os.fs.names (resolve ((res i).names room).orig) =
        c.os.fs.names (resolve ((res i).names room).orig))
    (hcall : (res i).openFile .reliable c = (fd, (res i).registered c₁ c₁.os fd)) :
    Serves res room c s (.open i) := by
  obtain ⟨hnew, f, hf, hfile⟩ := hopens
  have hfd : 0 ≤ fd := (FdTable.nonneg_of_get hf).1
  have hclosed : s.opened fd = none := by
    by_contra hne
    obtain ⟨k, hk⟩ := Option.ne_none_iff_exists'.mp hne
    obtain ⟨g, hg, -⟩ := (h.opened fd k hk).file
    exact FdTable.ne_of_free hnew hg rfl
  have hperform : AppCall.perform res c (.open i) =
      ((fd, none), (res i).registered c₁ c₁.os fd) := by
    rw [AppCall.perform, hcall]
  have hos : ((res i).registered c₁ c₁.os fd).os = c₁.os :=
    FileResource.registered_os c₁ c₁.os fd
  have hconf : c.Confined [resolve ((res i).names room).orig] fd ((res i).registered c₁ c₁.os fd) :=
    registered_confined hc
  unfold Serves
  rw [hperform]
  refine ⟨⟨rfl, Or.inl ⟨hfd, hclosed⟩⟩, ?_⟩
  simp only [SavedFiles.next, if_pos hfd]
  refine h.confined fam (hconf.mono ((res i).orig_subset_files room)) rfl rfl
    (fun j hj => ⟨?_, rfl⟩) (fun x hx => ?_) ?_ ((h.sides i).orig hconf.elsewhere) (fun _ => ?_)
    (fun x k _ hx hk => ?_) fun k hk => ?_
  · rw [SavedFiles.place_content, SavedFiles.store_content, if_neg hj]
  · rw [SavedFiles.place_opened, if_neg hx]
    rfl
  · rw [hos, hcontent, SavedFiles.place_content, SavedFiles.store_content, if_pos rfl]
  · simp
  · obtain ⟨g, -, hg, -⟩ := (h.opened x k hx).file
    rw [hk] at hg
    rw [hos]
    exact hnames (by rw [Os.content, Fs.content_of_names hg]; exact Option.some_ne_none _)
  · rw [SavedFiles.place_opened, if_pos rfl, Option.some.injEq] at hk
    rw [← hk]
    have hstale : FileResource.NoDefaultRecord c₁ fd :=
      fun item hx => hc.follows.records h.records fd item hx
    refine ⟨⟨f, ?_, ?_, hfile.2⟩, FileResource.lookup_registered (h.needs i) hstale c₁.os⟩
    · rw [hos, hf]
    · rw [hos]
      exact hfile.1

theorem Mirrors.opened_refused (fam : Family res room) (h : Mirrors res room c s) {c₁ : Client}
    (hc : c.Confined [resolve ((res i).names room).orig] epersMaxhandle c₁)
    (hcontent : c₁.os.content ((res i).names room).orig = some (s.found i []))
    (hnames : c.os.content ((res i).names room).orig ≠ none →
      c₁.os.fs.names (resolve ((res i).names room).orig) =
        c.os.fs.names (resolve ((res i).names room).orig))
    (hcall : (res i).openFile .reliable c = (epersMaxhandle, c₁)) :
    Serves res room c s (.open i) := by
  have hperform : AppCall.perform res c (.open i) = ((epersMaxhandle, none), c₁) := by
    rw [AppCall.perform, hcall]
  have hneg : ¬ 0 ≤ epersMaxhandle := by decide
  unfold Serves
  rw [hperform]
  refine ⟨⟨rfl, Or.inr rfl⟩, ?_⟩
  simp only [SavedFiles.next, if_neg hneg]
  refine h.confined fam (hc.mono ((res i).orig_subset_files room)) rfl rfl
    (fun j hj => ⟨?_, rfl⟩) (fun _ _ => rfl) ?_ ((h.sides i).orig hc.elsewhere) (fun _ => ?_)
    (fun x k _ hx hk => ?_) fun k hk => ?_
  · rw [SavedFiles.store_content, if_neg hj]
  · rw [hcontent, SavedFiles.store_content, if_pos rfl]
  · simp
  · obtain ⟨g, -, hg, -⟩ := (h.opened x k hx).file
    rw [hk] at hg
    exact hnames (by rw [Os.content, Fs.content_of_names hg]; exact Option.some_ne_none _)
  · obtain ⟨g, hg, -⟩ := (h.opened epersMaxhandle k hk).file
    exact absurd (FdTable.nonneg_of_get hg).1 hneg

theorem Mirrors.open_found (fam : Family res room) (h : Mirrors res room c s) {o : Bytes}
    (hthere : c.os.content ((res i).names room).orig = some o) : Serves res room c s (.open i) := by
  have hflags : (res i).flags = oRdwr := by
    unfold FileResource.flags
    rw [fam.writable i]
    rfl
  obtain ⟨fd, os, hfinds, hopens, heq⟩ := (h.needs i).openFile_found hflags (h.sides i) hthere
  have hfound : ∀ new, s.found i new = (((s.saved i).filter (· ≠ [])).getD o) := by
    intro new
    rw [SavedFiles.found, ← h.content i, hthere]
    cases (s.saved i).filter (· ≠ []) <;> rfl
  split at heq
  · have hc : c.Confined [resolve ((res i).names room).orig] fd { c with os } :=
      .of_os hfinds.elsewhere fun x g _ hg => hfinds.kept x g hg
    refine h.opened_new fam hc hopens ?_ (fun _ => hfinds.names) heq
    rw [hfound]
    exact hfinds.content
  · have hfs : (os.close fd).2.fs = os.fs := Os.close_fs fd os
    refine h.opened_refused fam (.of_os ?_ fun x g _ hg => ?_) ?_ (fun _ => ?_) heq
    · exact hfinds.elsewhere.trans (.of_disk (Os.close_disk fd os))
    · rw [Os.close_spares (FdTable.ne_of_free hopens.1 hg).symm, hfinds.kept x g hg]
    · rw [hfound]
      exact (congrArg (Fs.content · _) hfs).trans hfinds.content
    · rw [hfs, hfinds.names]

theorem Mirrors.open_missing (fam : Family res room) (h : Mirrors res room c s)
    (hthere : c.os.content ((res i).names room).orig = none) : Serves res room c s (.open i) := by
  have hcontent : s.content i = none := (h.content i).symm.trans hthere
  have hsaved : s.saved i = none := by
    by_contra hne
    exact h.held i hne hcontent
  have hfound : ∀ new, s.found i new = new := by
    intro new
    rw [SavedFiles.found, hsaved, hcontent]
    rfl
  have hsides := h.sides i
  rw [hsaved] at hsides
  have hverdict : judge (res i).flags.read (((res i).names room).trio c.os.fs) = .unchecked :=
    judge_none _ hsides.1 hsides.2
  obtain ⟨os, cacheStatus, hsame, heq⟩ := FileResource.openFile_missing room (h.needs i)
    (FileResource.undisturbed_reliable (res i) room c.os) hthere (by rw [hverdict]; decide)
  obtain ⟨path, hpath⟩ := Option.isSome_iff_exists.mp (fam.creatable i)
  have hresolve := (fam.oneLine i).made_orig room hpath
  have hapart : ∀ dp ∈ defaultPaths com (res i).appId.chars (res i).dbContext.configKey.policy
      (res i).resourceId, resolve dp ≠ resolve path := by
    intro dp hdp heq
    apply fam.defaults i i dp hdp
    rw [heq, hresolve]
    exact List.mem_cons_self
  have hcreated : Created com (res i).appId.chars (res i).dbContext (res i).resourceId cacheStatus
      (resolve path) { c with os } _ :=
    createRegular_reliable hpath cacheStatus { c with os } hapart
  rw [hresolve] at hcreated
  dsimp only at heq
  generalize createRegular com (res i).appId.chars .reliable (res i).dbContext (res i).resourceId
    cacheStatus { c with os } = created at heq hcreated
  have hdefaults : defaultData com (res i).appId.chars (res i).info.configKey.policy
      (res i).resourceId os = s.defaults i :=
    (defaultData_elsewhere (.of_disk hsame.disk) (fam.defaults i i)).trans (h.defaults i)
  cases hcreated with
  | @made fd f os' hfd hnew hf hr hw hoff hino hdata helse hothers =>
    rw [hsame.get] at hnew
    have hc : c.Confined [resolve ((res i).names room).orig] fd { c with
        os := os', gFileHandleTree := setFileCacheStatus c.gFileHandleTree fd cacheStatus } := by
      refine ⟨⟨rfl, rfl, fun hno => ?_⟩, rfl, (Os.Elsewhere.of_disk hsame.disk).trans helse,
        fun x g hx hg => hothers x g hx ?_, fun x hx => ?_⟩
      · exact hno.setItem fd (fun _ => rfl) (show (0 : ℤ) ≠ -1 by decide)
      · rw [hsame.get, hg]
      · dsimp only
        rw [setFileCacheStatus, lookup_setItem, if_neg hx]
    refine h.opened_new fam hc ⟨hnew, f, hf, hino, hoff, hr, hw⟩ ?_ (absurd hthere) heq
    rw [hfound, ← hdefaults]
    exact hdata
  | @refused os' hempty helse hothers =>
    have hc : c.Confined [resolve ((res i).names room).orig] epersMaxhandle
        { c with os := os' } :=
      .of_os ((Os.Elsewhere.of_disk hsame.disk).trans helse) fun x g _ hg =>
        hothers x g (by rw [hsame.get, hg])
    refine h.opened_refused fam (registered_confined hc) ?_ (absurd hthere) heq
    rw [FileResource.registered_os, hfound]
    exact hempty

theorem Mirrors.open (fam : Family res room) (h : Mirrors res room c s) (i : ρ) :
    Serves res room c s (.open i) := by
  cases hthere : c.os.content ((res i).names room).orig with
  | some o => exact h.open_found fam hthere
  | none => exact h.open_missing fam hthere

theorem Mirrors.remove (fam : Family res room) (h : Mirrors res room c s)
    (hsaved : s.saved i = none) (hclosed : ∀ fd k, s.opened fd = some k → k.file ≠ i) :
    Serves res room c s (.remove i) := by
  have hinit := (h.needs i).initialized
  unfold Serves
  by_cases hlocked : Locked c.loop
  · have hs : s.locked = true := h.locked.trans (decide_eq_true hlocked)
    have hperform : AppCall.perform res c (.remove i) = ((epersLockfs, none), c) := by
      simp only [AppCall.perform, pclFileRemove, if_pos hinit, if_neg (not_not.mpr hlocked)]
    rw [hperform]
    simp only [SavedFiles.Answers, SavedFiles.reply, SavedFiles.next, hs, if_true]
    exact ⟨trivial, h⟩
  · have hs : s.locked = false := h.locked.trans (decide_eq_false hlocked)
    have hvalid : (0 : ℤ) ≤ (res i).dbContext.rval ∧ (res i).dbContext.configKey.type = .file :=
      ⟨le_rfl, (res i).isFile⟩
    have hperform : AppCall.perform res c (.remove i) =
        (((c.os.remove ((res i).names room).orig).1, none),
          { c with os := (c.os.remove ((res i).names room).orig).2 }) := by
      simp only [AppCall.perform, pclFileRemove, if_pos hinit, if_pos hlocked, if_pos hvalid]
      rfl
    have hrval : (c.os.remove ((res i).names room).orig).1 =
        if s.content i = none then -1 else 0 := by
      have hmissing : s.content i = none ↔
          c.os.fs.names (resolve ((res i).names room).orig) = none := by
        rw [← h.content i]
        exact Fs.content_eq_none
      unfold Os.remove
      split
      · rename_i ino hino
        rw [if_neg fun hnone => Option.some_ne_none ino (hino.symm.trans (hmissing.mp hnone))]
      · rename_i hnone
        rw [if_pos (hmissing.mpr hnone)]
    obtain ⟨hsets, hget⟩ := Os.remove_sets ((res i).names room).orig c.os
    have hc : c.Confined [resolve ((res i).names room).orig] (-1)
        { c with os := (c.os.remove ((res i).names room).orig).2 } :=
      .of_os (hsets.elsewhere List.mem_cons_self) (.of_get fun x _ => congrFun hget x)
    rw [hperform, hrval]
    simp only [SavedFiles.Answers, SavedFiles.reply, SavedFiles.next, hs, Bool.false_eq_true,
      if_false]
    refine ⟨by split <;> rfl, h.confined fam (hc.mono ((res i).orig_subset_files room)) rfl rfl
      (fun j hj => ⟨?_, rfl⟩) (fun _ _ => rfl) ?_ ((h.sides i).orig hc.elsewhere)
      (fun hne => absurd hsaved hne) (fun x k _ hx hk => absurd hk (hclosed x k hx)) fun k hk => ?_⟩
    · rw [SavedFiles.store_content, if_neg hj]
    · rw [SavedFiles.store_content, if_pos rfl]
      exact (hsets.content _).trans (if_pos rfl)
    · obtain ⟨g, hg, -⟩ := (h.opened (-1) k hk).file
      have hnonneg : (0 : ℤ) ≤ -1 := (FdTable.nonneg_of_get hg).1
      omega

omit [DecidableEq ρ] in
theorem Mirrors.turn (h : Mirrors res room c s) (loop : MainLoop) :
    Mirrors res room { c with loop } { s with locked := decide (Locked loop) } :=
  ⟨fun i => ⟨(h.needs i).initialized, (h.needs i).user, (h.needs i).wanted⟩, h.records, rfl,
    h.content, h.defaults, h.sides, h.held,
    fun fd k hopen => ⟨(h.opened fd k hopen).file, (h.opened fd k hopen).recorded⟩⟩

omit [DecidableEq ρ] in
theorem Mirrors.restart (h : Mirrors res room c s) (base : FdTable) :
    Mirrors res room (reboot c.gRbTreeBl base c.os.fs)
      { s with opened := fun _ => none, locked := false } := by
  refine ⟨fun i => needsBackup_reboot (h.needs i) rfl _, fun fd item hitem => ?_, rfl, h.content,
    h.defaults, h.sides, h.held, fun fd k hk => ?_⟩
  · cases hitem
  · cases hk

theorem Mirrors.serves (fam : Family res room) (h : Mirrors res room c s) (call : AppCall ρ)
    (hok : s.Proper call) : Serves res room c s call := by
  cases call with
  | «open» i => exact h.open fam i
  | seek fd offset whence =>
    obtain ⟨k, hopen⟩ := Option.ne_none_iff_exists'.mp hok
    exact h.seek fam hopen offset whence
  | read fd count =>
    obtain ⟨k, hopen⟩ := Option.ne_none_iff_exists'.mp hok
    exact h.read fam hopen count
  | write fd buffer =>
    obtain ⟨k, hopen⟩ := Option.ne_none_iff_exists'.mp hok
    exact h.write fam hopen buffer
  | size fd =>
    obtain ⟨k, hopen⟩ := Option.ne_none_iff_exists'.mp hok
    exact h.size hopen
  | close fd =>
    obtain ⟨k, hopen⟩ := Option.ne_none_iff_exists'.mp hok
    exact h.close fam hopen
  | remove i => exact h.remove fam hok.1 hok.2
  | turn loop => exact ⟨rfl, h.turn loop⟩
  | restart base => exact ⟨rfl, h.restart base⟩

end Calls

section Runs

variable {res : ρ → FileResource com} {room : com.Roomy} {c : Client} {s : SavedFiles ρ}

/-- What a library without open descriptors stands for. -/
def Client.savedFiles (res : ρ → FileResource com) (room : com.Roomy) (c : Client) :
    SavedFiles ρ where
  content i := c.os.content ((res i).names room).orig
  saved i := c.os.content ((res i).names room).backup
  defaults i := defaultData com (res i).appId.chars (res i).info.configKey.policy
    (res i).resourceId c.os
  locked := decide (Locked c.loop)

theorem Mirrors.run (fam : Family res room) (calls : List (AppCall ρ)) (h : Mirrors res room c s)
    (hok : Guarded SavedFiles.next (fun s e => s.Proper e.1) s (exchanges res c calls)) :
    Guarded SavedFiles.next (fun s e => s.Answers e.1 e.2) s (exchanges res c calls) ∧
      Mirrors res room (afterCalls res c calls)
        (Steps.run SavedFiles.next s (exchanges res c calls)) := by
  induction calls generalizing c s with
  | nil => exact ⟨trivial, h⟩
  | cons call calls ih =>
    obtain ⟨hproper, hrest⟩ := hok
    obtain ⟨hanswer, hmirrors⟩ := h.serves fam call hproper
    obtain ⟨hanswers, hend⟩ := ih hmirrors hrest
    exact ⟨⟨hanswer, hanswers⟩, hend⟩

omit [DecidableEq ρ] in
theorem Mirrors.start (hneeds : ∀ i, (res i).NeedsBackup c)
    (hrecords : NoDefaultRecords c.gFileHandleTree)
    (hsides : ∀ i, (res i).Keeps room c.os (c.os.content ((res i).names room).backup))
    (hheld : ∀ i, c.os.content ((res i).names room).backup ≠ none →
      c.os.content ((res i).names room).orig ≠ none) :
    Mirrors res room c (c.savedFiles res room) := by
  refine ⟨hneeds, hrecords, rfl, fun _ => rfl, fun _ => rfl, hsides, hheld, fun fd k hk => ?_⟩
  cases hk

def documents (second : Bool) : FileResource CommonObject.standard :=
  { document .readWrite with resourceId := if second then cstr "log" else cstr "doc" }

theorem documents_family : Family documents CommonObject.standard_roomy where
  writable _ := rfl
  oneLine i := by
    unfold FileResource.OneLine
    cases i <;> decide +kernel
  creatable i := by cases i <;> decide +kernel
  sides i := by
    unfold FileResource.SidesCreatable
    cases i <;> decide +kernel
  plain i := by cases i <;> decide +kernel
  plainDefaults i := by cases i <;> decide +kernel
  apart i j hne := by
    cases i <;> cases j
    · exact absurd rfl hne
    · decide +kernel
    · decide +kernel
    · exact absurd rfl hne
  defaults i j := by cases i <;> cases j <;> decide +kernel

/-- A document is written beside a new one. The process ends before it is closed,
and the next one finds the saved copy. -/
def documentCalls : List (AppCall Bool) :=
  [.open false, .open true, .seek 3 0 .end, .write 3 [67], .write 4 [68, 69], .close 4, .read 3 5,
    .turn { gLockAccess := 1 }, .write 3 [70], .restart standardFds, .open false, .read 5 5]

end Runs

end PersClient.File
