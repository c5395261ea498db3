import Mathlib.Data.List.TakeWhile
import PersClient.File.Stages
import PersClient.Lib.Steps

/-! # Write sessions and crashes

A session writes through one descriptor. A crash stops it between two effects,
and the resource is opened again by a new process, which may crash as well. The
content at the start of the session comes back exactly when no side file stands
alone without matching it, and there is a checksum string to tell it by or the
data have not changed.
-/

namespace PersClient.File

open Crash Handle Steps

variable {com : CommonObject}

section Recoverable

variable {fr rd : Bool} {C : Bytes} {left t : Trio}

/-- The contents involved have different checksum strings, a checksum file that
is left over holds one, and a backup left over beside a file that was opened
with more access than it will be opened again is its own or empty. -/
structure Leftover (fr rd : Bool) (C : Bytes) (left : Trio) : Prop where
  distinct : ∀ b, left.backup = some b → csumOf b = csumOf C → b = C
  text : ∀ s, left.csum = some s → csumText s = [] → s = []
  readable : ∀ b, left.backup = some b → rd ≠ fr → b = C ∨ b = []

/-- When the content `C` comes back from the files a crash left: a side file
that stands alone matches it, and there is a checksum string of it to restore
by, or it is still there. -/
structure Recoverable (fr rd : Bool) (C : Bytes) (t : Trio) : Prop where
  backup_alone : ∀ b, t.backup = some b → t.csum = none → csumOf b = seen fr C
  csum_alone : ∀ s, t.backup = none → t.csum = some s → csumText s = seen fr C
  saved : seen rd C ≠ [] ∨ t.orig = some C

theorem csumText_csumOf (c : Bytes) : csumText (csumOf c) = csumOf c := by
  have hlen : (csumOf c).length ≤ checksumBufSize := by
    unfold csumOf
    split
    · exact Nat.zero_le _
    · have hlt : (pclCrc32 0 c).toNat < 16 ^ 8 := UInt32.toNat_lt _
      have : (Text.hex (pclCrc32 0 c).toNat).length ≤ 8 := Text.hex_length_le (by omega) hlt
      simp only [CStr.toBytes, List.length_map]
      exact this.trans (by decide)
  rw [csumText, List.take_of_length_le hlen, textOf, List.takeWhile_eq_self_iff]
  intro b hb
  unfold csumOf at hb
  split at hb
  · cases hb
  · obtain ⟨d, hd, rfl⟩ := List.mem_map.mp hb
    have printable : Text.hexAlphabet.all fun d => d.toNat.toUInt8 ≠ 0 := by decide
    exact List.all_eq_true.mp printable d (Text.mem_hexAlphabet_of_mem_hex hd)

theorem csumText_seen (readable : Bool) (c : Bytes) :
    csumText (seen readable c) = seen readable c := by
  cases readable with
  | false => rfl
  | true => exact csumText_csumOf c

theorem recoverable_both {b s : Bytes} (hb : t.backup = some b) (hs : t.csum = some s) :
    Recoverable fr rd C t ↔ seen rd C ≠ [] ∨ t.orig = some C := by
  constructor
  · exact Recoverable.saved
  · intro h
    refine ⟨fun b' _ hnone => ?_, fun s' hnone _ => ?_, h⟩
    · rw [hs] at hnone
      cases hnone
    · rw [hb] at hnone
      cases hnone

theorem recoverable_csum {s : Bytes} (hb : t.backup = none) (hs : t.csum = some s)
    (ho : t.orig = some C) : Recoverable fr rd C t ↔ csumText s = seen fr C := by
  constructor
  · exact fun h => h.csum_alone s hb hs
  · intro h
    refine ⟨fun b hsome _ => ?_, fun s' _ hs' => ?_, Or.inr ho⟩
    · rw [hb] at hsome
      cases hsome
    · rw [hs, Option.some.injEq] at hs'
      rw [← hs', h]

theorem recoverable_backup {b : Bytes} (hb : t.backup = some b) (hs : t.csum = none)
    (ho : t.orig = some C) : Recoverable fr rd C t ↔ csumOf b = seen fr C := by
  constructor
  · exact fun h => h.backup_alone b hb hs
  · intro h
    refine ⟨fun b' hb' _ => ?_, fun s hnone _ => ?_, Or.inr ho⟩
    · rw [hb, Option.some.injEq] at hb'
      rw [← hb', h]
    · rw [hb] at hnone
      cases hnone

theorem restores_iff_csum {s : Bytes} (hb : t.backup = none) (hs : t.csum = some s)
    (ho : t.orig = some C) : Restores fr t C ↔ Recoverable fr rd C t := by
  rw [restores_csum hb hs, recoverable_csum hb hs ho, and_iff_right ho]

theorem restores_iff_backup {b : Bytes} (hb : t.backup = some b) (hs : t.csum = none)
    (ho : t.orig = some C) : Restores fr t C ↔ Recoverable fr rd C t := by
  rw [restores_backup hb hs, recoverable_backup hb hs ho, and_iff_right ho]

theorem Restores.recoverable (ho : t.orig = some C) (h : Restores fr t C) :
    Recoverable fr rd C t := by
  cases hb : t.backup with
  | none =>
    cases hs : t.csum with
    | none => exact ⟨fun b hb' => by simp [hb] at hb', fun s _ hs' => by simp [hs] at hs', Or.inr ho⟩
    | some s => exact (recoverable_csum hb hs ho).mpr ((restores_csum hb hs).mp h).2
  | some b =>
    cases hs : t.csum with
    | none => exact (recoverable_backup hb hs ho).mpr ((restores_backup hb hs).mp h).2
    | some s => exact (recoverable_both hb hs).mpr (Or.inr ho)

theorem seen_ne_nil {readable : Bool} (h : seen readable C ≠ []) :
    readable = true ∧ seen readable C = csumOf C := by
  cases readable with
  | false => exact absurd rfl h
  | true => exact ⟨rfl, rfl⟩

/-- With the checksum string of `C` beside it, an untouched file is sound. -/
theorem restores_written {b : Bytes} (ho : t.orig = some C) (hb : t.backup = some b)
    (hs : t.csum = some (seen rd C)) (hsame : csumOf b = csumOf C → b = C)
    (hopen : rd ≠ fr → b = C ∨ b = []) : Restores fr t C := by
  rw [restores_both hb hs (by simp [ho])]
  split
  · exact ho
  · rename_i hne
    obtain ⟨hrd, hseen⟩ := seen_ne_nil hne
    rw [csumText_seen, hseen]
    split
    · rename_i heq
      exact hsame heq.symm
    · rename_i hne'
      refine ⟨ho, ?_⟩
      by_cases hfr : rd = fr
      · left
        rw [← hseen, hfr]
      · right
        have hb' : b = [] := (hopen hfr).resolve_left fun h => hne' (by rw [h])
        have : fr = false := by
          rw [hrd] at hfr
          simpa using Ne.symm hfr
        rw [hb', this]
        rfl

theorem restores_iff_recoverable (ho : left.orig = some C) (hl : Leftover fr rd C left)
    (hleft : Restores fr left C) (hstage : Stage rd C left t) :
    Restores fr t C ↔ Recoverable fr rd C t := by
  cases hstage with
  | opened => exact iff_of_true hleft (hleft.recoverable ho)
  | backupMade hnone =>
    cases hs : left.csum with
    | none => exact restores_iff_backup rfl rfl ho
    | some s =>
      have htext := ((restores_csum hnone hs).mp hleft).2
      refine iff_of_true ?_ ((recoverable_both rfl rfl).mpr (Or.inr ho))
      refine (restores_both rfl rfl (by simp [ho])).mpr ?_
      split
      · exact ho
      · rename_i hne
        rw [csumOf_nil, if_neg fun h => hne (hl.text s hs h)]
        exact ⟨ho, Or.inl htext⟩
  | csumEmptied b hb =>
    cases b with
    | none => exact restores_iff_csum rfl rfl ho
    | some b =>
      refine iff_of_true ?_ ((recoverable_both rfl rfl).mpr (Or.inr ho))
      refine (restores_both rfl rfl (by simp [ho])).mpr ?_
      rw [if_pos rfl]
      exact ho
  | csumWritten b hb =>
    cases b with
    | none => exact restores_iff_csum rfl rfl ho
    | some b =>
      refine iff_of_true ?_ ((recoverable_both rfl rfl).mpr (Or.inr ho))
      rcases hb with hb | ⟨-, hb⟩
      · exact restores_written ho rfl rfl (hl.distinct b hb.symm) (hl.readable b hb.symm)
      · obtain rfl := Option.some.inj hb
        exact restores_written ho rfl rfl (fun h => (csumOf_eq_nil h.symm).symm) fun _ => Or.inr rfl
  | backupEmptied =>
    refine iff_of_true ?_ ((recoverable_both rfl rfl).mpr (Or.inr ho))
    exact restores_written ho rfl rfl (fun h => (csumOf_eq_nil h.symm).symm) fun _ => Or.inr rfl
  | saved o =>
    rw [recoverable_both rfl rfl]
    refine (restores_both rfl rfl (Option.some_ne_none o)).trans ?_
    by_cases hne : seen rd C = []
    · simp only [hne, if_true, ne_eq, not_true_eq_false, false_or]
    · obtain ⟨hrd, hseen⟩ := seen_ne_nil hne
      have hcopied : Os.copied rd C = C := by rw [Os.copied, hrd, if_pos rfl]
      rw [if_neg hne, csumText_seen, hcopied, hseen, if_pos rfl, ← hseen]
      exact iff_of_true rfl (Or.inl hne)

end Recoverable

section Session

/-- The calls of a write session on its descriptor. -/
inductive SessionCall
  | seek (offset : ℤ) (whence : Whence)
  | write (buffer : Bytes)

def sessionStep (com : CommonObject) (fd : ℤ) (c : Client) : SessionCall → Client
  | .seek offset whence => (pclFileSeek fd offset whence c).2
  | .write buffer => (pclFileWriteData com .reliable fd buffer c).2

/-- The session is under way: its descriptor leads to the resource's file, and
the backup is still to come or is finished. -/
structure InSession (r : FileResource com) (room : com.Roomy) (fd : ℤ) (rd : Bool) (C : Bytes)
    (left : Trio) (c : Client) : Prop where
  opened : ∃ f, c.os.fds.get fd = some f ∧
    c.os.fs.names (resolve (r.names room).orig) = some f.ino ∧ f.readable = rd
  stage : ∃ item status, Tree.lookup c.gFileHandleTree fd = some item ∧ r.Recorded status item ∧
    ((status = 0 ∧ (r.names room).trio c.os.fs = left) ∨
      (status = 1 ∧ ∃ o, (r.names room).trio c.os.fs =
        ⟨some o, some (Os.copied rd C), some (seen rd C)⟩))
  always : c.os.disk.Always fun fs => Stage rd C left ((r.names room).trio fs)

variable {r : FileResource com} {room : com.Roomy} {fd : ℤ} {rd : Bool} {C : Bytes} {left : Trio}
  {c : Client}

theorem InSession.of_keeps (h : InSession r room fd rd C left c) {os : Os}
    (hdisk : os.disk = c.os.disk) (hk : c.os.Keeps os) :
    InSession r room fd rd C left { c with os } := by
  have hfs : os.fs = c.os.fs := congrArg Logged.now hdisk
  obtain ⟨f, hf, hino, hr⟩ := h.opened
  obtain ⟨f', hf', hfile⟩ := hk.get hf
  simp only [OpenFile.file, Prod.mk.injEq] at hfile
  refine ⟨⟨f', hf', ?_, hfile.2.2.1.trans hr⟩, ?_, ?_⟩
  · rw [hfs, hino, hfile.1]
  · simpa only [hfs] using h.stage
  · rw [hdisk]
    exact h.always

theorem InSession.seek (h : InSession r room fd rd C left c) (offset : ℤ) (whence : Whence) :
    InSession r room fd rd C left (pclFileSeek fd offset whence c).2 := by
  unfold pclFileSeek
  split
  · split
    · obtain ⟨hdisk, hk⟩ := Os.lseek_frame fd offset whence c.os
      exact h.of_keeps hdisk hk
    · exact h
  · exact h

theorem status_of_recorded {item : FileHandleData} {status : ℤ}
    (hitem : Tree.lookup c.gFileHandleTree fd = some item) (hrec : r.Recorded status item) :
    getFileBackupStatus c.gFileHandleTree fd = status := by
  rw [getFileBackupStatus, hitem]
  exact hrec.status

variable (room) in
theorem backup_of_recorded {item : FileHandleData} {status : ℤ}
    (hitem : Tree.lookup c.gFileHandleTree fd = some item) (hrec : r.Recorded status item) :
    getFileBackupPath c.gFileHandleTree fd = some (r.names room).backup := by
  rw [getFileBackupPath, hitem]
  exact congrArg some hrec.backup

variable (room) in
theorem csum_of_recorded {item : FileHandleData} {status : ℤ}
    (hitem : Tree.lookup c.gFileHandleTree fd = some item) (hrec : r.Recorded status item) :
    getFileChecksumPath c.gFileHandleTree fd = some (r.names room).csum := by
  rw [getFileChecksumPath, hitem]
  exact congrArg some hrec.csum

theorem user_of_recorded {item : FileHandleData} {status : ℤ}
    (hitem : Tree.lookup c.gFileHandleTree fd = some item) (hrec : r.Recorded status item) :
    getFileUserId c.gFileHandleTree fd ≠ defaultDataUser := by
  rw [getFileUserId, hitem]
  exact hrec.user

theorem permission_of_recorded {item : FileHandleData} {status : ℤ}
    (hitem : Tree.lookup c.gFileHandleTree fd = some item) (hrec : r.Recorded status item) :
    getFilePermission c.gFileHandleTree fd = some r.info.configKey.permission := by
  cases htree : c.gFileHandleTree with
  | none =>
    rw [htree] at hitem
    cases hitem
  | some t =>
    rw [htree] at hitem
    rw [getFilePermission, hitem]
    exact hrec.permission

theorem backupBeforeWrite_done (com : CommonObject) (env : Env)
    (h : getFileBackupStatus c.gFileHandleTree fd ≠ 0) : backupBeforeWrite com env fd c = c := by
  unfold backupBeforeWrite
  rw [if_neg fun hc => h hc.1]

variable (room) in
/-- A descriptor whose backup is not made yet: it is made beside the resource. -/
theorem backupBeforeWrite_first {env : Env} {item : FileHandleData}
    (hitem : Tree.lookup c.gFileHandleTree fd = some item) (hrec : r.Recorded 0 item)
    {csumBuf : Bytes} {os₁ : Os} (hcsum : pclCalcCrc32Csum fd c.os = (csumBuf, os₁)) :
    backupBeforeWrite com env fd c = { c with
      os := (pclCreateBackup com env (r.names room).backup fd (r.names room).csum csumBuf os₁).2
      gFileHandleTree := setFileBackupStatus c.gFileHandleTree fd 1 } := by
  unfold backupBeforeWrite
  rw [if_pos ⟨status_of_recorded hitem hrec, user_of_recorded hitem hrec⟩, hcsum,
    backup_of_recorded room hitem hrec, csum_of_recorded room hitem hrec]

theorem recorded_done {item : FileHandleData} {status : ℤ}
    (hitem : Tree.lookup c.gFileHandleTree fd = some item) (hrec : r.Recorded status item) :
    ∃ item', Tree.lookup (setFileBackupStatus c.gFileHandleTree fd 1) fd = some item' ∧
      r.Recorded 1 item' := by
  refine ⟨{ item with backupCreated := 1 }, ?_, { hrec with status := rfl }⟩
  rw [setFileBackupStatus, lookup_setItem, if_pos rfl, hitem]
  rfl

/-- The first write through a descriptor of the resource makes the backup of
what the descriptor reads, if the side files meet no fault. -/
theorem backupBeforeWrite_advance {env : Env} (hb : env.Quiet (r.names room).backup)
    (hs : env.Quiet (r.names room).csum) {f : OpenFile} (hf : c.os.fds.get fd = some f)
    (hino : c.os.fs.names (resolve (r.names room).orig) = some f.ino)
    (hC : ((r.names room).trio c.os.fs).orig = some C) {item : FileHandleData}
    (hitem : Tree.lookup c.gFileHandleTree fd = some item) (hrec : r.Recorded 0 item) :
    ∃ os', backupBeforeWrite com env fd c = { c with
        os := os', gFileHandleTree := setFileBackupStatus c.gFileHandleTree fd 1 } ∧
      Advance (r.names room)
        (fun fs => Stage f.readable C ((r.names room).trio c.os.fs) ((r.names room).trio fs)) c.os os'
        ⟨some C, some (Os.copied f.readable C), some (seen f.readable C)⟩ := by
  obtain ⟨os₁, hcsum, hsame⟩ := pclCalcCrc32Csum_open hf
  have hdata : c.os.fs.data f.ino = C := by
    have := Fs.content_of_names hino
    rw [show c.os.fs.content _ = some C from hC, Option.some.injEq] at this
    exact this.symm
  rw [hdata] at hcsum
  have htrio₁ : (r.names room).trio os₁.fs = (r.names room).trio c.os.fs := by rw [hsame.fs]
  have hadv := pclCreateBackup_advance (n := r.names room) os₁
    (P := fun fs => Stage f.readable C ((r.names room).trio c.os.fs) ((r.names room).trio fs))
    hb hs (by rw [hsame.get, hf]) (by rw [hsame.fs, hino]) (by rw [htrio₁, hC])
    (fun fs hs => by rwa [htrio₁] at hs)
  refine ⟨(pclCreateBackup com env (r.names room).backup fd (r.names room).csum
    (seen f.readable C) os₁).2, backupBeforeWrite_first room hitem hrec hcsum, hadv.trio,
    hsame.keeps.trans hadv.keeps, ?_, fun ha => ?_⟩
  · rw [hadv.orig, hsame.fs]
  · exact hadv.always (by rwa [hsame.disk])

theorem InSession.backup (h : InSession r room fd rd C left c) (hC : left.orig = some C) :
    InSession r room fd rd C left (backupBeforeWrite com .reliable fd c) ∧
      ∃ item o, Tree.lookup (backupBeforeWrite com .reliable fd c).gFileHandleTree fd = some item ∧
        r.Recorded 1 item ∧ (r.names room).trio (backupBeforeWrite com .reliable fd c).os.fs =
          ⟨some o, some (Os.copied rd C), some (seen rd C)⟩ := by
  obtain ⟨item, status, hitem, hrec, ⟨rfl, htrio⟩ | ⟨rfl, o, htrio⟩⟩ := h.stage
  · obtain ⟨f, hf, hino, rfl⟩ := h.opened
    obtain ⟨os', heq, hadv⟩ := backupBeforeWrite_advance (Env.quiet_reliable _)
      (Env.quiet_reliable _) hf hino (by rw [htrio, hC]) hitem hrec
    obtain ⟨item', hitem', hrec'⟩ := recorded_done hitem hrec
    obtain ⟨f', hf', hfile⟩ := hadv.keeps.get hf
    simp only [OpenFile.file, Prod.mk.injEq] at hfile
    rw [heq]
    refine ⟨⟨⟨f', hf', ?_, hfile.2.2.1⟩, ⟨item', 1, hitem', hrec', Or.inr ⟨rfl, C, hadv.trio⟩⟩, ?_⟩,
      item', C, hitem', hrec', hadv.trio⟩
    · rw [hadv.orig, hino, hfile.1]
    · rw [htrio] at hadv
      exact hadv.always h.always
  · have hdone : getFileBackupStatus c.gFileHandleTree fd ≠ 0 := by
      rw [status_of_recorded hitem hrec]
      decide
    rw [backupBeforeWrite_done com _ hdone]
    exact ⟨h, item, o, hitem, hrec, htrio⟩

theorem InSession.write (h : InSession r room fd rd C left c) (hC : left.orig = some C)
    (hperm : r.info.configKey.permission ≠ .readOnly) (buffer : Bytes) :
    InSession r room fd rd C left (pclFileWriteData com .reliable fd buffer c).2 := by
  obtain ⟨item, status, hitem, hrec, -⟩ := h.stage
  have hget := permission_of_recorded hitem hrec
  unfold pclFileWriteData
  split
  swap
  · exact h
  split
  swap
  · exact h
  rw [hget]
  simp only [hperm, ne_eq, not_false_eq_true, if_true]
  obtain ⟨h', item', o, hitem', hrec', htrio⟩ := h.backup hC
  generalize backupBeforeWrite com .reliable fd c = c' at *
  obtain ⟨f, hf, hino, hr⟩ := h'.opened
  have written : InSession r room fd rd C left
      { c' with os := (c'.os.write .reliable fd buffer).2 } := by
    rcases Bool.eq_false_or_eq_true f.writable with hw | hw
    · obtain ⟨os₂, hwrite, hsets, hino₂, hget₂⟩ := Os.write_quiet hf hw (Env.quiet_reliable _) hino buffer
      have htrio₂ := hsets.trio_orig
      rw [htrio] at htrio₂
      rw [hwrite]
      refine ⟨⟨{ f with offset := f.offset + buffer.length, synced := false },
          by rw [hget₂, Function.update_self], hino₂, hr⟩,
        ⟨item', 1, hitem', hrec', Or.inr ⟨rfl, _, htrio₂⟩⟩, hsets.always h'.always ?_⟩
      rw [htrio₂]
      exact .saved _
    · obtain ⟨os₂, hwrite, hsame⟩ := Os.write_unwritable .reliable hf hw buffer
      rw [hwrite]
      exact h'.of_keeps hsame.disk hsame.keeps
  split
  · obtain ⟨hdisk, hk⟩ := Os.fsync_frame fd (c'.os.write .reliable fd buffer).2
    exact written.of_keeps hdisk hk
  · exact written

theorem InSession.step (h : InSession r room fd rd C left c) (hC : left.orig = some C)
    (hperm : r.info.configKey.permission ≠ .readOnly) (call : SessionCall) :
    InSession r room fd rd C left (sessionStep com fd c call) := by
  cases call with
  | seek offset whence => exact h.seek offset whence
  | write buffer => exact h.write hC hperm buffer

end Session

section Reopening

variable (r : FileResource com) (bl : Option (List UInt32)) (base : FdTable)

/-- A process after `pclInitLibrary` on this disk, with its own descriptors and
the blacklist. -/
def reboot (fs : Fs) : Client := { Client.start fs base with gRbTreeBl := bl }

def reopen (fs : Fs) : ℤ × Client := r.openFile .reliable (reboot bl base fs)

/-- What the opening does to the disk. -/
def recovery (fs : Fs) : Logged Fs := (reopen r bl base fs).2.os.disk

/-- The opening returns a descriptor on the resource's file, with this content. -/
def ReopensOn (C : Bytes) (fs : Fs) : Prop :=
  0 ≤ (reopen r bl base fs).1 ∧ ∃ f,
    (reopen r bl base fs).2.os.fds.get (reopen r bl base fs).1 = some f ∧
    (reopen r bl base fs).2.os.fs.names (resolve r.dbContext.dbPath) = some f.ino ∧
    (reopen r bl base fs).2.os.fs.data f.ino = C

variable {r bl base} {room : com.Roomy} {C : Bytes} {fs : Fs}

theorem needsBackup_reboot {c : Client} (h : r.NeedsBackup c) (hbl : c.gRbTreeBl = bl) (fs : Fs) :
    r.NeedsBackup (reboot bl base fs) := by
  refine ⟨show (0 : UInt32) < 1 by decide, h.user, ?_⟩
  have := h.wanted
  simp only [wantsBackup, hbl] at this
  exact this

/-- A new process opens the resource as the verdict says, and what it does on
the way leaves the resource as sound as it was. -/
theorem reopen_of_restores (room : com.Roomy) (h : r.NeedsBackup (reboot bl base fs))
    (hbase : base.used.card + 2 < maxPersHandle)
    (hr : Restores r.flags.read ((r.names room).trio fs) C)
    (ho : ((r.names room).trio fs).orig ≠ none) :
    ReopensOn r bl base C fs ∧
      (recovery r bl base fs).Always fun fs => Restores r.flags.read ((r.names room).trio fs) C ∧
        ((r.names room).trio fs).orig ≠ none := by
  obtain ⟨fd, os', f, heq, hs, hf, -⟩ := FileResource.openFile_existing room h
    (r.undisturbed_reliable room _) ho hr.1
  have hlt : fd < maxPersHandle := by
    have hle := hf.le
    have hused : (reboot bl base fs).os.fds.used.card = base.used.card := rfl
    rw [hused] at hle
    omega
  rw [if_pos hlt] at heq
  have htrio : (r.names room).trio os'.fs =
      { (r.names room).trio fs with orig := some C } := by
    rw [hs.trio]
    exact congrArg (fun o => { (r.names room).trio fs with orig := o }) hr.2
  have heq' : reopen r bl base fs = (fd, r.registered (reboot bl base fs) os' fd) := heq
  refine ⟨?_, ?_⟩
  · simp only [ReopensOn, heq', FileResource.registered_os]
    refine ⟨hf.nonneg, f, hf.get, hf.ino, ?_⟩
    have hcontent := Fs.content_of_names hf.ino
    rw [show os'.fs.content _ = some C from congrArg Trio.orig htrio, Option.some.injEq] at hcontent
    exact hcontent.symm
  · simp only [recovery, heq', FileResource.registered_os]
    have start : (reboot bl base fs).os.disk.Always fun fs =>
        Restores r.flags.read ((r.names room).trio fs) C ∧
          ((r.names room).trio fs).orig ≠ none := ⟨⟨hr, ho⟩, fun _ hd => absurd hd List.not_mem_nil⟩
    have sound : Restores r.flags.read ((r.names room).trio os'.fs) C ∧
        ((r.names room).trio os'.fs).orig ≠ none := by
      rw [htrio]
      exact ⟨hr.settled, Option.some_ne_none C⟩
    cases hv : judge r.flags.read ((r.names room).trio (reboot bl base fs).os.fs) with
    | restore b =>
      rw [hv] at hs
      obtain ⟨os₁, hempty, hfull⟩ := hs
      refine hfull.always (hempty.always start ?_) sound
      -- the file is empty for a moment, and the backup restores it again
      rw [hempty.trio_orig]
      refine ⟨⟨?_, ?_⟩, Option.some_ne_none []⟩
      · rw [judge_restore hv]
        exact Verdict.noConfusion
      · have hr₂ := hr.2
        rw [show judge r.flags.read ((r.names room).trio fs) = .restore b from hv] at hr₂
        rw [judge_restore hv]
        exact hr₂
    | unchecked =>
      rw [hv] at hs
      rw [show os'.disk = _ from hs]
      exact start
    | keep =>
      rw [hv] at hs
      rw [show os'.disk = _ from hs]
      exact start
    | corrupt => exact absurd hv hr.1

theorem ReopensOn.restores (room : com.Roomy) (h : r.NeedsBackup (reboot bl base fs))
    (hbase : base.used.card + 2 < maxPersHandle) (ho : ((r.names room).trio fs).orig ≠ none)
    (hopens : ReopensOn r bl base C fs) : Restores r.flags.read ((r.names room).trio fs) C := by
  obtain ⟨hnn, f, hget, hino, hdata⟩ := hopens
  by_cases hv : judge r.flags.read ((r.names room).trio fs) = .corrupt
  · obtain ⟨c', heq, -⟩ := FileResource.openFile_corrupt room h (r.undisturbed_reliable room _) hv
    rw [show (reopen r bl base fs).1 = -1 from congrArg Prod.fst heq] at hnn
    omega
  · obtain ⟨o, ho⟩ := Option.ne_none_iff_exists'.mp ho
    obtain ⟨C', hC'⟩ : ∃ C', Restores r.flags.read ((r.names room).trio fs) C' := by
      cases hj : judge r.flags.read ((r.names room).trio fs) with
      | restore b => exact ⟨b, hv, by rw [hj]; rfl⟩
      | unchecked => exact ⟨o, hv, by rw [hj]; exact ho⟩
      | keep => exact ⟨o, hv, by rw [hj]; exact ho⟩
      | corrupt => exact absurd hj hv
    obtain ⟨-, f', hget', -, hdata'⟩ := (reopen_of_restores room h hbase hC' (by simp [ho])).1
    rw [hget] at hget'
    obtain rfl := Option.some.inj hget'
    rwa [← hdata, hdata']

/-- A sound resource stays sound through any number of crashes in its openings. -/
theorem Restores.reopens (room : com.Roomy) (h : ∀ fs, r.NeedsBackup (reboot bl base fs))
    (hbase : base.used.card + 2 < maxPersHandle) (ho : ((r.names room).trio fs).orig ≠ none)
    (hr : Restores r.flags.read ((r.names room).trio fs) C) :
    ∀ fs', Reboots (recovery r bl base) fs fs' → ReopensOn r bl base C fs' := by
  intro fs' hreboots
  have sound := hreboots.invariant (fun fs hs =>
    (reopen_of_restores room (h fs) hbase hs.1 hs.2).2) ⟨hr, ho⟩
  exact (reopen_of_restores room (h fs') hbase sound.1 sound.2).1

/-- After a crash, and any number of crashes in the openings that follow, the
resource is opened on `C` exactly when its files give `C`. -/
theorem reopens_iff_restores (room : com.Roomy) (h : ∀ fs, r.NeedsBackup (reboot bl base fs))
    (hbase : base.used.card + 2 < maxPersHandle) (ho : ((r.names room).trio fs).orig ≠ none) :
    (∀ fs', Reboots (recovery r bl base) fs fs' → ReopensOn r bl base C fs') ↔
      Restores r.flags.read ((r.names room).trio fs) C :=
  ⟨fun hall => (hall fs (.refl fs)).restores room (h fs) hbase ho,
    fun hr => hr.reopens room h hbase ho⟩

end Reopening

section Rollback

/-- From here on the states a crash can leave are recorded. -/
def Client.mark (c : Client) : Client := { c with os := { c.os with disk := c.os.disk.mark } }

def readableAt (c : Client) (fd : ℤ) : Bool := (c.os.fds.get fd).any OpenFile.readable

variable {r : FileResource com} {room : com.Roomy} {c c₁ : Client} {fd : ℤ} {C : Bytes}

theorem FileResource.OpenedOn.inSession {f : OpenFile} (h : r.OpenedOn room C fd f c₁) :
    InSession r room fd (readableAt c₁ fd) C ((r.names room).trio c₁.os.fs) c₁.mark := by
  obtain ⟨item, hitem, hrec⟩ := h.recorded
  have hr : readableAt c₁ fd = f.readable := by
    rw [readableAt, h.get]
    rfl
  exact ⟨⟨f, h.get, h.ino, hr.symm⟩, ⟨item, 0, hitem, hrec, Or.inl ⟨rfl, rfl⟩⟩,
    Logged.always_mark.mpr .opened⟩

/-- Every state a session passes through, and every one a crash can leave of it. -/
theorem session_run (room : com.Roomy) (h : r.NeedsBackup c)
    (hopen : r.openFile .reliable c = (fd, c₁)) (hfd : 0 ≤ fd) (hstale : FileResource.NoDefaultRecord c fd)
    (hC : c₁.os.content r.dbContext.dbPath = some C) (calls : List SessionCall) :
    Restores r.flags.read ((r.names room).trio c₁.os.fs) C ∧
      InSession r room fd (readableAt c₁ fd) C ((r.names room).trio c₁.os.fs)
        (run (sessionStep com fd) c₁.mark calls) := by
  obtain ⟨f, hf⟩ := FileResource.openFile_success room h (Env.quiet_reliable _) hopen hfd
    hstale hC
  exact ⟨hf.restores, run_invariant_of_forall
    (fun c call hc => hc.step hf.orig h.permission_ne call) hf.inSession calls⟩

/-- A crash at any point of a write session and any number of crashes in the
openings after it: the resource is opened on the content the session started
from, exactly when that is recoverable from what the crash left. -/
theorem rollback_iff_recoverable (room : com.Roomy) (h : r.NeedsBackup c)
    (hopen : r.openFile .reliable c = (fd, c₁)) (hfd : 0 ≤ fd) (hstale : FileResource.NoDefaultRecord c fd)
    (hC : c₁.os.content r.dbContext.dbPath = some C)
    (hleft : Leftover r.flags.read (readableAt c₁ fd) C ((r.names room).trio c₁.os.fs))
    (calls : List SessionCall) {crash : Fs}
    (hcrash : (run (sessionStep com fd) c₁.mark calls).os.disk.Leaves crash) {base : FdTable}
    (hbase : base.used.card + 2 < maxPersHandle) :
    (∀ fs, Reboots (recovery r c.gRbTreeBl base) crash fs → ReopensOn r c.gRbTreeBl base C fs) ↔
      Recoverable r.flags.read (readableAt c₁ fd) C ((r.names room).trio crash) := by
  obtain ⟨hrestores, hsession⟩ := session_run room h hopen hfd hstale hC calls
  have hstage := hsession.always.leaves hcrash
  have horig : ((r.names room).trio c₁.os.fs).orig = some C := hC
  have ho := hstage.orig_ne_none (by rw [horig]; exact Option.some_ne_none C)
  rw [reopens_iff_restores room (needsBackup_reboot h rfl) hbase ho,
    restores_iff_recoverable horig hleft hrestores hstage]

def Fs.single (path : CStr) (content : Bytes) : Fs :=
  (Fs.empty.create (resolve path)).setData 0 content

/-- A local, cached file resource. -/
def document (permission : PersistencePermission) : FileResource CommonObject.standard where
  appId := ⟨cstr "app", app_bounded⟩
  info :=
    { context := { ldbid := pclLdbidLocal, userNo := 0, seatNo := 0 }
      configKey :=
        { policy := .wc, storage := .local, type := .file, permission, maxSize := 0,
          reponsible := [], customName := [], customID := [] } }
  resourceId := cstr "doc"
  isFile := rfl
  stored := nofun

/-- The descriptors a process starts with. -/
def standardFds : FdTable :=
  let tty : OpenFile := ⟨0, [], 0, true, true, true⟩
  ((FdTable.empty.set 0 tty).set 1 tty).set 2 tty

def docStart (permission : PersistencePermission) (content : Bytes) : Client :=
  Client.start (Fs.single (document permission).dbContext.dbPath content) standardFds

def docOpened (permission : PersistencePermission) (content : Bytes) : ℤ × Client :=
  (document permission).openFile .reliable (docStart permission content)

/-- A crash after the empty backup file and before the checksum file: the backup
stands alone, matches nothing, and the document is given up. -/
theorem empty_backup_loses_document :
    ¬ ∀ (calls : List SessionCall) (crash : Fs),
      (run (sessionStep CommonObject.standard (docOpened .readWrite [65]).1)
        (docOpened .readWrite [65]).2.mark calls).os.disk.Leaves crash →
      ∀ fs, Reboots (recovery (document .readWrite) none standardFds) crash fs →
        ReopensOn (document .readWrite) none standardFds [65] fs := by
  intro h
  have hlost : ((run (sessionStep CommonObject.standard (docOpened .readWrite [65]).1)
      (docOpened .readWrite [65]).2.mark [.write [66]]).os.disk.trail.any
        fun fs => decide ((reopen (document .readWrite) none standardFds fs).1 < 0)) = true := by
    decide +kernel
  obtain ⟨crash, hcrash, hneg⟩ := List.any_eq_true.mp hlost
  have hopen := (h [.write [66]] crash (Or.inr hcrash) crash (.refl crash)).1
  exact absurd (of_decide_eq_true hneg) (not_lt.mpr hopen)

theorem written_document_rolls_back :
    ReopensOn (document .readWrite) none standardFds [65]
      (run (sessionStep CommonObject.standard (docOpened .readWrite [65]).1)
        (docOpened .readWrite [65]).2.mark [.write [66]]).os.disk.now := by
  have needs : (document .readWrite).NeedsBackup (docStart .readWrite [65]) :=
    ⟨by decide, by decide, by decide +kernel⟩
  have hopen : (document .readWrite).openFile .reliable (docStart .readWrite [65]) =
      ((docOpened .readWrite [65]).1, (docOpened .readWrite [65]).2) := rfl
  have hleft : ((document .readWrite).names CommonObject.standard_roomy).trio
      (docOpened .readWrite [65]).2.os.fs = ⟨some [65], none, none⟩ := by decide +kernel
  have hcrash : ((document .readWrite).names CommonObject.standard_roomy).trio
      (run (sessionStep CommonObject.standard (docOpened .readWrite [65]).1)
        (docOpened .readWrite [65]).2.mark [.write [66]]).os.disk.now =
      ⟨some [66], some [65], some (csumOf [65])⟩ := by decide +kernel
  refine (rollback_iff_recoverable CommonObject.standard_roomy needs hopen (by decide +kernel)
    (fun item hitem => ?_) (by decide +kernel) ?_ [.write [66]] (Or.inl rfl)
    (by decide +kernel)).mpr ?_ _ (.refl _)
  · cases hitem
  · rw [hleft]
    exact ⟨nofun, nofun, nofun⟩
  · rw [hcrash, recoverable_both rfl rfl]
    exact Or.inl (by decide +kernel)

end Rollback

end PersClient.File
