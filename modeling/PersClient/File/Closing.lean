import PersClient.File.Session

/-! # Crashes inside the close

`pclFileClose` removes the backup and then the checksum file. Between the two a
checksum file stands alone, and the reopening takes it for the checksum string
of the resource's file.
-/

namespace PersClient.File

open Crash Handle Steps

variable {com : CommonObject}

inductive Dismantled (t : Trio) : Trio → Prop
  | whole : Dismantled t t
  | backupRemoved : Dismantled t { t with backup := none }
  | removed : Dismantled t { t with backup := none, csum := none }

section Stages

variable {fr rd : Bool} {C F : Bytes} {left t t' : Trio}

theorem Dismantled.orig (h : Dismantled t t') : t'.orig = t.orig := by
  cases h <;> rfl

/-- A content comes back: the one the session started from or the one it left. -/
theorem restores_saved_or (rd : Bool) (C F : Bytes) : ∃ X, (X = C ∨ X = F) ∧
    Restores fr ⟨some F, some (Os.copied rd C), some (seen rd C)⟩ X := by
  by_cases hne : seen rd C = []
  · refine ⟨F, Or.inr rfl, (restores_both rfl rfl (Option.some_ne_none F)).mpr ?_⟩
    rw [if_pos hne]
  · obtain ⟨hrd, hseen⟩ := seen_ne_nil hne
    refine ⟨C, Or.inl rfl, (restores_both rfl rfl (Option.some_ne_none F)).mpr ?_⟩
    rw [if_neg hne, csumText_seen, Os.copied, hrd, if_pos rfl, seen, if_pos rfl, if_pos rfl]

/-- A checksum file alone is sound exactly when it holds the string of the file. -/
theorem restores_alone_iff (ho : t.orig = some F) (hb : t.backup = none) :
    (∃ X, Restores fr t X) ↔ ∀ s, t.csum = some s → csumText s = seen fr F := by
  cases hs : t.csum with
  | none =>
    refine iff_of_true ⟨F, (restores_none hb hs).mpr ho⟩ nofun
  | some s =>
    constructor
    · rintro ⟨X, hX⟩ s' hs'
      obtain ⟨hX, htext⟩ := (restores_csum hb hs).mp hX
      rw [ho, Option.some.injEq] at hX
      rw [← Option.some.inj hs', htext, hX]
    · intro h
      exact ⟨F, (restores_csum hb hs).mpr ⟨ho, h s rfl⟩⟩

theorem Restores.eq_orig {X : Bytes} (hb : t.backup = none) (ho : t.orig = some F)
    (h : Restores fr t X) : X = F := by
  cases hs : t.csum with
  | none =>
    have := (restores_none hb hs).mp h
    rw [ho, Option.some.injEq] at this
    exact this.symm
  | some s =>
    have := ((restores_csum hb hs).mp h).1
    rw [ho, Option.some.injEq] at this
    exact this.symm

/-- What a crash inside the close leaves is sound exactly when no checksum file
stands alone that is not of the file. -/
theorem dismantled_restores_iff (ht : t.orig = some F) (hwhole : ∃ X, (X = C ∨ X = F) ∧ Restores fr t X)
    (h : Dismantled t t') : (∃ X, (X = C ∨ X = F) ∧ Restores fr t' X) ↔
      (t'.backup = none → ∀ s, t'.csum = some s → csumText s = seen fr F) := by
  have ho : t'.orig = some F := h.orig.trans ht
  cases hb : t'.backup with
  | none =>
    constructor
    · rintro ⟨X, -, hX⟩ -
      exact (restores_alone_iff ho hb).mp ⟨X, hX⟩
    · intro hcsum
      obtain ⟨X, hX⟩ := (restores_alone_iff ho hb).mpr (hcsum rfl)
      exact ⟨X, Or.inr (hX.eq_orig hb ho), hX⟩
  | some b =>
    cases h with
    | whole => exact iff_of_true hwhole nofun
    | backupRemoved => cases hb
    | removed => cases hb

end Stages

section Close

variable {r : FileResource com} {room : com.Roomy} {c c₁ : Client} {fd : ℤ} {rd : Bool}
  {C F : Bytes} {left : Trio}

theorem remove_both_always (n : FileNames com) (os : Os) {P : Fs → Prop}
    (hP : ∀ fs, Dismantled (n.trio os.fs) (n.trio fs) → P fs) (ha : os.disk.Always P) :
    ((os.remove n.backup).2.remove n.csum).2.disk.Always P := by
  have hb := (Os.remove_sets n.backup os).1
  generalize (os.remove n.backup).2 = os₁ at *
  have hs := (Os.remove_sets n.csum os₁).1
  refine hs.always (hb.always ha (hP _ ?_)) (hP _ ?_)
  · rw [hb.trio_backup]
    exact .backupRemoved
  · rw [hs.trio_csum, hb.trio_backup]
    exact .removed

theorem close_dismantles (h : InSession r room fd rd C left c) :
    (pclFileClose fd c.mark).2.os.disk.Always
      fun fs => Dismantled ((r.names room).trio c.os.fs) ((r.names room).trio fs) := by
  obtain ⟨item, status, hitem, hrec, -⟩ := h.stage
  have hback := backup_of_recorded room hitem hrec
  have hcsum := csum_of_recorded room hitem hrec
  have start : c.mark.os.disk.Always
      fun fs => Dismantled ((r.names room).trio c.os.fs) ((r.names room).trio fs) :=
    Logged.always_mark.mpr .whole
  unfold pclFileClose
  split
  swap
  · exact start
  cases hperm : getFilePermission c.mark.gFileHandleTree fd with
  | none => exact start
  | some permission =>
    dsimp only
    rw [Os.close_disk, (Os.fsync_frame fd _).1]
    split
    · rw [show getFileBackupPath c.mark.gFileHandleTree fd = _ from hback,
        show getFileChecksumPath c.mark.gFileHandleTree fd = _ from hcsum]
      exact remove_both_always (r.names room) c.mark.os (fun fs hfs => hfs) start
    · exact start

/-- A crash at any point of the close of a written file, and any number of
crashes in the openings after it: the resource is opened on the content before
or after the session, exactly when no checksum file was left alone that does
not hold the checksum string of the content after it. -/
theorem close_reopens_iff (room : com.Roomy) (h : r.NeedsBackup c)
    (hopen : r.openFile .reliable c = (fd, c₁)) (hfd : 0 ≤ fd) (hstale : FileResource.NoDefaultRecord c fd)
    (hC : c₁.os.content r.dbContext.dbPath = some C) (calls : List SessionCall)
    (hF : (run (sessionStep com fd) c₁.mark calls).os.content r.dbContext.dbPath = some F) {crash : Fs}
    (hcrash : (pclFileClose fd (run (sessionStep com fd) c₁.mark calls).mark).2.os.disk.Leaves crash)
    {base : FdTable} (hbase : base.used.card + 2 < maxPersHandle) :
    (∀ fs, Reboots (recovery r c.gRbTreeBl base) crash fs →
        ∃ X, (X = C ∨ X = F) ∧ ReopensOn r c.gRbTreeBl base X fs) ↔
      (((r.names room).trio crash).backup = none → ∀ s, ((r.names room).trio crash).csum = some s →
        csumText s = seen r.flags.read F) := by
  obtain ⟨hrestores, hsession⟩ := session_run room h hopen hfd hstale hC calls
  have hdis := (close_dismantles hsession).leaves hcrash
  have hF' : ((r.names room).trio (run (sessionStep com fd) c₁.mark calls).os.fs).orig = some F := hF
  have ho : ((r.names room).trio crash).orig ≠ none := by
    rw [hdis.orig, hF']
    exact Option.some_ne_none F
  have hwhole : ∃ X, (X = C ∨ X = F) ∧ Restores r.flags.read
      ((r.names room).trio (run (sessionStep com fd) c₁.mark calls).os.fs) X := by
    obtain ⟨item, status, -, -, ⟨-, hleft⟩ | ⟨-, o, hsaved⟩⟩ := hsession.stage
    · exact ⟨C, Or.inl rfl, by rw [hleft]; exact hrestores⟩
    · rw [hsaved, Option.some.injEq] at hF'
      rw [hsaved, hF']
      exact restores_saved_or _ C F
  rw [← dismantled_restores_iff hF' hwhole hdis]
  have hneeds : ∀ fs, r.NeedsBackup (reboot c.gRbTreeBl base fs) := needsBackup_reboot h rfl
  constructor
  · intro hall
    obtain ⟨X, hX, hopens⟩ := hall crash (.refl crash)
    exact ⟨X, hX, hopens.restores room (hneeds crash) hbase ho⟩
  · rintro ⟨X, hX, hr⟩ fs hfs
    exact ⟨X, hX, hr.reopens room hneeds hbase ho fs hfs⟩

/-- The document after the session that wrote `B` over `A`. -/
def docWritten : Client :=
  run (sessionStep CommonObject.standard (docOpened .readWrite [65]).1)
    (docOpened .readWrite [65]).2.mark [.write [66]]

/-- A crash between the two removals: the checksum string of `A` stands alone
beside `B`, and the document is given up. -/
theorem half_closed_document_lost :
    ¬ ∀ crash, (pclFileClose (docOpened .readWrite [65]).1 docWritten.mark).2.os.disk.Leaves crash →
      ∀ fs, Reboots (recovery (document .readWrite) none standardFds) crash fs →
        ∃ X, (X = [65] ∨ X = [66]) ∧ ReopensOn (document .readWrite) none standardFds X fs := by
  intro h
  have hlost : ((pclFileClose (docOpened .readWrite [65]).1 docWritten.mark).2.os.disk.trail.any
      fun fs => decide ((reopen (document .readWrite) none standardFds fs).1 < 0)) = true := by
    decide +kernel
  obtain ⟨crash, hcrash, hneg⟩ := List.any_eq_true.mp hlost
  obtain ⟨X, -, hopens⟩ := h crash (Or.inr hcrash) crash (.refl crash)
  exact absurd (of_decide_eq_true hneg) (not_lt.mpr hopens.1)

theorem closed_document_reopens :
    ∃ X, (X = [65] ∨ X = [66]) ∧ ReopensOn (document .readWrite) none standardFds X
      (pclFileClose (docOpened .readWrite [65]).1 docWritten.mark).2.os.disk.now := by
  have needs : (document .readWrite).NeedsBackup (docStart .readWrite [65]) :=
    ⟨by decide, by decide, by decide +kernel⟩
  have hopen : (document .readWrite).openFile .reliable (docStart .readWrite [65]) =
      ((docOpened .readWrite [65]).1, (docOpened .readWrite [65]).2) := rfl
  have hcrash : ((document .readWrite).names CommonObject.standard_roomy).trio
      (pclFileClose (docOpened .readWrite [65]).1 docWritten.mark).2.os.disk.now =
      ⟨some [66], none, none⟩ := by decide +kernel
  refine (close_reopens_iff CommonObject.standard_roomy needs hopen (by decide +kernel)
    (fun item hitem => ?_) (by decide +kernel) [.write [66]] (by decide +kernel) (Or.inl rfl)
    (by decide +kernel)).mpr ?_ _ (.refl _)
  · cases hitem
  · unfold docWritten at hcrash
    rw [hcrash]
    nofun

end Close

end PersClient.File
