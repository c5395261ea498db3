import PersClient.File.Open

/-! # How a backup comes about

`pclCreateBackup` makes an empty backup file, then the checksum file, then the
copy. The contents of the three files pass through a few stages, and a crash
finds one of them.
-/

namespace PersClient.File

open Crash

variable {com : CommonObject}

section Effects

variable {n : FileNames com} {os os' : Os} {x : Option Bytes}

theorem Os.Sets.trio_orig (h : os.Sets (resolve n.orig) x os') :
    n.trio os'.fs = { n.trio os.fs with orig := x } := by
  simp only [FileNames.trio, h.content, if_true, if_neg n.orig_ne_backup.symm,
    if_neg n.orig_ne_csum.symm]

theorem Os.Sets.trio_backup (h : os.Sets (resolve n.backup) x os') :
    n.trio os'.fs = { n.trio os.fs with backup := x } := by
  simp only [FileNames.trio, h.content, if_true, if_neg n.orig_ne_backup,
    if_neg n.backup_ne_csum.symm]

theorem Os.Sets.trio_csum (h : os.Sets (resolve n.csum) x os') :
    n.trio os'.fs = { n.trio os.fs with csum := x } := by
  simp only [FileNames.trio, h.content, if_true, if_neg n.orig_ne_csum, if_neg n.backup_ne_csum]

theorem trio_of_disk (h : os'.disk = os.disk) : n.trio os'.fs = n.trio os.fs := by
  rw [show os'.fs = os.fs from congrArg Logged.now h]

end Effects

def MadeFrom (left b : Option Bytes) : Prop := b = left ∨ left = none ∧ b = some []

/-- The stages of a write session: what was found at its start, the steps of the
backup, and any content beside the finished backup. -/
inductive Stage (readable : Bool) (C : Bytes) (left : Trio) : Trio → Prop
  | opened : Stage readable C left left
  | backupMade : left.backup = none → Stage readable C left { left with backup := some [] }
  | csumEmptied (b : Option Bytes) : MadeFrom left.backup b →
      Stage readable C left ⟨left.orig, b, some []⟩
  | csumWritten (b : Option Bytes) : MadeFrom left.backup b →
      Stage readable C left ⟨left.orig, b, some (seen readable C)⟩
  | backupEmptied : Stage readable C left ⟨left.orig, some [], some (seen readable C)⟩
  | saved (o : Bytes) :
      Stage readable C left ⟨some o, some (Os.copied readable C), some (seen readable C)⟩

theorem Stage.orig_ne_none {readable : Bool} {C : Bytes} {left t : Trio}
    (h : Stage readable C left t) (ho : left.orig ≠ none) : t.orig ≠ none := by
  cases h with
  | saved o => exact Option.some_ne_none o
  | _ => exact ho

section CreateBackup

variable {n : FileNames com} {os os' os'' : Os} {fd : ℤ} {f : OpenFile} {t t' : Trio} {C : Bytes}
  {P : Fs → Prop}

/-- From `os` to `os'` the three files became `t`; every state between satisfies
`P`, the same files stand open and the resource's file is the same. -/
structure Advance (n : FileNames com) (P : Fs → Prop) (os os' : Os) (t : Trio) : Prop where
  trio : n.trio os'.fs = t
  keeps : os.Keeps os'
  orig : os'.fs.names (resolve n.orig) = os.fs.names (resolve n.orig)
  always : os.disk.Always P → os'.disk.Always P

theorem Advance.trans (h : Advance n P os os' t) (h' : Advance n P os' os'' t') :
    Advance n P os os'' t' :=
  ⟨h'.trio, h.keeps.trans h'.keeps, h'.orig.trans h.orig, fun ha => h'.always (h.always ha)⟩

theorem Advance.of_disk (h : os'.disk = os.disk) (hk : os.Keeps os') :
    Advance n P os os' (n.trio os.fs) :=
  ⟨trio_of_disk h, hk, by rw [show os'.fs = os.fs from congrArg Logged.now h], fun ha => by rwa [h]⟩

theorem makeBackupFile_advance (os : Os) (env : Env) (hP : ∀ fs b, MadeFrom (n.trio os.fs).backup b →
      n.trio fs = { n.trio os.fs with backup := b } → P fs) :
    ∃ b, MadeFrom (n.trio os.fs).backup b ∧
      Advance n P os (makeBackupFile com env n.backup os) { n.trio os.fs with backup := b } := by
  unfold makeBackupFile
  by_cases hacc : os.access n.backup = 0
  · rw [if_neg (not_not.mpr hacc)]
    exact ⟨_, Or.inl rfl, .of_disk rfl (.refl os)⟩
  have hnone : (n.trio os.fs).backup = none := by
    rwa [Os.access_eq_zero, not_not] at hacc
  rw [if_pos hacc]
  rcases pclCreateFile_cases com env (snprintf com.maxLengthPathFilename n.backup) os with
    ⟨os₁, heq, hsame⟩ | ⟨p, os₁, i, hp, heq, hsets, hi, hget⟩
  · rw [heq]
    exact ⟨_, Or.inl rfl, .of_disk hsame.disk hsame.keeps⟩
  · have hne : (os.fds.lowestFree : ℤ) ≠ -1 := by omega
    simp only [heq, hne, ne_eq, not_false_eq_true, if_true]
    have hsets := hsets.trans_same (Os.close_disk os.fds.lowestFree os₁)
    have keeps : os.Keeps (os₁.close os.fds.lowestFree).2 :=
      Os.Keeps.close FdTable.get_lowestFree hget (.refl os₁)
    obtain ⟨hpo, hps⟩ := n.created p hp
    have advance : ∀ b, MadeFrom (n.trio os.fs).backup b →
        n.trio (os₁.close os.fds.lowestFree).2.fs = { n.trio os.fs with backup := b } →
        Advance n P os (os₁.close os.fds.lowestFree).2 { n.trio os.fs with backup := b } :=
      fun b hb htrio => ⟨htrio, keeps, hsets.others _ hpo.symm,
        fun ha => hsets.always ha (hP _ b hb htrio)⟩
    by_cases hpb : resolve p = resolve n.backup
    · have hb : MadeFrom (n.trio os.fs).backup (some []) := Or.inr ⟨hnone, rfl⟩
      rw [hpb] at hsets
      exact ⟨_, hb, advance _ hb hsets.trio_backup⟩
    · have hb : MadeFrom (n.trio os.fs).backup (n.trio os.fs).backup := Or.inl rfl
      refine ⟨_, hb, advance _ hb ?_⟩
      simp only [FileNames.trio, hsets.content, if_neg hpo.symm, if_neg (Ne.symm hpb),
        if_neg hps.symm]

theorem writeCsumFile_advance (os : Os) {env : Env} (hq : env.Quiet n.csum) (buf : Bytes)
    (hempty : ∀ fs, n.trio fs = { n.trio os.fs with csum := some [] } → P fs)
    (hwritten : ∀ fs, n.trio fs = { n.trio os.fs with csum := some buf } → P fs) :
    Advance n P os (writeCsumFile env n.csum buf os) { n.trio os.fs with csum := some buf } := by
  obtain ⟨os₁, i, hopen, hsets₁, hi, hget₁⟩ := Os.openPath_emptied os
    { oWronly with creat := true, trunc := true } hq rfl rfl n.csum_ne_nil
  have hf : os₁.fds.get os.fds.lowestFree = some ⟨i, n.csum, 0, false, true, true⟩ := by
    rw [hget₁, Function.update_self]
    rfl
  obtain ⟨os₂, hwrite, hsets₂, hi₂, hget₂⟩ := Os.write_quiet hf rfl hq hi buf
  rw [hsets₁.data_self hi, Os.writeAt_empty] at hsets₂
  have hne : (os.fds.lowestFree : ℤ) ≠ -1 := by omega
  have hclose := Os.close_disk os.fds.lowestFree os₂
  simp only [writeCsumFile, hopen, hne, ne_eq, not_false_eq_true, if_true, hwrite]
  have htrio : n.trio (os₂.close os.fds.lowestFree).2.fs =
      { n.trio os.fs with csum := some buf } := by
    rw [trio_of_disk hclose, hsets₂.trio_csum, hsets₁.trio_csum]
  refine ⟨htrio, Os.Keeps.close FdTable.get_lowestFree hget₁ (.of_update hf (by rfl) hget₂), ?_,
    fun ha => ?_⟩
  · rw [show (os₂.close os.fds.lowestFree).2.fs = os₂.fs from congrArg Logged.now hclose,
      hsets₂.others _ n.orig_ne_csum, hsets₁.others _ n.orig_ne_csum]
  · have h₁ := hsets₁.always ha (hempty _ hsets₁.trio_csum)
    exact (hsets₂.trans_same hclose).always h₁ (hwritten _ htrio)

theorem Os.Keeps.get (h : os.Keeps os') (hf : os.fds.get fd = some f) :
    ∃ f', os'.fds.get fd = some f' ∧ f'.file = f.file := by
  have hmap := h fd
  rwa [hf, Option.map_some, Option.map_eq_some_iff] at hmap

theorem copyToBackup_advance {env : Env} (hq : env.Quiet n.backup) (hf : os.fds.get fd = some f)
    (hino : os.fs.names (resolve n.orig) = some f.ino) (hC : (n.trio os.fs).orig = some C)
    (hempty : ∀ fs, n.trio fs = { n.trio os.fs with backup := some [] } → P fs)
    (hcopied : ∀ fs, n.trio fs = { n.trio os.fs with backup := some (Os.copied f.readable C) } →
      P fs) :
    Advance n P os (copyToBackup env n.backup fd os).2
      { n.trio os.fs with backup := some (Os.copied f.readable C) } := by
  obtain ⟨os₁, i, hopen, hsets₁, hi, hget₁⟩ := Os.openPath_emptied os
    { oWronly with creat := true, trunc := true } hq rfl rfl n.backup_ne_nil
  have hne : (os.fds.lowestFree : ℤ) ≠ -1 := by omega
  have hnefd : fd ≠ os.fds.lowestFree := by
    rintro rfl
    rw [FdTable.get_lowestFree] at hf
    cases hf
  have hf₁ : os₁.fds.get fd = some f := by rw [hget₁, Function.update_of_ne hnefd, hf]
  obtain ⟨os₂, hcur, hsame₂⟩ := Os.lseek_cur hf₁
  have hf₂ : os₂.fds.get fd = some f := by rw [hsame₂.get, hf₁]
  obtain ⟨hdisk₃, hget₃⟩ := Os.rewind hf₂
  generalize h₃ : (if (f.offset : ℤ) ≠ 0 then (os₂.lseek fd 0 .set).2 else os₂) = os₃ at *
  have hdisk : os₃.disk = os₁.disk := hdisk₃.trans hsame₂.disk
  have hfs : os₃.fs = os₁.fs := congrArg Logged.now hdisk
  have hg : os₃.fds.get os.fds.lowestFree = some ⟨i, n.backup, 0, false, true, true⟩ := by
    rw [hget₃, Function.update_of_ne hnefd.symm, hsame₂.get, hget₁, Function.update_self]
    rfl
  have hdata : os₃.fs.data f.ino = C := by
    have horig : os₁.fs.names (resolve n.orig) = some f.ino :=
      (hsets₁.others _ n.orig_ne_backup).trans hino
    have hcontent : (n.trio os₁.fs).orig = some C := by rw [hsets₁.trio_backup, hC]
    rw [hfs]
    have := Fs.content_of_names horig
    rw [show os₁.fs.content (resolve n.orig) = some C from hcontent, Option.some.injEq] at this
    exact this.symm
  obtain ⟨m, os₄, hcopy, hsets₄, hi₄, k, b, hget₄⟩ := pclBackupDoFileCopy_open
    (f := { f with offset := 0 }) (by rw [hget₃, Function.update_self]) hg hnefd hq rfl rfl rfl
    (by rw [hfs]; exact hi) (by rw [hfs]; exact hsets₁.data_self hi)
  rw [hdata] at hsets₄
  have hclose := Os.close_disk os.fds.lowestFree os₄
  obtain ⟨hdisk₆, hkeeps₆⟩ := Os.lseek_frame fd f.offset .set (os₄.close os.fds.lowestFree).2
  have keeps₃ : os₂.Keeps os₃ := Os.Keeps.of_update hf₂ (by rfl) hget₃
  have keeps₄ : os₁.Keeps os₄ := hsame₂.keeps.trans <| keeps₃.trans <|
    .of_updates (by rw [hget₃, Function.update_self]) hg (by rfl) (by rfl) hget₄
  simp only [copyToBackup, hopen, hcur]
  rw [if_pos hne, h₃, hcopy]
  have hlast := hdisk₆.trans hclose
  have hsets := (hsets₄.of_same hdisk).trans_same hlast
  have htrio : n.trio ((os₄.close os.fds.lowestFree).2.lseek fd f.offset .set).2.fs =
      { n.trio os.fs with backup := some (Os.copied f.readable C) } := by
    rw [hsets.trio_backup, hsets₁.trio_backup]
  refine ⟨htrio, (Os.Keeps.close FdTable.get_lowestFree hget₁ keeps₄).trans hkeeps₆, ?_,
    fun ha => ?_⟩
  · exact (hsets.others _ n.orig_ne_backup).trans (hsets₁.others _ n.orig_ne_backup)
  · exact hsets.always (hsets₁.always ha (hempty _ hsets₁.trio_backup)) (hcopied _ htrio)

theorem pclCreateBackup_advance (os : Os) {env : Env} (hb : env.Quiet n.backup) (hs : env.Quiet n.csum)
    (hf : os.fds.get fd = some f) (hino : os.fs.names (resolve n.orig) = some f.ino)
    (hC : (n.trio os.fs).orig = some C)
    (hP : ∀ fs, Stage f.readable C (n.trio os.fs) (n.trio fs) → P fs) :
    Advance n P os (pclCreateBackup com env n.backup fd n.csum (seen f.readable C) os).2
      ⟨some C, some (Os.copied f.readable C), some (seen f.readable C)⟩ := by
  obtain ⟨b, hmade, h₁⟩ := makeBackupFile_advance (P := P) (n := n) os env (by
    rintro fs b (rfl | ⟨hnone, rfl⟩) htrio
    · exact hP fs (by rw [htrio]; exact .opened)
    · exact hP fs (by rw [htrio]; exact .backupMade hnone))
  unfold pclCreateBackup
  generalize makeBackupFile com env n.backup os = os₁ at *
  have h₂ := writeCsumFile_advance (P := P) os₁ hs (seen f.readable C)
    (fun fs htrio => hP fs (by
      rw [htrio, h₁.trio]
      exact .csumEmptied b hmade))
    (fun fs htrio => hP fs (by
      rw [htrio, h₁.trio]
      exact .csumWritten b hmade))
  generalize writeCsumFile env n.csum (seen f.readable C) os₁ = os₂ at *
  have h₁₂ := h₁.trans h₂
  rw [h₁.trio] at h₁₂
  obtain ⟨f', hf', hfile⟩ := h₁₂.keeps.get hf
  simp only [OpenFile.file, Prod.mk.injEq] at hfile
  have hC₂ : (n.trio os₂.fs).orig = some C := by rw [h₁₂.trio, hC]
  have h₃ := copyToBackup_advance (P := P) hb hf' (by rw [h₁₂.orig, hino, hfile.1]) hC₂
    (fun fs htrio => hP fs (by
      rw [htrio, h₁₂.trio]
      exact .backupEmptied))
    (fun fs htrio => hP fs (by
      rw [htrio, h₁₂.trio, hfile.2.2.1]
      show Stage f.readable C (n.trio os.fs)
        ⟨(n.trio os.fs).orig, some (Os.copied f.readable C), some (seen f.readable C)⟩
      rw [hC]
      exact .saved C))
  have h := h₁₂.trans h₃
  rw [h₁₂.trio, hfile.2.2.1] at h
  rwa [← hC]

end CreateBackup

end PersClient.File
