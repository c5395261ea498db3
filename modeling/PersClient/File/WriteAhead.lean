import PersClient.File.Session

/-! # The backup is ahead of the write

Calls on one resource that needs a backup, in which whatever is done for the
side files may fail. The first write through a descriptor marks the backup as
made, whether it was or not. As long as that step succeeds, is taken through a
readable descriptor and finds the content of the opening, a content that has
changed since the resource was opened has its backup and its checksum file.
-/

namespace PersClient.File

open Access Crash Handle Steps

variable {com : CommonObject}

section Follows

/-- No record is one of default data. -/
def NoDefaultRecords (tree : FileTree) : Prop :=
  ∀ fd item, Tree.lookup tree fd = some item → item.userId ≠ defaultDataUser

theorem NoDefaultRecords.setItem {tree : FileTree} (h : NoDefaultRecords tree) (idx : ℤ)
    {change : FileHandleData → FileHandleData} {fresh : FileHandleData}
    (hchange : ∀ item, (change item).userId = item.userId) (hfresh : fresh.userId ≠ defaultDataUser) :
    NoDefaultRecords (setItem tree idx change fresh) := by
  intro fd item hitem
  rw [lookup_setItem] at hitem
  split at hitem
  · cases hold : Tree.lookup tree idx with
    | none =>
      rw [hold] at hitem
      rwa [← Option.some.inj hitem]
    | some old =>
      rw [hold] at hitem
      rw [← Option.some.inj hitem]
      exact (hchange old).symm ▸ h idx old hold
  · exact h fd item hitem

/-- What the file functions leave of the library: its blacklist, that it is
initialised, and that no record is one of default data. -/
structure Client.Follows (c c' : Client) : Prop where
  blacklist : c'.gRbTreeBl = c.gRbTreeBl
  initialized : c'.gPclInitCounter = c.gPclInitCounter
  records : NoDefaultRecords c.gFileHandleTree → NoDefaultRecords c'.gFileHandleTree

theorem Client.Follows.trans {c c' c'' : Client} (h : c.Follows c') (h' : c'.Follows c'') :
    c.Follows c'' :=
  ⟨h'.blacklist.trans h.blacklist, h'.initialized.trans h.initialized, h'.records ∘ h.records⟩

theorem Client.follows_os (c : Client) (os : Os) : c.Follows { c with os } := ⟨rfl, rfl, id⟩

theorem createRegular_follows (appId : CStr) (env : Env) (ctx : DbContext) (resourceId : CStr)
    (cacheStatus : ℤ) (c : Client) :
    c.Follows (createRegular com appId env ctx resourceId cacheStatus c).2 := by
  unfold createRegular
  dsimp only
  split
  · exact c.follows_os _
  · split
    · exact c.follows_os _
    · exact ⟨rfl, rfl, fun h => h.setItem _ (fun _ => rfl) (show (0 : ℤ) ≠ -1 by decide)⟩

theorem registerRegular_follows (ctx : DbContext) (handle wantBackup : ℤ) (c : Client) :
    c.Follows (registerRegular com ctx handle wantBackup c) := by
  have hdata : ∀ {tree}, NoDefaultRecords tree → ∀ permission backup csum filePath,
      NoDefaultRecords (setFileHandleData tree handle permission backup csum filePath) :=
    fun h _ _ _ _ => h.setItem _ (fun _ => rfl) (show (0 : ℤ) ≠ -1 by decide)
  unfold registerRegular
  dsimp only
  split
  · exact ⟨rfl, rfl, fun h => (hdata h _ _ _ _).setItem _ (fun _ => rfl)
      (show (0 : ℤ) ≠ -1 by decide)⟩
  · exact ⟨rfl, rfl, fun h => hdata h _ _ _ _⟩

theorem openValid_follows (appId : CStr) (env : Env) (ctx : DbContext) (resourceId : CStr)
    (c : Client) : c.Follows (openValid com appId env ctx resourceId c).2 := by
  unfold openValid
  extract_lets flags wanted
  split
  rename_i handle os _
  split
  · exact c.follows_os _
  · split
    rename_i handle os cacheStatus _
    extract_lets c₁
    have hc₁ : c.Follows c₁ := c.follows_os os
    split
    · split
      rename_i fd c₂ hcreate
      refine Client.Follows.trans ?_ (registerRegular_follows ctx fd _ c₂)
      split at hcreate
      · have hcreated : c₁.Follows
            (createRegular com appId env ctx resourceId cacheStatus c₁).2 :=
          createRegular_follows appId env ctx resourceId cacheStatus c₁
        rw [hcreate] at hcreated
        exact hc₁.trans hcreated
      · rwa [← (Prod.mk.inj hcreate).2]
    · exact hc₁.trans (c₁.follows_os _)

variable {r : FileResource com} {c c' : Client}

theorem FileResource.NeedsBackup.follows (h : r.NeedsBackup c) (hf : c.Follows c') :
    r.NeedsBackup c' := by
  refine ⟨?_, h.user, ?_⟩
  · rw [hf.initialized]
    exact h.initialized
  · have := h.wanted
    simp only [wantsBackup, hf.blacklist] at this ⊢
    exact this

theorem FileResource.NeedsBackup.openFile_follows (h : r.NeedsBackup c) (env : Env) :
    c.Follows (r.openFile env c).2 := by
  rw [h.openFile_eq]
  exact openValid_follows _ _ _ _ _

end Follows

section Run

/-- The calls on one resource, each with the faults it meets. -/
inductive ResourceCall
  | fileOpen (env : Env)
  | fileSeek (fd offset : ℤ) (whence : Whence)
  | fileWriteData (env : Env) (fd : ℤ) (buffer : Bytes)

/-- The library, the descriptors its openings returned on the resource's file,
and the content the last of them found. -/
structure Tracked where
  client : Client
  returned : List ℤ := []
  opened : Option Bytes := none

def resourceStep (r : FileResource com) (s : Tracked) : ResourceCall → Tracked
  | .fileOpen env =>
    let (fd, c) := r.openFile env s.client
    match c.os.content r.dbContext.dbPath with
    | some content =>
      if 0 ≤ fd then ⟨c, fd :: s.returned, some content⟩ else { s with client := c }
    | none => { s with client := c }
  | .fileSeek fd offset whence =>
    if fd ∈ s.returned then { s with client := (pclFileSeek fd offset whence s.client).2 } else s
  | .fileWriteData env fd buffer =>
    if fd ∈ s.returned then { s with client := (pclFileWriteData com env fd buffer s.client).2 }
    else s

structure MakesBackup (c : Client) (fd : ℤ) : Prop where
  initialized : 0 < c.gPclInitCounter
  unlocked : ¬ Locked c.loop
  status : getFileBackupStatus c.gFileHandleTree fd = 0

variable (r : FileResource com) (room : com.Roomy)

/-- When a call keeps the backup ahead. The side files may fail an opening only
as long as the resource is not open; an opening beside a descriptor whose
backup is made finds a checksum to restore by, or nothing to restore. A write
that makes the backup meets no fault on the side files, finds the content of
the opening and can read it. -/
def Careful (s : Tracked) : ResourceCall → Prop
  | .fileOpen env => env.Quiet (r.names room).orig ∧ (s.opened ≠ none →
      env.Quiet (r.names room).backup ∧ env.Quiet (r.names room).csum ∧
      ∀ fd ∈ s.returned, getFileBackupStatus s.client.gFileHandleTree fd ≠ 0 →
        ((r.names room).trio s.client.os.fs).csum ≠ some [] ∨
          ((r.names room).trio s.client.os.fs).orig = s.opened)
  | .fileSeek _ _ _ => True
  | .fileWriteData env fd _ => fd ∈ s.returned → MakesBackup s.client fd →
      env.Quiet (r.names room).backup ∧ env.Quiet (r.names room).csum ∧
      ((r.names room).trio s.client.os.fs).orig = s.opened ∧
      (readableAt s.client fd = true ∨ s.opened = some [])

/-- The side files hold `C` and its checksum string. -/
def Saved (C : Bytes) (t : Trio) : Prop := t.backup = some C ∧ t.csum = some (csumOf C)

def OnResource (c : Client) (fd status : ℤ) : Prop :=
  (∃ f, c.os.fds.get fd = some f ∧ c.os.fs.names (resolve (r.names room).orig) = some f.ino) ∧
    ∃ item, Tree.lookup c.gFileHandleTree fd = some item ∧ r.Recorded status item

/-- Either the side files hold the content of the opening, or nothing has been
written: no backup is made and the next opening finds the same content. -/
structure Ahead (s : Tracked) : Prop where
  needs : r.NeedsBackup s.client
  records : NoDefaultRecords s.client.gFileHandleTree
  unopened : s.opened = none ↔ s.returned = []
  returned : ∀ fd ∈ s.returned, ∃ status, OnResource r room s.client fd status
  backed : ∀ C, s.opened = some C → Saved C ((r.names room).trio s.client.os.fs) ∨
    ((r.names room).trio s.client.os.fs).orig = some C ∧
      Restores r.flags.read ((r.names room).trio s.client.os.fs) C ∧
      ∀ fd ∈ s.returned, OnResource r room s.client fd 0

variable {r room} {s : Tracked} {c c' : Client}

theorem readableAt_of_get {fd : ℤ} {f : OpenFile} (hf : c.os.fds.get fd = some f) :
    readableAt c fd = f.readable := by
  rw [readableAt, hf]
  rfl

theorem OnResource.status_eq {fd status : ℤ} (h : OnResource r room c fd status) :
    getFileBackupStatus c.gFileHandleTree fd = status := by
  obtain ⟨-, item, hitem, hrec⟩ := h
  exact status_of_recorded hitem hrec

theorem OnResource.of_keeps {fd status : ℤ} (h : OnResource r room c fd status)
    (hk : c.os.Keeps c'.os)
    (hnames : c'.os.fs.names (resolve (r.names room).orig) =
      c.os.fs.names (resolve (r.names room).orig))
    (htree : Tree.lookup c'.gFileHandleTree fd = Tree.lookup c.gFileHandleTree fd) :
    OnResource r room c' fd status := by
  obtain ⟨⟨f, hf, hino⟩, item, hitem, hrec⟩ := h
  obtain ⟨f', hf', hfile⟩ := hk.get hf
  refine ⟨⟨f', hf', ?_⟩, item, htree.trans hitem, hrec⟩
  rw [hnames, hino, show f'.ino = f.ino from congrArg Prod.fst hfile]

theorem Ahead.of_keeps (h : Ahead r room s) {os : Os} (hdisk : os.disk = s.client.os.disk)
    (hk : s.client.os.Keeps os) : Ahead r room { s with client := { s.client with os } } := by
  have hfs : os.fs = s.client.os.fs := congrArg Logged.now hdisk
  have keep : ∀ {fd status}, OnResource r room s.client fd status →
      OnResource r room { s.client with os } fd status := fun hon =>
    hon.of_keeps hk (congrArg (fun fs => fs.names (resolve (r.names room).orig)) hfs) rfl
  refine ⟨h.needs.follows (s.client.follows_os os), h.records, h.unopened,
    fun fd hfd => (h.returned fd hfd).imp fun _ => keep, fun C hC => ?_⟩
  simp only [hfs]
  exact (h.backed C hC).imp id fun hclean =>
    ⟨hclean.1, hclean.2.1, fun fd hfd => keep (hclean.2.2 fd hfd)⟩

theorem Ahead.seek (h : Ahead r room s) (fd offset : ℤ) (whence : Whence) :
    Ahead r room { s with client := (pclFileSeek fd offset whence s.client).2 } := by
  unfold pclFileSeek
  split
  · split
    · obtain ⟨hdisk, hk⟩ := Os.lseek_frame fd offset whence s.client.os
      exact h.of_keeps hdisk hk
    · exact h
  · exact h

theorem Ahead.data (h : Ahead r room s) {fd : ℤ} (hfd : fd ∈ s.returned)
    (hsaved : ∀ C, s.opened = some C → Saved C ((r.names room).trio s.client.os.fs)) (env : Env)
    (buffer : Bytes) :
    Ahead r room { s with
      client := { s.client with os := (s.client.os.write env fd buffer).2 } } := by
  obtain ⟨status, ⟨f, hf, hino⟩, -⟩ := h.returned fd hfd
  have touches : s.client.os.Touches (resolve (r.names room).orig) (s.client.os.write env fd buffer).2 :=
    Os.write_touches (fun g hg => by rw [hf] at hg; rw [← Option.some.inj hg, hino]) buffer
  have keeps := Os.write_keeps env fd buffer s.client.os
  refine ⟨h.needs.follows (s.client.follows_os _), h.records, h.unopened, fun x hx => ?_,
    fun C hC => Or.inl ?_⟩
  · obtain ⟨status, hon⟩ := h.returned x hx
    exact ⟨status, hon.of_keeps keeps (by rw [touches.names]) rfl⟩
  · obtain ⟨hb, hs⟩ := hsaved C hC
    refine ⟨?_, ?_⟩
    · rw [← hb]
      exact touches.content _ (r.names room).orig_ne_backup.symm
    · rw [← hs]
      exact touches.content _ (r.names room).orig_ne_csum.symm

theorem Ahead.makeBackup (h : Ahead r room s) {env : Env} {fd : ℤ} (hfd : fd ∈ s.returned)
    (hstatus : getFileBackupStatus s.client.gFileHandleTree fd = 0)
    (hb : env.Quiet (r.names room).backup) (hs : env.Quiet (r.names room).csum)
    (hC : ((r.names room).trio s.client.os.fs).orig = s.opened)
    (hread : readableAt s.client fd = true ∨ s.opened = some []) :
    Ahead r room { s with client := backupBeforeWrite com env fd s.client } ∧
      ∀ C, s.opened = some C →
        Saved C ((r.names room).trio (backupBeforeWrite com env fd s.client).os.fs) := by
  obtain ⟨status, hon⟩ := h.returned fd hfd
  obtain rfl : status = 0 := hon.status_eq.symm.trans hstatus
  obtain ⟨⟨f, hf, hino⟩, item, hitem, hrec⟩ := hon
  have hne : s.opened ≠ none := fun hnone => by
    rw [h.unopened.mp hnone] at hfd
    cases hfd
  obtain ⟨C, hopened⟩ := Option.ne_none_iff_exists'.mp hne
  rw [hopened] at hC hread
  obtain ⟨os', heq, hadv⟩ := backupBeforeWrite_advance hb hs hf hino hC hitem hrec
  have hsaved : Saved C ((r.names room).trio os'.fs) := by
    rw [hadv.trio]
    rw [readableAt_of_get hf] at hread
    cases hr : f.readable with
    | true => exact ⟨rfl, rfl⟩
    | false =>
      rw [hr, Option.some.injEq] at hread
      obtain rfl : C = [] := hread.resolve_left (by decide)
      exact ⟨rfl, congrArg some csumOf_nil.symm⟩
  obtain ⟨item', hitem', hrec'⟩ := recorded_done hitem hrec
  have hfollows : s.client.Follows { s.client with
      os := os', gFileHandleTree := setFileBackupStatus s.client.gFileHandleTree fd 1 } :=
    ⟨rfl, rfl, fun hn => hn.setItem fd (fun _ => rfl) (show (0 : ℤ) ≠ -1 by decide)⟩
  rw [heq]
  refine ⟨⟨h.needs.follows hfollows, hfollows.records h.records, h.unopened, fun x hx => ?_,
    fun C' hC' => ?_⟩, fun C' hC' => ?_⟩
  · obtain ⟨status, hon⟩ := h.returned x hx
    rcases eq_or_ne x fd with rfl | hne
    · obtain ⟨f', hf', hfile⟩ := hadv.keeps.get hf
      refine ⟨1, ⟨f', hf', ?_⟩, item', hitem', hrec'⟩
      rw [show f'.ino = f.ino from congrArg Prod.fst hfile, ← hino]
      exact hadv.orig
    · refine ⟨status, hon.of_keeps hadv.keeps hadv.orig ?_⟩
      rw [setFileBackupStatus, lookup_setItem, if_neg hne]
  · obtain rfl := Option.some.inj (hopened.symm.trans hC')
    exact Or.inl hsaved
  · obtain rfl := Option.some.inj (hopened.symm.trans hC')
    exact hsaved

theorem Ahead.write (h : Ahead r room s) {env : Env} {fd : ℤ} {buffer : Bytes} (hfd : fd ∈ s.returned)
    (hok : Careful r room s (.fileWriteData env fd buffer)) :
    Ahead r room { s with client := (pclFileWriteData com env fd buffer s.client).2 } := by
  obtain ⟨status, hon⟩ := h.returned fd hfd
  have hget := permission_of_recorded hon.2.choose_spec.1 hon.2.choose_spec.2
  have hperm : r.info.configKey.permission ≠ .readOnly := h.needs.permission_ne
  unfold pclFileWriteData
  split
  swap
  · exact h
  rename_i hinit
  split
  swap
  · exact h
  rename_i hunlocked
  rw [hget]
  simp only [hperm, ne_eq, not_false_eq_true, if_true]
  obtain ⟨h', hsaved⟩ : Ahead r room { s with client := backupBeforeWrite com env fd s.client } ∧
      ∀ C, s.opened = some C →
        Saved C ((r.names room).trio (backupBeforeWrite com env fd s.client).os.fs) := by
    rcases eq_or_ne (getFileBackupStatus s.client.gFileHandleTree fd) 0 with hstatus | hdone
    · obtain ⟨hb, hs, hC, hread⟩ := hok hfd ⟨hinit, hunlocked, hstatus⟩
      exact h.makeBackup hfd hstatus hb hs hC hread
    · rw [backupBeforeWrite_done com env hdone]
      refine ⟨h, fun C hC => (h.backed C hC).resolve_right fun hclean => hdone ?_⟩
      exact (hclean.2.2 fd hfd).status_eq
  have written := h'.data hfd hsaved env buffer
  generalize backupBeforeWrite com env fd s.client = c' at *
  split
  · obtain ⟨hdisk, hk⟩ := Os.fsync_frame fd (c'.os.write env fd buffer).2
    exact written.of_keeps hdisk hk
  · exact written

/-- Opening again beside a finished backup restores it, unless its content has
no checksum string. -/
theorem Saved.judge {C o : Bytes} {t : Trio} (h : Saved C t) (ho : t.orig = some o) (readable : Bool) :
    judge readable t = if csumOf C = [] then .unchecked else .restore C := by
  rw [judge_both readable h.1 h.2, csumText_csumOf, if_pos rfl, ho]

theorem Ahead.orig_ne_none (h : Ahead r room s) (hopened : s.opened ≠ none) :
    ((r.names room).trio s.client.os.fs).orig ≠ none := by
  obtain ⟨fd, hfd⟩ := List.exists_mem_of_ne_nil _ (h.unopened.not.mp hopened)
  obtain ⟨status, ⟨f, -, hino⟩, -⟩ := h.returned fd hfd
  rw [show ((r.names room).trio s.client.os.fs).orig = _ from Fs.content_of_names hino]
  exact Option.some_ne_none _

theorem Ahead.not_corrupt (h : Ahead r room s) (hopened : s.opened ≠ none) (readable : Bool)
    (hr : readable = r.flags.read) :
    judge readable ((r.names room).trio s.client.os.fs) ≠ .corrupt := by
  obtain ⟨C, hC⟩ := Option.ne_none_iff_exists'.mp hopened
  obtain ⟨o, ho⟩ := Option.ne_none_iff_exists'.mp (h.orig_ne_none hopened)
  rcases h.backed C hC with hsaved | ⟨-, hrestores, -⟩
  · rw [hsaved.judge ho]
    split <;> nofun
  · rw [hr]
    exact hrestores.1

theorem Ahead.unopened_of (h : Ahead r room s) (hopened : s.opened = none) (hf : s.client.Follows c') :
    Ahead r room { s with client := c' } := by
  have hnil := h.unopened.mp hopened
  refine ⟨h.needs.follows hf, hf.records h.records, h.unopened, fun fd hfd => ?_, fun C hC => ?_⟩
  · rw [show s.returned = [] from hnil] at hfd
    cases hfd
  · rw [show s.opened = none from hopened] at hC
    cases hC

theorem OpenedOn.onResource {fd : ℤ} {f : OpenFile} {C : Bytes} (h : r.OpenedOn room C fd f c) :
    OnResource r room c fd 0 := by
  obtain ⟨item, hitem, hrec⟩ := h.recorded
  exact ⟨⟨f, h.get, h.ino⟩, item, hitem, hrec⟩

theorem Ahead.first (h : Ahead r room s) (hopened : s.opened = none) {env : Env}
    (horig : env.Quiet (r.names room).orig) {fd : ℤ} {C : Bytes}
    (hopen : r.openFile env s.client = (fd, c')) (hfd : 0 ≤ fd)
    (hC : ((r.names room).trio c'.os.fs).orig = some C) :
    Ahead r room ⟨c', fd :: s.returned, some C⟩ := by
  have hf := h.needs.openFile_follows env
  rw [hopen] at hf
  obtain ⟨f, hon⟩ := FileResource.openFile_success room h.needs horig hopen hfd (h.records fd) hC
  rw [h.unopened.mp hopened]
  have only : ∀ x ∈ [fd], OnResource r room c' x 0 := by
    intro x hx
    rw [List.mem_singleton.mp hx]
    exact OpenedOn.onResource hon
  refine ⟨h.needs.follows hf, hf.records h.records, iff_of_false (Option.some_ne_none C) (by simp),
    fun x hx => ⟨0, only x hx⟩, fun C' hC' => Or.inr ?_⟩
  obtain rfl := Option.some.inj hC'
  exact ⟨hC, hon.restores, only⟩

theorem lookup_registered_of_ne {fd x : ℤ} (hne : x ≠ fd) (os : Os) :
    Tree.lookup (r.registered c os fd).gFileHandleTree x = Tree.lookup c.gFileHandleTree x := by
  unfold FileResource.registered registerRegular
  dsimp only
  split <;> simp only [setFileBackupStatus, setFileHandleData, lookup_setItem, if_neg hne]

theorem OnResource.of_fresh {fd x status : ℤ} {os : Os} {f : OpenFile}
    (h : OnResource r room c x status) (hf : FileResource.Fresh (r.names room) c.os os fd f) :
    x ≠ fd ∧ (∃ g, os.fds.get x = some g ∧
      os.fs.names (resolve (r.names room).orig) = some g.ino) := by
  obtain ⟨⟨g, hg, hino⟩, -⟩ := h
  refine ⟨?_, g, hf.others x g hg, ?_⟩
  · rintro rfl
    rw [hf.free] at hg
    cases hg
  · rw [hf.ino, ← hf.same, hino]

theorem Ahead.verdict_content (h : Ahead r room s) {C o : Bytes} (hC : s.opened = some C)
    (ho : ((r.names room).trio s.client.os.fs).orig = some o) :
    ((judge r.flags.read ((r.names room).trio s.client.os.fs)).content (some o) = some C ∧
        (Saved C ((r.names room).trio s.client.os.fs) ∨
          ∀ x ∈ s.returned, OnResource r room s.client x 0)) ∨
      Saved C ((r.names room).trio s.client.os.fs) ∧ C = [] ∧
        (judge r.flags.read ((r.names room).trio s.client.os.fs)).content (some o) = some o := by
  rcases h.backed C hC with hsaved | ⟨-, hrestores, hclean⟩
  · rw [hsaved.judge ho]
    split
    · rename_i hnil
      exact Or.inr ⟨hsaved, csumOf_eq_nil hnil, rfl⟩
    · exact Or.inl ⟨rfl, Or.inl hsaved⟩
  · rw [← ho]
    exact Or.inl ⟨hrestores.2, Or.inr hclean⟩

theorem Ahead.again (h : Ahead r room s) {C : Bytes} (hC : s.opened = some C) {fd : ℤ} {os : Os}
    {f : OpenFile} (hv : judge r.flags.read ((r.names room).trio s.client.os.fs) ≠ .corrupt)
    (hs : FileResource.Settled (r.names room) s.client.os os
      (judge r.flags.read ((r.names room).trio s.client.os.fs)))
    (hf : FileResource.Fresh (r.names room) s.client.os os fd f)
    (hfollows : s.client.Follows (r.registered s.client os fd))
    (hdone : ∀ x ∈ s.returned, getFileBackupStatus s.client.gFileHandleTree x ≠ 0 →
      ((r.names room).trio s.client.os.fs).csum ≠ some [] ∨
        ((r.names room).trio s.client.os.fs).orig = s.opened) {C' : Bytes}
    (hC' : ((r.names room).trio os.fs).orig = some C') :
    Ahead r room ⟨r.registered s.client os fd, fd :: s.returned, some C'⟩ := by
  obtain ⟨o, ho⟩ := Option.ne_none_iff_exists'.mp (h.orig_ne_none (by rw [hC]; nofun))
  have htrio := hs.trio
  rw [ho] at htrio
  have hcontent : (judge r.flags.read ((r.names room).trio s.client.os.fs)).content (some o) =
      some C' := by
    rw [htrio] at hC'
    exact hC'
  have old : ∀ {x status}, OnResource r room s.client x status →
      OnResource r room (r.registered s.client os fd) x status := by
    intro x status hon
    obtain ⟨hne, hget⟩ := hon.of_fresh hf
    obtain ⟨-, item, hitem, hrec⟩ := hon
    refine ⟨?_, item, (lookup_registered_of_ne hne os).trans hitem, hrec⟩
    rwa [FileResource.registered_os]
  have new : OnResource r room (r.registered s.client os fd) fd 0 := by
    obtain ⟨item, hitem, hrec⟩ := FileResource.lookup_registered h.needs (h.records fd) os
    refine ⟨⟨f, ?_, ?_⟩, item, hitem, hrec⟩
    · rw [FileResource.registered_os]
      exact hf.get
    · rw [FileResource.registered_os]
      exact hf.ino
  have clean : (∀ x ∈ s.returned, OnResource r room s.client x 0) →
      ((r.names room).trio (r.registered s.client os fd).os.fs).orig = some C' ∧
      Restores r.flags.read ((r.names room).trio (r.registered s.client os fd).os.fs) C' ∧
      ∀ x ∈ fd :: s.returned, OnResource r room (r.registered s.client os fd) x 0 := by
    intro hclean
    rw [FileResource.registered_os]
    refine ⟨hC', ?_, fun x hx => ?_⟩
    · rw [htrio, hcontent]
      exact Restores.settled ⟨hv, by rw [ho]; exact hcontent⟩
    · rcases List.mem_cons.mp hx with rfl | hx
      · exact new
      · exact old (hclean x hx)
  have saved : Saved C' ((r.names room).trio s.client.os.fs) →
      Saved C' ((r.names room).trio (r.registered s.client os fd).os.fs) := by
    intro hsaved
    rw [FileResource.registered_os, htrio]
    exact hsaved
  refine ⟨h.needs.follows hfollows, hfollows.records h.records,
    iff_of_false (Option.some_ne_none C') (by simp), fun x hx => ?_, fun C'' hC'' => ?_⟩
  · rcases List.mem_cons.mp hx with rfl | hx
    · exact ⟨0, new⟩
    · exact (h.returned x hx).imp fun _ => old
  obtain rfl := Option.some.inj hC''
  rcases h.verdict_content hC ho with ⟨hback, hcase⟩ | ⟨hsaved, hnil, hkept⟩
  · obtain rfl := Option.some.inj (hback.symm.trans hcontent)
    exact hcase.imp saved clean
  · obtain rfl := Option.some.inj (hkept.symm.trans hcontent)
    by_cases hclean : ∀ x ∈ s.returned, getFileBackupStatus s.client.gFileHandleTree x = 0
    · refine Or.inr (clean fun x hx => ?_)
      obtain ⟨status, hon⟩ := h.returned x hx
      rw [← hclean x hx, hon.status_eq]
      exact hon
    · -- a backup is made and empty, so nothing may have been written since
      obtain ⟨x, hx, hmade⟩ := by simpa only [not_forall] using hclean
      have hcsum : ((r.names room).trio s.client.os.fs).csum = some [] := by
        rw [hsaved.2, hnil]
        rfl
      have hsame := (hdone x hx hmade).resolve_left (not_not.mpr hcsum)
      rw [ho, hC] at hsame
      obtain rfl := Option.some.inj hsame
      exact Or.inl (saved hsaved)

theorem Ahead.limit (h : Ahead r room s) {fd : ℤ} {os : Os} {f : OpenFile}
    (hopened : s.opened ≠ none)
    (hv : judge r.flags.read ((r.names room).trio s.client.os.fs) ≠ .corrupt)
    (hs : FileResource.Settled (r.names room) s.client.os os
      (judge r.flags.read ((r.names room).trio s.client.os.fs)))
    (hf : FileResource.Fresh (r.names room) s.client.os os fd f) :
    Ahead r room { s with client := { s.client with os := (os.close fd).2 } } := by
  obtain ⟨C, hC⟩ := Option.ne_none_iff_exists'.mp hopened
  obtain ⟨o, ho⟩ := Option.ne_none_iff_exists'.mp (h.orig_ne_none hopened)
  have htrio := hs.trio
  rw [ho] at htrio
  obtain ⟨os', heq, hdisk, hget⟩ := Os.close_open hf.get
  have hfs : os'.fs = os.fs := congrArg Logged.now hdisk
  have old : ∀ {x status}, OnResource r room s.client x status →
      OnResource r room { s.client with os := os' } x status := by
    intro x status hon
    obtain ⟨hne, g, hg, hino⟩ := hon.of_fresh hf
    refine ⟨⟨g, ?_, ?_⟩, hon.2⟩
    · rw [hget, Function.update_of_ne hne, hg]
    · rw [hfs, hino]
  rw [heq]
  refine ⟨h.needs.follows (s.client.follows_os os'), h.records, h.unopened,
    fun x hx => (h.returned x hx).imp fun _ => old, fun C' hC' => ?_⟩
  obtain rfl := Option.some.inj (hC.symm.trans hC')
  have saved : Saved C ((r.names room).trio s.client.os.fs) →
      Saved C ((r.names room).trio os'.fs) := fun hsaved => by
    rw [hfs, htrio]
    exact hsaved
  rcases h.verdict_content hC ho with ⟨hback, hcase⟩ | ⟨hsaved, -, -⟩
  · refine hcase.imp saved fun hclean => ?_
    have hrestores := Restores.settled ⟨hv, by rw [ho]; exact hback⟩
    rw [hfs, htrio, hback]
    exact ⟨rfl, hrestores, fun x hx => old (hclean x hx)⟩
  · exact Or.inl (saved hsaved)

theorem Ahead.open (h : Ahead r room s) {env : Env} (hok : Careful r room s (.fileOpen env)) :
    Ahead r room (resourceStep r s (.fileOpen env)) := by
  obtain ⟨horig, hagain⟩ := hok
  simp only [resourceStep]
  rcases Option.eq_none_or_eq_some s.opened with hopened | ⟨C, hopened⟩
  · have hf := h.needs.openFile_follows env
    split
    · rename_i C hC
      split
      · exact h.first hopened horig rfl ‹_› hC
      · exact h.unopened_of hopened hf
    · exact h.unopened_of hopened hf
  · have hne : s.opened ≠ none := by
      rw [hopened]
      nofun
    obtain ⟨hb, hs, hdone⟩ := hagain hne
    have hv := h.not_corrupt hne _ rfl
    obtain ⟨fd, os, f, heq, hsettled, hfresh, -⟩ := FileResource.openFile_existing room h.needs
      ⟨horig, Or.inl ⟨hb, hs⟩⟩ (h.orig_ne_none hne) hv
    obtain ⟨C', hC'⟩ := Option.ne_none_iff_exists'.mp (hsettled.orig (h.orig_ne_none hne))
    have hcontent : os.content r.dbContext.dbPath = some C' := hC'
    have hfollows := h.needs.openFile_follows env
    rw [heq] at hfollows ⊢
    rcases lt_or_ge fd (maxPersHandle : ℤ) with hlt | hge
    · rw [if_pos hlt] at hfollows ⊢
      have hcontent' : (r.registered s.client os fd).os.content r.dbContext.dbPath = some C' := by
        rw [FileResource.registered_os]
        exact hcontent
      simp only [hcontent', hfresh.nonneg, if_true]
      exact h.again hopened hv hsettled hfresh hfollows hdone hC'
    · rw [if_neg (not_lt.mpr hge)]
      have hcontent' : (os.close fd).2.content r.dbContext.dbPath = some C' := by
        rw [Os.content, show (os.close fd).2.fs = os.fs from
          congrArg Logged.now (Os.close_disk fd os)]
        exact hcontent
      simp only [hcontent', show ¬ (0 : ℤ) ≤ epersMaxhandle by decide, if_false]
      exact h.limit hne hv hsettled hfresh

theorem Ahead.step (h : Ahead r room s) (call : ResourceCall) (hok : Careful r room s call) :
    Ahead r room (resourceStep r s call) := by
  cases call with
  | fileOpen env => exact h.open hok
  | fileSeek fd offset whence =>
    simp only [resourceStep]
    split
    · exact h.seek fd offset whence
    · exact h
  | fileWriteData env fd buffer =>
    simp only [resourceStep]
    split
    · exact h.write ‹_› hok
    · exact h

/-- In every state of a careful run a content that is not the one the resource
was opened with has its backup, and the checksum string of it beside it. -/
theorem writeAhead_run (room : com.Roomy) (h : r.NeedsBackup c)
    (hrecords : NoDefaultRecords c.gFileHandleTree) (calls : List ResourceCall)
    (hok : Guarded (resourceStep r) (Careful r room) ⟨c, [], none⟩ calls) {C : Bytes}
    (hopened : (run (resourceStep r) ⟨c, [], none⟩ calls).opened = some C)
    (hchanged : (run (resourceStep r) ⟨c, [], none⟩ calls).client.os.content (r.names room).orig ≠
      some C) :
    (run (resourceStep r) ⟨c, [], none⟩ calls).client.os.content (r.names room).backup = some C ∧
      (run (resourceStep r) ⟨c, [], none⟩ calls).client.os.content (r.names room).csum =
        some (csumOf C) := by
  have start : Ahead r room ⟨c, [], none⟩ :=
    ⟨h, hrecords, iff_of_true rfl rfl, fun fd hfd => absurd hfd List.not_mem_nil, nofun⟩
  have ahead := run_invariant (fun s call hs => hs.step call) start hok
  rcases ahead.backed C hopened with hsaved | ⟨hsame, -⟩
  · exact hsaved
  · exact absurd hsame hchanged

def csumFault : Env := fun _ path =>
  if path = csumPath CommonObject.standard .wc (document .readWrite).dbContext.dbPath then
    some (.err .other)
  else none

/-- The checksum file cannot be made, the status says that the backup is, and
the document is written. -/
theorem failed_checksum_is_written_over :
    ¬ ∀ (calls : List ResourceCall) (C : Bytes),
      (run (resourceStep (document .readWrite)) ⟨docStart .readWrite [65], [], none⟩ calls).opened =
        some C →
      (run (resourceStep (document .readWrite)) ⟨docStart .readWrite [65], [], none⟩
        calls).client.os.content ((document .readWrite).names CommonObject.standard_roomy).orig ≠
          some C →
      (run (resourceStep (document .readWrite)) ⟨docStart .readWrite [65], [], none⟩
        calls).client.os.content ((document .readWrite).names CommonObject.standard_roomy).csum =
          some (csumOf C) := by
  intro h
  exact absurd (h [.fileOpen .reliable, .fileWriteData csumFault 3 [66]] [65] (by decide +kernel)
    (by decide +kernel)) (by decide +kernel)

theorem written_document_has_backup :
    (run (resourceStep (document .readWrite)) ⟨docStart .readWrite [65], [], none⟩
        [.fileOpen .reliable, .fileWriteData .reliable 3 [66]]).client.os.content
        ((document .readWrite).names CommonObject.standard_roomy).backup = some [65] ∧
      (run (resourceStep (document .readWrite)) ⟨docStart .readWrite [65], [], none⟩
        [.fileOpen .reliable, .fileWriteData .reliable 3 [66]]).client.os.content
        ((document .readWrite).names CommonObject.standard_roomy).csum = some (csumOf [65]) := by
  have needs : (document .readWrite).NeedsBackup (docStart .readWrite [65]) :=
    ⟨by decide, by decide, by decide +kernel⟩
  refine writeAhead_run CommonObject.standard_roomy needs (fun fd item hitem => ?_)
    [.fileOpen .reliable, .fileWriteData .reliable 3 [66]]
    ⟨⟨Env.quiet_reliable _, fun hne => absurd rfl hne⟩, fun _ _ => ⟨Env.quiet_reliable _,
      Env.quiet_reliable _, ?_, Or.inl ?_⟩, trivial⟩ ?_ ?_
  · cases hitem
  all_goals decide +kernel

end Run

end PersClient.File
