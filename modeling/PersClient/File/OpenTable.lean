import PersClient.File.Openings
import PersClient.File.Session

/-! # The table of open files

In an orderly run the records are those of the descriptors that `pclFileOpen`
returned and `pclFileClose` has not closed since, the list of open files has no
other descriptor and none twice, and besides these the descriptors that were open
before are open. Whether a run is orderly is told call by call.
-/

namespace PersClient.File

open Access Crash Handle

section Calls

variable {com : CommonObject} {appId : CStr} {env : Env} {c : Client} {fd : ℤ} {buffer : Bytes}

def Os.Takes (env : Env) (fd : ℤ) (os : Os) : Prop :=
  match os.fds.get fd with
  | some f => f.writable ∧ env.admits os.clock f.path
  | none => False

instance (os : Os) : Decidable (os.Takes env fd) := by
  unfold Os.Takes
  split <;> infer_instance

theorem Os.write_refused {os : Os} (h : ¬ os.Takes env fd) :
    (os.write env fd buffer).1 < 0 ∧ os.Same (os.write env fd buffer).2 := by
  unfold Takes at h
  unfold write
  cases hget : os.fds.get fd with
  | none => exact ⟨neg_one_lt_zero, rfl, rfl⟩
  | some f =>
    rw [hget] at h
    dsimp only
    by_cases hwritable : f.writable = true
    · rw [if_pos hwritable]
      have hadmits : env.admits os.clock f.path = false := by
        rw [← Bool.not_eq_true]
        exact fun hadmits => h ⟨hwritable, hadmits⟩
      obtain ⟨e, henv, -⟩ := Env.openPath_refuses oRdonly hadmits
      rw [henv]
      exact ⟨neg_one_lt_zero, rfl, rfl⟩
    · rw [if_neg hwritable]
      exact ⟨neg_one_lt_zero, rfl, rfl⟩

theorem Os.write_taken {os : Os} (h : os.Takes env fd) : 0 ≤ (os.write env fd buffer).1 := by
  unfold Takes at h
  unfold write
  cases hget : os.fds.get fd with
  | none =>
    rw [hget] at h
    exact h.elim
  | some f =>
    rw [hget] at h
    dsimp only
    rw [if_pos h.1]
    have hadmits := h.2
    unfold Env.admits at hadmits
    cases henv : env os.clock f.path with
    | none => exact Int.natCast_nonneg _
    | some fault =>
      cases fault with
      | err e =>
        rw [henv] at hadmits
        cases hadmits
      | short n => exact Int.natCast_nonneg _

theorem backupBeforeWrite_unmoved (com : CommonObject) (env : Env) (fd : ℤ) (c : Client) :
    c.Unmoved (backupBeforeWrite com env fd c) := by
  unfold backupBeforeWrite
  split
  swap
  · exact .refl c
  rename_i hstatus
  have hsum := (Os.Opens.refl c.os).keeps (pclCalcCrc32Csum_keeps fd c.os)
  have hrecord : (Tree.lookup c.gFileHandleTree fd).isSome := by
    cases hlookup : Tree.lookup c.gFileHandleTree fd with
    | none =>
      have hzero := hstatus.1
      rw [getFileBackupStatus, hlookup] at hzero
      cases hzero
    | some item => rfl
  refine ⟨?_, fun x => ?_, rfl⟩
  · dsimp only
    split
    · exact pclCreateBackup_opens hsum com env _ fd _ _
    · exact hsum
  · refine isSome_lookup_setItem.trans ⟨?_, Or.inr⟩
    rintro (rfl | hx)
    · exact hrecord
    · exact hx

theorem pclFileWriteData_unmoved : c.Unmoved (pclFileWriteData com env fd buffer c).2 := by
  unfold pclFileWriteData
  split
  swap
  · exact .refl c
  split
  swap
  · exact .refl c
  split
  · exact .refl c
  · split
    swap
    · exact .refl c
    have hbackup := backupBeforeWrite_unmoved com env fd c
    have hwrite := Os.write_keeps env fd buffer (backupBeforeWrite com env fd c).os
    refine hbackup.trans (Client.unmoved_os (Os.Opens.keeps (.refl _) ?_))
    split
    · exact hwrite.trans (Os.fsync_frame fd _).2
    · exact hwrite

/-- How `pclFileClose` ends: refused, or the descriptor is closed and forgotten. -/
theorem pclFileClose_cases (fd : ℤ) (c : Client) :
    ((pclFileClose fd c).1 < 0 ∧ (pclFileClose fd c).2 = c) ∨
      ∃ os, c.os.Keeps os ∧ pclFileClose fd c = ((os.close fd).1, { c with
        os := (os.close fd).2
        gFileHandleTree := removeFileHandleData c.gFileHandleTree fd
        gOpenFdList := listItemRemove c.gOpenFdList fd }) := by
  unfold pclFileClose
  split
  swap
  · exact Or.inl ⟨show epersNotInitialized < 0 by decide, rfl⟩
  split
  · exact Or.inl ⟨show epersMaxhandle < 0 by decide, rfl⟩
  · extract_lets os₁
    refine Or.inr ⟨(os₁.fsync fd).2, ?_, rfl⟩
    have hk : c.os.Keeps os₁ := by
      unfold os₁
      split
      · exact (remove_keeps _ c.os).trans (remove_keeps _ _)
      · exact .refl c.os
    exact hk.trans (Os.fsync_frame fd os₁).2

end Calls

section Holder

/-- A client with the descriptors that `pclFileOpen` returned and `pclFileClose`
has not closed since. Each of them stands open. -/
structure Holder where
  client : Client
  held : Finset ℤ
  stands : ∀ fd ∈ held, (client.os.fds.get fd).isSome

variable (com : CommonObject) (appId : CStr)

def heldAfter (c : Client) (held : Finset ℤ) : FileCall → Finset ℤ
  | .fileOpen env ctx resourceId userNo seatNo =>
    let fd := (pclFileOpen com appId env ctx resourceId userNo seatNo c).1
    if 0 ≤ fd then insert fd held else held
  | .fileClose fd => if (pclFileClose fd c).1 = 0 then held.erase fd else held
  | _ => held

variable {c : Client}

theorem pclFileOpen_ends (env : Env) (ctx : DbContext) (resourceId : CStr)
    (userNo seatNo : UInt32) (c : Client) :
    let r := pclFileOpen com appId env ctx resourceId userNo seatNo c
    r.1 < 0 ∨ 0 ≤ r.1 ∧ c.Gains r.2 r.1 := by
  by_cases hinit : 0 < c.gPclInitCounter
  swap
  · left
    unfold pclFileOpen
    rw [if_neg hinit]
    exact show epersNotInitialized < 0 by decide
  by_cases hfile : ctx.configKey.type = .file
  swap
  · left
    unfold pclFileOpen
    rw [if_pos hinit, if_neg hfile]
    exact show epersResourceNoFile < 0 by decide
  have hsettles := pclFileOpen_settles com appId env resourceId userNo seatNo hinit hfile
  by_cases horderly : OrderlyOpen com appId env ctx resourceId userNo seatNo c
  · exact (hsettles.1 horderly).imp_left And.left
  · exact Or.inl (hsettles.2 horderly).1

variable {com appId} in
theorem heldAfter_stands {held : Finset ℤ} (hheld : ∀ fd ∈ held, (c.os.fds.get fd).isSome)
    (call : FileCall) : ∀ fd ∈ heldAfter com appId c held call,
      ((fileStep com appId c call).os.fds.get fd).isSome := by
  have spared : ∀ fd ∈ held, call ≠ .fileClose fd →
      ((fileStep com appId c call).os.fds.get fd).isSome := fun fd hfd hne =>
    (fileStep_spares call (hheld fd hfd) hne).open (hheld fd hfd)
  intro x hx
  cases call with
  | fileOpen env ctx resourceId userNo seatNo =>
    simp only [heldAfter] at hx
    split at hx
    · rename_i hpos
      rcases Finset.mem_insert.mp hx with rfl | hx
      · rcases pclFileOpen_ends com appId env ctx resourceId userNo seatNo c
          with hneg | ⟨-, hgains⟩
        · omega
        · exact (hgains.opens.opened _ (Set.mem_insert _ _)).2
      · exact spared x hx (by simp)
    · exact spared x hx (by simp)
  | fileClose fd =>
    simp only [heldAfter] at hx
    by_cases hxfd : x = fd
    · subst hxfd
      split at hx
      · exact absurd hx (Finset.notMem_erase x held)
      · rename_i hfailed
        rcases pclFileClose_cases x c with ⟨-, hsame⟩ | ⟨os, hkeeps, heq⟩
        · simp only [fileStep, hsame]
          exact hheld x hx
        · obtain ⟨f, hf⟩ := Option.isSome_iff_exists.mp
            ((hkeeps.isSome x).trans (hheld x hx))
          obtain ⟨os', hclosed, -, -⟩ := Os.close_open hf
          rw [heq, hclosed] at hfailed
          exact absurd rfl hfailed
    · have hx : x ∈ held := by
        split at hx
        · exact Finset.mem_of_mem_erase hx
        · exact hx
      exact spared x hx fun heq => hxfd (FileCall.fileClose.inj heq).symm
  | fileSeek fd offset whence => exact spared x hx (by simp)
  | fileReadData fd count => exact spared x hx (by simp)
  | fileWriteData env fd buffer => exact spared x hx (by simp)
  | fileRemove ctx => exact spared x hx (by simp)
  | fileCreatePath env ctx resourceId userNo seatNo => exact spared x hx (by simp)
  | fileReleasePath pathHandle => exact spared x hx (by simp)

def Holder.step (h : Holder) (call : FileCall) : Holder where
  client := fileStep com appId h.client call
  held := heldAfter com appId h.client h.held call
  stands := heldAfter_stands h.stands call

/-- The library as it is, with no descriptor handed out. -/
def Holder.start (c : Client) : Holder where
  client := c
  held := ∅
  stands fd h := absurd h (Finset.notMem_empty fd)

end Holder

section Exact

/-- The table of open files is exact, for a run that started in `os`. -/
structure Holder.Exact (os : Os) (h : Holder) : Prop where
  records : ∀ fd, h.client.Records fd ↔ fd ∈ h.held
  listed : ∀ fd ∈ h.client.gOpenFdList, fd ∈ h.held
  nodup : h.client.gOpenFdList.Nodup
  /-- besides those held the descriptors open before the run are open -/
  others : ∀ fd ∉ h.held, (h.client.os.fds.get fd).isSome = (os.fds.get fd).isSome
  fresh : ∀ fd ∈ h.held, os.fds.get fd = none

/-- A close or a write on an integer that is not held reports an error, and closes
or writes nothing. -/
def Holder.Refuses (com : CommonObject) (h : Holder) : FileCall → Prop
  | .fileClose fd => fd ∉ h.held →
    (pclFileClose fd h.client).1 < 0 ∧ h.client.os.Same (pclFileClose fd h.client).2.os
  | .fileWriteData env fd buffer => fd ∉ h.held →
    (pclFileWriteData com env fd buffer h.client).1 < 0 ∧
      h.client.os.Same (pclFileWriteData com env fd buffer h.client).2.os
  | _ => True

variable (com : CommonObject) (appId : CStr)

/-- The call keeps the table exact: an opening and the creation of a path are
orderly, and a close or a write comes after the table was made, or would fail. -/
def Orderly (c : Client) : FileCall → Prop
  | .fileOpen env ctx resourceId userNo seatNo => 0 < c.gPclInitCounter →
    ctx.configKey.type = .file → OrderlyOpen com appId env ctx resourceId userNo seatNo c
  | .fileCreatePath env ctx _ _ _ => 0 < c.gPclInitCounter →
    ctx.configKey.type = .file → OrderlyPath com env ctx c
  | .fileClose fd => 0 < c.gPclInitCounter →
    c.gFileHandleTree.isSome ∨ c.os.fds.get fd = none
  | .fileWriteData env fd _ => 0 < c.gPclInitCounter → ¬ Locked c.loop →
    c.gFileHandleTree.isSome ∨ ¬ c.os.Takes env fd
  | _ => True

instance (c : Client) (call : FileCall) : Decidable (Orderly com appId c call) := by
  cases call <;> unfold Orderly <;> infer_instance

variable {com appId} {os : Os} {h : Holder}

theorem Holder.start_exact {c : Client} (hrecords : ∀ fd, ¬ c.Records fd)
    (hlist : c.gOpenFdList = []) : (Holder.start c).Exact c.os where
  records fd := iff_of_false (hrecords fd) (Finset.notMem_empty fd)
  listed fd hfd := by
    have hfd : fd ∈ c.gOpenFdList := hfd
    rw [hlist] at hfd
    cases hfd
  nodup := by
    show c.gOpenFdList.Nodup
    rw [hlist]
    exact List.nodup_nil
  others _ _ := rfl
  fresh fd hfd := absurd hfd (Finset.notMem_empty fd)

namespace Holder.Exact

variable {h' : Holder} (hexact : h.Exact os)
include hexact

theorem unmoved (hunmoved : h.client.Unmoved h'.client) (hheld : h'.held = h.held) :
    h'.Exact os := by
  refine ⟨fun fd => ?_, fun fd hfd => ?_, ?_, fun fd hfd => ?_, fun fd hfd => ?_⟩
  · rw [hheld]
    exact (hunmoved.records fd).trans (hexact.records fd)
  · rw [hunmoved.list] at hfd
    rw [hheld]
    exact hexact.listed fd hfd
  · rw [hunmoved.list]
    exact hexact.nodup
  · rw [hheld] at hfd
    exact (hunmoved.isSome fd).trans (hexact.others fd hfd)
  · rw [hheld] at hfd
    exact hexact.fresh fd hfd

theorem gains {fd : ℤ} (hgains : h.client.Gains h'.client fd) (hheld : h'.held = insert fd h.held) :
    h'.Exact os := by
  have hfree := (hgains.opens.opened fd (Set.mem_insert fd ∅)).1
  have hnew : fd ∉ h.held := by
    intro hmem
    have hopen := h.stands fd hmem
    rw [hfree] at hopen
    cases hopen
  refine ⟨fun x => ?_, fun x hx => ?_, ?_, fun x hx => ?_, fun x hx => ?_⟩
  · rw [hheld, Finset.mem_insert, ← hexact.records]
    exact hgains.records x
  · rw [hheld, Finset.mem_insert]
    rcases hgains.list with heq | heq
    · rw [heq] at hx
      exact Or.inr (hexact.listed x hx)
    · rw [heq, listItemInsert, List.mem_append, List.mem_singleton] at hx
      exact hx.symm.imp_right (hexact.listed x)
  · rcases hgains.list with heq | heq
    · rw [heq]
      exact hexact.nodup
    · rw [heq, listItemInsert]
      refine hexact.nodup.append (List.nodup_singleton fd) ?_
      rw [List.disjoint_singleton]
      exact fun hmem => hnew (hexact.listed fd hmem)
  · rw [hheld, Finset.mem_insert, not_or] at hx
    have hkept := hgains.opens.kept x (by simpa using hx.1)
    have hsome := congrArg Option.isSome hkept
    rw [Option.isSome_map, Option.isSome_map] at hsome
    exact hsome.trans (hexact.others x hx.2)
  · rw [hheld] at hx
    rcases Finset.mem_insert.mp hx with rfl | hx
    · have hother := hexact.others x hnew
      rw [hfree] at hother
      exact Option.not_isSome_iff_eq_none.mp (by rw [← hother]; exact Bool.false_ne_true)
    · exact hexact.fresh x hx

theorem made {fd : ℤ} (hmem : fd ∈ h.held) : h.client.gFileHandleTree.isSome := by
  have hrecord := (hexact.records fd).mpr hmem
  unfold Client.Records at hrecord
  cases htree : h.client.gFileHandleTree with
  | none =>
    rw [htree] at hrecord
    cases hrecord
  | some tree => rfl

/-- A record without an open file is none of a descriptor held, and a descriptor
opened besides is one too many. -/
theorem not_astray (hastray : h.client.Astray h'.client) (hheld : h'.held = h.held) :
    ¬ h'.Exact os := by
  intro hexact'
  cases hastray with
  | record hrecord hclosed =>
    have hopen := h'.stands _ ((hexact'.records _).mp hrecord)
    rw [hclosed] at hopen
    cases hopen
  | @descriptor x hfree hopen =>
    have hnew : x ∉ h.held := by
      intro hmem
      have hstood := h.stands x hmem
      rw [hfree] at hstood
      cases hstood
    have hbefore := hexact.others x hnew
    have hafter := hexact'.others x (by rw [hheld]; exact hnew)
    rw [← hbefore, hfree, hopen] at hafter
    cases hafter

theorem closed {fd : ℤ} {os₁ : Os} (hmem : fd ∈ h.held) (hkeeps : h.client.os.Keeps os₁)
    (hclient : h'.client = { h.client with
      os := (os₁.close fd).2
      gFileHandleTree := removeFileHandleData h.client.gFileHandleTree fd
      gOpenFdList := listItemRemove h.client.gOpenFdList fd })
    (hheld : h'.held = h.held.erase fd) : h'.Exact os := by
  obtain ⟨f, hf⟩ := Option.isSome_iff_exists.mp ((hkeeps.isSome fd).trans (h.stands fd hmem))
  obtain ⟨os₂, heq, -, hget⟩ := Os.close_open hf
  rw [heq] at hclient
  have hstands : ∀ x, x ≠ fd → (os₂.fds.get x).isSome = (h.client.os.fds.get x).isSome := by
    intro x hx
    rw [hget, Function.update_of_ne hx, hkeeps.isSome]
  refine ⟨fun x => ?_, fun x hx => ?_, ?_, fun x hx => ?_, fun x hx => ?_⟩
  · rw [hheld, hclient, Finset.mem_erase, ← hexact.records]
    unfold Client.Records
    rw [lookup_removeFileHandleData]
    by_cases hx : x = fd
    · simp [hx]
    · simp [hx]
  · rw [hclient] at hx
    rw [hheld, Finset.mem_erase]
    have hx := (hexact.nodup.mem_erase_iff).mp hx
    exact ⟨hx.1, hexact.listed x hx.2⟩
  · rw [hclient]
    exact hexact.nodup.erase fd
  · rw [hheld, Finset.mem_erase, not_and'] at hx
    rw [hclient]
    by_cases hxfd : x = fd
    · rw [hxfd, hexact.fresh fd hmem]
      show (os₂.fds.get fd).isSome = _
      rw [hget, Function.update_self]
    · exact (hstands x hxfd).trans (hexact.others x fun hmem => hx hmem hxfd)
  · rw [hheld] at hx
    exact hexact.fresh x (Finset.mem_of_mem_erase hx)

end Holder.Exact

end Exact

section Steps

variable {com : CommonObject} {appId : CStr} {os : Os} {h : Holder}

theorem open_exact_iff (hexact : h.Exact os) (env : Env) (ctx : DbContext) (resourceId : CStr)
    (userNo seatNo : UInt32) :
    (h.step com appId (.fileOpen env ctx resourceId userNo seatNo)).Exact os ↔
      Orderly com appId h.client (.fileOpen env ctx resourceId userNo seatNo) := by
  have failed : ∀ {r}, pclFileOpen com appId env ctx resourceId userNo seatNo h.client = r →
      r.1 < 0 →
      (h.step com appId (.fileOpen env ctx resourceId userNo seatNo)).held = h.held ∧
      (h.step com appId (.fileOpen env ctx resourceId userNo seatNo)).client = r.2 := by
    rintro r rfl hneg
    refine ⟨?_, rfl⟩
    simp only [Holder.step, heldAfter]
    rw [if_neg (not_le.mpr hneg)]
  unfold Orderly
  by_cases hinit : 0 < h.client.gPclInitCounter
  swap
  · refine iff_of_true ?_ fun h0 => absurd h0 hinit
    obtain ⟨hheld, hclient⟩ := failed (r := (epersNotInitialized, h.client))
      (by rw [pclFileOpen, if_neg hinit]) (show epersNotInitialized < 0 by decide)
    exact hexact.unmoved (by rw [hclient]; exact .refl _) hheld
  by_cases hfile : ctx.configKey.type = .file
  swap
  · refine iff_of_true ?_ fun _ h0 => absurd h0 hfile
    obtain ⟨hheld, hclient⟩ := failed (r := (epersResourceNoFile, h.client))
      (by rw [pclFileOpen, if_pos hinit, if_neg hfile]) (show epersResourceNoFile < 0 by decide)
    exact hexact.unmoved (by rw [hclient]; exact .refl _) hheld
  have hsettles := pclFileOpen_settles com appId env resourceId userNo seatNo hinit hfile
  simp only [hinit, hfile, forall_const]
  by_cases horderly : OrderlyOpen com appId env ctx resourceId userNo seatNo h.client
  · refine iff_of_true ?_ horderly
    rcases hsettles.1 horderly with ⟨hneg, hunmoved⟩ | ⟨hpos, hgains⟩
    · obtain ⟨hheld, hclient⟩ := failed rfl hneg
      exact hexact.unmoved (by rw [hclient]; exact hunmoved) hheld
    · refine hexact.gains hgains ?_
      simp only [Holder.step, heldAfter]
      rw [if_pos hpos]
  · refine iff_of_false ?_ horderly
    obtain ⟨hneg, hastray⟩ := hsettles.2 horderly
    obtain ⟨hheld, hclient⟩ := failed rfl hneg
    exact hexact.not_astray (by rw [hclient]; exact hastray) hheld

theorem createPath_exact_iff (hexact : h.Exact os) (env : Env) (ctx : DbContext)
    (resourceId : CStr) (userNo seatNo : UInt32) :
    (h.step com appId (.fileCreatePath env ctx resourceId userNo seatNo)).Exact os ↔
      Orderly com appId h.client (.fileCreatePath env ctx resourceId userNo seatNo) := by
  unfold Orderly
  by_cases hinit : 0 < h.client.gPclInitCounter
  swap
  · refine iff_of_true (hexact.unmoved ?_ rfl) fun h0 => absurd h0 hinit
    simp only [Holder.step, fileStep, pclFileCreatePath, if_neg hinit]
    exact .refl _
  by_cases hfile : ctx.configKey.type = .file
  swap
  · refine iff_of_true (hexact.unmoved ?_ rfl) fun _ h0 => absurd h0 hfile
    simp only [Holder.step, fileStep, pclFileCreatePath, if_pos hinit, if_neg hfile]
    exact .refl _
  have hsettles := pclFileCreatePath_settles com appId env resourceId userNo seatNo hinit hfile
  simp only [hinit, hfile, forall_const]
  by_cases horderly : OrderlyPath com env ctx h.client
  · exact iff_of_true (hexact.unmoved (hsettles.1 horderly) rfl) horderly
  · exact iff_of_false (hexact.not_astray (hsettles.2 horderly) rfl) horderly

theorem close_held (hexact : h.Exact os) {fd : ℤ} (hmem : fd ∈ h.held) :
    (h.step com appId (.fileClose fd)).Exact os := by
  rcases pclFileClose_cases fd h.client with ⟨hneg, hsame⟩ | ⟨os₁, hkeeps, heq⟩
  · refine hexact.unmoved ?_ ?_
    · simp only [Holder.step, fileStep, hsame]
      exact .refl _
    · simp only [Holder.step, heldAfter]
      rw [if_neg (by omega)]
  · obtain ⟨f, hf⟩ := Option.isSome_iff_exists.mp ((hkeeps.isSome fd).trans (h.stands fd hmem))
    obtain ⟨os₂, hclosed, -, -⟩ := Os.close_open hf
    refine hexact.closed hmem hkeeps ?_ ?_
    · simp only [Holder.step, fileStep, heq]
    · simp only [Holder.step, heldAfter, heq, hclosed, if_true]

/-- A descriptor that is not held has no record: its close is refused, or the
table was not made yet. -/
theorem close_exact_iff (hexact : h.Exact os) (fd : ℤ) :
    (h.Refuses com (.fileClose fd) ∧ (h.step com appId (.fileClose fd)).Exact os) ↔
      Orderly com appId h.client (.fileClose fd) := by
  by_cases hmem : fd ∈ h.held
  · refine iff_of_true ⟨fun hnot => absurd hmem hnot, close_held hexact hmem⟩ fun _ => Or.inl ?_
    exact hexact.made hmem
  have hnone : Tree.lookup h.client.gFileHandleTree fd = none :=
    Option.not_isSome_iff_eq_none.mp fun hrecord => hmem ((hexact.records fd).mp hrecord)
  have refused : ∀ {r}, pclFileClose fd h.client = r → r.1 < 0 → h.client.os.Same r.2.os →
      r.2.gOpenFdList = h.client.gOpenFdList → (∀ x, r.2.Records x ↔ h.client.Records x) →
      h.Refuses com (.fileClose fd) ∧ (h.step com appId (.fileClose fd)).Exact os := by
    intro r heq hneg hsame hlist hrecords
    refine ⟨fun _ => by rw [heq]; exact ⟨hneg, hsame⟩, hexact.unmoved ?_ ?_⟩
    · simp only [Holder.step, fileStep, heq]
      exact ⟨Os.Opens.keeps (.refl _) hsame.keeps, hrecords, hlist⟩
    · simp only [Holder.step, heldAfter, heq]
      rw [if_neg (by omega)]
  unfold Orderly
  by_cases hinit : 0 < h.client.gPclInitCounter
  swap
  · refine iff_of_true (refused (r := (epersNotInitialized, h.client))
      (by rw [pclFileClose, if_neg hinit]) (show epersNotInitialized < 0 by decide) (.refl _) rfl
      fun _ => Iff.rfl)
      fun h0 => absurd h0 hinit
  simp only [hinit, forall_const]
  cases htree : h.client.gFileHandleTree with
  | some tree =>
    rw [htree] at hnone
    have hpermission : getFilePermission h.client.gFileHandleTree fd = none := by
      rw [htree, getFilePermission, hnone]
      rfl
    refine iff_of_true (refused (r := (epersMaxhandle, h.client)) ?_
      (show epersMaxhandle < 0 by decide) (.refl _) rfl fun _ => Iff.rfl) (Or.inl rfl)
    rw [pclFileClose, if_pos hinit, hpermission]
  | none =>
    have hclose : pclFileClose fd h.client =
        (((h.client.os.fsync fd).2.close fd).1, { h.client with
          os := ((h.client.os.fsync fd).2.close fd).2
          gFileHandleTree := none
          gOpenFdList := listItemRemove h.client.gOpenFdList fd }) := by
      unfold pclFileClose
      rw [if_pos hinit, htree]
      rfl
    cases hget : h.client.os.fds.get fd with
    | none =>
      have hsync : h.client.os.fsync fd = (-1, h.client.os.fail .other) := by
        rw [Os.fsync, hget]
      have hnot : (h.client.os.fail .other).fds.get fd = none := hget
      obtain ⟨os₂, hfailed, hsame⟩ := Os.close_closed hnot
      rw [hsync, hfailed] at hclose
      refine iff_of_true (refused hclose neg_one_lt_zero ⟨hsame.disk, hsame.get⟩ ?_ fun x => ?_)
        (Or.inr rfl)
      · exact List.erase_of_not_mem fun hfd => hmem (hexact.listed fd hfd)
      · unfold Client.Records
        rw [htree]
    | some f =>
      obtain ⟨f', hf'⟩ := Option.isSome_iff_exists.mp
        (((Os.fsync_frame fd h.client.os).2.isSome fd).trans (by rw [hget]; rfl))
      obtain ⟨os₂, hclosed, -, -⟩ := Os.close_open hf'
      rw [hclosed] at hclose
      refine iff_of_false (fun hrefuses => ?_) (by simp)
      have hneg := (hrefuses.1 hmem).1
      rw [hclose] at hneg
      exact absurd hneg (lt_irrefl 0)

/-- A write never moves the table. Without a record it is refused, or the table was
not made yet. -/
theorem write_exact_iff (hexact : h.Exact os) (env : Env) (fd : ℤ) (buffer : Bytes) :
    (h.Refuses com (.fileWriteData env fd buffer) ∧
        (h.step com appId (.fileWriteData env fd buffer)).Exact os) ↔
      Orderly com appId h.client (.fileWriteData env fd buffer) := by
  have hstep : (h.step com appId (.fileWriteData env fd buffer)).Exact os :=
    hexact.unmoved pclFileWriteData_unmoved rfl
  by_cases hmem : fd ∈ h.held
  · refine iff_of_true ⟨fun hnot => absurd hmem hnot, hstep⟩ fun _ _ => Or.inl ?_
    exact hexact.made hmem
  have hnone : Tree.lookup h.client.gFileHandleTree fd = none :=
    Option.not_isSome_iff_eq_none.mp fun hrecord => hmem ((hexact.records fd).mp hrecord)
  rw [and_iff_left hstep]
  unfold Orderly Holder.Refuses
  simp only [hmem, not_false_eq_true, forall_const]
  unfold pclFileWriteData
  by_cases hinit : 0 < h.client.gPclInitCounter
  swap
  · rw [if_neg hinit]
    exact iff_of_true ⟨show epersNotInitialized < 0 by decide, .refl _⟩ fun h0 => absurd h0 hinit
  by_cases hlocked : Locked h.client.loop
  · rw [if_pos hinit, if_neg (not_not.mpr hlocked)]
    exact iff_of_true ⟨show epersLockfs < 0 by decide, .refl _⟩ fun _ h0 => absurd hlocked h0
  rw [if_pos hinit, if_pos hlocked]
  simp only [hinit, hlocked, not_false_eq_true, forall_const]
  cases htree : h.client.gFileHandleTree with
  | some tree =>
    rw [htree] at hnone
    rw [getFilePermission, hnone]
    exact iff_of_true ⟨show epersMaxhandle < 0 by decide, .refl _⟩ (Or.inl rfl)
  | none =>
    have hbackup : backupBeforeWrite com env fd h.client = h.client := by
      unfold backupBeforeWrite
      rw [if_neg]
      rw [htree]
      exact fun h0 => absurd h0.1 (show ¬ (-1 : ℤ) = 0 by decide)
    have hstatus : getFileCacheStatus h.client.gFileHandleTree fd ≠ 1 := by
      rw [htree]
      exact show ¬ (-1 : ℤ) = 1 by decide
    rw [getFilePermission]
    dsimp only
    rw [if_pos (by decide), hbackup]
    dsimp only
    rw [if_neg hstatus]
    by_cases htakes : h.client.os.Takes env fd
    · refine iff_of_false (fun hrefuses => ?_) (by simp [htakes])
      exact absurd (Os.write_taken htakes) (not_le.mpr hrefuses.1)
    · exact iff_of_true (Os.write_refused htakes) (Or.inr htakes)

theorem step_exact_iff (hexact : h.Exact os) (call : FileCall) :
    (h.Refuses com call ∧ (h.step com appId call).Exact os) ↔
      Orderly com appId h.client call := by
  cases call with
  | fileOpen env ctx resourceId userNo seatNo =>
    exact (and_iff_right trivial).trans (open_exact_iff hexact env ctx resourceId userNo seatNo)
  | fileClose fd => exact close_exact_iff hexact fd
  | fileSeek fd offset whence =>
    refine iff_of_true ⟨trivial, hexact.unmoved ?_ rfl⟩ trivial
    simp only [Holder.step, fileStep, pclFileSeek]
    split
    · split
      · exact Client.unmoved_os (Os.Opens.keeps (.refl _) (Os.lseek_frame fd offset whence _).2)
      · exact .refl _
    · exact .refl _
  | fileReadData fd count =>
    refine iff_of_true ⟨trivial, hexact.unmoved ?_ rfl⟩ trivial
    simp only [Holder.step, fileStep, pclFileReadData]
    split
    · exact Client.unmoved_os (Os.Opens.keeps (.refl _) (Os.read_frame fd count _).2)
    · exact .refl _
  | fileWriteData env fd buffer => exact write_exact_iff hexact env fd buffer
  | fileRemove ctx =>
    refine iff_of_true ⟨trivial, hexact.unmoved ?_ rfl⟩ trivial
    simp only [Holder.step, fileStep, pclFileRemove]
    split
    · split
      · split
        · exact Client.unmoved_os (Os.Opens.keeps (.refl _) (remove_keeps ctx.dbPath _))
        · exact .refl _
      · exact .refl _
    · exact .refl _
  | fileCreatePath env ctx resourceId userNo seatNo =>
    exact (and_iff_right trivial).trans
      (createPath_exact_iff hexact env ctx resourceId userNo seatNo)
  | fileReleasePath pathHandle =>
    refine iff_of_true ⟨trivial, hexact.unmoved ?_ rfl⟩ trivial
    simp only [Holder.step, fileStep, pclFileReleasePath]
    split
    · split
      · exact .refl _
      · refine ⟨?_, fun _ => Iff.rfl, rfl⟩
        dsimp only
        split
        · exact Os.Opens.keeps (.refl _) ((remove_keeps _ _).trans (remove_keeps _ _))
        · exact .refl _
    · exact .refl _

end Steps

section Runs

variable (com : CommonObject) (appId : CStr)

/-- In every state the run passes the table is exact, and every close and every
write on a descriptor that is not held is refused. -/
def TableHolds (c : Client) (calls : List FileCall) : Prop :=
  (∀ passed, passed <+: calls →
    (Steps.run (Holder.step com appId) (Holder.start c) passed).Exact c.os) ∧
  Steps.Guarded (Holder.step com appId) (fun h call => h.Refuses com call) (Holder.start c) calls

/-- Starting without a record, the table of open files holds throughout a run
exactly when every call of it is orderly. -/
theorem tableHolds_iff_orderly {c : Client} (hrecords : ∀ fd, ¬ c.Records fd)
    (hlist : c.gOpenFdList = []) (calls : List FileCall) :
    TableHolds com appId c calls ↔
      Steps.Guarded (Holder.step com appId) (fun h call => Orderly com appId h.client call)
        (Holder.start c) calls := by
  have hstep : ∀ (h : Holder) (call : FileCall), h.Exact c.os →
      (h.Refuses com call ∧ (h.step com appId call).Exact c.os ↔
        Orderly com appId h.client call) := fun _ call hexact => step_exact_iff hexact call
  exact Steps.holds_iff_guarded hstep (Holder.start_exact hrecords hlist)

/-- The document is opened, written and closed. -/
def openWriteClose : List FileCall :=
  [.fileOpen .reliable (document .readWrite).dbContext (document .readWrite).resourceId 0 0,
    .fileWriteData .reliable 3 [66], .fileClose 3]

theorem document_tableHolds :
    TableHolds .standard (cstr "app") (docStart .readWrite [65]) openWriteClose :=
  (tableHolds_iff_orderly .standard (cstr "app") (fun _ hrecord => Bool.noConfusion hrecord) rfl
    openWriteClose).mpr (by decide +kernel)

def openDefaults : FileCall :=
  .fileOpen .reliable (document .readWrite).dbContext (document .readWrite).resourceId
    pclUserDefaultdata 0

/-- The record of the error stays under the key -1. -/
theorem missing_defaults_recorded :
    ¬ ∀ calls, TableHolds .standard (cstr "app") (docStart .readWrite [65]) calls := by
  intro h
  have hexact := (h [openDefaults]).1 [openDefaults] (List.prefix_refl _)
  have hheld : (-1 : ℤ) ∉ (Steps.run (Holder.step .standard (cstr "app"))
      (Holder.start (docStart .readWrite [65])) [openDefaults]).held := by decide +kernel
  have hrecord : (Steps.run (Holder.step .standard (cstr "app"))
      (Holder.start (docStart .readWrite [65])) [openDefaults]).client.Records (-1) := by
    unfold Client.Records
    decide +kernel
  exact hheld ((hexact.records (-1)).mp hrecord)

end Runs

end PersClient.File
