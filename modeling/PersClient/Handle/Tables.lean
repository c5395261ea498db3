import PersClient.File.Client
import PersClient.Handle.Pool
import PersClient.Lib.Steps

/-! # Key handles and path handles

One pool serves the key handle tree and the path handle tree. As long as no
handle is asked of an exhausted pool, none is released before the path tree
exists and no full shutdown happens with handles open, the trees hold disjoint
live handles and each key handle leads to the context it was opened for.
-/

namespace PersClient.Handle

open File Steps

inductive Event
  | keyHandleOpen (ctx : DbContext) (ldbid : UInt32) (resourceId : CStr) (userNo seatNo : UInt32)
  | keyHandleClose (handle : ℤ)
  | fileCreatePath (env : Env) (ctx : DbContext) (resourceId : CStr) (userNo seatNo : UInt32)
  | fileReleasePath (handle : ℤ)
  | fullShutdown

/-- The client, and for every key handle the context of the open that returned
it, until the handle is closed. -/
structure Traced where
  client : Client
  opened : ℤ → Option PersistenceKeyHandle

variable (com : CommonObject) (appId : CStr)

def step (s : Traced) : Event → Traced
  | .keyHandleOpen ctx ldbid resourceId userNo seatNo =>
    let (h, client) := pclKeyHandleOpen com ctx ldbid resourceId userNo seatNo s.client
    { client, opened :=
        if 0 < h then Function.update s.opened h (some ⟨ldbid, userNo, seatNo, resourceId⟩)
        else s.opened }
  | .keyHandleClose h =>
    let (rval, client) := pclKeyHandleClose h s.client
    { client, opened := if 0 ≤ rval then Function.update s.opened h none else s.opened }
  | .fileCreatePath env ctx resourceId userNo seatNo =>
    { s with client := (pclFileCreatePath com appId env ctx resourceId userNo seatNo s.client).2 }
  | .fileReleasePath h => { s with client := (pclFileReleasePath h s.client).2 }
  | .fullShutdown =>
    { client := File.processPrepareShutdown Access.shutdownFull s.client, opened := fun _ => none }

/-- The handle an opening call returns. -/
def returned (s : Traced) : Event → Option ℤ
  | .keyHandleOpen ctx ldbid resourceId userNo seatNo =>
    some (pclKeyHandleOpen com ctx ldbid resourceId userNo seatNo s.client).1
  | .fileCreatePath env ctx resourceId userNo seatNo =>
    some (pclFileCreatePath com appId env ctx resourceId userNo seatNo s.client).1
  | .keyHandleClose _ | .fileReleasePath _ | .fullShutdown => none

namespace Traced

def KeyOpen (s : Traced) (h : ℤ) : Prop := (getKeyHandleData s.client.gKeyHandleTree h).isSome

def PathOpen (s : Traced) (h : ℤ) : Prop := (Tree.lookup s.client.gOssFileHandleTree h).isSome

end Traced

/-- The condition on a step: an open that asks for a handle finds one and an
identifier that fits its field; a path handle is released only after one has
been made; a full shutdown finds no handle open. -/
def Allowed (s : Traced) : Event → Prop
  | .keyHandleOpen ctx _ resourceId _ _ => ctx.configKey.type = .key →
      ¬ s.client.pool.Exhausted ∧ resourceId.length < com.maxLengthKeyName
  | .keyHandleClose _ => True
  | .fileCreatePath _ ctx _ _ _ => ctx.configKey.type = .file → ¬ s.client.pool.Exhausted
  | .fileReleasePath _ => s.client.gOssFileHandleTree.isSome
  | .fullShutdown => ∀ h, ¬ s.KeyOpen h ∧ ¬ s.PathOpen h

/-- The state after `pclInitLibrary`: empty trees and a fresh pool. -/
def Started (s : Traced) : Prop :=
  s.client.pool = HandlePool.reset ∧ (∀ h, ¬ s.KeyOpen h ∧ ¬ s.PathOpen h) ∧
    s.opened = fun _ => none

structure TableInv (s : Traced) : Prop where
  pool_wf : s.client.pool.Wf
  key_live : ∀ h, s.KeyOpen h → s.client.pool.Live h
  path_live : ∀ h, s.PathOpen h → s.client.pool.Live h
  disjoint : ∀ h, ¬ (s.KeyOpen h ∧ s.PathOpen h)
  opened_eq : ∀ h, getKeyHandleData s.client.gKeyHandleTree h = s.opened h

structure SameTables (c c' : Client) : Prop where
  pool : c'.pool = c.pool
  key : c'.gKeyHandleTree = c.gKeyHandleTree
  path : c'.gOssFileHandleTree = c.gOssFileHandleTree

theorem SameTables.refl (c : Client) : SameTables c c := ⟨rfl, rfl, rfl⟩

theorem SameTables.trans {c d e : Client} (h : SameTables c d) (h' : SameTables d e) :
    SameTables c e := ⟨h'.pool.trans h.pool, h'.key.trans h.key, h'.path.trans h.path⟩

section Frame

variable {com appId} {env : Env} {ctx : DbContext} {resourceId : CStr} {c : Client}

theorem pclFileClose_sameTables (fd : ℤ) : SameTables c (pclFileClose fd c).2 := by
  unfold pclFileClose
  split
  · split
    · exact .refl c
    · exact ⟨rfl, rfl, rfl⟩
  · exact .refl c

theorem listIterate_sameTables {callback : ℤ → Client → Client}
    (hcb : ∀ fd c, SameTables c (callback fd c)) (list : List ℤ) :
    SameTables c (listIterate callback list c) := by
  unfold listIterate
  induction list generalizing c with
  | nil => exact .refl c
  | cons fd list ih => exact (hcb fd c).trans ih

variable (com appId env ctx resourceId c) in
theorem createForPath_sameTables :
    SameTables c (createForPath com appId env ctx resourceId c) := by
  unfold createForPath
  split
  · dsimp only
    split <;> exact ⟨rfl, rfl, rfl⟩
  · exact .refl c

def DrawnForPath (c : Client) (r : ℤ × Client) : Prop :=
  r.1 = (getPersistenceHandleIdx c.pool).1 ∧
    r.2.pool = (getPersistenceHandleIdx c.pool).2 ∧ r.2.gKeyHandleTree = c.gKeyHandleTree ∧
    ∃ permission backup csum filePath, r.2.gOssFileHandleTree =
      setOssfileHandleData c.gOssFileHandleTree r.1 permission 0 backup csum filePath

theorem enterPath_drawn {c' : Client} {backup csum : CStr} (same : SameTables c c')
    (hpos : 0 < (getPersistenceHandleIdx c.pool).1)
    (hlt : (getPersistenceHandleIdx c.pool).1 < maxPersHandle) :
    DrawnForPath c (enterPath com appId env ctx resourceId backup csum c') := by
  unfold enterPath
  rw [same.pool]
  have hne : (getPersistenceHandleIdx c.pool).1 ≠ -1 := by omega
  simp only [hne, hlt, ne_eq, not_false_eq_true, if_true]
  have created := createForPath_sameTables com appId env ctx resourceId
    { c' with pool := (getPersistenceHandleIdx c.pool).2 }
  exact ⟨rfl, created.pool, created.key.trans same.key, _, _, _, _, by
    rw [created.path, same.path]⟩

theorem enterUnlisted_drawn {userNo seatNo : UInt32}
    (hpos : 0 < (getPersistenceHandleIdx c.pool).1)
    (hlt : (getPersistenceHandleIdx c.pool).1 < maxPersHandle) :
    DrawnForPath c (enterUnlisted com appId resourceId userNo seatNo c) := by
  unfold enterUnlisted
  have hne : (getPersistenceHandleIdx c.pool).1 ≠ -1 := by omega
  simp only [hne, hlt, ne_eq, not_false_eq_true, if_true]
  exact ⟨rfl, rfl, rfl, _, _, _, _, rfl⟩

variable (com appId env ctx resourceId c) in
theorem pclFileCreatePath_cases (userNo seatNo : UInt32) (inv : c.pool.Wf)
    (hallowed : ctx.configKey.type = .file → ¬ c.pool.Exhausted) :
    ((pclFileCreatePath com appId env ctx resourceId userNo seatNo c).1 ≤ 0 ∧
      SameTables c (pclFileCreatePath com appId env ctx resourceId userNo seatNo c).2) ∨
    (ctx.configKey.type = .file ∧
      DrawnForPath c (pclFileCreatePath com appId env ctx resourceId userNo seatNo c)) := by
  unfold pclFileCreatePath
  split
  · split
    · rename_i htype
      obtain ⟨-, -, hpos, hlt, -⟩ := inv.get (hallowed htype)
      have hlt : (getPersistenceHandleIdx c.pool).1 < (maxPersHandle : ℤ) := by omega
      split
      · split
        · dsimp only
          split
          · exact Or.inl ⟨show (-1 : ℤ) ≤ 0 by decide, ⟨rfl, rfl, rfl⟩⟩
          · exact Or.inr ⟨htype, enterPath_drawn ⟨rfl, rfl, rfl⟩ hpos hlt⟩
        · exact Or.inr ⟨htype, enterPath_drawn (.refl c) hpos hlt⟩
      · exact Or.inr ⟨htype, enterUnlisted_drawn hpos hlt⟩
    · exact Or.inl ⟨show epersResourceNoFile ≤ 0 by decide, .refl c⟩
  · exact Or.inl ⟨show epersNotInitialized ≤ 0 by decide, .refl c⟩

variable (com ctx resourceId c) in
theorem pclKeyHandleOpen_cases (ldbid userNo seatNo : UInt32) :
    ((pclKeyHandleOpen com ctx ldbid resourceId userNo seatNo c).1 ≤ 0 ∧
      (pclKeyHandleOpen com ctx ldbid resourceId userNo seatNo c).2 = c) ∨
    (ctx.configKey.type = .key ∧
      pclKeyHandleOpen com ctx ldbid resourceId userNo seatNo c =
        ((getPersistenceHandleIdx c.pool).1, { c with
          pool := (getPersistenceHandleIdx c.pool).2
          gKeyHandleTree := setKeyHandleData com c.gKeyHandleTree
            (getPersistenceHandleIdx c.pool).1 resourceId ldbid userNo seatNo })) := by
  unfold pclKeyHandleOpen
  split
  · split
    · rename_i hkey
      split
      · exact Or.inr ⟨hkey.2, rfl⟩
      · exact Or.inl ⟨show epersBadpol ≤ 0 by decide, rfl⟩
    · exact Or.inl ⟨show epersNotInitialized ≤ 0 by decide, rfl⟩
  · exact Or.inl ⟨show epersNotInitialized ≤ 0 by decide, rfl⟩

theorem pclKeyHandleClose_cases (h : ℤ) :
    ((pclKeyHandleClose h c).1 < 0 ∧ (pclKeyHandleClose h c).2 = c) ∨
    ((getKeyHandleData c.gKeyHandleTree h).isSome ∧
      pclKeyHandleClose h c = (1, { c with
        pool := setPersistenceHandleCloseIdx h c.pool
        gKeyHandleTree := clearKeyHandleArray c.gKeyHandleTree h })) := by
  unfold pclKeyHandleClose
  split
  · split
    · exact Or.inl ⟨show epersMaxhandle < 0 by decide, rfl⟩
    · rename_i data hdata
      split
      · exact Or.inr ⟨by rw [hdata]; rfl, rfl⟩
      · exact Or.inl ⟨show epersInvalidHandle < 0 by decide, rfl⟩
  · exact Or.inl ⟨show epersNotInitialized < 0 by decide, rfl⟩

theorem pclFileReleasePath_cases (h : ℤ) (htree : c.gOssFileHandleTree.isSome) :
    SameTables c (pclFileReleasePath h c).2 ∨
    ((Tree.lookup c.gOssFileHandleTree h).isSome ∧
      (pclFileReleasePath h c).2.pool = setPersistenceHandleCloseIdx h c.pool ∧
      (pclFileReleasePath h c).2.gKeyHandleTree = c.gKeyHandleTree ∧
      ∀ k, Tree.lookup (pclFileReleasePath h c).2.gOssFileHandleTree k =
        if k = h then none else Tree.lookup c.gOssFileHandleTree k) := by
  unfold pclFileReleasePath
  split
  · split
    · exact Or.inl (.refl c)
    · rename_i permission hperm
      obtain ⟨t, ht⟩ := Option.isSome_iff_exists.mp htree
      rw [ht] at hperm
      refine Or.inr ⟨?_, rfl, rfl, fun k => ?_⟩
      · obtain ⟨item, hitem, -⟩ := Option.bind_eq_some_iff.mp hperm
        rw [ht, hitem]
        rfl
      · simp only [lookup_removeFileHandleData, setOssfileFilePath, lookup_setItem]
        split <;> rfl
  · exact Or.inl (.refl c)

theorem processPrepareShutdown_cases (c : Client) :
    (File.processPrepareShutdown Access.shutdownFull c).pool = HandlePool.reset ∧
      (File.processPrepareShutdown Access.shutdownFull c).gKeyHandleTree = c.gKeyHandleTree ∧
      (File.processPrepareShutdown Access.shutdownFull c).gOssFileHandleTree =
        c.gOssFileHandleTree := by
  have hlist := listIterate_sameTables
    (c := { c with loop := Access.processPrepareShutdown Access.shutdownFull c.loop })
    (fun fd c => pclFileClose_sameTables (c := c) fd) c.gOpenFdList
  exact ⟨rfl, hlist.key, hlist.path⟩

end Frame

section Invariant

variable {com appId} {s : Traced}

theorem TableInv.of_sameTables (inv : TableInv s) {c' : Client} (same : SameTables s.client c') :
    TableInv ⟨c', s.opened⟩ := by
  obtain ⟨hpool, hkey, hpath⟩ := same
  refine ⟨?_, fun h hk => ?_, fun h hp => ?_, fun h hkp => ?_, fun h => ?_⟩ <;>
    simp only [Traced.KeyOpen, Traced.PathOpen, hpool, hkey, hpath] at *
  · exact inv.pool_wf
  · exact inv.key_live h hk
  · exact inv.path_live h hp
  · exact inv.disjoint h hkp
  · exact inv.opened_eq h

theorem TableInv.enterKey (inv : TableInv s) (hp : ¬ s.client.pool.Exhausted) {id : CStr}
    (hid : id.length < com.maxLengthKeyName) (l u t : UInt32) :
    TableInv
      { client := { s.client with
          pool := (getPersistenceHandleIdx s.client.pool).2
          gKeyHandleTree := setKeyHandleData com s.client.gKeyHandleTree
            (getPersistenceHandleIdx s.client.pool).1 id l u t }
        opened := Function.update s.opened (getPersistenceHandleIdx s.client.pool).1
          (some ⟨l, u, t, id⟩) } := by
  obtain ⟨hwf, hnew, -, -, hlive⟩ := inv.pool_wf.get hp
  generalize getPersistenceHandleIdx s.client.pool = drawn at *
  obtain ⟨h, pool⟩ := drawn
  have hfresh : getKeyHandleData s.client.gKeyHandleTree h = none := by
    by_contra hne
    exact hnew (inv.key_live h (Option.isSome_iff_ne_none.mpr hne))
  refine ⟨hwf, fun k hk => ?_, fun k hk => ?_, fun k hk => ?_, fun k => ?_⟩ <;>
    simp only [Traced.KeyOpen, Traced.PathOpen, getKeyHandleData_set, hfresh, hlive] at *
  · split at hk
    · rename_i hkh
      exact Or.inr hkh
    · exact Or.inl (inv.key_live k hk)
  · exact Or.inl (inv.path_live k hk)
  · split at hk
    · rename_i hkh
      exact hnew (hkh ▸ inv.path_live k hk.2)
    · exact inv.disjoint k hk
  · rw [Function.update_apply]
    split
    · simp [snprintf_of_lt hid]
    · exact inv.opened_eq k

theorem TableInv.enterPath (inv : TableInv s) (hp : ¬ s.client.pool.Exhausted) {r : ℤ × Client}
    (hr : DrawnForPath s.client r) : TableInv ⟨r.2, s.opened⟩ := by
  obtain ⟨hret, hpool, hkey, permission, backup, csum, filePath, hpath⟩ := hr
  obtain ⟨hwf, hnew, -, -, hlive⟩ := inv.pool_wf.get hp
  rw [← hret] at hnew hlive
  refine ⟨hpool ▸ hwf, fun k hk => ?_, fun k hk => ?_, fun k hk => ?_, fun k => ?_⟩ <;>
    simp only [Traced.KeyOpen, Traced.PathOpen, hpool, hkey, hpath, setOssfileHandleData,
      lookup_setItem, hlive] at *
  · exact Or.inl (inv.key_live k hk)
  · split at hk
    · rename_i hkh
      exact Or.inr hkh
    · exact Or.inl (inv.path_live k hk)
  · split at hk
    · rename_i hkh
      exact hnew (hkh ▸ inv.key_live k hk.1)
    · exact inv.disjoint k hk
  · exact inv.opened_eq k

theorem TableInv.closeKey (inv : TableInv s) {h : ℤ} (hopen : s.KeyOpen h) :
    TableInv
      { client := { s.client with
          pool := setPersistenceHandleCloseIdx h s.client.pool
          gKeyHandleTree := clearKeyHandleArray s.client.gKeyHandleTree h }
        opened := Function.update s.opened h none } := by
  obtain ⟨hwf, hlive⟩ := inv.pool_wf.close (inv.key_live h hopen)
  refine ⟨hwf, fun k hk => ?_, fun k hk => ?_, fun k hk => ?_, fun k => ?_⟩ <;>
    simp only [Traced.KeyOpen, Traced.PathOpen, getKeyHandleData_clear, hlive] at *
  · split at hk
    · cases hk
    · rename_i hkh
      exact ⟨inv.key_live k hk, hkh⟩
  · exact ⟨inv.path_live k hk, fun hkh => inv.disjoint h ⟨hopen, hkh ▸ hk⟩⟩
  · split at hk
    · simp at hk
    · exact inv.disjoint k hk
  · rw [Function.update_apply]
    split
    · rfl
    · exact inv.opened_eq k

theorem TableInv.closePath (inv : TableInv s) {h : ℤ} (hopen : s.PathOpen h) {c' : Client}
    (hpool : c'.pool = setPersistenceHandleCloseIdx h s.client.pool)
    (hkey : c'.gKeyHandleTree = s.client.gKeyHandleTree)
    (hpath : ∀ k, Tree.lookup c'.gOssFileHandleTree k =
      if k = h then none else Tree.lookup s.client.gOssFileHandleTree k) :
    TableInv ⟨c', s.opened⟩ := by
  obtain ⟨hwf, hlive⟩ := inv.pool_wf.close (inv.path_live h hopen)
  refine ⟨hpool ▸ hwf, fun k hk => ?_, fun k hk => ?_, fun k hk => ?_, fun k => ?_⟩ <;>
    simp only [Traced.KeyOpen, Traced.PathOpen, hpool, hkey, hpath, hlive] at *
  · exact ⟨inv.key_live k hk, fun hkh => inv.disjoint h ⟨hkh ▸ hk, hopen⟩⟩
  · split at hk
    · cases hk
    · rename_i hkh
      exact ⟨inv.path_live k hk, hkh⟩
  · split at hk
    · simp at hk
    · exact inv.disjoint k hk
  · exact inv.opened_eq k

theorem TableInv.of_empty {c : Client} (hpool : c.pool = HandlePool.reset)
    (hkey : ∀ h, getKeyHandleData c.gKeyHandleTree h = none)
    (hpath : ∀ h, Tree.lookup c.gOssFileHandleTree h = none) : TableInv ⟨c, fun _ => none⟩ where
  pool_wf := hpool ▸ HandlePool.wf_reset
  key_live h hk := by simp [Traced.KeyOpen, hkey] at hk
  path_live h hk := by simp [Traced.PathOpen, hpath] at hk
  disjoint h hk := by simp [Traced.KeyOpen, hkey] at hk
  opened_eq := hkey

theorem TableInv.of_started (h : Started s) : TableInv s := by
  obtain ⟨c, opened⟩ := s
  obtain ⟨hpool, hnone, rfl⟩ := h
  exact .of_empty hpool (fun h => by simpa [Traced.KeyOpen] using (hnone h).1)
    (fun h => by simpa [Traced.PathOpen] using (hnone h).2)

theorem TableInv.step (inv : TableInv s) {e : Event} (hok : Allowed com s e) :
    TableInv (step com appId s e) := by
  cases e with
  | keyHandleOpen ctx ldbid resourceId userNo seatNo =>
    simp only [Handle.step]
    rcases pclKeyHandleOpen_cases com ctx resourceId s.client ldbid userNo seatNo with
      ⟨hle, hsame⟩ | ⟨htype, heq⟩
    · rw [if_neg (not_lt.mpr hle), hsame]
      exact inv
    · obtain ⟨hp, hid⟩ := hok htype
      have hpos := (inv.pool_wf.get hp).2.2.1
      rw [heq, if_pos hpos]
      exact inv.enterKey hp hid ldbid userNo seatNo
  | keyHandleClose h =>
    simp only [Handle.step]
    rcases pclKeyHandleClose_cases (c := s.client) h with ⟨hlt, hsame⟩ | ⟨hopen, heq⟩
    · rw [if_neg (not_le.mpr hlt), hsame]
      exact inv
    · rw [heq, if_pos (show (0 : ℤ) ≤ 1 by decide)]
      exact inv.closeKey hopen
  | fileCreatePath env ctx resourceId userNo seatNo =>
    rcases pclFileCreatePath_cases com appId env ctx resourceId s.client userNo seatNo
      inv.pool_wf hok with
      ⟨-, same⟩ | ⟨htype, hdrawn⟩
    · exact inv.of_sameTables same
    · exact inv.enterPath (hok htype) hdrawn
  | fileReleasePath h =>
    rcases pclFileReleasePath_cases (c := s.client) h hok with same | ⟨hopen, hpool, hkey, hpath⟩
    · exact inv.of_sameTables same
    · exact inv.closePath hopen hpool hkey hpath
  | fullShutdown =>
    obtain ⟨hpool, hkey, hpath⟩ := processPrepareShutdown_cases s.client
    refine .of_empty hpool (fun h => ?_) (fun h => ?_)
    · rw [hkey]
      simpa [Traced.KeyOpen] using (hok h).1
    · rw [hpath]
      simpa [Traced.PathOpen] using (hok h).2

theorem TableInv.returned_fresh (inv : TableInv s) {e : Event} (hok : Allowed com s e) {h : ℤ}
    (hret : returned com appId s e = some h) (hpos : 0 < h) : ¬ s.KeyOpen h ∧ ¬ s.PathOpen h := by
  have fresh : ∀ h, ¬ s.client.pool.Live h → ¬ s.KeyOpen h ∧ ¬ s.PathOpen h := fun h hl =>
    ⟨fun hk => hl (inv.key_live h hk), fun hp => hl (inv.path_live h hp)⟩
  cases e with
  | keyHandleOpen ctx ldbid resourceId userNo seatNo =>
    obtain rfl := Option.some.inj hret
    rcases pclKeyHandleOpen_cases com ctx resourceId s.client ldbid userNo seatNo with
      ⟨hle, -⟩ | ⟨htype, heq⟩
    · omega
    · rw [heq]
      exact fresh _ (inv.pool_wf.get (hok htype).1).2.1
  | fileCreatePath env ctx resourceId userNo seatNo =>
    obtain rfl := Option.some.inj hret
    rcases pclFileCreatePath_cases com appId env ctx resourceId s.client userNo seatNo
      inv.pool_wf hok with
      ⟨hle, -⟩ | ⟨htype, hdrawn⟩
    · omega
    · rw [hdrawn.1]
      exact fresh _ (inv.pool_wf.get (hok htype)).2.1
  | keyHandleClose _ => cases hret
  | fileReleasePath _ => cases hret
  | fullShutdown => cases hret

/-- In every state of a run whose steps are allowed, the handle tables are
consistent, and the next handle returned is not open. -/
theorem tableInv_run (hstart : Started s) {es : List Event}
    (hes : Guarded (step com appId) (Allowed com) s es) :
    TableInv (run (step com appId) s es) ∧
      ∀ e, Allowed com (run (step com appId) s es) e →
        ∀ h, returned com appId (run (step com appId) s es) e = some h → 0 < h →
          ¬ (run (step com appId) s es).KeyOpen h ∧ ¬ (run (step com appId) s es).PathOpen h := by
  have inv : TableInv (run (step com appId) s es) :=
    run_invariant (fun _ _ inv hok => inv.step hok) (.of_started hstart) hes
  exact ⟨inv, fun e hok h hret hpos => inv.returned_fresh hok hret hpos⟩

end Invariant

section Runs

/-- The state after `pclInitLibrary` on an empty disk. -/
def start : Traced := ⟨Client.start .empty .empty, fun _ => none⟩

theorem started_start : Started start := ⟨rfl, fun _ => ⟨Bool.false_ne_true, Bool.false_ne_true⟩, rfl⟩

def localKey : DbContext where
  rval := 0
  configKey :=
    { policy := .wc, storage := .local, type := .key, permission := .readWrite, maxSize := 64,
      reponsible := [], customName := [], customID := [] }
  dbKey := []
  dbPath := []

def openKey (resourceId : CStr) : Event := .keyHandleOpen localKey 0xFF resourceId 0 0

/-- A full shutdown resets the pool under an open handle: the next open gets the
same handle and its context is lost. -/
theorem shutdown_reissues_open_handle :
    ¬ ∀ es : List Event, TableInv (run (step CommonObject.standard (cstr "app")) start es) := by
  intro h
  have inv := h [openKey (cstr "a"), .fullShutdown, openKey (cstr "b")]
  exact absurd (inv.opened_eq 1) (by decide +kernel)

theorem tableInv_open_close :
    let es : List Event := [openKey (cstr "a"), .keyHandleClose 1, openKey (cstr "b")]
    let s := run (step CommonObject.standard (cstr "app")) start es
    TableInv s ∧ ∀ e, Allowed CommonObject.standard s e →
      ∀ h, returned CommonObject.standard (cstr "app") s e = some h → 0 < h →
        ¬ s.KeyOpen h ∧ ¬ s.PathOpen h :=
  tableInv_run started_start
    ⟨fun _ => ⟨fun h => absurd h.2 (by decide), by decide +kernel⟩, trivial,
      fun _ => ⟨fun h => absurd h.2 (by decide +kernel), by decide +kernel⟩, trivial⟩

end Runs

end PersClient.Handle
