import PersClient.Handle.Tables
import PersClient.Key.Files
import PersClient.Prct.Namespaces

/-! # Calls with a handle

A call with a handle is the direct call on the context the handle was opened
for, as long as the record of the handle is the one its open made. Only
positive handles are ever open; the invariant speaks of them alone, for the pool
also hands out its error code and takes it back.
-/

namespace PersClient.Key

open File Handle Access Prct Steps

section Pool

variable {p : HandlePool} {h k : ℤ}

structure PoolInv (p : HandlePool) : Prop where
  idx_pos : 1 ≤ p.gHandleIdx
  free_issued : ∀ h ∈ p.freeStack, 0 < h → p.Issued h
  free_once : ∀ h, 0 < h → p.freeStack.count h ≤ 1

theorem poolInv_reset : PoolInv HandlePool.reset where
  idx_pos := le_rfl
  free_issued h hh := by simp at hh
  free_once h _ := by simp

theorem live_iff : p.Live h ↔ p.Issued h ∧ p.freeStack.count h = 0 := by
  rw [HandlePool.Live, List.count_eq_zero]

theorem PoolInv.get (inv : PoolInv p) :
    PoolInv (getPersistenceHandleIdx p).2 ∧
      (0 < (getPersistenceHandleIdx p).1 → ¬ p.Live (getPersistenceHandleIdx p).1 ∧
        (getPersistenceHandleIdx p).2.Live (getPersistenceHandleIdx p).1) ∧
      ∀ k, p.Live k → (getPersistenceHandleIdx p).2.Live k := by
  have hidx := inv.idx_pos
  rcases p.get_cases with ⟨rest, hstack, hrest, hsame⟩ |
    ⟨-, ⟨-, hret, hstack, hnext⟩ | ⟨-, hfail⟩⟩
  · generalize getPersistenceHandleIdx p = drawn at *
    obtain ⟨h, q⟩ := drawn
    dsimp only at *
    have hcount : ∀ k, p.freeStack.count k = rest.count k + [h].count k := fun k => by
      rw [hstack, List.count_append]
    refine ⟨⟨by omega, fun k hk hpos => ?_, fun k hpos => ?_⟩, fun hpos => ⟨fun hlive => ?_, ?_⟩,
      fun k hlive => ?_⟩
    · rw [HandlePool.Issued, hsame]
      exact inv.free_issued k (by rw [hstack]; exact List.mem_append_left _ (hrest ▸ hk)) hpos
    · have := inv.free_once k hpos
      rw [hcount] at this
      rw [hrest]
      omega
    · exact hlive.2 (by simp [hstack])
    · have hone := inv.free_once h hpos
      rw [hcount, List.count_singleton_self] at hone
      refine live_iff.mpr ⟨?_, by rw [hrest]; omega⟩
      rw [HandlePool.Issued, hsame]
      exact inv.free_issued h (by simp [hstack]) hpos
    · obtain ⟨hissued, hfree⟩ := live_iff.mp hlive
      rw [hcount] at hfree
      refine live_iff.mpr ⟨?_, by rw [hrest]; omega⟩
      rw [HandlePool.Issued, hsame]
      exact hissued
  · generalize getPersistenceHandleIdx p = drawn at *
    obtain ⟨h, q⟩ := drawn
    dsimp only at *
    subst hret
    have hissued : ∀ k, p.Issued k → q.Issued k := fun k hk => ⟨hk.1, by rw [hnext]; have := hk.2; omega⟩
    refine ⟨⟨by omega, fun k hk hpos => ?_, fun k hpos => ?_⟩, fun hpos => ⟨fun hlive => ?_, ?_⟩,
      fun k hlive => ?_⟩
    · exact hissued k (inv.free_issued k (hstack ▸ hk) hpos)
    · rw [hstack]
      exact inv.free_once k hpos
    · exact lt_irrefl _ hlive.1.2
    · refine ⟨⟨hpos, by omega⟩, fun hfree => ?_⟩
      rw [hstack] at hfree
      exact lt_irrefl _ (inv.free_issued _ hfree hpos).2
    · exact ⟨hissued k hlive.1, by rw [hstack]; exact hlive.2⟩
  · rw [hfail]
    refine ⟨inv, fun hpos => ?_, fun k hk => hk⟩
    cases hpos

/-- A handle that is returned leaves the other live ones; it has to be live if
it is positive. -/
theorem PoolInv.close (inv : PoolInv p) (hlive : 0 < h → p.Live h) :
    PoolInv (setPersistenceHandleCloseIdx h p) ∧
      ∀ k, k ≠ h → p.Live k → (setPersistenceHandleCloseIdx h p).Live k := by
  unfold setPersistenceHandleCloseIdx
  split
  · have hstack := HandlePool.freeStack_push (p := p) h
    generalize hq : ({ p with
      gFreeHandleArray := Function.update p.gFreeHandleArray p.gFreeHandleIdxHead h
      gFreeHandleIdxHead := p.gFreeHandleIdxHead + 1 } : HandlePool) = q at *
    have hidx : q.gHandleIdx = p.gHandleIdx := by rw [← hq]
    refine ⟨⟨by rw [hidx]; exact inv.idx_pos, fun k hk hpos => ?_, fun k hpos => ?_⟩,
      fun k hne hk => ?_⟩
    · rw [HandlePool.Issued, hidx]
      rw [hstack, List.mem_append, List.mem_singleton] at hk
      rcases hk with hk | rfl
      · exact inv.free_issued k hk hpos
      · exact (hlive hpos).1
    · rw [hstack, List.count_append, List.count_singleton]
      split
      · rename_i heq
        obtain rfl : h = k := by simpa using heq
        have := (live_iff.mp (hlive hpos)).2
        omega
      · have := inv.free_once k hpos
        omega
    · refine ⟨by rw [HandlePool.Issued, hidx]; exact hk.1, ?_⟩
      rw [hstack, List.mem_append, List.mem_singleton, not_or]
      exact ⟨hk.2, hne⟩
  · exact ⟨inv, fun k _ hk => hk⟩

end Pool

section Paths

variable {com : CommonObject} {appId : CStr} {env : Env} {ctx : DbContext} {resourceId : CStr}
  {c c' : Client}

/-- A positive path handle is open. -/
def PathOpen (c : Client) (h : ℤ) : Prop := (Tree.lookup c.gOssFileHandleTree h).isSome

/-- What a path function may do to the tables: the live handles stay live, and a
positive path handle that is new was not live and is. -/
structure PathEntered (c c' : Client) : Prop where
  pool : PoolInv c'.pool
  live : ∀ k, c.pool.Live k → c'.pool.Live k
  key : c'.gKeyHandleTree = c.gKeyHandleTree
  path : ∀ k, 0 < k → PathOpen c' k → PathOpen c k ∨ (¬ c.pool.Live k ∧ c'.pool.Live k)

theorem PathEntered.of_same (inv : PoolInv c.pool) (same : SameTables c c') : PathEntered c c' where
  pool := same.pool ▸ inv
  live k hk := same.pool ▸ hk
  key := same.key
  path k _ hk := Or.inl (by rwa [PathOpen, same.path] at hk)

theorem PathEntered.of_drawn (inv : PoolInv c.pool)
    (pool : c'.pool = (getPersistenceHandleIdx c.pool).2)
    (key : c'.gKeyHandleTree = c.gKeyHandleTree)
    (path : ∀ k, PathOpen c' k → PathOpen c k ∨ k = (getPersistenceHandleIdx c.pool).1) :
    PathEntered c c' := by
  obtain ⟨hinv, hdrawn, hlive⟩ := inv.get
  refine ⟨pool ▸ hinv, fun k hk => pool ▸ hlive k hk, key, fun k hpos hk => ?_⟩
  rcases path k hk with hk | rfl
  · exact Or.inl hk
  · rw [pool]
    exact Or.inr (hdrawn hpos)

theorem PathEntered.of_returned (inv : PoolInv c.pool)
    (pool : c'.pool = setPersistenceHandleCloseIdx (getPersistenceHandleIdx c.pool).1
      (getPersistenceHandleIdx c.pool).2)
    (key : c'.gKeyHandleTree = c.gKeyHandleTree)
    (path : c'.gOssFileHandleTree = c.gOssFileHandleTree) : PathEntered c c' := by
  obtain ⟨hinv, hdrawn, hlive⟩ := inv.get
  obtain ⟨hinv', hlive'⟩ := hinv.close fun hpos => (hdrawn hpos).2
  refine ⟨pool ▸ hinv', fun k hk => ?_, key,
    fun k _ hk => Or.inl (by rwa [PathOpen, path] at hk)⟩
  rw [pool]
  refine hlive' k ?_ (hlive k hk)
  rintro rfl
  exact (hdrawn hk.1.1).1 hk

theorem pathOpen_setOssfile {permission : PersistencePermission} {created : ℤ}
    {backup csum : CStr} {filePath : Option CStr} {h k : ℤ}
    (hk : (Tree.lookup (setOssfileHandleData c.gOssFileHandleTree h permission created backup csum
      filePath) k).isSome) : PathOpen c k ∨ k = h := by
  rw [setOssfileHandleData, lookup_setItem] at hk
  split at hk
  · rename_i heq
    exact Or.inr heq
  · exact Or.inl hk

theorem enterPath_entered (inv : PoolInv c.pool) {backup csum : CStr} (same : SameTables c c') :
    PathEntered c (enterPath com appId env ctx resourceId backup csum c').2 := by
  unfold enterPath
  rw [same.pool]
  dsimp only
  have hcreated := createForPath_sameTables com appId env ctx resourceId
    { c' with pool := (getPersistenceHandleIdx c.pool).2 }
  split
  · split
    · refine .of_drawn inv hcreated.pool (hcreated.key.trans same.key) fun k hk => ?_
      rw [PathOpen, hcreated.path, same.path] at hk
      exact pathOpen_setOssfile hk
    · exact .of_returned inv rfl same.key same.path
  · refine .of_drawn inv rfl same.key fun k hk => Or.inl ?_
    rwa [PathOpen, same.path] at hk

theorem enterUnlisted_entered (inv : PoolInv c.pool) {userNo seatNo : UInt32} :
    PathEntered c (enterUnlisted com appId resourceId userNo seatNo c).2 := by
  unfold enterUnlisted
  dsimp only
  split
  · split
    · exact .of_drawn inv rfl rfl fun k hk => pathOpen_setOssfile hk
    · exact .of_returned inv rfl rfl rfl
  · exact .of_drawn inv rfl rfl fun k hk => Or.inl hk

theorem pclFileCreatePath_entered (inv : PoolInv c.pool) {userNo seatNo : UInt32} :
    PathEntered c (File.pclFileCreatePath com appId env ctx resourceId userNo seatNo c).2 := by
  unfold File.pclFileCreatePath
  split
  · split
    · split
      · split
        · dsimp only
          split
          · exact .of_same inv ⟨rfl, rfl, rfl⟩
          · exact enterPath_entered inv ⟨rfl, rfl, rfl⟩
        · exact enterPath_entered inv (.refl c)
      · exact enterUnlisted_entered inv
    · exact .of_same inv (.refl c)
  · exact .of_same inv (.refl c)

/-- The end of a path handle, if it is not positive or the tree has been made. -/
theorem pclFileReleasePath_entered {h : ℤ}
    (htree : 0 < h → c.gOssFileHandleTree.isSome) :
    SameTables c (pclFileReleasePath h c).2 ∨
      ((0 < h → PathOpen c h) ∧
      (pclFileReleasePath h c).2.pool = setPersistenceHandleCloseIdx h c.pool ∧
      (pclFileReleasePath h c).2.gKeyHandleTree = c.gKeyHandleTree ∧
      ∀ k, PathOpen (pclFileReleasePath h c).2 k → k ≠ h ∧ PathOpen c k) := by
  unfold pclFileReleasePath
  split
  · split
    · exact Or.inl (.refl c)
    · rename_i permission hperm
      refine Or.inr ⟨fun hpos => ?_, rfl, rfl, fun k hk => ?_⟩
      · obtain ⟨t, ht⟩ := Option.isSome_iff_exists.mp (htree hpos)
        rw [ht] at hperm
        obtain ⟨item, hitem, -⟩ := Option.bind_eq_some_iff.mp hperm
        rw [PathOpen, ht, hitem]
        rfl
      · simp only [PathOpen, lookup_removeFileHandleData, setOssfileFilePath, lookup_setItem] at hk
        split at hk
        · cases hk
        · rename_i hne
          exact ⟨hne, by simpa [PathOpen, hne] using hk⟩
  · exact Or.inl (.refl c)

end Paths

section Run

variable {W : Type*} (S : Setup W)

/-- The calls that change the handle tables, and anything else that happens. -/
inductive HandleEvent (W : Type*)
  | open (frame : CallFrame) (X : KeyResource)
  | close (keyHandle : ℤ)
  | createPath (env : Env) (frame : CallFrame) (X : KeyResource)
  | releasePath (pathHandle : ℤ)
  | fullShutdown
  /-- what other functions, other commands and the world leave -/
  | elsewhere (lib : Library W)

/-- The library, and for every key handle the context of the open that returned
it, until the handle is closed. -/
structure Opened (W : Type*) where
  lib : Library W
  opened : ℤ → Option KeyResource

def Library.withTablesOf (lib' lib : Library W) : Library W :=
  { lib' with client := { lib'.client with
      pool := lib.client.pool
      gKeyHandleTree := lib.client.gKeyHandleTree
      gOssFileHandleTree := lib.client.gOssFileHandleTree } }

def handleStep (s : Opened W) : HandleEvent W → Opened W
  | .open frame X =>
    let (handle, lib) := pclKeyHandleOpen S frame X.context X.resourceId s.lib
    { lib, opened := if 0 < handle then Function.update s.opened handle (some X) else s.opened }
  | .close keyHandle =>
    let (rval, lib) := pclKeyHandleClose keyHandle s.lib
    { lib, opened := if 0 ≤ rval then Function.update s.opened keyHandle none else s.opened }
  | .createPath env frame X =>
    { s with lib := (pclFileCreatePath S env frame X.context X.resourceId s.lib).2 }
  | .releasePath pathHandle =>
    { s with lib := { s.lib with client := (pclFileReleasePath pathHandle s.lib.client).2 } }
  | .fullShutdown =>
    { lib := processPrepareShutdown S shutdownFull s.lib, opened := fun _ => none }
  | .elsewhere lib => { s with lib := lib.withTablesOf s.lib }

/-- A positive key handle is open. -/
def KeyOpen (c : Client) (h : ℤ) : Prop := (getKeyHandleData c.gKeyHandleTree h).isSome

/-- The condition on a step: a key that gets a positive handle has an identifier
that fits its field and is not empty; a positive path handle is released only
after one has been made; a full shutdown finds no positive handle open. -/
def HandleAllowed (s : Opened W) : HandleEvent W → Prop
  | .open frame X =>
    (getDbContext S frame X.context X.resourceId false s.lib).1.configKey.type = .key →
      0 < (getPersistenceHandleIdx s.lib.client.pool).1 →
      X.resourceId ≠ [] ∧ X.resourceId.length < S.com.maxLengthKeyName
  | .releasePath pathHandle => 0 < pathHandle → s.lib.client.gOssFileHandleTree.isSome
  | .fullShutdown => ∀ h, 0 < h → ¬ KeyOpen s.lib.client h ∧ ¬ PathOpen s.lib.client h
  | .close _ | .createPath _ _ _ | .elsewhere _ => True

def KeyResource.record (X : KeyResource) : PersistenceKeyHandle :=
  ⟨X.context.ldbid, X.context.userNo, X.context.seatNo, X.resourceId⟩

/-- The positive handles: they are live, of one kind, and those of keys have the
record of the context they were opened for. -/
structure HandleInv (s : Opened W) : Prop where
  pool : PoolInv s.lib.client.pool
  key_live : ∀ h, 0 < h → KeyOpen s.lib.client h → s.lib.client.pool.Live h
  path_live : ∀ h, 0 < h → PathOpen s.lib.client h → s.lib.client.pool.Live h
  disjoint : ∀ h, 0 < h → ¬ (KeyOpen s.lib.client h ∧ PathOpen s.lib.client h)
  records : ∀ h, 0 < h →
    getKeyHandleData s.lib.client.gKeyHandleTree h = (s.opened h).map KeyResource.record
  named : ∀ h X, s.opened h = some X → X.resourceId ≠ []

/-- The state after `pclInitLibrary`: empty trees and a fresh pool. -/
def HandlesStarted (s : Opened W) : Prop :=
  s.lib.client.pool = HandlePool.reset ∧
    (∀ h, ¬ KeyOpen s.lib.client h ∧ ¬ PathOpen s.lib.client h) ∧ s.opened = fun _ => none

end Run

section Step

variable {W : Type*} {S : Setup W} {s : Opened W}

theorem HandleInv.of_started (h : HandlesStarted s) : HandleInv s := by
  obtain ⟨lib, opened⟩ := s
  obtain ⟨hpool, hnone, rfl⟩ := h
  dsimp only at hpool hnone
  constructor
  · rw [hpool]
    exact poolInv_reset
  · exact fun h _ hk => absurd hk (hnone h).1
  · exact fun h _ hp => absurd hp (hnone h).2
  · exact fun h _ hkp => (hnone h).1 hkp.1
  · intro h _
    simpa [KeyOpen] using (hnone h).1
  · intro h X hX
    cases hX

theorem HandleInv.of_sameTables (inv : HandleInv s) {lib : Library W}
    (same : SameTables s.lib.client lib.client) : HandleInv ⟨lib, s.opened⟩ := by
  obtain ⟨hpool, hkey, hpath⟩ := same
  constructor <;> simp only [KeyOpen, PathOpen, hpool, hkey, hpath]
  · exact inv.pool
  · exact inv.key_live
  · exact inv.path_live
  · exact inv.disjoint
  · exact inv.records
  · exact inv.named

theorem HandleInv.enterPath (inv : HandleInv s) {lib : Library W}
    (h : PathEntered s.lib.client lib.client) : HandleInv ⟨lib, s.opened⟩ := by
  constructor <;> simp only [KeyOpen, h.key]
  · exact h.pool
  · exact fun k hpos hk => h.live k (inv.key_live k hpos hk)
  · intro k hpos hk
    rcases h.path k hpos hk with hk | ⟨-, hk⟩
    · exact h.live k (inv.path_live k hpos hk)
    · exact hk
  · rintro k hpos ⟨hk, hp⟩
    rcases h.path k hpos hp with hp | ⟨hnew, -⟩
    · exact inv.disjoint k hpos ⟨hk, hp⟩
    · exact hnew (inv.key_live k hpos hk)
  · exact inv.records
  · exact inv.named

theorem HandleInv.closePath (inv : HandleInv s) {h : ℤ} (hopen : 0 < h → PathOpen s.lib.client h)
    {lib : Library W}
    (hpool : lib.client.pool = setPersistenceHandleCloseIdx h s.lib.client.pool)
    (hkey : lib.client.gKeyHandleTree = s.lib.client.gKeyHandleTree)
    (hpath : ∀ k, PathOpen lib.client k → k ≠ h ∧ PathOpen s.lib.client k) :
    HandleInv ⟨lib, s.opened⟩ := by
  obtain ⟨hinv, hlive⟩ := inv.pool.close fun hpos => inv.path_live h hpos (hopen hpos)
  constructor <;> simp only [KeyOpen, hpool, hkey]
  · exact hinv
  · intro k hpos hk
    refine hlive k ?_ (inv.key_live k hpos hk)
    rintro rfl
    exact inv.disjoint k hpos ⟨hk, hopen hpos⟩
  · intro k hpos hk
    obtain ⟨hne, hk⟩ := hpath k hk
    exact hlive k hne (inv.path_live k hpos hk)
  · exact fun k hpos hk => inv.disjoint k hpos ⟨hk.1, (hpath k hk.2).2⟩
  · exact inv.records
  · exact inv.named

/-- Entering the handle that is drawn as a key handle; only a positive one is
remembered. -/
theorem HandleInv.enterKey (inv : HandleInv s) {X : KeyResource} {lib : Library W}
    (hid : 0 < (getPersistenceHandleIdx s.lib.client.pool).1 →
      X.resourceId ≠ [] ∧ X.resourceId.length < S.com.maxLengthKeyName)
    (hpool : lib.client.pool = (getPersistenceHandleIdx s.lib.client.pool).2)
    (hpath : lib.client.gOssFileHandleTree = s.lib.client.gOssFileHandleTree)
    (hkey : lib.client.gKeyHandleTree = setKeyHandleData S.com s.lib.client.gKeyHandleTree
      (getPersistenceHandleIdx s.lib.client.pool).1 X.resourceId X.context.ldbid X.context.userNo
      X.context.seatNo) :
    HandleInv ⟨lib, if 0 < (getPersistenceHandleIdx s.lib.client.pool).1 then
      Function.update s.opened (getPersistenceHandleIdx s.lib.client.pool).1 (some X)
      else s.opened⟩ := by
  obtain ⟨hinv, hdrawn, hlive⟩ := inv.pool.get
  generalize getPersistenceHandleIdx s.lib.client.pool = drawn at *
  obtain ⟨h, pool⟩ := drawn
  dsimp only at *
  have hfresh : 0 < h → getKeyHandleData s.lib.client.gKeyHandleTree h = none := by
    intro hpos
    by_contra hne
    exact (hdrawn hpos).1 (inv.key_live h hpos (Option.isSome_iff_ne_none.mpr hne))
  constructor <;> simp only [KeyOpen, PathOpen, hpool, hkey, hpath, getKeyHandleData_set]
  · exact hinv
  · intro k hpos hk
    split at hk
    · rename_i heq
      subst heq
      exact (hdrawn hpos).2
    · exact hlive k (inv.key_live k hpos hk)
  · exact fun k hpos hk => hlive k (inv.path_live k hpos hk)
  · rintro k hpos ⟨hk, hp⟩
    split at hk
    · rename_i heq
      subst heq
      exact (hdrawn hpos).1 (inv.path_live k hpos hp)
    · exact inv.disjoint k hpos ⟨hk, hp⟩
  · intro k hpos
    split
    · rename_i heq
      subst heq
      rw [hfresh hpos, if_pos hpos, Function.update_self, snprintf_of_lt (hid hpos).2]
      rfl
    · rename_i hne
      rw [inv.records k hpos]
      split
      · rw [Function.update_of_ne hne]
      · rfl
  · intro k Y hY
    split at hY
    · rename_i hpos
      rw [Function.update_apply] at hY
      split at hY
      · cases hY
        exact (hid hpos).1
      · exact inv.named k Y hY
    · exact inv.named k Y hY

theorem HandleInv.closeKey (inv : HandleInv s) {h : ℤ} (hopen : KeyOpen s.lib.client h)
    {lib : Library W}
    (hpool : lib.client.pool = setPersistenceHandleCloseIdx h s.lib.client.pool)
    (hpath : lib.client.gOssFileHandleTree = s.lib.client.gOssFileHandleTree)
    (hkey : lib.client.gKeyHandleTree = clearKeyHandleArray s.lib.client.gKeyHandleTree h) :
    HandleInv ⟨lib, Function.update s.opened h none⟩ := by
  obtain ⟨hinv, hlive⟩ := inv.pool.close fun hpos => inv.key_live h hpos hopen
  constructor <;> simp only [KeyOpen, PathOpen, hpool, hkey, hpath, getKeyHandleData_clear]
  · exact hinv
  · intro k hpos hk
    split at hk
    · cases hk
    · rename_i hne
      exact hlive k hne (inv.key_live k hpos hk)
  · intro k hpos hk
    refine hlive k ?_ (inv.path_live k hpos hk)
    rintro rfl
    exact inv.disjoint k hpos ⟨hopen, hk⟩
  · rintro k hpos ⟨hk, hp⟩
    split at hk
    · cases hk
    · exact inv.disjoint k hpos ⟨hk, hp⟩
  · intro k hpos
    rw [Function.update_apply]
    split
    · rfl
    · exact inv.records k hpos
  · intro k Y hY
    rw [Function.update_apply] at hY
    split at hY
    · cases hY
    · exact inv.named k Y hY

variable (S) in
theorem pclKeyHandleOpen_lib (frame : CallFrame) (X : KeyResource) (lib : Library W) :
    ((pclKeyHandleOpen S frame X.context X.resourceId lib).1 ≤ 0 ∧
      (pclKeyHandleOpen S frame X.context X.resourceId lib).2.client = lib.client) ∨
    ((getDbContext S frame X.context X.resourceId false lib).1.configKey.type = .key ∧
      (pclKeyHandleOpen S frame X.context X.resourceId lib).1 =
        (getPersistenceHandleIdx lib.client.pool).1 ∧
      (pclKeyHandleOpen S frame X.context X.resourceId lib).2.client = { lib.client with
        pool := (getPersistenceHandleIdx lib.client.pool).2
        gKeyHandleTree := setKeyHandleData S.com lib.client.gKeyHandleTree
          (getPersistenceHandleIdx lib.client.pool).1 X.resourceId X.context.ldbid X.context.userNo
          X.context.seatNo }) := by
  have hsame := @getDbContext_same W S X.context X.resourceId lib frame false
  unfold pclKeyHandleOpen
  split
  · dsimp only
    rw [hsame.client]
    rcases pclKeyHandleOpen_cases S.com (getDbContext S frame X.context X.resourceId false lib).1
      X.resourceId lib.client X.context.ldbid X.context.userNo X.context.seatNo with
      ⟨hle, hclient⟩ | ⟨htype, heq⟩
    · exact Or.inl ⟨hle, hclient⟩
    · exact Or.inr ⟨htype, congrArg Prod.fst heq, congrArg Prod.snd heq⟩
  · exact Or.inl ⟨show epersNotInitialized ≤ 0 by decide, rfl⟩

theorem HandleInv.step (inv : HandleInv s) {e : HandleEvent W} (hok : HandleAllowed S s e) :
    HandleInv (handleStep S s e) := by
  cases e with
  | «open» frame X =>
    rcases pclKeyHandleOpen_lib S frame X s.lib with ⟨hle, hclient⟩ | ⟨htype, hret, hclient⟩
    · simp only [handleStep, if_neg (not_lt.mpr hle)]
      exact inv.of_sameTables ⟨by rw [hclient], by rw [hclient], by rw [hclient]⟩
    · simp only [handleStep, hret]
      exact inv.enterKey (hok htype) (by rw [hclient]) (by rw [hclient]) (by rw [hclient])
  | close keyHandle =>
    simp only [handleStep]
    rcases pclKeyHandleClose_cases (c := s.lib.client) keyHandle with ⟨hlt, hsame⟩ | ⟨hopen, heq⟩
    · have hneg : ¬ 0 ≤ (pclKeyHandleClose keyHandle s.lib).1 := not_le.mpr hlt
      have hclient : (pclKeyHandleClose keyHandle s.lib).2.client = s.lib.client := hsame
      rw [if_neg hneg]
      exact inv.of_sameTables ⟨by rw [hclient], by rw [hclient], by rw [hclient]⟩
    · have hone : (pclKeyHandleClose keyHandle s.lib).1 = 1 := congrArg Prod.fst heq
      have hclient : (pclKeyHandleClose keyHandle s.lib).2.client = _ := congrArg Prod.snd heq
      rw [if_pos (by rw [hone]; decide)]
      exact inv.closeKey hopen (by rw [hclient]) (by rw [hclient]) (by rw [hclient])
  | createPath env frame X =>
    have hsame := @getDbContext_same W S X.context X.resourceId s.lib frame true
    simp only [handleStep, pclFileCreatePath]
    split
    · refine inv.enterPath ?_
      dsimp only
      rw [hsame.client]
      exact pclFileCreatePath_entered inv.pool
    · exact inv
  | releasePath pathHandle =>
    simp only [handleStep]
    rcases pclFileReleasePath_entered (c := s.lib.client) hok with same | ⟨hopen, hpool, hkey, hpath⟩
    · exact inv.of_sameTables same
    · exact inv.closePath hopen hpool hkey hpath
  | fullShutdown =>
    obtain ⟨hpool, hkey, hpath⟩ := processPrepareShutdown_cases s.lib.client
    have hclient := @processPrepareShutdown_client W S s.lib shutdownFull
    constructor <;> simp only [handleStep, KeyOpen, PathOpen, hclient, hpool, hkey, hpath]
    · exact poolInv_reset
    · exact fun h hpos hk => absurd hk (hok h hpos).1
    · exact fun h hpos hp => absurd hp (hok h hpos).2
    · exact fun h hpos hkp => (hok h hpos).1 hkp.1
    · intro h hpos
      simpa [KeyOpen] using (hok h hpos).1
    · intro h X hX
      cases hX
  | elsewhere lib => exact inv.of_sameTables ⟨rfl, rfl, rfl⟩

theorem HandleInv.withKeyHandle_eq (inv : HandleInv s) {h : ℤ} (hpos : 0 < h) {X : KeyResource}
    (hX : s.opened h = some X) {α : Type*} (failed : ℤ → α)
    (call : PersistenceDbContext → CStr → α) :
    withKeyHandle h s.lib failed call =
      if 0 < s.lib.client.gPclInitCounter then call X.context X.resourceId
      else failed epersNotInitialized := by
  have hdata : getKeyHandleData s.lib.client.gKeyHandleTree h = some (KeyResource.record X) := by
    rw [inv.records h hpos, hX]
    rfl
  have hname : (KeyResource.record X).resourceId ≠ [] := inv.named h X hX
  unfold withKeyHandle
  rw [hdata]
  dsimp only
  rw [if_pos hname]
  rfl

end Step

/-- The calls with a handle are the direct calls on a context: the same results,
and the same library and world after them. -/
structure ActsAs {W : Type*} (S : Setup W) (lib : Library W) (h : ℤ) (X : KeyResource) : Prop where
  read : ∀ frame buffer bufferSize, pclKeyHandleReadData S frame h buffer bufferSize lib =
    pclKeyReadData S frame X.context X.resourceId buffer bufferSize lib
  write : ∀ frame buffer bufferSize, pclKeyHandleWriteData S frame h buffer bufferSize lib =
    pclKeyWriteData S frame X.context X.resourceId buffer bufferSize lib
  getSize : ∀ frame, pclKeyHandleGetSize S frame h lib =
    pclKeyGetSize S frame X.context X.resourceId lib

/-- An open handle acts as its context, and exactly the open handles can be closed. -/
def HandlesFaithful {W : Type*} (S : Setup W) (s : Opened W) : Prop :=
  ∀ h, 0 < h → (∀ X, s.opened h = some X → ActsAs S s.lib h X) ∧
    (0 < s.lib.client.gPclInitCounter → (pclKeyHandleClose h s.lib).1 =
      if (s.opened h).isSome then 1 else epersMaxhandle)

section Faithful

variable {W : Type*} {S : Setup W} {s : Opened W}

theorem HandleInv.actsAs (inv : HandleInv s) {h : ℤ} (hpos : 0 < h) {X : KeyResource}
    (hX : s.opened h = some X) : ActsAs S s.lib h X := by
  constructor
  · intro frame buffer bufferSize
    rw [pclKeyHandleReadData, inv.withKeyHandle_eq hpos hX]
    split
    · rfl
    · rename_i hinit
      rw [pclKeyReadData, if_neg hinit]
  · intro frame buffer bufferSize
    rw [pclKeyHandleWriteData, inv.withKeyHandle_eq hpos hX]
    split
    · rfl
    · rename_i hinit
      rw [pclKeyWriteData, if_neg hinit]
  · intro frame
    rw [pclKeyHandleGetSize, inv.withKeyHandle_eq hpos hX]
    split
    · rfl
    · rename_i hinit
      rw [pclKeyGetSize, if_neg hinit]

theorem HandleInv.close_eq (inv : HandleInv s) {h : ℤ} (hpos : 0 < h)
    (hinit : 0 < s.lib.client.gPclInitCounter) :
    (pclKeyHandleClose h s.lib).1 = if (s.opened h).isSome then 1 else epersMaxhandle := by
  have hdata := inv.records h hpos
  unfold pclKeyHandleClose File.pclKeyHandleClose
  rw [if_pos hinit, hdata]
  cases hX : s.opened h with
  | none => rfl
  | some X =>
    have hname : (KeyResource.record X).resourceId ≠ [] := inv.named h X hX
    dsimp only [Option.map_some]
    rw [if_pos hname]
    rfl

end Faithful

/-- In every run whose steps are allowed the handles stand for their contexts. -/
theorem handlesFaithful_run {W : Type*} {S : Setup W} {s : Opened W} (hstart : HandlesStarted s)
    {es : List (HandleEvent W)} (hes : Guarded (handleStep S) (HandleAllowed S) s es) :
    HandlesFaithful S (run (handleStep S) s es) := by
  have inv : HandleInv (run (handleStep S) s es) :=
    run_invariant (fun _ _ inv hok => inv.step hok) (.of_started hstart) hes
  exact fun h hpos => ⟨fun X hX => inv.actsAs hpos hX, inv.close_eq hpos⟩

section Runs

def localEntry : PersistenceConfigurationKey where
  policy := .wc
  storage := .local
  type := .key
  permission := .readWrite
  maxSize := 16
  reponsible := []
  customName := []
  customID := []

def localSetup : Setup Unit := ⟨.standard, cstr "app", Plugin.constant localEntry⟩

def localFrame : CallFrame where
  leftover := localEntry

def openedStart : Opened Unit := ⟨⟨.start .empty .empty, (), fun _ => -1, fun _ => false,
  fun _ => none, fun _ => {}, none, none⟩, fun _ => none⟩

theorem handlesStarted_openedStart : HandlesStarted openedStart :=
  ⟨rfl, fun _ => ⟨Bool.false_ne_true, Bool.false_ne_true⟩, rfl⟩

def openLocal (resourceId : CStr) : HandleEvent Unit :=
  .open localFrame ⟨⟨0xFF, 0, 0⟩, resourceId⟩

theorem handlesFaithful_reopened :
    HandlesFaithful localSetup (run (handleStep localSetup) openedStart
      [openLocal (cstr "a"), openLocal (cstr "b"), .close 1, openLocal (cstr "c")]) :=
  handlesFaithful_run handlesStarted_openedStart
    ⟨fun _ _ => ⟨by decide +kernel, by decide +kernel⟩,
      fun _ _ => ⟨by decide +kernel, by decide +kernel⟩, trivial,
      fun _ _ => ⟨by decide +kernel, by decide +kernel⟩, trivial⟩

/-- The empty identifier is open and cannot be closed. -/
theorem empty_id_not_faithful :
    ¬ ∀ es : List (HandleEvent Unit),
      HandlesFaithful localSetup (run (handleStep localSetup) openedStart es) := by
  intro h
  have hclose := (h [openLocal []] 1 (by decide)).2 (by decide +kernel)
  exact absurd hclose (by decide +kernel)

end Runs

end PersClient.Key
