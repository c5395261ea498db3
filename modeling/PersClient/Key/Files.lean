import PersClient.Key.Calls

/-! # Files and shutdown beside the key databases

The file functions find their resource with the same search of the resource
tables, and a shutdown closes the tables and databases together with the files.
-/

namespace PersClient.Key

open File Handle Access

variable {W : Type*} (S : Setup W)

section Files

variable (env : Env) (frame : CallFrame) (context : PersistenceDbContext) (resourceId : CStr)

def pclFileOpen (lib : Library W) : ℤ × Library W :=
  if 0 < lib.client.gPclInitCounter then
    let (ctx, lib) := getDbContext S frame context resourceId true lib
    let (handle, client) := File.pclFileOpen S.com S.appId env ctx resourceId context.userNo
      context.seatNo lib.client
    (handle, { lib with client })
  else (epersNotInitialized, lib)

def pclFileRemove (lib : Library W) : ℤ × Library W :=
  if 0 < lib.client.gPclInitCounter then
    if ¬ Locked lib.client.loop then
      let (ctx, lib) := getDbContext S frame context resourceId true lib
      let (rval, client) := File.pclFileRemove ctx lib.client
      (rval, { lib with client })
    else (epersLockfs, lib)
  else (epersNotInitialized, lib)

def pclFileCreatePath (lib : Library W) : ℤ × Library W :=
  if 0 < lib.client.gPclInitCounter then
    let (ctx, lib) := getDbContext S frame context resourceId true lib
    let (handle, client) := File.pclFileCreatePath S.com S.appId env ctx resourceId context.userNo
      context.seatNo lib.client
    (handle, { lib with client })
  else (epersNotInitialized, lib)

end Files

section Shutdown

def customLibs : List PersistenceCustomLibs :=
  [.default, .early, .secure, .emergency, .hwInfo, .custom1, .custom2, .custom3]

def customDeinit (idx : PersistenceCustomLibs) (lib : Library W) : Library W :=
  match (lib.gPersCustomFuncs idx).customPluginDeinit with
  | none => lib
  | some deinit =>
    { lib with
      world := deinit lib.world
      gPersCustomFuncs := Function.update lib.gPersCustomFuncs idx {} }

/-- `process_prepare_shutdown`. The files and handles come first here; the
closing of tables and databases does not depend on them. -/
def processPrepareShutdown (complete : UInt32) (lib : Library W) : Library W :=
  let lib := { lib with client := File.processPrepareShutdown complete lib.client }
  let lib := databaseCloseAll S (persRctCloseAll S lib)
  if 0 < complete then customLibs.foldl (fun lib idx => customDeinit idx lib) lib else lib

variable {S} {lib : Library W}

theorem foldl_client {α : Type*} {step : Library W → α → Library W}
    (hstep : ∀ lib a, (step lib a).client = lib.client) (list : List α) :
    (list.foldl step lib).client = lib.client := by
  induction list generalizing lib with
  | nil => rfl
  | cons a list ih => exact ih.trans (hstep lib a)

theorem databaseClose_client (slot : ℕ × DbType) : (databaseClose S slot lib).client = lib.client := by
  unfold databaseClose
  split
  · dsimp only
    split <;> rfl
  · rfl

theorem rctClose_client (i : ℕ) : (rctClose S i lib).client = lib.client := by
  unfold rctClose invalidateResourceCfgTable
  split
  · split
    · rfl
    · dsimp only
      split <;> rfl
  · rfl

theorem customDeinit_client (idx : PersistenceCustomLibs) :
    (customDeinit idx lib).client = lib.client := by
  unfold customDeinit
  split <;> rfl

theorem processPrepareShutdown_client (complete : UInt32) :
    (processPrepareShutdown S complete lib).client =
      File.processPrepareShutdown complete lib.client := by
  have hclose : ∀ lib : Library W, (databaseCloseAll S (persRctCloseAll S lib)).client = lib.client :=
    fun lib => (foldl_client (fun lib slot => databaseClose_client slot) _).trans
      (foldl_client (fun lib i => rctClose_client i) _)
  unfold processPrepareShutdown
  dsimp only
  split
  · rw [foldl_client fun lib idx => customDeinit_client idx, hclose]
  · rw [hclose]

end Shutdown

end PersClient.Key
