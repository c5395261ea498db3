import PersClient.File.Checked

/-! # The routes of an opening

`pclFileOpenRegular` obtains its descriptor in one of several ways, fails in
several others, and makes a record for a failed opening too. Each route tells
which descriptors are new and what becomes of the records.
-/

namespace PersClient.File

open Crash Handle

variable (com : CommonObject) (appId : CStr) (env : Env) (ctx : DbContext)

def checkOriginal (c : Client) : ℤ × Os :=
  if wantsBackup com c ctx then
    pclVerifyConsistency env ctx.dbPath (backupPath com ctx.configKey.policy ctx.dbPath)
      (csumPath com ctx.configKey.policy ctx.dbPath)
      (pclGetPosixPermission ctx.configKey.permission) c.os
  else (-1, c.os)

/-- The descriptor of the file as it is found: kept by the check or opened. -/
def openFound (c : Client) : ℤ × Os :=
  let (handle, os) := checkOriginal com env ctx c
  if handle ≤ 0 then os.openPath env ctx.dbPath (pclGetPosixPermission ctx.configKey.permission)
  else (handle, os)

def regularOutcome (c : Client) : CheckOutcome :=
  checkOutcome env ctx.dbPath (backupPath com ctx.configKey.policy ctx.dbPath)
    (csumPath com ctx.configKey.policy ctx.dbPath)
    (pclGetPosixPermission ctx.configKey.permission).read c.os

/-- The check, if the resource wants one, leaves the file to the opening, to which
it is reported as not there. -/
def Missing (c : Client) : Prop :=
  if wantsBackup com c ctx then
    match regularOutcome com env ctx c with
    | .unchecked openings => c.os.NotThere env (c.os.clock + openings) ctx.dbPath
    | .kept | .refused | .lost => False
  else c.os.NotThere env c.os.clock ctx.dbPath

instance (c : Client) : Decidable (Missing com env ctx c) :=
  have hleft : ∀ outcome : CheckOutcome, Decidable (match outcome with
      | .unchecked openings => c.os.NotThere env (c.os.clock + openings) ctx.dbPath
      | .kept | .refused | .lost => False) := fun
    | .unchecked openings =>
      inferInstanceAs (Decidable (c.os.NotThere env (c.os.clock + openings) ctx.dbPath))
    | .kept | .refused | .lost => instDecidableFalse
  have := hleft (regularOutcome com env ctx c)
  inferInstanceAs (Decidable (if wantsBackup com c ctx then _ else _))

def wantBackup (c : Client) : ℤ := if wantsBackup com c ctx then 0 else 1

/-- Nothing is lost, or descriptor 0, which the check keeps and the caller takes
for none. -/
def Lost (L : Set ℤ) : Prop := L = ∅ ∨ L = {0}

inductive OpenRoute (c : Client) : ℤ × Client → Prop
  | rejected {B : Set ℤ} {os : Os} : Outcome ∅ (-1) B → c.os.Opens B os →
      OpenRoute c (-1, { c with os })
  | limit {L : Set ℤ} {os : Os} : Lost L → c.os.Opens L os →
      OpenRoute c (epersMaxhandle, { c with os })
  | unopened {L : Set ℤ} {os : Os} {fd : ℤ} : Lost L → c.os.Opens L os → fd < 0 →
      OpenRoute c (fd, registerRegular com ctx fd (wantBackup com ctx c) { c with os })
  | found {L : Set ℤ} {os : Os} {fd : ℤ} : Lost L → 0 ≤ fd → fd ∉ L →
      c.os.Opens (insert fd L) os → ¬ Missing com env ctx c →
      OpenRoute c (fd, registerRegular com ctx fd (wantBackup com ctx c) { c with os })
  | created {L : Set ℤ} {os : Os} {fd : ℤ} : Lost L → 0 ≤ fd → fd ∉ L →
      c.os.Opens (insert fd L) os → Missing com env ctx c →
      OpenRoute c (fd, registerRegular com ctx fd (wantBackup com ctx c) { c with
        os
        gFileHandleTree :=
          setFileCacheStatus c.gFileHandleTree fd (cacheStatusOf com ctx.dbPath) })

variable {com appId env ctx} {c : Client} {os : Os} {A : Set ℤ}

theorem createRegular_opens (h : os.Opens A c.os) (resourceId : CStr) (cacheStatus : ℤ) :
    (∃ fd os', fd < 0 ∧ os.Opens A os' ∧
      createRegular com appId env ctx resourceId cacheStatus c = (fd, { c with os := os' })) ∨
    ∃ fd os', 0 ≤ fd ∧ fd ∉ A ∧ os.Opens (insert fd A) os' ∧
      createRegular com appId env ctx resourceId cacheStatus c = (fd, { c with
        os := os', gFileHandleTree := setFileCacheStatus c.gFileHandleTree fd cacheStatus }) := by
  unfold createRegular
  rcases pclCreateFile_opensOne h com env ctx.dbPath with ⟨hneg, hopens⟩ | ⟨hpos, hnew, hopens⟩
  · simp only [hneg, if_true]
    exact Or.inl ⟨-1, _, neg_one_lt_zero, hopens, rfl⟩
  · have hne : (pclCreateFile com env ctx.dbPath c.os).1 ≠ -1 := by omega
    simp only [hne, if_false]
    split
    · exact Or.inl ⟨epersMaxhandle, _, by decide, hopens.close_new hnew, rfl⟩
    · exact Or.inr ⟨_, _, hpos, hnew, pclFileGetDefaultData_opens hopens com appId env _ _ _, rfl⟩

theorem checkOriginal_cases (com : CommonObject) (env : Env) (ctx : DbContext) (c : Client) :
    (wantsBackup com c ctx = true ∧ (checkOriginal com env ctx c).1 = -1 ∧
      ∃ B, Outcome ∅ (-1) B ∧ c.os.Opens B (checkOriginal com env ctx c).2) ∨
    wantsBackup com c ctx = false ∧ checkOriginal com env ctx c = (-1, c.os) ∨
    (checkOriginal com env ctx c).1 ≠ -1 ∧ Grants c.os ∅ (checkOriginal com env ctx c) := by
  unfold checkOriginal
  split
  · rename_i hwanted
    have grants := pclVerifyConsistency_grants (.refl c.os) env ctx.dbPath
      (backupPath com ctx.configKey.policy ctx.dbPath)
      (csumPath com ctx.configKey.policy ctx.dbPath)
      (pclGetPosixPermission ctx.configKey.permission)
    rcases eq_or_ne (pclVerifyConsistency env ctx.dbPath
      (backupPath com ctx.configKey.policy ctx.dbPath)
      (csumPath com ctx.configKey.policy ctx.dbPath)
      (pclGetPosixPermission ctx.configKey.permission) c.os).1 (-1) with hneg | hne
    · obtain ⟨B, hout, hopens⟩ := grants
      rw [hneg] at hout
      exact Or.inl ⟨hwanted, hneg, B, hout, hopens⟩
    · exact Or.inr (Or.inr ⟨hne, grants⟩)
  · rename_i hwanted
    exact Or.inr (Or.inl ⟨Bool.eq_false_iff.mpr hwanted, rfl⟩)

theorem openFound_opensOne
    (h : checkOriginal com env ctx c = (-1, c.os) ∨
      (checkOriginal com env ctx c).1 ≠ -1 ∧ Grants c.os ∅ (checkOriginal com env ctx c)) :
    ∃ L, Lost L ∧ c.os.OpensOne L (openFound com env ctx c) := by
  unfold openFound
  rcases h with h | ⟨hne, B, hout, hopens⟩
  · rw [h]
    exact ⟨∅, Or.inl rfl, (Os.Opens.refl c.os).openPath env _ _⟩
  · generalize checkOriginal com env ctx c = r at *
    obtain ⟨handle, os⟩ := r
    dsimp only at *
    cases hout with
    | failed => exact absurd rfl hne
    | leaked => exact absurd rfl hne
    | opened hpos hnew =>
      split
      · rename_i hle
        obtain rfl : handle = 0 := by omega
        exact ⟨insert 0 ∅, Or.inr (by simp), hopens.openPath env _ _⟩
      · exact ⟨∅, Or.inl rfl, Or.inr ⟨hpos, hnew, hopens⟩⟩
    | unopened =>
      rw [if_pos le_rfl]
      exact ⟨∅, Or.inl rfl, hopens.openPath env _ _⟩

/-- What `openValid` finds, with the cache status that goes with it. -/
theorem openFound_eq {handle handle' cacheStatus : ℤ} {os os' : Os}
    (hcheck : checkOriginal com env ctx c = (handle, os))
    (hfound : (if handle ≤ 0 then
        (os.openPath env ctx.dbPath (pclGetPosixPermission ctx.configKey.permission),
          cacheStatusOf com ctx.dbPath)
      else ((handle, os), -1)) = ((handle', os'), cacheStatus)) :
    openFound com env ctx c = (handle', os') ∧
      (handle' = -1 → cacheStatus = cacheStatusOf com ctx.dbPath) := by
  unfold openFound
  rw [hcheck]
  dsimp only
  split at hfound
  · obtain ⟨hopen, hstatus⟩ := Prod.mk.inj hfound
    rw [if_pos ‹_›]
    exact ⟨hopen, fun _ => hstatus.symm⟩
  · obtain ⟨hopen, -⟩ := Prod.mk.inj hfound
    rw [if_neg ‹_›]
    refine ⟨hopen, fun hneg => ?_⟩
    have := (Prod.mk.inj hopen).1
    omega

/-- The file that is missing is the one the opening reports as not there. -/
theorem openFound_missing_iff
    (hkept : ¬ (wantsBackup com c ctx ∧ (checkOriginal com env ctx c).1 = -1)) :
    ((openFound com env ctx c).1 = -1 ∧ (openFound com env ctx c).2.errno = .enoent) ↔
      Missing com env ctx c := by
  have hplain := pclGetPosixPermission_plain ctx.configKey.permission
  unfold openFound Missing
  cases hwanted : wantsBackup com c ctx with
  | false =>
    have hcheck : checkOriginal com env ctx c = (-1, c.os) := by
      rw [checkOriginal, hwanted]
      rfl
    rw [hcheck]
    simp only [Bool.false_eq_true, if_false]
    exact Os.openPath_enoent_iff _ hplain
  | true =>
    have hends := pclVerifyConsistency_ends env ctx.dbPath
      (backupPath com ctx.configKey.policy ctx.dbPath)
      (csumPath com ctx.configKey.policy ctx.dbPath) hplain c.os
    have hcheck : checkOriginal com env ctx c = pclVerifyConsistency env ctx.dbPath
        (backupPath com ctx.configKey.policy ctx.dbPath)
        (csumPath com ctx.configKey.policy ctx.dbPath)
        (pclGetPosixPermission ctx.configKey.permission) c.os := by
      rw [checkOriginal, if_pos hwanted]
    have hnot : (checkOriginal com env ctx c).1 ≠ -1 := fun hneg => hkept ⟨hwanted, hneg⟩
    rw [← hcheck] at hends
    unfold regularOutcome
    generalize checkOriginal com env ctx c = r at hends hnot
    generalize checkOutcome env ctx.dbPath (backupPath com ctx.configKey.policy ctx.dbPath)
      (csumPath com ctx.configKey.policy ctx.dbPath)
      (pclGetPosixPermission ctx.configKey.permission).read c.os = outcome at hends
    simp only [if_true]
    cases hends with
    | unchecked hopens hdisk hclock =>
      dsimp only
      rw [if_pos le_rfl, ← hclock, ← Os.notThere_of_disk hdisk]
      exact Os.openPath_enoent_iff _ hplain
    | kept hpos hnew hopens hnames =>
      dsimp only
      rw [if_neg (not_le.mpr hpos)]
      exact iff_of_false (fun h => absurd h.1 (by dsimp only; omega)) id
    | refused hopens => exact absurd rfl hnot
    | lost hnew hopens => exact absurd rfl hnot

theorem openValid_route (resourceId : CStr) (c : Client) :
    OpenRoute com env ctx c (openValid com appId env ctx resourceId c) := by
  have hcases := checkOriginal_cases com env ctx c
  unfold openValid
  extract_lets flags wanted
  split
  rename_i handle os hcheck
  have hchecked : checkOriginal com env ctx c = (handle, os) := hcheck
  split
  · rename_i hrejected
    rw [Bool.and_eq_true, decide_eq_true_eq] at hrejected
    rcases hcases with ⟨-, -, B, hout, hopens⟩ | ⟨hunwanted, -⟩ | ⟨hne, -⟩
    · rw [hchecked] at hopens
      exact .rejected hout (hopens.close_negative (by rw [hrejected.2]; decide))
    · have hwanted : wantsBackup com c ctx = true := hrejected.1
      rw [hunwanted] at hwanted
      cases hwanted
    · rw [hchecked] at hne
      exact absurd hrejected.2 hne
  · rename_i hkept
    rw [Bool.and_eq_true, decide_eq_true_eq] at hkept
    have hunrefused : ¬ (wantsBackup com c ctx ∧ (checkOriginal com env ctx c).1 = -1) := by
      rw [hchecked]
      exact hkept
    obtain ⟨L, hlost, hfound⟩ := openFound_opensOne (hcases.resolve_left
      (fun hrejected => hunrefused ⟨hrejected.1, hrejected.2.1⟩) |>.imp And.right id)
    split
    rename_i handle' os' cacheStatus heq
    obtain ⟨hopen, hstatus⟩ := openFound_eq hchecked heq
    rw [hopen] at hfound
    extract_lets c₁
    split
    · split
      rename_i fd c₂ hcreate
      split at hcreate
      · rename_i hmissing
        have hmiss : Missing com env ctx c := by
          rw [← openFound_missing_iff hunrefused, hopen]
          exact hmissing
        have hopens : c.os.Opens L c₁.os := by
          rcases hfound with ⟨-, hopens⟩ | ⟨hpos, -⟩
          · exact hopens
          · dsimp only at hpos
            omega
        rw [hstatus hmissing.1] at hcreate
        rcases createRegular_opens hopens resourceId (cacheStatusOf com ctx.dbPath) with
          ⟨fd', os₂, hneg, hopens, hcreated⟩ | ⟨fd', os₂, hpos, hnew, hopens, hcreated⟩
        · obtain ⟨rfl, rfl⟩ := Prod.mk.inj (hcreated.symm.trans hcreate)
          exact .unopened hlost hopens hneg
        · obtain ⟨rfl, rfl⟩ := Prod.mk.inj (hcreated.symm.trans hcreate)
          exact .created hlost hpos hnew hopens hmiss
      · obtain ⟨rfl, rfl⟩ := Prod.mk.inj hcreate
        rcases hfound with ⟨hneg, hopens⟩ | ⟨hpos, hnew, hopens⟩
        · exact .unopened hlost hopens (by dsimp only at hneg; omega)
        · refine .found hlost hpos hnew hopens fun hmiss => ?_
          rw [← openFound_missing_iff hunrefused, hopen] at hmiss
          have hneg := hmiss.1
          dsimp only at hpos hneg
          omega
    · rename_i hlimit
      rcases hfound with ⟨hneg, -⟩ | ⟨-, hnew, hopens⟩
      · dsimp only at hneg
        exact absurd (by rw [hneg]; decide) hlimit
      · exact .limit hlost (hopens.close_new hnew)

end PersClient.File
