import Mathlib.Data.Set.Card
import PersClient.Key.Files
import PersClient.Key.HandleCache

/-! # Open databases

The key functions open databases and never close them; a shutdown closes what
the table of handles holds. A handle that is in no slot would stay open for
good, and one in two slots would be closed twice: the table holds each open
handle in exactly one slot, so there are never more than it has room for.
-/

namespace PersClient.Key

open File Handle Access

variable {W : Type*}

section Session

/-- What happens to a library: a key call, the shutdown the main loop dispatches,
or anything that only touches the rest of the state. -/
inductive SessionStep
  | call (frame : CallFrame) (call : KeyCall)
  | shutdown (complete : UInt32)
  | elsewhere (client : Client)

/-- The library after a step; `none` where a call does not return. -/
def SessionStep.next (S : Setup W) (lib : Library W) : SessionStep → Option (Library W)
  | call frame keyCall => (keyCall.perform S frame lib).map Prod.snd
  | shutdown complete => some (processPrepareShutdown S complete lib)
  | elsewhere client => some { lib with client }

def session (S : Setup W) (lib : Library W) (steps : List SessionStep) : Option (Library W) :=
  steps.foldlM (SessionStep.next S) lib

/-- The end of a process leaves the handles of databases, too. -/
structure EndLaws (plugin : Plugin W) (bound : W → ℤ → Option CStr) : Prop where
  rctClose : ∀ f, plugin.persComRctClose = some f → ∀ handle w, bound (f handle w).2 = bound w
  deinit : ∀ name functs, plugin.dlopen name = some functs →
    ∀ f, functs.customPluginDeinit = some f → ∀ w, bound (f w) = bound w

def openDatabases (bound : W → ℤ → Option CStr) (w : W) : Set ℤ := {handle | bound w handle ≠ none}

/-- Every database that is open can be closed. -/
structure Closes (plugin : Plugin W) (bound : W → ℤ → Option CStr) : Prop where
  loaded : plugin.persComDbClose.isSome = true
  succeeds : ∀ f, plugin.persComDbClose = some f → ∀ handle w, handle ∈ openDatabases bound w →
    0 ≤ (f handle w).1

end Session

section Held

variable {S : Setup W} {bound : W → ℤ → Option CStr} {fill : ℕ × DbType → Option CStr}
  {lib lib' : Library W}

/-- The slots in use are those of databases, and every open handle is in one. -/
structure HeldOpen (S : Setup W) (bound : W → ℤ → Option CStr) (lib : Library W) : Prop where
  database : ∀ slot handle, lib.gHandlesDB slot = some handle →
    (databaseFile S.com slot.2).isSome = true
  owner : ∀ handle ∈ openDatabases bound lib.world, ∃ slot, lib.gHandlesDB slot = some handle

theorem HeldOpen.keep (h : HeldOpen S bound lib) (handles : lib'.gHandlesDB = lib.gHandlesDB)
    (bindings : bound lib'.world = bound lib.world) : HeldOpen S bound lib' := by
  constructor
  · rw [handles]
    exact h.database
  · unfold openDatabases
    rw [handles, bindings]
    exact h.owner

theorem HeldOpen.get {g : Get} (h : HeldOpen S bound lib) (hcoherent : Coherent bound fill lib)
    (laws : DbHandleLaws S.plugin bound) (hfits : g.Fits S) : HeldOpen S bound (g.perform S lib).2 := by
  cases hslot : lib.gHandlesDB (g.slot S) with
  | some handle =>
    rw [perform_cached hcoherent hslot]
    exact h
  | none =>
    rcases perform_free laws hfits hslot with
      ⟨-, hhandles, hbound⟩ | ⟨-, -, hhandles, -, path, hpath, hbound⟩
    · exact h.keep hhandles hbound
    constructor
    · intro slot handle hin
      rw [hhandles, Function.update_apply] at hin
      split at hin
      · rename_i heq
        rw [heq]
        obtain ⟨file, hfile, -⟩ := Option.map_eq_some_iff.mp hpath
        exact Option.isSome_of_mem hfile
      · exact h.database slot handle hin
    · intro handle hopen
      unfold openDatabases at hopen
      rw [Set.mem_ofPred_eq, hbound, Function.update_apply] at hopen
      rw [hhandles]
      split at hopen
      · rename_i heq
        exact ⟨g.slot S, by rw [Function.update_self, heq]⟩
      · obtain ⟨slot, hin⟩ := h.owner handle hopen
        refine ⟨slot, ?_⟩
        rw [Function.update_of_ne]
        · exact hin
        · rintro rfl
          rw [hslot] at hin
          cases hin

/-- What the loop of `database_close_all` does at a slot: a handle that is closed
leaves the table, and one that is not stays. -/
theorem HeldOpen.close (h : HeldOpen S bound lib) (laws : DbHandleLaws S.plugin bound)
    (slot : ℕ × DbType) : HeldOpen S bound (databaseClose S slot lib) := by
  unfold databaseClose
  split
  · rename_i handle dbClose hslot hclose
    dsimp only
    split
    · rename_i hneg
      exact h.keep rfl (laws.notClosed dbClose hclose _ _ hneg)
    · rename_i hnonneg
      have hbound := laws.closed dbClose hclose _ _ (not_lt.mp hnonneg)
      constructor
      · intro other cached hin
        dsimp only at hin
        rw [Function.update_apply] at hin
        split at hin
        · cases hin
        · exact h.database other cached hin
      · intro other hopen
        unfold openDatabases at hopen
        rw [Set.mem_ofPred_eq, hbound, Function.update_apply] at hopen
        split at hopen
        · exact absurd rfl hopen
        · rename_i hne
          obtain ⟨slot', hin⟩ := h.owner other hopen
          refine ⟨slot', ?_⟩
          dsimp only
          rw [Function.update_of_ne]
          · exact hin
          · rintro rfl
            rw [hslot, Option.some.injEq] at hin
            exact hne hin.symm
  · exact h

theorem HeldOpen.traced {t : List (Get × Library W)} (laws : DbHandleLaws S.plugin bound)
    (htraced : Traced S bound lib t lib') (hcoherent : Coherent bound fill lib)
    (h : HeldOpen S bound lib) :
    (∃ fill', Coherent bound fill' lib') ∧ HeldOpen S bound lib' := by
  induction htraced generalizing fill with
  | keep handles bindings loaded =>
    exact ⟨⟨fill, hcoherent.keep handles bindings⟩, h.keep handles bindings⟩
  | get g fits => exact ⟨⟨_, hcoherent.get laws fits⟩, h.get hcoherent laws fits⟩
  | close slot => exact ⟨⟨fill, hcoherent.close laws slot⟩, h.close laws slot⟩
  | append first second ihfirst ihsecond =>
    obtain ⟨⟨fill', hcoherent'⟩, h'⟩ := ihfirst hcoherent h
    exact ihsecond hcoherent' h'

theorem HeldOpen.slots (h : HeldOpen S bound lib) (hcoherent : Coherent bound fill lib) (handle : ℤ) :
    handle ∈ openDatabases bound lib.world ↔ ∃! slot, lib.gHandlesDB slot = some handle := by
  constructor
  · intro hopen
    obtain ⟨slot, hin⟩ := h.owner handle hopen
    exact ⟨slot, hin, fun slot' hin' => hcoherent.distinct slot' slot handle hin' hin⟩
  · rintro ⟨slot, hin, -⟩ hnone
    obtain ⟨-, -, path, -, hbound⟩ := hcoherent.cached slot handle hin
    rw [hbound] at hnone
    cases hnone

def databaseSlots (size : ℕ) : Finset (ℕ × DbType) :=
  Finset.range size ×ˢ {.policy .wc, .policy .wt, .confdefault, .default}

theorem mem_databaseSlots {size : ℕ} {slot : ℕ × DbType} (hsize : slot.1 < size)
    (hfile : (databaseFile S.com slot.2).isSome = true) : slot ∈ databaseSlots size := by
  obtain ⟨i, t⟩ := slot
  refine Finset.mem_product.mpr ⟨Finset.mem_range.mpr hsize, ?_⟩
  rcases t with (_ | _ | _) | _ | _
  · simp
  · simp
  · cases hfile
  · simp
  · simp

theorem card_databaseSlots (size : ℕ) : (databaseSlots size).card = 4 * size := by
  rw [databaseSlots, Finset.card_product, Finset.card_range, mul_comm]
  rfl

theorem HeldOpen.count (h : HeldOpen S bound lib) {size : ℕ}
    (hsize : ∀ slot handle, lib.gHandlesDB slot = some handle → slot.1 < size) :
    (openDatabases bound lib.world).Finite ∧
      (openDatabases bound lib.world).ncard ≤ 4 * size := by
  have hsubset : openDatabases bound lib.world ⊆
      ((databaseSlots size).image fun slot => (lib.gHandlesDB slot).getD 0 : Finset ℤ) := by
    intro handle hopen
    obtain ⟨slot, hin⟩ := h.owner handle hopen
    refine Finset.mem_coe.mpr (Finset.mem_image.mpr ⟨slot, ?_, by rw [hin]; rfl⟩)
    exact mem_databaseSlots (hsize slot handle hin) (h.database slot handle hin)
  refine ⟨(Finset.finite_toSet _).subset hsubset, ?_⟩
  calc (openDatabases bound lib.world).ncard
      ≤ ((databaseSlots size).image fun slot => (lib.gHandlesDB slot).getD 0).card := by
        rw [← Set.ncard_coe_finset]
        exact Set.ncard_le_ncard hsubset (Finset.finite_toSet _)
    _ ≤ (databaseSlots size).card := Finset.card_image_le
    _ = 4 * size := card_databaseSlots size

end Held

section Closing

variable {S : Setup W} {bound : W → ℤ → Option CStr} {fill : ℕ × DbType → Option CStr}
  {lib : Library W}

theorem mem_dbTypes (t : DbType) : t ∈ dbTypes := by
  rcases t with (_ | _ | _) | _ | _ <;> decide

/-- The loops of `database_close_all` pass every slot of a table of this size. -/
theorem mem_slots_iff (size : ℕ) (slot : ℕ × DbType) :
    slot ∈ (List.range size).flatMap (fun i => dbTypes.map fun j => (i, j)) ↔ slot.1 < size := by
  rw [List.mem_flatMap]
  constructor
  · rintro ⟨i, hi, hslot⟩
    obtain ⟨j, -, rfl⟩ := List.mem_map.mp hslot
    exact List.mem_range.mp hi
  · intro hlt
    exact ⟨slot.1, List.mem_range.mpr hlt, List.mem_map.mpr ⟨slot.2, mem_dbTypes slot.2, rfl⟩⟩

theorem databaseClose_table (hcloses : Closes S.plugin bound) (hcoherent : Coherent bound fill lib)
    (slot : ℕ × DbType) :
    (databaseClose S slot lib).gHandlesDB = Function.update lib.gHandlesDB slot none := by
  unfold databaseClose
  obtain ⟨dbClose, hclose⟩ := Option.isSome_iff_exists.mp hcloses.loaded
  cases hslot : lib.gHandlesDB slot with
  | none =>
    dsimp only
    rw [← hslot, Function.update_eq_self]
  | some handle =>
    obtain ⟨-, -, path, -, hbound⟩ := hcoherent.cached slot handle hslot
    have hopen : handle ∈ openDatabases bound lib.world := by
      unfold openDatabases
      rw [Set.mem_ofPred_eq, hbound]
      exact Option.some_ne_none path
    have hnonneg := hcloses.succeeds dbClose hclose handle lib.world hopen
    rw [hclose]
    dsimp only
    rw [if_neg (not_lt.mpr hnonneg)]

theorem databaseCloses_table (laws : DbHandleLaws S.plugin bound) (hcloses : Closes S.plugin bound)
    (slots : List (ℕ × DbType)) (hcoherent : Coherent bound fill lib) (slot : ℕ × DbType) :
    (slots.foldl (fun lib slot => databaseClose S slot lib) lib).gHandlesDB slot =
      if slot ∈ slots then none else lib.gHandlesDB slot := by
  induction slots generalizing lib with
  | nil => rfl
  | cons first rest ih =>
    rw [List.foldl_cons, ih (hcoherent.close laws first), databaseClose_table hcloses hcoherent,
      Function.update_apply]
    by_cases hrest : slot ∈ rest
    · rw [if_pos hrest, if_pos (List.mem_cons_of_mem first hrest)]
    · by_cases hfirst : slot = first
      · rw [if_neg hrest, if_pos hfirst, if_pos (by rw [hfirst]; exact List.mem_cons_self)]
      · rw [if_neg hrest, if_neg hfirst, if_neg (by simp [hfirst, hrest])]

theorem databaseCloses_empty (laws : DbHandleLaws S.plugin bound) (hcloses : Closes S.plugin bound)
    (hcoherent : Coherent bound fill lib) {size : ℕ} (slot : ℕ × DbType)
    (hsize : ∀ handle, lib.gHandlesDB slot = some handle → slot.1 < size) :
    (((List.range size).flatMap fun i => dbTypes.map fun j => (i, j)).foldl
      (fun lib slot => databaseClose S slot lib) lib).gHandlesDB slot = none := by
  rw [databaseCloses_table laws hcloses _ hcoherent]
  by_cases hlt : slot.1 < size
  · rw [if_pos ((mem_slots_iff size slot).mpr hlt)]
  · rw [if_neg fun hin => hlt ((mem_slots_iff size slot).mp hin)]
    exact Option.eq_none_iff_forall_ne_some.mpr fun handle hslot => hlt (hsize handle hslot)

theorem databaseCloseAll_eq {size : ℕ} (hsize : size = dbTableSize) :
    databaseCloseAll S lib =
      ((List.range size).flatMap fun i => dbTypes.map fun j => (i, j)).foldl
        (fun lib slot => databaseClose S slot lib) lib := by
  subst hsize
  rfl

/-- If every database can be closed, `database_close_all` empties the table. -/
theorem databaseCloseAll_table (laws : DbHandleLaws S.plugin bound)
    (hcloses : Closes S.plugin bound) (hcoherent : Coherent bound fill lib) (slot : ℕ × DbType) :
    (databaseCloseAll S lib).gHandlesDB slot = none := by
  obtain ⟨size, hsize⟩ : ∃ size, size = dbTableSize := ⟨_, rfl⟩
  rw [databaseCloseAll_eq hsize]
  apply databaseCloses_empty laws hcloses hcoherent slot
  intro handle hslot
  rw [hsize]
  exact (hcoherent.cached slot handle hslot).1

end Closing

section Sessions

variable {S : Setup W} {bound : W → ℤ → Option CStr} {lib lib' : Library W}

theorem rctClose_traced (hend : EndLaws S.plugin bound) (i : ℕ) :
    Traced S bound lib [] (rctClose S i lib) := by
  unfold rctClose
  split
  · split
    · exact .refl lib
    · rename_i close hclose
      have hbound := hend.rctClose close hclose (getResourceCfgTableByIdx i lib) lib.world
      dsimp only
      unfold invalidateResourceCfgTable
      split
      · exact .keep rfl hbound id
      · exact .keep rfl hbound id
  · exact .refl lib

theorem customDeinit_traced (hend : EndLaws S.plugin bound) (hloaded : Loaded S.plugin lib)
    (idx : PersistenceCustomLibs) : Traced S bound lib [] (customDeinit idx lib) := by
  unfold customDeinit
  cases hdeinit : (lib.gPersCustomFuncs idx).customPluginDeinit with
  | none => exact .refl lib
  | some deinit =>
    refine .keep rfl ?_ fun _ other => ?_
    · rcases hloaded idx with hempty | ⟨name, hfound⟩
      · rw [hempty] at hdeinit
        cases hdeinit
      · exact hend.deinit name _ hfound deinit hdeinit lib.world
    · dsimp only
      rw [Function.update_apply]
      split
      · exact Or.inl rfl
      · exact hloaded other

theorem foldl_traced {α : Type*} {step : Library W → α → Library W}
    (hstep : ∀ lib a, Loaded S.plugin lib → Traced S bound lib [] (step lib a)) (list : List α)
    (hloaded : Loaded S.plugin lib) : Traced S bound lib [] (list.foldl step lib) := by
  induction list generalizing lib with
  | nil => exact .refl lib
  | cons a list ih =>
    have hfirst := hstep lib a hloaded
    exact hfirst.trans (ih (hfirst.loaded hloaded))

theorem processPrepareShutdown_traced (hend : EndLaws S.plugin bound)
    (hloaded : Loaded S.plugin lib) (complete : UInt32) :
    Traced S bound lib [] (processPrepareShutdown S complete lib) := by
  unfold processPrepareShutdown
  dsimp only
  generalize File.processPrepareShutdown complete lib.client = client
  have hclient : Traced S bound lib [] { lib with client } := .keep rfl rfl id
  have htables : Traced S bound { lib with client } [] (persRctCloseAll S { lib with client }) :=
    foldl_traced (fun lib i _ => rctClose_traced hend i) _ (hclient.loaded hloaded)
  have hclosed := (hclient.trans htables).trans (databaseCloseAll_traced _)
  split
  · exact hclosed.trans
      (foldl_traced (fun lib idx h => customDeinit_traced hend h idx) _ (hclosed.loaded hloaded))
  · exact hclosed

variable (hS : Sound S bound) (hend : EndLaws S.plugin bound)
include hS hend

theorem step_traced {step : SessionStep} (hloaded : Loaded S.plugin lib)
    (hnext : step.next S lib = some lib') : ∃ t, Traced S bound lib t lib' := by
  cases step with
  | call frame keyCall =>
    obtain ⟨⟨result, lib₁⟩, hperform, rfl⟩ := Option.map_eq_some_iff.mp hnext
    have hcall := @call_traced W S bound hS frame keyCall lib hloaded
    rw [hperform] at hcall
    exact ⟨_, hcall⟩
  | shutdown complete =>
    cases hnext
    exact ⟨[], processPrepareShutdown_traced hend hloaded complete⟩
  | elsewhere client =>
    cases hnext
    exact ⟨[], .keep rfl rfl id⟩

theorem session_traced (steps : List SessionStep) (hloaded : Loaded S.plugin lib)
    (hsession : session S lib steps = some lib') : ∃ t, Traced S bound lib t lib' := by
  induction steps generalizing lib with
  | nil =>
    cases hsession
    exact ⟨[], .refl _⟩
  | cons step steps ih =>
    obtain ⟨lib₁, hnext, hrest⟩ := Option.bind_eq_some_iff.mp hsession
    obtain ⟨t, ht⟩ := step_traced hS hend hloaded hnext
    obtain ⟨u, hu⟩ := ih (ht.loaded hloaded) hrest
    exact ⟨t ++ u, ht.append hu⟩

end Sessions

section Shut

variable {S : Setup W} {bound : W → ℤ → Option CStr} {fill : ℕ × DbType → Option CStr}
  {lib : Library W}

theorem customDeinits_handlesDB (idxs : List PersistenceCustomLibs) :
    (idxs.foldl (fun lib idx => customDeinit idx lib) lib).gHandlesDB = lib.gHandlesDB := by
  induction idxs generalizing lib with
  | nil => rfl
  | cons idx idxs ih =>
    rw [List.foldl_cons, ih]
    unfold customDeinit
    split <;> rfl

theorem processPrepareShutdown_table (laws : DbHandleLaws S.plugin bound)
    (hend : EndLaws S.plugin bound) (hcloses : Closes S.plugin bound)
    (hloaded : Loaded S.plugin lib) (hcoherent : Coherent bound fill lib) (complete : UInt32)
    (slot : ℕ × DbType) :
    (processPrepareShutdown S complete lib).gHandlesDB slot = none := by
  unfold processPrepareShutdown
  dsimp only
  generalize File.processPrepareShutdown complete lib.client = client
  have hclient : Traced S bound lib [] { lib with client } := .keep rfl rfl id
  have htables : Traced S bound { lib with client } [] (persRctCloseAll S { lib with client }) :=
    foldl_traced (fun lib i _ => rctClose_traced hend i) _ (hclient.loaded hloaded)
  have hempty := databaseCloseAll_table laws hcloses
    (hcoherent.traced laws (hclient.trans htables)).1 slot
  split
  · rw [customDeinits_handlesDB]
    exact hempty
  · exact hempty

end Shut

/-- In every session of a library that starts without open databases, each one
that is open is in exactly one slot of the table, there are at most four for
each index of the table, and a shutdown that can close them leaves none. -/
theorem open_databases_held {S : Setup W} {bound : W → ℤ → Option CStr} (hS : Sound S bound)
    (hend : EndLaws S.plugin bound) (steps : List SessionStep) {lib lib' : Library W}
    (hloaded : Loaded S.plugin lib) (htable : ∀ slot, lib.gHandlesDB slot = none)
    (hnone : openDatabases bound lib.world = ∅) (hsession : session S lib steps = some lib') :
    (∀ handle, handle ∈ openDatabases bound lib'.world ↔
      ∃! slot, lib'.gHandlesDB slot = some handle) ∧
    (openDatabases bound lib'.world).Finite ∧
    (openDatabases bound lib'.world).ncard ≤ 4 * dbTableSize ∧
    (Closes S.plugin bound → ∀ complete,
      openDatabases bound (processPrepareShutdown S complete lib').world = ∅) := by
  have hcoherent : Coherent bound (fun _ => none) lib := by
    constructor <;> simp [htable]
  have hheld : HeldOpen S bound lib := by
    constructor
    · simp [htable]
    · simp [hnone]
  obtain ⟨t, htraced⟩ := session_traced hS hend steps hloaded hsession
  obtain ⟨⟨fill, hcoherent'⟩, hheld'⟩ := hheld.traced hS.laws htraced hcoherent
  obtain ⟨hfinite, hcount⟩ := hheld'.count fun slot handle hin =>
    (hcoherent'.cached slot handle hin).1
  refine ⟨hheld'.slots hcoherent', hfinite, hcount, fun hcloses complete => ?_⟩
  have hloaded' := htraced.loaded hloaded
  have hshut := hheld'.traced hS.laws (processPrepareShutdown_traced hend hloaded' complete)
    hcoherent'
  have hempty := processPrepareShutdown_table hS.laws hend hcloses hloaded' hcoherent' complete
  rw [Set.eq_empty_iff_forall_notMem]
  intro handle hopen
  obtain ⟨slot, hin⟩ := hshut.2.owner handle hopen
  rw [hempty slot] at hin
  cases hin

section Example

theorem numbered_ends : EndLaws Plugin.numbered numberedBound where
  rctClose := by rintro f ⟨⟩ handle w; rfl
  deinit := by rintro name functs ⟨⟩

/-- Two keys with different policies are read. -/
def twoReads : List SessionStep :=
  [.call plainFrame (.direct ⟨⟨pclLdbidLocal, 0, 0⟩, cstr "cached"⟩ (.read [] 0)),
    .elsewhere numberedLibrary.client,
    .call plainFrame (.direct ⟨⟨pclLdbidLocal, 0, 0⟩, cstr "through"⟩ (.read [] 0))]

theorem numbered_closes : Closes Plugin.numbered numberedBound where
  loaded := rfl
  succeeds := by
    rintro f ⟨⟩ handle w hopen
    dsimp only
    rw [if_neg hopen]

/-- The reads leave their databases open, and a shutdown closes them. -/
theorem two_reads_held :
    ∃ lib', session numberedSetup numberedLibrary twoReads = some lib' ∧
      3 ∈ openDatabases numberedBound lib'.world ∧
      (∃! slot, lib'.gHandlesDB slot = some 3) ∧
      ∀ complete, openDatabases numberedBound
        (processPrepareShutdown numberedSetup complete lib').world = ∅ := by
  have hends : (session numberedSetup numberedLibrary twoReads).map (fun lib =>
      (numberedBound lib.world 3).isSome) = some true := by decide +kernel
  obtain ⟨lib', hsession, hopen⟩ := Option.map_eq_some_iff.mp hends
  have hnone : openDatabases numberedBound numberedLibrary.world = ∅ := by
    ext handle
    simp [openDatabases, numberedLibrary, numberedBound]
  have hheld := open_databases_held numbered_sound numbered_ends twoReads
    (fun _ => Or.inl rfl) (fun _ => rfl) hnone hsession
  have hin : 3 ∈ openDatabases numberedBound lib'.world := Option.isSome_iff_ne_none.mp hopen
  exact ⟨lib', hsession, hin, (hheld.1 3).mp hin, hheld.2.2.2 numbered_closes⟩

end Example

end PersClient.Key
