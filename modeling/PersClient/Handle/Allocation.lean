import PersClient.Handle.Pool
import PersClient.Lib.Allocator

/-! # The handle pool as an allocator

The variables of the pool with an array of `MaxPersHandle` cells, where an index
outside the array leads astray. They stay inside, and answer as an allocator of
the handles 1 to `MaxPersHandle` - 2 that issues the latest returned one first.
-/

namespace PersClient.Handle

open Allocator Steps

section Source

/-- `gHandleIdx`, `gFreeHandleArray` and `gFreeHandleIdxHead`, with the cells the array has. -/
structure PoolVariables where
  gHandleIdx : ℤ := 1
  gFreeHandleArray : Fin maxPersHandle → ℤ := fun _ => 0
  gFreeHandleIdxHead : ℤ := 0

def cell (i : ℤ) : Option (Fin maxPersHandle) :=
  if h : 0 ≤ i ∧ i.toNat < maxPersHandle then some ⟨i.toNat, h.2⟩ else none

namespace PoolVariables

def getPersistenceHandleIdx (v : PoolVariables) : Option (ℤ × PoolVariables) :=
  if 0 < v.gFreeHandleIdxHead ∧ v.gFreeHandleIdxHead < maxPersHandle then
    (cell (v.gFreeHandleIdxHead - 1)).map fun i =>
      (v.gFreeHandleArray i, { v with gFreeHandleIdxHead := v.gFreeHandleIdxHead - 1 })
  else if v.gHandleIdx < maxPersHandle - 1 then
    some (v.gHandleIdx, { v with gHandleIdx := v.gHandleIdx + 1 })
  else some (epersMaxhandle, v)

def setPersistenceHandleCloseIdx (handle : ℤ) (v : PoolVariables) : Option PoolVariables :=
  if 0 ≤ v.gFreeHandleIdxHead ∧ v.gFreeHandleIdxHead < maxPersHandle then
    (cell v.gFreeHandleIdxHead).map fun i =>
      { v with
        gFreeHandleArray := Function.update v.gFreeHandleArray i handle
        gFreeHandleIdxHead := v.gFreeHandleIdxHead + 1 }
  else some v

/-- What `close_all_persistence_handle` does to the pool. -/
def closeAllPersistenceHandle (v : PoolVariables) : PoolVariables :=
  { v with gFreeHandleArray := fun _ => 0, gHandleIdx := 1, gFreeHandleIdxHead := 0 }

end PoolVariables

end Source

section Variables

variable {v : PoolVariables} {p : HandlePool}

theorem cell_natCast {n : ℕ} (hn : n < maxPersHandle) : cell n = some ⟨n, hn⟩ :=
  dif_pos ⟨Int.natCast_nonneg n, hn⟩

structure PoolVariables.Represents (v : PoolVariables) (p : HandlePool) : Prop where
  idx : v.gHandleIdx = p.gHandleIdx
  head : v.gFreeHandleIdxHead = p.gFreeHandleIdxHead
  cells : ∀ i : Fin maxPersHandle, v.gFreeHandleArray i = p.gFreeHandleArray i

namespace PoolVariables

theorem Represents.reset (v : PoolVariables) :
    v.closeAllPersistenceHandle.Represents HandlePool.reset := ⟨rfl, rfl, fun _ => rfl⟩

theorem Represents.get (h : v.Represents p) :
    ∃ v', v.getPersistenceHandleIdx = some ((Handle.getPersistenceHandleIdx p).1, v') ∧
      v'.Represents (Handle.getPersistenceHandleIdx p).2 := by
  have hhead := h.head
  have hidx := h.idx
  unfold getPersistenceHandleIdx Handle.getPersistenceHandleIdx
  by_cases hpop : 0 < p.gFreeHandleIdxHead ∧ p.gFreeHandleIdxHead < maxPersHandle
  · have hcell : cell (v.gFreeHandleIdxHead - 1) =
        some ⟨p.gFreeHandleIdxHead - 1, by omega⟩ := by
      rw [← cell_natCast]
      congr 1
      omega
    rw [if_pos hpop, if_pos (by omega), hcell]
    refine ⟨_, congrArg some (Prod.ext (h.cells _) rfl), hidx, ?_, h.cells⟩
    change v.gFreeHandleIdxHead - 1 = ((p.gFreeHandleIdxHead - 1 : ℕ) : ℤ)
    omega
  rw [if_neg hpop, if_neg (by omega), hidx]
  by_cases hfresh : p.gHandleIdx < (maxPersHandle : ℤ) - 1
  · rw [if_pos hfresh, if_pos hfresh]
    exact ⟨_, rfl, rfl, hhead, h.cells⟩
  · rw [if_neg hfresh, if_neg hfresh]
    exact ⟨v, rfl, h⟩

theorem Represents.push (h : v.Represents p) (hlt : p.gFreeHandleIdxHead < maxPersHandle)
    (handle : ℤ) : v.setPersistenceHandleCloseIdx handle = some { v with
      gFreeHandleArray := Function.update v.gFreeHandleArray ⟨p.gFreeHandleIdxHead, hlt⟩ handle
      gFreeHandleIdxHead := v.gFreeHandleIdxHead + 1 } := by
  have hhead := h.head
  rw [setPersistenceHandleCloseIdx, if_pos (by omega), hhead, cell_natCast hlt]
  rfl

theorem Represents.close (h : v.Represents p) (handle : ℤ) :
    ∃ v', v.setPersistenceHandleCloseIdx handle = some v' ∧
      v'.Represents (Handle.setPersistenceHandleCloseIdx handle p) := by
  have hhead := h.head
  unfold Handle.setPersistenceHandleCloseIdx
  by_cases hlt : p.gFreeHandleIdxHead < maxPersHandle
  · rw [if_pos hlt]
    refine ⟨_, h.push hlt handle, h.idx, congrArg (· + 1) hhead, fun i => ?_⟩
    change Function.update v.gFreeHandleArray ⟨p.gFreeHandleIdxHead, hlt⟩ handle i =
      Function.update p.gFreeHandleArray p.gFreeHandleIdxHead handle i
    rw [Function.update_apply, Function.update_apply, h.cells i]
    simp only [Fin.ext_iff]
  · rw [if_neg hlt, setPersistenceHandleCloseIdx, if_neg (by omega)]
    exact ⟨v, rfl, h⟩

end PoolVariables

end Variables

section Ledgers

variable {p : HandlePool} {l : Ledger ℤ} {h : ℤ}

def poolHandles : Set ℤ := {h | 1 ≤ h ∧ h ≤ (maxPersHandle : ℤ) - 2}

def answerOf (handle : ℤ) : Option ℤ := if handle = epersMaxhandle then none else some handle

theorem answerOf_eq_none {handle : ℤ} : answerOf handle = none ↔ handle = epersMaxhandle := by
  unfold answerOf
  split <;> simp [*]

theorem answerOf_of_ne {handle : ℤ} (hne : handle ≠ epersMaxhandle) :
    answerOf handle = some handle := if_neg hne

theorem answerOf_of_pos (hpos : 0 < h) : answerOf h = some h :=
  if_neg fun heq => absurd hpos (by rw [heq]; decide)

namespace HandlePool

/-- The pool is where the ledger says: the handles it has numbered are live, or
lie on the stack in the order of their return. -/
structure Matches (p : HandlePool) (l : Ledger ℤ) : Prop where
  wf : p.Wf
  live : ∀ h, p.Live h ↔ h ∈ l.live
  stack : p.freeStack = l.returned.reverse

theorem matches_reset : reset.Matches .empty where
  wf := wf_reset
  live h := by
    refine iff_of_false (fun hlive => ?_) (Finset.notMem_empty h)
    exact absurd hlive.1.2 (not_lt.mpr hlive.1.1)
  stack := rfl

theorem Wf.issued_mem (inv : p.Wf) (hh : p.Issued h) : h ∈ poolHandles := by
  have hle := inv.idx_le
  obtain ⟨hpos, hlt⟩ := hh
  exact ⟨hpos, by omega⟩

theorem Matches.exhausted_iff (m : p.Matches l) :
    p.Exhausted ↔ ∀ h ∈ poolHandles, h ∈ l.live := by
  constructor
  · rintro ⟨hnil, hle⟩ h ⟨hpos, hmax⟩
    rw [← m.live, Live, hnil]
    exact ⟨⟨hpos, by omega⟩, List.not_mem_nil⟩
  · intro hall
    constructor
    · refine List.eq_nil_iff_forall_not_mem.mpr fun h hfree => ?_
      have hlive := hall h (m.wf.issued_mem (m.wf.free_issued h hfree))
      exact ((m.live h).mpr hlive).2 hfree
    · by_contra hlt
      have hlast := hall p.gHandleIdx ⟨m.wf.idx_pos, by omega⟩
      exact lt_irrefl _ ((m.live _).mpr hlast).1.2

theorem Wf.get_stack (inv : p.Wf) (hp : ¬ p.Exhausted) :
    p.freeStack = (getPersistenceHandleIdx p).2.freeStack ++ [(getPersistenceHandleIdx p).1] ∨
      p.freeStack = [] ∧ (getPersistenceHandleIdx p).2.freeStack = [] := by
  rcases inv.get_cases with ⟨rest, h, hstack, rfl, rfl, -⟩ | ⟨hnil, -, -, hrest, -⟩ | ⟨hex, -⟩
  · exact Or.inl hstack
  · exact Or.inr ⟨hnil, hrest⟩
  · exact absurd hex hp

theorem Wf.get_exhausted (inv : p.Wf) (hp : p.Exhausted) :
    getPersistenceHandleIdx p = (epersMaxhandle, p) := by
  rcases inv.get_cases with ⟨rest, h, hstack, -⟩ | ⟨-, hlt, -⟩ | ⟨-, heq⟩
  · rw [hp.1] at hstack
    exact absurd hstack.symm (List.append_ne_nil_of_right_ne_nil rest (List.cons_ne_nil h []))
  · exact absurd hp.2 (not_le.mpr hlt)
  · exact heq

theorem Matches.get (m : p.Matches l) :
    l.Answers poolHandles (answerOf (getPersistenceHandleIdx p).1) ∧
      (getPersistenceHandleIdx p).2.Matches (l.take (answerOf (getPersistenceHandleIdx p).1)) := by
  by_cases hp : p.Exhausted
  · have hall := m.exhausted_iff.mp hp
    have hnil : l.returned = [] := List.reverse_eq_nil_iff.mp (m.stack.symm.trans hp.1)
    rw [m.wf.get_exhausted hp]
    refine ⟨⟨iff_of_true rfl hall, fun h hsome => ?_, fun h hhead => ?_⟩, m⟩
    · cases hsome
    · rw [hnil] at hhead
      cases hhead
  obtain ⟨hwf, hnew, hpos, hlt, hlive⟩ := m.wf.get hp
  have hstack := m.wf.get_stack hp
  rw [m.stack] at hstack
  generalize getPersistenceHandleIdx p = drawn at *
  obtain ⟨h, q⟩ := drawn
  have htop : l.returned = h :: q.freeStack.reverse ∨ l.returned = [] ∧ q.freeStack = [] := by
    rcases hstack with hstack | ⟨hnil, hrest⟩
    · have htop := congrArg List.reverse hstack
      rw [List.reverse_reverse, List.reverse_concat] at htop
      exact Or.inl htop
    · exact Or.inr ⟨List.reverse_eq_nil_iff.mp hnil, hrest⟩
  rw [answerOf_of_pos hpos]
  constructor
  · refine ⟨iff_of_false nofun fun hall => hp (m.exhausted_iff.mpr hall), ?_, fun k hhead => ?_⟩
    · rintro _ ⟨⟩
      exact ⟨⟨hpos, by omega⟩, fun hmem => hnew ((m.live h).mpr hmem)⟩
    · rcases htop with htop | ⟨hnil, -⟩
      · rwa [htop] at hhead
      · rw [hnil] at hhead
        cases hhead
  · refine ⟨hwf, fun k => ?_, ?_⟩
    · rw [hlive k, m.live k, Ledger.live_take, Finset.mem_insert, or_comm]
    · rcases htop with htop | ⟨hnil, hrest⟩
      · rw [Ledger.returned_take, htop, List.erase_cons_head, List.reverse_reverse]
      · rw [Ledger.returned_take, hnil, hrest]
        rfl

theorem Matches.close (m : p.Matches l) (hh : h ∈ l.live) :
    (setPersistenceHandleCloseIdx h p).Matches (l.giveBack h) := by
  obtain ⟨hwf, hlive⟩ := m.wf.close ((m.live h).mpr hh)
  refine ⟨hwf, fun k => ?_, ?_⟩
  · rw [hlive k, m.live k, Ledger.live_giveBack, Finset.mem_erase, and_comm]
  · rw [freeStack_close m.wf, Ledger.returned_giveBack hh, List.reverse_cons, m.stack]

end HandlePool

end Ledgers

section Runs

variable {v : PoolVariables} {l : Ledger ℤ} {calls : List (Call ℤ)}

def poolAllocator : Implementation ℤ PoolVariables where
  take v := v.getPersistenceHandleIdx.map fun (handle, v) => (answerOf handle, v)
  giveBack := PoolVariables.setPersistenceHandleCloseIdx
  reset := PoolVariables.closeAllPersistenceHandle

def Follows (v : PoolVariables) (l : Ledger ℤ) : Prop := ∃ p, v.Represents p ∧ p.Matches l

theorem follows_start : Follows {} .empty :=
  ⟨.reset, PoolVariables.Represents.reset {}, HandlePool.matches_reset⟩

theorem pool_simulates : poolAllocator.Simulates poolHandles Follows where
  take := by
    rintro v l ⟨p, hv, hp⟩
    obtain ⟨v', hcall, hv'⟩ := hv.get
    obtain ⟨hanswer, hp'⟩ := hp.get
    exact ⟨_, v', congrArg (Option.map _) hcall, hanswer, _, hv', hp'⟩
  giveBack := by
    rintro v l h ⟨p, hv, hp⟩ hlive
    obtain ⟨v', hcall, hv'⟩ := hv.close h
    exact ⟨v', hcall, _, hv', hp.close hlive⟩
  reset := by
    rintro v l -
    exact ⟨_, .reset v, HandlePool.matches_reset⟩

/-- What the next calls do, by the handles that are live and those closed since
they were issued. -/
structure PoolServes (v : PoolVariables) (l : Ledger ℤ) : Prop where
  allocation : ∃ handle v', v.getPersistenceHandleIdx = some (handle, v') ∧
    (handle ≠ epersMaxhandle →
      1 ≤ handle ∧ handle ≤ (maxPersHandle : ℤ) - 2 ∧ handle ∉ l.live) ∧
    (handle = epersMaxhandle ↔ ∀ h, 1 ≤ h ∧ h ≤ (maxPersHandle : ℤ) - 2 → h ∈ l.live) ∧
    ∀ h, l.returned.head? = some h → handle = h
  close : ∀ handle ∈ l.live, ∃ v' i, v.setPersistenceHandleCloseIdx handle = some v' ∧
    cell v.gFreeHandleIdxHead = some i ∧ v'.gFreeHandleArray i = handle ∧
    v'.gFreeHandleIdxHead = v.gFreeHandleIdxHead + 1
  kept : v.gFreeHandleIdxHead = l.returned.length ∧
    ∀ h ∈ l.returned, ∃ i : Fin maxPersHandle, i < v.gFreeHandleIdxHead ∧ v.gFreeHandleArray i = h

theorem Follows.serves (h : Follows v l) : PoolServes v l := by
  obtain ⟨p, hv, hp⟩ := h
  have hlt := hp.wf.head_lt
  refine ⟨?_, fun handle hlive => ?_, ?_, fun h hmem => ?_⟩
  · obtain ⟨v', hcall, -⟩ := hv.get
    obtain ⟨hanswer, -⟩ := hp.get
    refine ⟨_, v', hcall, fun hne => ?_, answerOf_eq_none.symm.trans hanswer.refused,
      fun h hh => ?_⟩
    · obtain ⟨hmem, hnew⟩ := hanswer.free _ (answerOf_of_ne hne)
      exact ⟨hmem.1, hmem.2, hnew⟩
    · have hsome := hanswer.latest h hh
      by_cases hne : (getPersistenceHandleIdx p).1 = epersMaxhandle
      · rw [answerOf_eq_none.mpr hne] at hsome
        cases hsome
      · rw [answerOf_of_ne hne] at hsome
        exact Option.some.inj hsome
  · refine ⟨_, ⟨p.gFreeHandleIdxHead, hlt⟩, hv.push hlt handle, ?_, ?_, rfl⟩
    · rw [hv.head, cell_natCast hlt]
    · exact Function.update_self ..
  · rw [hv.head, ← HandlePool.length_freeStack, hp.stack, List.length_reverse]
  · rw [← List.mem_reverse, ← hp.stack] at hmem
    obtain ⟨i, hi, rfl⟩ := List.mem_map.mp hmem
    have hi := List.mem_range.mp hi
    refine ⟨⟨i, hi.trans hlt⟩, ?_, hv.cells _⟩
    rw [hv.head]
    exact Int.ofNat_lt.mpr hi

/-- From the reset state, as long as only live handles are closed, no index is
outside the array, an allocation issues a handle that is not live, the latest
closed one first, or finds all handles live, and no closed handle is lost. -/
theorem pool_refines_allocator
    (hcalls : Guarded poolAllocator.step Implementation.Permitted (some ({}, .empty)) calls) :
    ∃ v l, run poolAllocator.step (some ({}, .empty)) calls = some (v, l) ∧ PoolServes v l := by
  obtain ⟨v, l, hrun, hfollows⟩ := pool_simulates.run follows_start hcalls
  exact ⟨v, l, hrun, hfollows.serves⟩

/-- Two handles are issued, the first is closed and issued again. -/
theorem pool_reissues_closed :
    Guarded poolAllocator.step Implementation.Permitted (some ({}, .empty))
        [.take, .take, .giveBack 1, .take] ∧
      ∃ v l, run poolAllocator.step (some ({}, .empty)) [.take, .take, .giveBack 1, .take] =
        some (v, l) ∧ PoolServes v l := by
  have hcalls : Guarded poolAllocator.step Implementation.Permitted (some ({}, .empty))
      [.take, .take, .giveBack 1, .take] := by decide
  exact ⟨hcalls, pool_refines_allocator hcalls⟩

/-- Of three handles closed in the order of their issue the last one is issued first. -/
example : ((run poolAllocator.step (some ({}, .empty))
    [.take, .take, .take, .giveBack 1, .giveBack 2, .giveBack 3]).bind fun s =>
      s.1.getPersistenceHandleIdx).map Prod.fst = some 3 := by decide

end Runs

end PersClient.Handle
