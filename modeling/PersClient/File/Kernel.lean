import Mathlib.Data.Finset.Card
import Mathlib.Data.Int.Order.Basic
import PersClient.File.Checksum
import PersClient.Lib.Crash

/-! # Files and descriptors

The system calls the library makes, over a disk of named files and a table of
open descriptors. Each change of the disk is one durable effect and is logged.
A path names a file by its non-empty components; directories are not modelled.
Which calls fail, and how, is told by an environment for one call of the API.
-/

namespace PersClient.File

open Text Crash

abbrev Path := List CStr

/-- The names in a path. Repeated slashes count once; `.` and `..` are names like others. -/
def resolve (path : CStr) : Path := tokens (· == '/') path

section Disk

/-- The files of the disk. A name leads to one inode, an inode has one name. -/
structure Fs where
  names : Path → Option ℕ
  data : ℕ → Bytes
  next : ℕ
  names_lt : ∀ p i, names p = some i → i < next
  names_inj : ∀ p q i, names p = some i → names q = some i → p = q

namespace Fs

def empty : Fs where
  names _ := none
  data _ := []
  next := 0
  names_lt := by simp
  names_inj := by simp

/-- The content of the file of this name. -/
def content (fs : Fs) (p : Path) : Option Bytes := (fs.names p).map fs.data

def create (fs : Fs) (p : Path) : Fs where
  names := Function.update fs.names p (some fs.next)
  data := Function.update fs.data fs.next []
  next := fs.next + 1
  names_lt q i h := by
    rw [Function.update_apply] at h
    split at h
    · have := Option.some.inj h
      omega
    · have := fs.names_lt q i h
      omega
  names_inj q r i hq hr := by
    rw [Function.update_apply] at hq hr
    split at hq <;> split at hr
    · simp [*]
    · have := Option.some.inj hq
      have := fs.names_lt r i hr
      omega
    · have := Option.some.inj hr
      have := fs.names_lt q i hq
      omega
    · exact fs.names_inj q r i hq hr

def setData (fs : Fs) (i : ℕ) (c : Bytes) : Fs :=
  { fs with data := Function.update fs.data i c }

def unlink (fs : Fs) (p : Path) : Fs where
  names := Function.update fs.names p none
  data := fs.data
  next := fs.next
  names_lt q i h := by
    rw [Function.update_apply] at h
    split at h
    · cases h
    · exact fs.names_lt q i h
  names_inj q r i hq hr := by
    rw [Function.update_apply] at hq hr
    split at hq <;> split at hr
    · simp [*]
    · cases hq
    · cases hr
    · exact fs.names_inj q r i hq hr

variable {fs : Fs} {p q : Path} {i j : ℕ} {c : Bytes}

@[simp] theorem names_setData : (fs.setData i c).names = fs.names := rfl

theorem data_setData : (fs.setData i c).data j = if j = i then c else fs.data j :=
  Function.update_apply ..

theorem names_create : (fs.create p).names q = if q = p then some fs.next else fs.names q :=
  Function.update_apply ..

theorem data_create : (fs.create p).data j = if j = fs.next then [] else fs.data j :=
  Function.update_apply ..

theorem names_unlink : (fs.unlink p).names q = if q = p then none else fs.names q :=
  Function.update_apply ..

theorem content_eq_none : fs.content p = none ↔ fs.names p = none := Option.map_eq_none_iff

theorem content_of_names (h : fs.names p = some i) : fs.content p = some (fs.data i) := by
  rw [content, h, Option.map_some]

theorem content_eq_some : fs.content p = some c ↔ ∃ i, fs.names p = some i ∧ fs.data i = c :=
  Option.map_eq_some_iff

theorem content_setData :
    (fs.setData i c).content q = if fs.names q = some i then some c else fs.content q := by
  unfold content
  rw [names_setData]
  cases h : fs.names q with
  | none => simp
  | some j =>
    simp only [Option.map_some, Option.some.injEq, data_setData]
    split <;> rfl

/-- Writing to the inode of `p` changes the content of `p` alone. -/
theorem content_setData_names (hp : fs.names p = some i) :
    (fs.setData i c).content q = if q = p then some c else fs.content q := by
  rw [content_setData]
  by_cases hq : q = p
  · rw [if_pos (hq ▸ hp), if_pos hq]
  · rw [if_neg (fun h => hq (fs.names_inj q p i h hp)), if_neg hq]

theorem content_create : (fs.create p).content q = if q = p then some [] else fs.content q := by
  unfold content
  rw [names_create]
  split
  · simp [data_create]
  · cases h : fs.names q with
    | none => rfl
    | some j =>
      have := fs.names_lt q j h
      simp [data_create, Nat.ne_of_lt this]

theorem content_unlink : (fs.unlink p).content q = if q = p then none else fs.content q := by
  unfold content
  rw [names_unlink]
  split <;> rfl

end Fs

end Disk

section Descriptors

/-- An open file: the inode, the path it was opened by, the position, the access
granted, and whether everything written to it has been synchronised. -/
structure OpenFile where
  ino : ℕ
  path : CStr
  offset : ℕ
  readable : Bool
  writable : Bool
  synced : Bool
  deriving DecidableEq

/-- The descriptors of the process. -/
structure FdTable where
  get : ℤ → Option OpenFile
  bound : ℕ
  get_out : ∀ fd : ℤ, fd < 0 ∨ bound ≤ fd → get fd = none

namespace FdTable

def empty : FdTable where
  get _ := none
  bound := 0
  get_out _ _ := rfl

def used (t : FdTable) : Finset ℕ := (Finset.range t.bound).filter fun n : ℕ => (t.get n).isSome

def lowestFree (t : FdTable) : ℕ :=
  ((List.range (t.bound + 1)).find? fun n : ℕ => (t.get n).isNone).getD t.bound

def set (t : FdTable) (fd : ℕ) (f : OpenFile) : FdTable where
  get := Function.update t.get fd (some f)
  bound := max t.bound (fd + 1)
  get_out x hx := by
    rw [Function.update_apply, if_neg (by omega)]
    exact t.get_out x (by omega)

def clear (t : FdTable) (fd : ℤ) : FdTable where
  get := Function.update t.get fd none
  bound := t.bound
  get_out x hx := by
    rw [Function.update_apply]
    split
    · rfl
    · exact t.get_out x hx

variable {t : FdTable} {fd x : ℤ} {n : ℕ} {f : OpenFile}

theorem get_set : (t.set n f).get x = if x = n then some f else t.get x :=
  Function.update_apply ..

theorem get_clear : (t.clear fd).get x = if x = fd then none else t.get x :=
  Function.update_apply ..

theorem nonneg_of_get (h : t.get fd = some f) : 0 ≤ fd ∧ fd < t.bound := by
  constructor
  · by_contra hlt
    rw [t.get_out fd (Or.inl (by omega))] at h
    cases h
  · by_contra hge
    rw [t.get_out fd (Or.inr (by omega))] at h
    cases h

theorem mem_used : n ∈ t.used ↔ (t.get n).isSome := by
  simp only [used, Finset.mem_filter, Finset.mem_range, and_iff_right_iff_imp]
  intro h
  obtain ⟨f, hf⟩ := Option.isSome_iff_exists.mp h
  have := (nonneg_of_get hf).2
  omega

theorem find_lowestFree : ∃ m, (List.range (t.bound + 1)).find? (fun n : ℕ => (t.get n).isNone) = some m := by
  rw [← Option.isSome_iff_exists, List.find?_isSome]
  exact ⟨t.bound, by simp, by simp [t.get_out t.bound (Or.inr le_rfl)]⟩

theorem get_lowestFree : t.get t.lowestFree = none := by
  obtain ⟨m, hm⟩ := t.find_lowestFree
  have := List.find?_some hm
  simpa [lowestFree, hm] using this

theorem mem_used_of_lt_lowestFree (h : n < t.lowestFree) : n ∈ t.used := by
  obtain ⟨m, hm⟩ := t.find_lowestFree
  have hl : t.lowestFree = m := by simp [lowestFree, hm]
  rw [hl] at h
  obtain ⟨-, as, bs, hsplit, has⟩ := List.find?_eq_some_iff_append.mp hm
  have hn : n ∈ as := by
    have hrange := List.mem_range.mpr (show n < t.bound + 1 from ?_)
    · rw [hsplit] at hrange
      rcases List.mem_append.mp hrange with hn | hn
      · exact hn
      · exfalso
        have hsorted : (List.range (t.bound + 1)).Pairwise (· < ·) := List.pairwise_lt_range
        rw [hsplit, List.pairwise_append] at hsorted
        rcases List.mem_cons.mp hn with rfl | hn
        · omega
        · have := (List.pairwise_cons.mp hsorted.2.1).1 n hn
          omega
    · have : m ∈ List.range (t.bound + 1) := List.mem_of_find?_eq_some hm
      have := List.mem_range.mp this
      omega
  rw [mem_used]
  simpa using has n hn

theorem lowestFree_le {t t' : FdTable} (h : ∀ x, (t.get x).isSome = (t'.get x).isSome) :
    t.lowestFree ≤ t'.lowestFree := by
  by_contra hlt
  have := mem_used.mp (mem_used_of_lt_lowestFree (not_le.mp hlt))
  rw [h, get_lowestFree] at this
  cases this

theorem lowestFree_eq {t t' : FdTable} (h : ∀ x, (t.get x).isSome = (t'.get x).isSome) :
    t.lowestFree = t'.lowestFree :=
  le_antisymm (lowestFree_le h) (lowestFree_le fun x => (h x).symm)

theorem card_used_update {t' : FdTable} (h : t'.get = Function.update t.get n (some f)) :
    t'.used.card ≤ t.used.card + 1 := by
  have hsub : t'.used ⊆ insert n t.used := by
    intro m hm
    rw [mem_used, h, Function.update_apply] at hm
    rw [Finset.mem_insert, mem_used]
    split at hm
    · left
      omega
    · exact Or.inr hm
  exact (Finset.card_le_card hsub).trans (Finset.card_insert_le n t.used)

theorem used_congr {t t' : FdTable} (h : ∀ x, (t.get x).isSome = (t'.get x).isSome) :
    t.used = t'.used := by
  ext m
  rw [mem_used, mem_used, h]

/-- There are at least as many descriptors in use as the number of the lowest free one. -/
theorem lowestFree_le_card : t.lowestFree ≤ t.used.card := by
  have : Finset.range t.lowestFree ⊆ t.used := fun n hn =>
    mem_used_of_lt_lowestFree (Finset.mem_range.mp hn)
  simpa using Finset.card_le_card this

end FdTable

end Descriptors

end PersClient.File
