import Mathlib.Data.Int.Notation
import Mathlib.Logic.Function.Basic

/-! # Keyed trees

The red-black trees of the library, by what their operations do: a finite map
from an integer key to an item. An insert of a key that is present changes
nothing, as `jsw_rbinsert` does.
-/

namespace PersClient

/-- A tree of items with integer keys. -/
structure Tree (α : Type*) where
  /-- `jsw_rbfind` -/
  find : ℤ → Option α

namespace Tree

variable {α : Type*}

def new : Tree α := ⟨fun _ => none⟩

def insert (t : Tree α) (key : ℤ) (item : α) : Tree α :=
  match t.find key with
  | some _ => t
  | none => ⟨Function.update t.find key (some item)⟩

def erase (t : Tree α) (key : ℤ) : Tree α := ⟨Function.update t.find key none⟩

def Mem (t : Tree α) (key : ℤ) : Prop := (t.find key).isSome

theorem find_insert (t : Tree α) (k j : ℤ) (item : α) :
    (t.insert k item).find j = if j = k then some ((t.find k).getD item) else t.find j := by
  unfold insert
  split
  · rename_i h
    split
    · rename_i hj
      rw [hj, h]
      rfl
    · rfl
  · rename_i h
    simp only [h, Option.getD_none, Function.update_apply]

theorem find_erase (t : Tree α) (k j : ℤ) :
    (t.erase k).find j = if j = k then none else t.find j := by
  simp only [erase, Function.update_apply]

section Missing

def lookup (t : Option (Tree α)) (key : ℤ) : Option α := t.bind fun t => t.find key

variable {t : Option (Tree α)} {k j : ℤ} {item : α}

@[simp] theorem lookup_none (k : ℤ) : lookup (none : Option (Tree α)) k = none := rfl

theorem find_getD_new (t : Option (Tree α)) (k : ℤ) : (t.getD new).find k = lookup t k := by
  cases t <;> rfl

theorem lookup_insert : lookup (some ((t.getD new).insert k item)) j =
    if j = k then some ((lookup t k).getD item) else lookup t j := by
  simp only [lookup, Option.bind_some, find_insert, find_getD_new]

theorem lookup_erase_insert : lookup (some (((t.getD new).erase k).insert k item)) j =
    if j = k then some item else lookup t j := by
  simp only [lookup, Option.bind_some, find_insert, find_erase, if_true, Option.getD_none,
    find_getD_new]
  split <;> rfl

theorem lookup_map_erase : lookup (t.map fun t => t.erase k) j =
    if j = k then none else lookup t j := by
  cases t with
  | none => simp
  | some t => exact find_erase t k j

end Missing

end Tree

end PersClient
