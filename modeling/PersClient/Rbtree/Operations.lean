import Mathlib.Data.Int.Notation
import PersClient.Lib.LinkedTree

/-! # Red-black trees in memory

`rbtree.c` on nodes and items in memory, each with an address that is never used
twice. A function is `none` where the code would follow a null pointer, use an
item or a node that is not there, or release one that is released already; also
where a loop is given too few turns.
-/

namespace PersClient.Rbtree

open LinkedTree

section Memory

structure Memory (α : Type) where
  nodes : Nodes
  nextNode : ℕ
  items : ℕ → Option α
  nextItem : ℕ

/-- `struct jsw_rbtree`; its functions are arguments of the operations. -/
structure JswRbtree where
  root : Option ℕ
  size : UInt64
  deriving DecidableEq, Repr

def Memory.empty {α : Type} : Memory α := ⟨fun _ => none, 0, fun _ => none, 0⟩

def getLink (h : Nodes) (p : Option ℕ) (dir : Bool) : Option (Option ℕ) := do
  let n ← h (← p)
  some (n.link dir)

def setLink (h : Nodes) (p : Option ℕ) (dir : Bool) (q : Option ℕ) : Option Nodes := do
  let i ← p
  let n ← h i
  some (Function.update h i (some { n with link := Function.update n.link dir q }))

def setRed (h : Nodes) (p : Option ℕ) (red : Bool) : Option Nodes := do
  let i ← p
  let n ← h i
  some (Function.update h i (some { n with red }))

variable {α : Type} (m : Memory α)

/-- `malloc` for an item, with its content. -/
def newItem (item : α) : ℕ × Memory α :=
  (m.nextItem, { m with
    items := Function.update m.items m.nextItem (some item)
    nextItem := m.nextItem + 1 })

def freeItem (data : ℕ) : Option (Memory α) := do
  let _ ← m.items data
  some { m with items := Function.update m.items data none }

def mallocNode (n : Node) : ℕ × Memory α :=
  (m.nextNode, { m with
    nodes := Function.update m.nodes m.nextNode (some n)
    nextNode := m.nextNode + 1 })

def freeNode (i : ℕ) : Option (Memory α) := do
  let _ ← m.nodes i
  some { m with nodes := Function.update m.nodes i none }

/-- The release functions of `tree_helper.c`: nothing is done for a null pointer. -/
def rel (data : Option ℕ) : Option (Memory α) :=
  match data with
  | none => some m
  | some data => freeItem m data

/-- The copy functions of `tree_helper.c`. -/
def dup (data : ℕ) : Option (ℕ × Memory α) := do
  let item ← m.items data
  some (newItem m item)

def compareAt (cmp : α → α → ℤ) (p : Option ℕ) (data : ℕ) : Option ℤ := do
  let n ← m.nodes (← p)
  let first ← m.items (← n.data)
  let second ← m.items data
  some (cmp first second)

end Memory

section Rotations

def isRed (h : Nodes) (root : Option ℕ) : Option Bool :=
  match root with
  | none => some false
  | some i => do
    let n ← h i
    some n.red

def jswSingle (h : Nodes) (root : Option ℕ) (dir : Bool) : Option (Option ℕ × Nodes) :=
  match root with
  | none => some (none, h)
  | some _ => do
    let save ← getLink h root (!dir)
    let h ← setLink h root (!dir) (← getLink h save dir)
    let h ← setLink h save dir root
    let h ← setRed h root true
    let h ← setRed h save false
    some (save, h)

def jswDouble (h : Nodes) (root : Option ℕ) (dir : Bool) : Option (Option ℕ × Nodes) := do
  let (inner, h) ← jswSingle h (← getLink h root (!dir)) (!dir)
  let h ← setLink h root (!dir) inner
  jswSingle h root dir

end Rotations

variable {α : Type} (cmp : α → α → ℤ)

def newNode (m : Memory α) (data : ℕ) : Option (ℕ × Memory α) := do
  let (copy, m) ← dup m data
  some (mallocNode m ⟨true, some copy, fun _ => none⟩)

def jswRbnew : JswRbtree := ⟨none, 0⟩

section Find

/-- The loop of `jsw_rbfind`: the node with the item, if there is one. -/
def findLoop (m : Memory α) (data : ℕ) : ℕ → Option ℕ → Option (Option ℕ)
  | 0, _ => none
  | _ + 1, none => some none
  | turns + 1, some it => do
    let order ← compareAt m cmp (some it) data
    if order = 0 then some (some it)
    else findLoop m data turns (← getLink m.nodes (some it) (order < 0))

def jswRbfind (m : Memory α) (tree : JswRbtree) (data : ℕ) : Option (Option ℕ) := do
  match ← findLoop cmp m data (m.nextNode + 1) tree.root with
  | none => some none
  | some it =>
    let n ← m.nodes it
    some n.data

end Find

section Insert

structure Descent where
  t : Option ℕ
  g : Option ℕ
  p : Option ℕ
  q : Option ℕ
  dir : Bool
  last : Bool

/-- Insert a new node at a null link, or flip the colours of a black node with red children. -/
def insertHere (m : Memory α) (data : ℕ) (s : Descent) : Option (ℕ × Memory α) :=
  match s.q with
  | none => do
    let (n, m) ← newNode m data
    let nodes ← setLink m.nodes s.p s.dir (some n)
    some (n, { m with nodes })
  | some q => do
    let left ← getLink m.nodes s.q false
    let right ← getLink m.nodes s.q true
    if (← isRed m.nodes left) && (← isRed m.nodes right) then
      let nodes ← setRed m.nodes s.q true
      let nodes ← setRed nodes left false
      let nodes ← setRed nodes right false
      some (q, { m with nodes })
    else some (q, m)

def repairRed (h : Nodes) (q : ℕ) (s : Descent) : Option Nodes := do
  if (← isRed h (some q)) && (← isRed h s.p) then
    let dir2 := (← getLink h s.t true) = s.g
    let (top, h) ←
      if some q = (← getLink h s.p s.last) then jswSingle h s.g (!s.last)
      else jswDouble h s.g (!s.last)
    setLink h s.t dir2 top
  else some h

def insertLoop (data : ℕ) : ℕ → Memory α → Descent → Option (Memory α)
  | 0, _, _ => none
  | turns + 1, m, s => do
    let (q, m) ← insertHere m data s
    let nodes ← repairRed m.nodes q s
    let m := { m with nodes }
    let order ← compareAt m cmp (some q) data
    if order = 0 then some m
    else
      insertLoop data turns m
        { t := if s.g ≠ none then s.g else s.t
          g := s.p
          p := some q
          q := ← getLink nodes (some q) (order < 0)
          dir := order < 0
          last := s.dir }

def finishInsert (m : Memory α) (tree : JswRbtree) (root : Option ℕ) :
    Option (JswRbtree × Memory α) := do
  let nodes ← setRed m.nodes root false
  some (⟨root, tree.size + 1⟩, { m with nodes })

/-- `jsw_rbinsert` on a tree that is there; it returns 1. -/
def jswRbinsert (m : Memory α) (tree : JswRbtree) (data : ℕ) : Option (JswRbtree × Memory α) :=
  match tree.root with
  | none => do
    let (n, m) ← newNode m data
    finishInsert m tree (some n)
  | some _ => do
    let (head, m) := mallocNode m ⟨false, none, sides true tree.root none⟩
    let m ← insertLoop cmp data (2 * m.nextNode + 2) m
      { t := some head, g := none, p := none, q := tree.root, dir := false, last := false }
    let root ← getLink m.nodes (some head) true
    let m ← freeNode m head
    finishInsert m tree root

end Insert

section Erase

structure Pushing where
  q : Option ℕ
  p : Option ℕ
  g : Option ℕ
  /-- the node found -/
  f : Option ℕ
  dir : Bool

/-- The case of a black sibling `s` with a red child: rotate it above the parent. -/
def borrow (h : Nodes) (g p q s : Option ℕ) (last : Bool) : Option Nodes := do
  let dir2 := (← getLink h g true) = p
  let h ←
    if ← isRed h (← getLink h s last) then do
      let (top, h) ← jswDouble h p last
      setLink h g dir2 top
    else if ← isRed h (← getLink h s (!last)) then do
      let (top, h) ← jswSingle h p last
      setLink h g dir2 top
    else some h
  let top ← getLink h g dir2
  let h ← setRed h top true
  let h ← setRed h q true
  let h ← setRed h (← getLink h top false) false
  setRed h (← getLink h top true) false

/-- Push a red node down to `q`; the parent of `q` afterwards is returned. -/
def pushDown (h : Nodes) (g p q : Option ℕ) (dir last : Bool) : Option (Option ℕ × Nodes) := do
  if !(← isRed h q) && !(← isRed h (← getLink h q dir)) then
    if ← isRed h (← getLink h q (!dir)) then
      let (top, h) ← jswSingle h q dir
      let h ← setLink h p last top
      some (top, h)
    else
      match ← getLink h p (!last) with
      | none => some (p, h)
      | some s =>
        if !(← isRed h (← getLink h (some s) (!last))) &&
            !(← isRed h (← getLink h (some s) last)) then
          let h ← setRed h p false
          let h ← setRed h (some s) true
          let h ← setRed h q true
          some (p, h)
        else
          let h ← borrow h g p q (some s) last
          some (p, h)
  else some (p, h)

def eraseLoop (data : ℕ) : ℕ → Memory α → Pushing → Option (Pushing × Memory α)
  | 0, _, _ => none
  | turns + 1, m, s => do
    match ← getLink m.nodes s.q s.dir with
    | none => some (s, m)
    | some q =>
      let order ← compareAt m cmp (some q) data
      let (p, nodes) ← pushDown m.nodes s.p s.q (some q) (order < 0) s.dir
      eraseLoop data turns { m with nodes }
        { q := some q, p, g := s.p, f := if order = 0 then some q else s.f, dir := order < 0 }

/-- Replace the item found by that of the last node, and remove that node. -/
def removeFound (m : Memory α) (s : Pushing) : Option (Memory α) :=
  match s.f with
  | none => some m
  | some f => do
    let n ← m.nodes f
    let m ← rel m n.data
    let q ← s.q
    let last ← m.nodes q
    let n ← m.nodes f
    let m := { m with nodes := Function.update m.nodes f (some { n with data := last.data }) }
    let side := (← getLink m.nodes s.p true) = s.q
    let child ← getLink m.nodes s.q ((← getLink m.nodes s.q false) = none)
    let nodes ← setLink m.nodes s.p side child
    freeNode { m with nodes } q

def blackenRoot (h : Nodes) (root : Option ℕ) : Option Nodes :=
  match root with
  | none => some h
  | some _ => setRed h root false

/-- `jsw_rberase`; it returns 1 in any case. -/
def jswRberase (m : Memory α) (tree : JswRbtree) (data : ℕ) : Option (JswRbtree × Memory α) :=
  match tree.root with
  | none => some (tree, m)
  | some _ => do
    let (head, m) := mallocNode m ⟨false, none, sides true tree.root none⟩
    let (s, m) ← eraseLoop cmp data (m.nextNode + 1) m
      { q := some head, p := none, g := none, f := none, dir := true }
    let m ← removeFound m s
    let root ← getLink m.nodes (some head) true
    let m ← freeNode m head
    let nodes ← blackenRoot m.nodes root
    some (⟨root, tree.size - 1⟩, { m with nodes })

end Erase

def jswRbsize (tree : JswRbtree) : UInt64 := tree.size

/-- The comparison of `fh_key_val_cmp`, `kh_key_val_cmp` and `key_val_cmp`, which
differ in the type of the items. -/
def keyValCmp {κ : Type*} [DecidableEq κ] [LT κ] [DecidableLT κ] (key : α → κ)
    (first second : α) : ℤ :=
  if key second = key first then 0
  else if key second < key first then -1
  else 1

end PersClient.Rbtree
