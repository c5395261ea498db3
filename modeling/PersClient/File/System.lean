import PersClient.File.Kernel

/-! # System calls

Each call takes the state of the system to its result and the state after it.
`open`, `write` and `sendfile` fail or fall short where the environment of the
API call says so; the other calls succeed on what exists.
-/

namespace PersClient.File

open Crash

inductive Errno
  | enoent
  | other
  deriving DecidableEq, Repr

inductive Fault
  | err (errno : Errno)
  | short (n : ℕ)
  deriving DecidableEq, Repr

/-- What goes wrong during a call of the API, by time and path. -/
abbrev Env := ℕ → CStr → Option Fault

def Env.reliable : Env := fun _ _ => none

/-- Nothing goes wrong on this path. -/
def Env.Quiet (env : Env) (path : CStr) : Prop := ∀ n, env n path = none

@[simp] theorem Env.quiet_reliable (path : CStr) : Env.reliable.Quiet path := fun _ => rfl

/-- The access and creation flags of `open`. -/
structure OpenFlags where
  read : Bool
  write : Bool
  creat : Bool := false
  trunc : Bool := false
  deriving DecidableEq, Repr

def oRdonly : OpenFlags := { read := true, write := false }
def oRdwr : OpenFlags := { read := true, write := true }
def oWronly : OpenFlags := { read := false, write := true }

inductive Whence
  | set
  | cur
  | end
  deriving DecidableEq, Repr

/-- The state of the system a process sees. -/
structure Os where
  disk : Logged Fs
  fds : FdTable
  errno : Errno
  clock : ℕ

namespace Os

def fs (os : Os) : Fs := os.disk.now

def put (os : Os) (fs : Fs) : Os := { os with disk := os.disk.put fs }

def tick (os : Os) : Os := { os with clock := os.clock + 1 }

def fail (os : Os) (e : Errno) : Os := { os with errno := e }

def install (os : Os) (f : OpenFile) : ℤ × Os :=
  (os.fds.lowestFree, { os with fds := os.fds.set os.fds.lowestFree f })

def setFile (os : Os) (fd : ℤ) (f : OpenFile) : Os := { os with fds := os.fds.set fd.toNat f }

/-- The content of the file of this path. -/
def content (os : Os) (path : CStr) : Option Bytes := os.fs.content (resolve path)

/-- `open` where nothing goes wrong. -/
def openFile (path : CStr) (flags : OpenFlags) (os : Os) : ℤ × Os :=
  match os.fs.names (resolve path) with
  | some i =>
    let os := if flags.trunc then os.put (os.fs.setData i []) else os
    os.install ⟨i, path, 0, flags.read, flags.write, true⟩
  | none =>
    if flags.creat ∧ resolve path ≠ [] then
      (os.put (os.fs.create (resolve path))).install
        ⟨os.fs.next, path, 0, flags.read, flags.write, true⟩
    else (-1, os.fail .enoent)

def openPath (env : Env) (path : CStr) (flags : OpenFlags) (os : Os) : ℤ × Os :=
  match env os.clock path with
  | some (.err e) => (-1, os.tick.fail e)
  | _ => openFile path flags os.tick

def close (fd : ℤ) (os : Os) : ℤ × Os :=
  match os.fds.get fd with
  | some _ => (0, { os with fds := os.fds.clear fd })
  | none => (-1, os.fail .other)

def access (path : CStr) (os : Os) : ℤ :=
  match os.fs.names (resolve path) with
  | some _ => 0
  | none => -1

def remove (path : CStr) (os : Os) : ℤ × Os :=
  match os.fs.names (resolve path) with
  | some _ => (0, os.put (os.fs.unlink (resolve path)))
  | none => (-1, os.fail .enoent)

def fstat (fd : ℤ) (os : Os) : Option ℕ :=
  (os.fds.get fd).map fun f => (os.fs.data f.ino).length

def lseek (fd : ℤ) (offset : ℤ) (whence : Whence) (os : Os) : ℤ × Os :=
  match os.fds.get fd with
  | none => (-1, os.fail .other)
  | some f =>
    let target : ℤ := match whence with
      | .set => offset
      | .cur => f.offset + offset
      | .end => (os.fs.data f.ino).length + offset
    if target < 0 then (-1, os.fail .other)
    else (target, os.setFile fd { f with offset := target.toNat })

/-- `read(fd, buf, count)`: the bytes delivered, none for an error. -/
def read (fd : ℤ) (count : ℕ) (os : Os) : Option Bytes × Os :=
  match os.fds.get fd with
  | none => (none, os.fail .other)
  | some f =>
    if f.readable then
      let chunk := ((os.fs.data f.ino).drop f.offset).take count
      (some chunk, os.setFile fd { f with offset := f.offset + chunk.length })
    else (none, os.fail .other)

def writeAt (c : Bytes) (offset : ℕ) (b : Bytes) : Bytes :=
  if b = [] then c
  else c.take offset ++ List.replicate (offset - c.length) 0 ++ b ++ c.drop (offset + b.length)

def transfer (fault : Option Fault) (fd : ℤ) (f : OpenFile) (b : Bytes) (os : Os) : ℤ × Os :=
  match fault with
  | some (.err e) => (-1, os.fail e)
  | some (.short n) =>
    let b := b.take n
    (b.length, (os.put (os.fs.setData f.ino (writeAt (os.fs.data f.ino) f.offset b))).setFile fd
      { f with offset := f.offset + b.length, synced := false })
  | none =>
    (b.length, (os.put (os.fs.setData f.ino (writeAt (os.fs.data f.ino) f.offset b))).setFile fd
      { f with offset := f.offset + b.length, synced := false })

def write (env : Env) (fd : ℤ) (b : Bytes) (os : Os) : ℤ × Os :=
  match os.fds.get fd with
  | none => (-1, os.fail .other)
  | some f =>
    if f.writable then transfer (env os.clock f.path) fd f b os.tick
    else (-1, os.fail .other)

/-- `sendfile(out, in, NULL, count)`: copies from the position of `in`. -/
def sendfile (env : Env) (outFd inFd : ℤ) (count : ℕ) (os : Os) : ℤ × Os :=
  match os.fds.get inFd, os.fds.get outFd with
  | some src, some dst =>
    if src.readable && dst.writable then
      let chunk := ((os.fs.data src.ino).drop src.offset).take count
      let (n, os) := transfer (env os.clock dst.path) outFd dst chunk os.tick
      if n < 0 then (n, os)
      else (n, os.setFile inFd { src with offset := src.offset + n.toNat })
    else (-1, os.fail .other)
  | _, _ => (-1, os.fail .other)

/-- `fsync(fd)`, and `fdatasync(fd)`. -/
def fsync (fd : ℤ) (os : Os) : ℤ × Os :=
  match os.fds.get fd with
  | none => (-1, os.fail .other)
  | some f => (0, os.setFile fd { f with synced := true })

end Os

end PersClient.File
