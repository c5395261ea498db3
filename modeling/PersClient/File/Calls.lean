import PersClient.File.Backup

/-! # What the calls do

Each call is described by what it leaves of the disk and of the open files. A
checksum, a copy and an opening that meet no fault are determined by the
contents they read.
-/

namespace PersClient.File

open Crash

structure Os.Same (os os' : Os) : Prop where
  disk : os'.disk = os.disk
  get : os'.fds.get = os.fds.get

namespace Os

variable {os os' : Os} {env : Env} {path : CStr} {flags : OpenFlags} {fd : ℤ} {f : OpenFile}

theorem Same.refl (os : Os) : Same os os := ⟨rfl, rfl⟩

theorem Same.trans {os'' : Os} (h : Same os os') (h' : Same os' os'') : Same os os'' :=
  ⟨h'.disk.trans h.disk, h'.get.trans h.get⟩

theorem Same.fs (h : Same os os') : os'.fs = os.fs := congrArg Logged.now h.disk

/-- At most one effect: the file of `p` got the content `x`, or was removed. -/
structure Sets (os : Os) (p : Path) (x : Option Bytes) (os' : Os) : Prop where
  effect : os'.disk = os.disk ∨ os'.disk = os.disk.put os'.fs
  content : ∀ q, os'.fs.content q = if q = p then x else os.fs.content q
  others : ∀ q, q ≠ p → os'.fs.names q = os.fs.names q

theorem Sets.always {p : Path} {x : Option Bytes} {P : Fs → Prop} (h : Sets os p x os')
    (hos : os.disk.Always P) (hfs : P os'.fs) : os'.disk.Always P := by
  rcases h.effect with heq | heq
  · rw [heq]
    exact hos
  · rw [heq, Logged.always_put]
    exact ⟨hos, hfs⟩

theorem Sets.trans_same {p : Path} {x : Option Bytes} {os'' : Os} (h : Sets os p x os')
    (h' : os''.disk = os'.disk) : Sets os p x os'' := by
  have hfs : os''.fs = os'.fs := congrArg Logged.now h'
  exact ⟨by rw [h', hfs]; exact h.effect, by rw [hfs]; exact h.content, by rw [hfs]; exact h.others⟩

theorem Sets.of_same {p : Path} {x : Option Bytes} {os₀ : Os} (h : Sets os p x os')
    (h' : os.disk = os₀.disk) : Sets os₀ p x os' := by
  have hfs : os.fs = os₀.fs := congrArg Logged.now h'
  exact ⟨by rw [← h']; exact h.effect, by rw [← hfs]; exact h.content, by rw [← hfs]; exact h.others⟩

theorem Sets.data {p q : Path} {x : Option Bytes} {i : ℕ} (h : Sets os p x os') (hq : q ≠ p)
    (hi : os.fs.names q = some i) : os'.fs.data i = os.fs.data i := by
  have hcontent := h.content q
  rwa [if_neg hq, Fs.content_of_names hi, Fs.content_of_names ((h.others q hq).trans hi),
    Option.some.injEq] at hcontent

theorem Sets.data_self {p : Path} {c : Bytes} {i : ℕ} (h : Sets os p (some c) os')
    (hi : os'.fs.names p = some i) : os'.fs.data i = c := by
  have hcontent := h.content p
  rwa [if_pos rfl, Fs.content_of_names hi, Option.some.injEq] at hcontent

section Opening

theorem openPath_quiet (hq : env.Quiet path) :
    os.openPath env path flags = os.tick.openFile path flags := by
  rw [openPath, hq]

theorem openPath_existing (flags : OpenFlags) (hq : env.Quiet path) {i : ℕ} (hi : os.fs.names (resolve path) = some i)
    (ht : flags.trunc = false) :
    ∃ os', os.openPath env path flags = ((os.fds.lowestFree : ℤ), os') ∧ os'.disk = os.disk ∧
      os'.fds.get = Function.update os.fds.get os.fds.lowestFree
        (some ⟨i, path, 0, flags.read, flags.write, true⟩) := by
  have hi : os.tick.fs.names (resolve path) = some i := hi
  rw [openPath_quiet hq, openFile, hi, ht]
  exact ⟨_, rfl, rfl, rfl⟩

theorem openPath_missing (flags : OpenFlags) (hq : env.Quiet path) (hi : os.fs.names (resolve path) = none)
    (hc : flags.creat = false) :
    ∃ os', os.openPath env path flags = (-1, os') ∧ Same os os' ∧ os'.errno = .enoent := by
  have hi : os.tick.fs.names (resolve path) = none := hi
  rw [openPath_quiet hq, openFile, hi, hc]
  exact ⟨_, rfl, ⟨rfl, rfl⟩, rfl⟩

/-- Whatever the faults, an opening that neither creates nor truncates leaves the disk alone. -/
theorem openPath_disk (hc : flags.creat = false) (ht : flags.trunc = false) :
    (os.openPath env path flags).2.disk = os.disk := by
  have hfile : ∀ os : Os, (os.openFile path flags).2.disk = os.disk := by
    intro os
    simp only [openFile, ht, hc, Bool.false_eq_true, if_false, false_and]
    split <;> rfl
  unfold openPath
  split
  · rfl
  · exact hfile os.tick

theorem openFile_emptied (os : Os) (flags : OpenFlags) (hc : flags.creat = true) (ht : flags.trunc = true)
    (hp : resolve path ≠ []) :
    ∃ os' i, os.openFile path flags = ((os.fds.lowestFree : ℤ), os') ∧
      Sets os (resolve path) (some []) os' ∧ os'.fs.names (resolve path) = some i ∧
      os'.fds.get = Function.update os.fds.get os.fds.lowestFree
        (some ⟨i, path, 0, flags.read, flags.write, true⟩) := by
  rw [openFile, hc, ht]
  cases hi : os.fs.names (resolve path) with
  | some i =>
    exact ⟨_, i, rfl, ⟨Or.inr rfl, fun q => Fs.content_setData_names hi, fun q _ => rfl⟩, hi, rfl⟩
  | none =>
    simp only [hp, ne_eq, not_false_eq_true, and_self, if_true]
    refine ⟨_, os.fs.next, rfl, ⟨Or.inr rfl, fun q => Fs.content_create, fun q hq => ?_⟩, ?_, rfl⟩
    · exact Fs.names_create.trans (if_neg hq)
    · exact Fs.names_create.trans (if_pos rfl)

theorem openPath_emptied (os : Os) (flags : OpenFlags) (hq : env.Quiet path)
    (hc : flags.creat = true) (ht : flags.trunc = true) (hp : resolve path ≠ []) :
    ∃ os' i, os.openPath env path flags = ((os.fds.lowestFree : ℤ), os') ∧
      Sets os (resolve path) (some []) os' ∧ os'.fs.names (resolve path) = some i ∧
      os'.fds.get = Function.update os.fds.get os.fds.lowestFree
        (some ⟨i, path, 0, flags.read, flags.write, true⟩) := by
  obtain ⟨os', i, heq, hsets, hi, hget⟩ := openFile_emptied os.tick flags hc ht hp
  exact ⟨os', i, (openPath_quiet hq).trans heq, hsets.of_same rfl, hi, hget⟩

theorem openPath_cases (env : Env) (path : CStr) (flags : OpenFlags) (os : Os) :
    (∃ e, os.openPath env path flags = (-1, os.tick.fail e)) ∨
      os.openPath env path flags = os.tick.openFile path flags := by
  unfold openPath
  split
  · exact Or.inl ⟨_, rfl⟩
  · exact Or.inr rfl

theorem openFile_fds (path : CStr) (flags : OpenFlags) (os : Os) :
    ((os.openFile path flags).1 = -1 ∧ (os.openFile path flags).2.fds.get = os.fds.get) ∨
      ((os.openFile path flags).1 = os.fds.lowestFree ∧
        ∃ f, f.path = path ∧ (os.openFile path flags).2.fds.get =
          Function.update os.fds.get os.fds.lowestFree (some f)) := by
  unfold openFile
  split
  · dsimp only
    split <;> exact Or.inr ⟨rfl, _, rfl, rfl⟩
  · split
    · exact Or.inr ⟨rfl, _, rfl, rfl⟩
    · exact Or.inl ⟨rfl, rfl⟩

theorem openPath_fds (env : Env) (path : CStr) (flags : OpenFlags) (os : Os) :
    ((os.openPath env path flags).1 = -1 ∧ (os.openPath env path flags).2.fds.get = os.fds.get) ∨
      ((os.openPath env path flags).1 = os.fds.lowestFree ∧
        ∃ f, f.path = path ∧ (os.openPath env path flags).2.fds.get =
          Function.update os.fds.get os.fds.lowestFree (some f)) := by
  rcases openPath_cases env path flags os with ⟨e, heq⟩ | heq
  · rw [heq]
    exact Or.inl ⟨rfl, rfl⟩
  · rw [heq]
    exact openFile_fds path flags os.tick

theorem openPath_truncated (flags : OpenFlags) (hq : env.Quiet path) {i : ℕ}
    (hi : os.fs.names (resolve path) = some i) (ht : flags.trunc = true) :
    ∃ os', os.openPath env path flags = ((os.fds.lowestFree : ℤ), os') ∧
      Sets os (resolve path) (some []) os' ∧ os'.fs.names (resolve path) = some i ∧
      os'.fds.get = Function.update os.fds.get os.fds.lowestFree
        (some ⟨i, path, 0, flags.read, flags.write, true⟩) := by
  have hi' : os.tick.fs.names (resolve path) = some i := hi
  rw [openPath_quiet hq, openFile, ht, hi']
  exact ⟨_, rfl, ⟨Or.inr rfl, fun q => Fs.content_setData_names hi, fun q _ => rfl⟩, hi, rfl⟩

end Opening

section Descriptors

theorem fds_setFile_of_get (h : os.fds.get fd = some f) :
    (os.setFile fd f).fds.get = os.fds.get := by
  have hnn := (FdTable.nonneg_of_get h).1
  funext x
  simp only [setFile, FdTable.get_set]
  split
  · rename_i hx
    rw [hx, Int.toNat_of_nonneg hnn, h]
  · rfl

theorem get_setFile (hnn : 0 ≤ fd) :
    (os.setFile fd f).fds.get = Function.update os.fds.get fd (some f) := by
  funext x
  simp only [setFile, FdTable.get_set, Int.toNat_of_nonneg hnn, Function.update_apply]

theorem close_open (h : os.fds.get fd = some f) :
    ∃ os', os.close fd = (0, os') ∧ os'.disk = os.disk ∧
      os'.fds.get = Function.update os.fds.get fd none := by
  rw [close, h]
  exact ⟨_, rfl, rfl, rfl⟩

theorem close_closed (h : os.fds.get fd = none) :
    ∃ os', os.close fd = (-1, os') ∧ Same os os' := by
  rw [close, h]
  exact ⟨_, rfl, rfl, rfl⟩

theorem close_negative (h : fd < 0) : ∃ os', os.close fd = (-1, os') ∧ Same os os' :=
  close_closed (os.fds.get_out fd (Or.inl h))

theorem close_disk (fd : ℤ) (os : Os) : (os.close fd).2.disk = os.disk := by
  unfold close
  split <;> rfl

theorem lseek_cur (h : os.fds.get fd = some f) :
    ∃ os', os.lseek fd 0 .cur = ((f.offset : ℤ), os') ∧ Same os os' := by
  refine ⟨os.setFile fd f, ?_, rfl, fds_setFile_of_get h⟩
  have hnn : ¬ (f.offset : ℤ) < 0 := by omega
  simp only [lseek, h, add_zero, if_neg hnn, Int.toNat_natCast]

theorem lseek_set (h : os.fds.get fd = some f) (n : ℕ) :
    ∃ os', os.lseek fd n .set = ((n : ℤ), os') ∧ os'.disk = os.disk ∧
      os'.fds.get = Function.update os.fds.get fd (some { f with offset := n }) := by
  refine ⟨os.setFile fd { f with offset := n }, ?_, rfl, get_setFile (FdTable.nonneg_of_get h).1⟩
  have hnn : ¬ (n : ℤ) < 0 := by omega
  simp only [lseek, h, if_neg hnn, Int.toNat_natCast]

theorem rewind (h : os.fds.get fd = some f) :
    (if (f.offset : ℤ) ≠ 0 then (os.lseek fd 0 .set).2 else os).disk = os.disk ∧
      (if (f.offset : ℤ) ≠ 0 then (os.lseek fd 0 .set).2 else os).fds.get =
        Function.update os.fds.get fd (some { f with offset := 0 }) := by
  split
  · obtain ⟨os', heq, hdisk, hget⟩ := lseek_set h 0
    rw [Nat.cast_zero] at heq
    rw [heq]
    exact ⟨hdisk, hget⟩
  · rename_i h0
    have h0 : f.offset = 0 := by omega
    refine ⟨rfl, ?_⟩
    rw [← h0, ← h, Function.update_eq_self]

theorem read_readable (h : os.fds.get fd = some f) (hr : f.readable = true) (count : ℕ) :
    ∃ os', os.read fd count = (some (((os.fs.data f.ino).drop f.offset).take count), os') ∧
      os'.disk = os.disk ∧ os'.fds.get = Function.update os.fds.get fd (some { f with
        offset := f.offset + (((os.fs.data f.ino).drop f.offset).take count).length }) := by
  rw [read, h]
  simp only [hr, if_true]
  exact ⟨_, rfl, rfl, get_setFile (FdTable.nonneg_of_get h).1⟩

theorem read_unreadable (h : os.fds.get fd = some f) (hr : f.readable = false) (count : ℕ) :
    ∃ os', os.read fd count = (none, os') ∧ Same os os' := by
  rw [read, h]
  simp only [hr]
  exact ⟨_, rfl, rfl, rfl⟩

theorem remove_existing {i : ℕ} (hi : os.fs.names (resolve path) = some i) :
    ∃ os', os.remove path = (0, os') ∧ Sets os (resolve path) none os' ∧ os'.fds = os.fds := by
  rw [remove, hi]
  exact ⟨_, rfl, ⟨Or.inr rfl, fun q => Fs.content_unlink,
    fun q hq => Fs.names_unlink.trans (if_neg hq)⟩, rfl⟩

theorem remove_missing (hi : os.fs.names (resolve path) = none) :
    ∃ os', os.remove path = (-1, os') ∧ Same os os' := by
  rw [remove, hi]
  exact ⟨_, rfl, rfl, rfl⟩

theorem remove_sets (path : CStr) (os : Os) :
    Sets os (resolve path) none (os.remove path).2 ∧ (os.remove path).2.fds.get = os.fds.get := by
  cases hi : os.fs.names (resolve path) with
  | some i =>
    obtain ⟨os', heq, hsets, hfds⟩ := remove_existing hi
    rw [heq]
    exact ⟨hsets, by rw [hfds]⟩
  | none =>
    obtain ⟨os', heq, hsame⟩ := remove_missing hi
    rw [heq]
    refine ⟨⟨Or.inl hsame.disk, fun q => ?_, fun q _ => by rw [hsame.fs]⟩, hsame.get⟩
    rw [hsame.fs]
    split
    · rename_i hq
      rw [hq]
      exact Fs.content_eq_none.mpr hi
    · rfl

theorem access_eq_zero : os.access path = 0 ↔ os.content path ≠ none := by
  rw [access, content, ne_eq, Fs.content_eq_none]
  split
  · rename_i h
    simp [h]
  · rename_i h
    simp [h]

@[simp] theorem writeAt_empty (b : Bytes) : writeAt [] 0 b = b := by
  unfold writeAt
  split
  · rename_i h
    exact h.symm
  · simp

theorem write_quiet (h : os.fds.get fd = some f) (hw : f.writable = true) (hq : env.Quiet f.path)
    {p : Path} (hp : os.fs.names p = some f.ino) (b : Bytes) :
    ∃ os', os.write env fd b = ((b.length : ℤ), os') ∧
      Sets os p (some (writeAt (os.fs.data f.ino) f.offset b)) os' ∧
      os'.fs.names p = some f.ino ∧
      os'.fds.get = Function.update os.fds.get fd
        (some { f with offset := f.offset + b.length, synced := false }) := by
  rw [write, h]
  simp only [hw, if_true, hq os.clock, transfer]
  exact ⟨_, rfl, ⟨Or.inr rfl, fun q => Fs.content_setData_names hp, fun q _ => rfl⟩, hp,
    get_setFile (FdTable.nonneg_of_get h).1⟩

theorem write_unwritable (env : Env) (h : os.fds.get fd = some f) (hw : f.writable = false)
    (b : Bytes) :
    ∃ os', os.write env fd b = (-1, os') ∧ Same os os' := by
  rw [write, h]
  simp only [hw]
  exact ⟨_, rfl, rfl, rfl⟩

theorem sendfile_quiet {src dst : ℤ} {g : OpenFile} (hf : os.fds.get src = some f)
    (hg : os.fds.get dst = some g) (hq : env.Quiet g.path)
    (hr : f.readable = true) (hw : g.writable = true) {p : Path}
    (hp : os.fs.names p = some g.ino) (count : ℕ) :
    ∃ os', os.sendfile env dst src count =
        (((((os.fs.data f.ino).drop f.offset).take count).length : ℤ), os') ∧
      Sets os p (some (writeAt (os.fs.data g.ino) g.offset
        (((os.fs.data f.ino).drop f.offset).take count))) os' ∧
      os'.fs.names p = some g.ino ∧
      os'.fds.get = Function.update (Function.update os.fds.get dst
        (some { g with
          offset := g.offset + (((os.fs.data f.ino).drop f.offset).take count).length
          synced := false })) src
        (some { f with
          offset := f.offset + (((os.fs.data f.ino).drop f.offset).take count).length }) := by
  rw [sendfile, hf, hg]
  have hnn (chunk : Bytes) : ¬ (chunk.length : ℤ) < 0 := by omega
  simp only [hr, hw, Bool.and_self, if_true, transfer, hq os.clock, hnn, if_false,
    Int.toNat_natCast]
  refine ⟨_, rfl, ⟨Or.inr rfl, fun q => Fs.content_setData_names hp, fun q _ => rfl⟩, hp, ?_⟩
  rw [get_setFile (FdTable.nonneg_of_get hf).1, get_setFile (FdTable.nonneg_of_get hg).1]
  rfl

theorem sendfile_unreadable {src : ℤ} (hf : os.fds.get src = some f)
    (hr : f.readable = false) (env : Env) (dst : ℤ) (count : ℕ) :
    ∃ os', os.sendfile env dst src count = (-1, os') ∧ Same os os' := by
  rw [sendfile, hf]
  cases os.fds.get dst with
  | none => exact ⟨_, rfl, rfl, rfl⟩
  | some g =>
    simp only [hr, Bool.false_and, Bool.false_eq_true, if_false]
    exact ⟨_, rfl, rfl, rfl⟩

def copied (readable : Bool) (c : Bytes) : Bytes := if readable then c else []

end Descriptors

end Os

section Frames

variable {os os' os'' : Os} {env : Env} {fd : ℤ} {f g : OpenFile} {p : Path}

/-- What an open file stays, whatever is read or written through it. -/
def OpenFile.file (f : OpenFile) : ℕ × CStr × Bool × Bool := (f.ino, f.path, f.readable, f.writable)

namespace Os

/-- The same files stand open at the same descriptors. -/
def Keeps (os os' : Os) : Prop :=
  ∀ x, (os'.fds.get x).map OpenFile.file = (os.fds.get x).map OpenFile.file

theorem Keeps.refl (os : Os) : Keeps os os := fun _ => rfl

theorem Keeps.trans (h : Keeps os os') (h' : Keeps os' os'') : Keeps os os'' :=
  fun x => (h' x).trans (h x)

theorem Same.keeps (h : Same os os') : Keeps os os' := fun x => by rw [h.get]

theorem Keeps.isSome (h : Keeps os os') (x : ℤ) :
    (os'.fds.get x).isSome = (os.fds.get x).isSome := by
  simpa using congrArg Option.isSome (h x)

theorem Keeps.of_update (h : os.fds.get fd = some f) (hg : g.file = f.file)
    (hget : os'.fds.get = Function.update os.fds.get fd (some g)) : Keeps os os' := by
  intro x
  rw [hget, Function.update_apply]
  split
  · rename_i hx
    rw [hx, h, Option.map_some, Option.map_some, hg]
  · rfl

theorem Keeps.of_updates {x y : ℤ} {f' g' : OpenFile} (hf : os.fds.get x = some f)
    (hg : os.fds.get y = some g) (hf' : f'.file = f.file) (hg' : g'.file = g.file)
    (hget : os'.fds.get = Function.update (Function.update os.fds.get y (some g')) x (some f')) :
    Keeps os os' := by
  intro z
  rw [hget, Function.update_apply, Function.update_apply]
  split
  · rename_i hz
    rw [hz, hf, Option.map_some, Option.map_some, hf']
  · split
    · rename_i hz
      rw [hz, hg, Option.map_some, Option.map_some, hg']
    · rfl

theorem setFile_keeps (os : Os) (h : os.fds.get fd = some f) (hg : g.file = f.file) :
    Keeps os (os.setFile fd g) :=
  .of_update h hg (get_setFile (FdTable.nonneg_of_get h).1)

/-- Only the content of `p` may change. -/
structure Touches (os : Os) (p : Path) (os' : Os) : Prop where
  content : ∀ q, q ≠ p → os'.fs.content q = os.fs.content q
  names : os'.fs.names = os.fs.names

theorem Touches.of_disk (h : os'.disk = os.disk) : Touches os p os' := by
  have hfs : os'.fs = os.fs := congrArg Logged.now h
  exact ⟨fun q _ => by rw [hfs], by rw [hfs]⟩

theorem Touches.trans (h : Touches os p os') (h' : Touches os' p os'') : Touches os p os'' :=
  ⟨fun q hq => (h'.content q hq).trans (h.content q hq), h'.names.trans h.names⟩

theorem lseek_frame (fd offset : ℤ) (whence : Whence) (os : Os) :
    (os.lseek fd offset whence).2.disk = os.disk ∧ Keeps os (os.lseek fd offset whence).2 := by
  unfold lseek
  split
  · exact ⟨rfl, .refl os⟩
  · rename_i h
    dsimp only
    split <;> split
    all_goals first
      | exact ⟨rfl, .refl os⟩
      | exact ⟨rfl, setFile_keeps _ h rfl⟩

theorem read_frame (fd : ℤ) (count : ℕ) (os : Os) :
    (os.read fd count).2.disk = os.disk ∧ Keeps os (os.read fd count).2 := by
  unfold read
  split
  · exact ⟨rfl, .refl os⟩
  · rename_i h
    split
    · exact ⟨rfl, setFile_keeps _ h rfl⟩
    · exact ⟨rfl, .refl os⟩

theorem fsync_frame (fd : ℤ) (os : Os) :
    (os.fsync fd).2.disk = os.disk ∧ Keeps os (os.fsync fd).2 := by
  unfold fsync
  split
  · exact ⟨rfl, .refl os⟩
  · rename_i h
    exact ⟨rfl, setFile_keeps _ h rfl⟩

theorem transfer_keeps (os : Os) (fault : Option Fault) (h : os.fds.get fd = some f) (b : Bytes) :
    Keeps os (os.transfer fault fd f b).2 := by
  unfold transfer
  split
  · exact .refl os
  · exact setFile_keeps (os.put _) h rfl
  · exact setFile_keeps (os.put _) h rfl

theorem transfer_touches (os : Os) (fd : ℤ) (fault : Option Fault) (hp : os.fs.names p = some f.ino) (b : Bytes) :
    Touches os p (os.transfer fault fd f b).2 := by
  have put : ∀ (c : Bytes) (g : OpenFile),
      Touches os p ((os.put (os.fs.setData f.ino c)).setFile fd g) := fun c g =>
    ⟨fun q hq => (Fs.content_setData_names hp).trans (if_neg hq), rfl⟩
  unfold transfer
  split
  · exact .of_disk rfl
  · exact put _ _
  · exact put _ _

theorem write_keeps (env : Env) (fd : ℤ) (b : Bytes) (os : Os) :
    Keeps os (os.write env fd b).2 := by
  unfold write
  split
  · exact .refl os
  · rename_i h
    split
    · exact transfer_keeps os.tick _ h b
    · exact .refl os

theorem write_touches (hp : ∀ f, os.fds.get fd = some f → os.fs.names p = some f.ino) (b : Bytes) :
    Touches os p (os.write env fd b).2 := by
  unfold write
  split
  · exact .of_disk rfl
  · rename_i f h
    split
    · have touches := transfer_touches os.tick fd (env os.clock f.path) (hp f h) b
      exact ⟨touches.content, touches.names⟩
    · exact .of_disk rfl

theorem Keeps.setFile (h : Keeps os os') (hf : os.fds.get fd = some f) (hg : g.file = f.file) :
    Keeps os (os'.setFile fd g) := by
  have hmap := h fd
  rw [hf, Option.map_some, Option.map_eq_some_iff] at hmap
  obtain ⟨f', hf', hfile⟩ := hmap
  exact h.trans (setFile_keeps os' hf' (hg.trans hfile.symm))

theorem Keeps.close (hfree : os.fds.get fd = none)
    (hget : os'.fds.get = Function.update os.fds.get fd (some f)) (h : Keeps os' os'') :
    Keeps os (os''.close fd).2 := by
  have hopen := h fd
  rw [hget, Function.update_self, Option.map_some, Option.map_eq_some_iff] at hopen
  obtain ⟨f', hf', -⟩ := hopen
  obtain ⟨os₃, heq, -, hclosed⟩ := close_open hf'
  intro x
  rw [heq, hclosed, Function.update_apply]
  split
  · rename_i hx
    rw [hx, hfree]
  · rename_i hx
    rw [h x, hget, Function.update_of_ne hx]

theorem sendfile_keeps (env : Env) (outFd inFd : ℤ) (count : ℕ) (os : Os) :
    Keeps os (os.sendfile env outFd inFd count).2 := by
  unfold sendfile
  split
  · rename_i src dst hin hout
    split
    · have keeps := transfer_keeps os.tick (env os.clock dst.path) hout
        (((os.fs.data src.ino).drop src.offset).take count)
      dsimp only
      split
      · exact keeps
      · exact keeps.setFile hin rfl
    · exact .refl os
  · exact .refl os

theorem sendfile_touches (env : Env) {outFd : ℤ} (inFd : ℤ)
    (hp : ∀ f, os.fds.get outFd = some f → os.fs.names p = some f.ino) (count : ℕ) :
    Touches os p (os.sendfile env outFd inFd count).2 := by
  unfold sendfile
  split
  · rename_i src dst hin hout
    split
    · have touches := transfer_touches os.tick outFd (env os.clock dst.path)
        (hp dst hout) (((os.fs.data src.ino).drop src.offset).take count)
      dsimp only
      split
      · exact ⟨touches.content, touches.names⟩
      · exact ⟨touches.content, touches.names⟩
    · exact .of_disk rfl
  · exact .of_disk rfl

end Os

end Frames

section Checksum

/-- The checksum string the library gets of a content through a descriptor. -/
def seen (readable : Bool) (c : Bytes) : Bytes := if readable then csumOf c else []

@[simp] theorem seen_true (c : Bytes) : seen true c = csumOf c := rfl

@[simp] theorem csumOf_nil : csumOf [] = [] := rfl

@[simp] theorem seen_nil (readable : Bool) : seen readable [] = [] := by
  cases readable <;> rfl

theorem csumOf_ne_nil {c : Bytes} (hc : c ≠ []) : csumOf c ≠ [] := by
  simp [csumOf, hc, CStr.toBytes, Text.hex_ne_nil]

theorem csumOf_eq_nil {c : Bytes} (h : csumOf c = []) : c = [] :=
  Classical.byContradiction fun hc => csumOf_ne_nil hc h

theorem csumOfReads_single {c : Bytes} (hc : c ≠ []) :
    CStr.toBytes (csumOfReads c.length [] [] [c]) = csumOf c := by
  have hlen : (Text.hex (pclCrc32 0 c).toNat).length < checksumBufSize - 1 := by
    have hlt : (pclCrc32 0 c).toNat < 16 ^ 8 := UInt32.toNat_lt _
    have : (Text.hex (pclCrc32 0 c).toNat).length ≤ 8 := Text.hex_length_le (by omega) hlt
    exact lt_of_le_of_lt this (by decide)
  simp only [csumOfReads, List.drop_nil, List.append_nil, List.take_length, csumOf, hc, if_false,
    snprintf_of_lt hlen]

variable {os : Os} {fd : ℤ} {f : OpenFile}

theorem readChunks_start (h : os.fds.get fd = some f) (h0 : f.offset = 0) :
    ∃ chunks os', readChunks fd (os.fs.data f.ino).length ((os.fs.data f.ino).length + 1) os =
        (chunks, os') ∧
      CStr.toBytes (csumOfReads (os.fs.data f.ino).length [] [] chunks) =
        seen f.readable (os.fs.data f.ino) ∧
      os'.disk = os.disk ∧
      ∃ n, os'.fds.get = Function.update os.fds.get fd (some { f with offset := n }) := by
  generalize hdata : os.fs.data f.ino = data
  rcases Bool.eq_false_or_eq_true f.readable with hr | hr
  swap
  · obtain ⟨os', heq, hsame⟩ := Os.read_unreadable h hr data.length
    refine ⟨[], os', by simp only [readChunks, heq], by rw [hr]; rfl, hsame.disk, f.offset, ?_⟩
    rw [hsame.get, ← h, Function.update_eq_self]
  · obtain ⟨os₁, heq₁, hdisk₁, hget₁⟩ := Os.read_readable h hr data.length
    rw [h0, hdata, List.drop_zero, List.take_length] at heq₁ hget₁
    cases hd : data with
    | nil =>
      rw [hd] at heq₁
      exact ⟨[], os₁, by simp only [readChunks, heq₁], (seen_nil _).symm, hdisk₁, _, hget₁⟩
    | cons b bs =>
      have hf₁ : os₁.fds.get fd = some { f with offset := 0 + data.length } := by
        rw [hget₁, Function.update_self]
      obtain ⟨os₂, heq₂, hdisk₂, hget₂⟩ := Os.read_readable hf₁ hr data.length
      have hfs : os₁.fs = os.fs := congrArg Logged.now hdisk₁
      simp only [hfs, hdata, zero_add, List.drop_length, List.take_nil] at heq₂ hget₂
      refine ⟨[data], os₂, ?_, ?_, hdisk₂.trans hdisk₁, data.length, ?_⟩
      · rw [hd] at heq₁ heq₂
        simp only [List.length_cons] at heq₁ heq₂
        simp only [readChunks, List.length_cons, heq₁, heq₂, hd]
      · rw [← hd, hr]
        exact csumOfReads_single (by simp [hd])
      · rw [hget₂, hget₁, Function.update_idem, List.length_nil, add_zero]

theorem pclCalcCrc32Csum_open (h : os.fds.get fd = some f) :
    ∃ os', pclCalcCrc32Csum fd os = (seen f.readable (os.fs.data f.ino), os') ∧ Os.Same os os' := by
  obtain ⟨os₁, hcur, hsame₁⟩ := Os.lseek_cur h
  rw [← hsame₁.get] at h
  obtain ⟨hdisk₂, hget₂⟩ := Os.rewind h
  obtain ⟨chunks, os₃, hread, hcsum, hdisk₃, n, hget₃⟩ := readChunks_start
    (f := { f with offset := 0 }) (by rw [hget₂, Function.update_self]) rfl
  obtain ⟨os₄, hset, hdisk₄, hget₄⟩ := Os.lseek_set
    (f := { f with offset := n }) (by rw [hget₃, Function.update_self]) f.offset
  have hfs : ∀ {o : Os}, o.disk = os.disk → o.fs = os.fs := fun h => congrArg Logged.now h
  rw [hfs (hdisk₂.trans hsame₁.disk)] at hread hcsum
  refine ⟨os₄, ?_, hdisk₄.trans (hdisk₃.trans (hdisk₂.trans hsame₁.disk)), ?_⟩
  · have hstat : os.fstat fd = some (os.fs.data f.ino).length := by
      rw [Os.fstat, ← hsame₁.get, h, Option.map_some]
    simp only [pclCalcCrc32Csum, hstat, hcur, hread, hset, hcsum]
  · rw [hget₄, hget₃, hget₂, Function.update_idem, Function.update_idem, ← hsame₁.get, ← h,
      Function.update_eq_self]

end Checksum

section Copy

variable {os : Os} {env : Env} {src dst : ℤ} {f g : OpenFile} {p : Path}

theorem pclBackupDoFileCopy_open (hf : os.fds.get src = some f) (hg : os.fds.get dst = some g)
    (hne : src ≠ dst) (hq : env.Quiet g.path) (hf0 : f.offset = 0) (hg0 : g.offset = 0)
    (hw : g.writable = true) (hp : os.fs.names p = some g.ino) (hdata : os.fs.data g.ino = []) :
    ∃ n os', pclBackupDoFileCopy env src dst os = (n, os') ∧
      os.Sets p (some (Os.copied f.readable (os.fs.data f.ino))) os' ∧
      os'.fs.names p = some g.ino ∧
      ∃ k b, os'.fds.get = Function.update (Function.update os.fds.get dst
        (some { g with synced := b })) src (some { f with offset := k }) := by
  have hstat : os.fstat src = some (os.fs.data f.ino).length := by rw [Os.fstat, hf, Option.map_some]
  rcases Bool.eq_false_or_eq_true f.readable with hr | hr
  · obtain ⟨os₁, hsend, hsets, hp₁, hget₁⟩ := Os.sendfile_quiet hf hg hq hr hw hp
      (os.fs.data f.ino).length
    simp only [hf0, hg0, hdata, List.drop_zero, List.take_length, Os.writeAt_empty, zero_add]
      at hsend hsets hget₁
    have hg₁ := congrFun hget₁ dst
    rw [Function.update_of_ne hne.symm, Function.update_self] at hg₁
    obtain ⟨os₂, hseek, hdisk₂, hget₂⟩ := Os.lseek_set hg₁ 0
    rw [Nat.cast_zero] at hseek
    refine ⟨_, os₂, by simp only [pclBackupDoFileCopy, hstat, hsend, hseek]; rfl, ?_, ?_,
      (os.fs.data f.ino).length, false, ?_⟩
    · rw [Os.copied, hr, if_pos rfl]
      exact hsets.trans_same hdisk₂
    · rw [show os₂.fs = os₁.fs from congrArg Crash.Logged.now hdisk₂]
      exact hp₁
    · rw [hget₂, hget₁, Function.update_comm hne, Function.update_idem]
      rw [hg0]
  · obtain ⟨os₁, hsend, hsame⟩ := Os.sendfile_unreadable hf hr env dst
      (os.fs.data f.ino).length
    rw [← hsame.get] at hg
    obtain ⟨os₂, hseek, hdisk₂, hget₂⟩ := Os.lseek_set hg 0
    rw [Nat.cast_zero] at hseek
    have hfs : os₂.fs = os.fs := (congrArg Crash.Logged.now hdisk₂).trans hsame.fs
    refine ⟨-1, os₂, by simp only [pclBackupDoFileCopy, hstat, hsend, hseek], ?_, ?_, f.offset,
      g.synced, ?_⟩
    · refine ⟨Or.inl (hdisk₂.trans hsame.disk), fun q => ?_, fun q _ => by rw [hfs]⟩
      rw [hfs, Os.copied, hr]
      split
      · rename_i hqp
        rw [hqp, Fs.content_of_names hp, hdata]
        rfl
      · rfl
    · rw [hfs]
      exact hp
    · rw [hget₂, hsame.get, ← hg0, ← hf, Function.update_comm hne.symm, Function.update_eq_self]

end Copy

end PersClient.File
