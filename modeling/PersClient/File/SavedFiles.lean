import PersClient.File.Frames

/-! # Files as an application sees them

What the file interface is for: files with a content, some of them with a copy
that was saved before the first write, and open descriptors with a position in
one of them. An opening goes back to the saved copy, and a closing drops it. No
checksum and no side file is seen in this.
-/

namespace PersClient.File

open Access Crash Handle Prct Steps Text

variable {ρ : Type} [DecidableEq ρ] {com : CommonObject}

section Abstract

/-- An open descriptor: its file, its position, and whether it was written through. -/
structure Cursor (ρ : Type) where
  file : ρ
  pos : ℕ := 0
  written : Bool := false
  deriving DecidableEq

/-- Files with their saved copies, and open descriptors. -/
structure SavedFiles (ρ : Type) where
  content : ρ → Option Bytes
  saved : ρ → Option Bytes
  defaults : ρ → Bytes
  opened : ℤ → Option (Cursor ρ) := fun _ => none
  locked : Bool := false

/-- The calls of the file interface on resources, what the main loop does to the
lock, and the end of the process, followed by a new one with these descriptors. -/
inductive AppCall (ρ : Type)
  | open (i : ρ)
  | seek (fd offset : ℤ) (whence : Whence)
  | read (fd : ℤ) (count : ℕ)
  | write (fd : ℤ) (buffer : Bytes)
  | size (fd : ℤ)
  | close (fd : ℤ)
  | remove (i : ρ)
  | turn (loop : MainLoop)
  | restart (base : FdTable)

def seekTarget (pos size : ℕ) (offset : ℤ) : Whence → ℤ
  | .set => offset
  | .cur => pos + offset
  | .end => size + offset

def chunkAt (b : Bytes) (pos count : ℕ) : Bytes := (b.drop pos).take count

namespace SavedFiles

def data (s : SavedFiles ρ) (i : ρ) : Bytes := (s.content i).getD []

/-- What an opening finds or makes: the saved copy if it is not empty, the
content there is, or new data. -/
def found (s : SavedFiles ρ) (i : ρ) (new : Bytes) : Bytes :=
  (((s.saved i).filter (· ≠ [])).or (s.content i)).getD new

def store (s : SavedFiles ρ) (i : ρ) (b : Option Bytes) : SavedFiles ρ :=
  { s with content := Function.update s.content i b }

def save (s : SavedFiles ρ) (i : ρ) (b : Option Bytes) : SavedFiles ρ :=
  { s with saved := Function.update s.saved i b }

def place (s : SavedFiles ρ) (fd : ℤ) (k : Option (Cursor ρ)) : SavedFiles ρ :=
  { s with opened := Function.update s.opened fd k }

section Simp

variable {s : SavedFiles ρ} {i j : ρ} {b : Option Bytes} {fd x : ℤ} {k : Option (Cursor ρ)}

@[simp] theorem store_content : (s.store i b).content j = if j = i then b else s.content j :=
  Function.update_apply ..

@[simp] theorem store_saved : (s.store i b).saved = s.saved := rfl

@[simp] theorem save_content : (s.save i b).content = s.content := rfl

@[simp] theorem save_saved : (s.save i b).saved j = if j = i then b else s.saved j :=
  Function.update_apply ..

omit [DecidableEq ρ] in
@[simp] theorem place_content : (s.place fd k).content = s.content := rfl

omit [DecidableEq ρ] in
@[simp] theorem place_saved : (s.place fd k).saved = s.saved := rfl

omit [DecidableEq ρ] in
@[simp] theorem place_opened : (s.place fd k).opened x = if x = fd then k else s.opened x :=
  Function.update_apply ..

end Simp

/-- What a call gives back; the number of a new descriptor is left to the system. -/
def reply (s : SavedFiles ρ) : AppCall ρ → Option (ℤ × Option Bytes)
  | .open _ => none
  | .seek fd offset whence => (s.opened fd).map fun k =>
    if s.locked then (epersLockfs, none)
    else if seekTarget k.pos (s.data k.file).length offset whence < 0 then (-1, none)
    else (int (seekTarget k.pos (s.data k.file).length offset whence), none)
  | .read fd count => (s.opened fd).map fun k =>
    ((chunkAt (s.data k.file) k.pos count).length, some (chunkAt (s.data k.file) k.pos count))
  | .write fd buffer => (s.opened fd).map fun _ =>
    if s.locked then (epersLockfs, none) else (buffer.length, none)
  | .size fd => (s.opened fd).map fun k => (int (s.data k.file).length, none)
  | .close fd => (s.opened fd).map fun _ => (0, none)
  | .remove i =>
    if s.locked then some (epersLockfs, none)
    else if s.content i = none then some (-1, none) else some (0, none)
  | .turn _ | .restart _ => some (0, none)

/-- A call may give this back. An opening gives a new descriptor, or is refused. -/
def Answers (s : SavedFiles ρ) (call : AppCall ρ) (answer : ℤ × Option Bytes) : Prop :=
  match call with
  | .open _ => answer.2 = none ∧
    (0 ≤ answer.1 ∧ s.opened answer.1 = none ∨ answer.1 = epersMaxhandle)
  | call => s.reply call = some answer

/-- What a call leaves that gives this back. A new file holds the default data,
but is empty where its opening is refused. The first write through a descriptor
saves the content. -/
def next (s : SavedFiles ρ) (e : AppCall ρ × (ℤ × Option Bytes)) : SavedFiles ρ :=
  match e.1 with
  | .open i =>
    if 0 ≤ e.2.1 then
      (s.store i (some (s.found i (s.defaults i)))).place e.2.1 (some { file := i })
    else s.store i (some (s.found i []))
  | .seek fd offset whence =>
    match s.opened fd with
    | none => s
    | some k =>
      if s.locked ∨ seekTarget k.pos (s.data k.file).length offset whence < 0 then s
      else s.place fd (some { k with
        pos := (seekTarget k.pos (s.data k.file).length offset whence).toNat })
  | .read fd count =>
    match s.opened fd with
    | none => s
    | some k => s.place fd (some { k with
      pos := k.pos + (chunkAt (s.data k.file) k.pos count).length })
  | .write fd buffer =>
    match s.opened fd with
    | none => s
    | some k =>
      if s.locked then s
      else
        ((if k.written then s else s.save k.file (some (s.data k.file))).store k.file
          (some (Os.writeAt (s.data k.file) k.pos buffer))).place fd
            (some { k with pos := k.pos + buffer.length, written := true })
  | .size _ => s
  | .close fd =>
    match s.opened fd with
    | none => s
    | some k => (s.save k.file none).place fd none
  | .remove i => if s.locked then s else s.store i none
  | .turn loop => { s with locked := decide (Locked loop) }
  | .restart _ => { s with opened := fun _ => none, locked := false }

theorem next_open_content {s : SavedFiles ρ} {i : ρ} {answer : ℤ × Option Bytes} :
    (s.next (.open i, answer)).content i =
      some (s.found i (if 0 ≤ answer.1 then s.defaults i else [])) := by
  unfold next
  dsimp only
  split
  · rw [place_content, store_content, if_pos rfl]
  · rw [store_content, if_pos rfl]

/-- The calls of an application that keeps to its descriptors and removes no
file that is open or has a saved copy. -/
def Proper (s : SavedFiles ρ) : AppCall ρ → Prop
  | .seek fd _ _ | .read fd _ | .write fd _ | .size fd | .close fd => s.opened fd ≠ none
  | .remove i => s.saved i = none ∧ ∀ fd k, s.opened fd = some k → k.file ≠ i
  | .open _ | .turn _ | .restart _ => True

end SavedFiles

end Abstract

section Client

variable (res : ρ → FileResource com)

/-- A call of the library, no system call failing. -/
def AppCall.perform (c : Client) : AppCall ρ → (ℤ × Option Bytes) × Client
  | .open i => ((((res i).openFile .reliable c).1, none), ((res i).openFile .reliable c).2)
  | .seek fd offset whence =>
    (((pclFileSeek fd offset whence c).1, none), (pclFileSeek fd offset whence c).2)
  | .read fd count =>
    (((pclFileReadData fd count c).2.1, (pclFileReadData fd count c).1),
      (pclFileReadData fd count c).2.2)
  | .write fd buffer =>
    (((pclFileWriteData com .reliable fd buffer c).1, none),
      (pclFileWriteData com .reliable fd buffer c).2)
  | .size fd => ((pclFileGetSize fd c, none), c)
  | .close fd => (((pclFileClose fd c).1, none), (pclFileClose fd c).2)
  | .remove i =>
    (((pclFileRemove (res i).dbContext c).1, none), (pclFileRemove (res i).dbContext c).2)
  | .turn loop => ((0, none), { c with loop })
  | .restart base => ((0, none), reboot c.gRbTreeBl base c.os.fs)

/-- The calls of a run with what they give back. -/
def exchanges : Client → List (AppCall ρ) → List (AppCall ρ × (ℤ × Option Bytes))
  | _, [] => []
  | c, call :: calls =>
    (call, (call.perform res c).1) :: exchanges (call.perform res c).2 calls

/-- The client after the calls of a run. -/
def afterCalls (c : Client) (calls : List (AppCall ρ)) : Client :=
  run (fun c call => (call.perform res c).2) c calls

end Client

section Relation

/-- The three files of the resource. -/
def FileResource.files (r : FileResource com) (room : com.Roomy) : List Path :=
  [resolve (r.names room).orig, resolve (r.names room).backup, resolve (r.names room).csum]

theorem FileResource.orig_subset_files (r : FileResource com) (room : com.Roomy) :
    [resolve (r.names room).orig] ⊆ r.files room :=
  List.cons_subset_cons _ (List.nil_subset _)

/-- The side files hold a saved copy and its checksum string, or there are none. -/
def FileResource.Keeps (r : FileResource com) (room : com.Roomy) (os : Os) (b : Option Bytes) :
    Prop :=
  os.content (r.names room).backup = b ∧ os.content (r.names room).csum = b.map csumOf

/-- The descriptor stands in the file of the resource at this position. -/
def FileResource.At (r : FileResource com) (room : com.Roomy) (os : Os) (fd : ℤ) (pos : ℕ) : Prop :=
  ∃ f, os.fds.get fd = some f ∧ os.fs.names (resolve (r.names room).orig) = some f.ino ∧
    f.offset = pos ∧ f.readable = true ∧ f.writable = true

def Plain (p : Path) : Prop := ['.'] ∉ p ∧ ['.', '.'] ∉ p

instance (p : Path) : Decidable (Plain p) := by
  unfold Plain
  infer_instance

/-- Read-write resources whose files are their own and can be created. A path with
`.` or `..` in it would be another path of a file that may belong to another resource. -/
structure Family (res : ρ → FileResource com) (room : com.Roomy) : Prop where
  writable : ∀ i, (res i).info.configKey.permission = .readWrite
  oneLine : ∀ i, (res i).OneLine
  creatable : ∀ i, (createPath com (res i).dbContext.dbPath).isSome
  sides : ∀ i, (res i).SidesCreatable room
  plain : ∀ i, ∀ p ∈ (res i).files room, Plain p
  plainDefaults : ∀ i, ∀ path ∈ defaultPaths com (res i).appId.chars (res i).info.configKey.policy
    (res i).resourceId, Plain (resolve path)
  apart : ∀ i j, i ≠ j → ∀ p ∈ (res i).files room, p ∉ (res j).files room
  defaults : ∀ i j, ∀ path ∈ defaultPaths com (res i).appId.chars (res i).info.configKey.policy
    (res i).resourceId, resolve path ∉ (res j).files room

/-- The descriptor is on record with the resource, and its status says whether it
was written through. -/
structure Stands (r : FileResource com) (room : com.Roomy) (fd : ℤ) (pos : ℕ) (written : Bool)
    (c : Client) : Prop where
  file : r.At room c.os fd pos
  recorded : ∃ item, Tree.lookup c.gFileHandleTree fd = some item ∧
    r.Recorded (if written then 1 else 0) item

/-- The library and its files are what the application takes them for: each file
has its content, each descriptor its position, and the side files are the saved
copies. -/
structure Mirrors (res : ρ → FileResource com) (room : com.Roomy) (c : Client)
    (s : SavedFiles ρ) : Prop where
  needs : ∀ i, (res i).NeedsBackup c
  records : NoDefaultRecords c.gFileHandleTree
  locked : s.locked = decide (Locked c.loop)
  content : ∀ i, c.os.content ((res i).names room).orig = s.content i
  defaults : ∀ i, defaultData com (res i).appId.chars (res i).info.configKey.policy
    (res i).resourceId c.os = s.defaults i
  sides : ∀ i, (res i).Keeps room c.os (s.saved i)
  held : ∀ i, s.saved i ≠ none → s.content i ≠ none
  opened : ∀ fd k, s.opened fd = some k → Stands (res k.file) room fd k.pos k.written c

structure Client.Confined (c : Client) (ps : List Path) (fd : ℤ) (c' : Client) : Prop where
  follows : c.Follows c'
  loop : c'.loop = c.loop
  elsewhere : c.os.Elsewhere ps c'.os
  others : c.os.Others fd c'.os
  records : ∀ x, x ≠ fd → Tree.lookup c'.gFileHandleTree x = Tree.lookup c.gFileHandleTree x

variable {res : ρ → FileResource com} {room : com.Roomy} {c c' c'' : Client}
  {s s' : SavedFiles ρ} {ps : List Path} {fd : ℤ} {i : ρ}

theorem Client.Confined.trans (h : c.Confined ps fd c') (h' : c'.Confined ps fd c'') :
    c.Confined ps fd c'' :=
  ⟨h.follows.trans h'.follows, h'.loop.trans h.loop, h.elsewhere.trans h'.elsewhere,
    h.others.trans h'.others, fun x hx => (h'.records x hx).trans (h.records x hx)⟩

theorem Client.Confined.of_os {os : Os} (h : c.os.Elsewhere ps os) (h' : c.os.Others fd os) :
    c.Confined ps fd { c with os } :=
  ⟨c.follows_os os, rfl, h, h', fun _ _ => rfl⟩

theorem Client.Confined.mono {qs : List Path} (h : c.Confined ps fd c') (hsub : ps ⊆ qs) :
    c.Confined qs fd c' :=
  ⟨h.follows, h.loop, h.elsewhere.mono hsub, h.others, h.records⟩

theorem FileResource.Keeps.elsewhere {r : FileResource com} {os os' : Os} {b : Option Bytes}
    (h : r.Keeps room os b) (helse : os.Elsewhere ps os')
    (hback : resolve (r.names room).backup ∉ ps) (hcsum : resolve (r.names room).csum ∉ ps) :
    r.Keeps room os' b :=
  ⟨(helse.content _ hback).trans h.1, (helse.content _ hcsum).trans h.2⟩

theorem FileResource.Keeps.orig {r : FileResource com} {os os' : Os} {b : Option Bytes}
    (h : r.Keeps room os b) (helse : os.Elsewhere [resolve (r.names room).orig] os') :
    r.Keeps room os' b :=
  h.elsewhere helse (by simpa using (r.names room).orig_ne_backup.symm)
    (by simpa using (r.names room).orig_ne_csum.symm)

/-- The descriptors of a resource stay where they are if only another one is used. -/
theorem Stands.confined {r : FileResource com} {x : ℤ} {pos : ℕ} {written : Bool}
    (h : Stands r room x pos written c) (hc : c.Confined ps fd c') (hne : x ≠ fd)
    (hnames : c'.os.fs.names (resolve (r.names room).orig) =
      c.os.fs.names (resolve (r.names room).orig)) : Stands r room x pos written c' := by
  obtain ⟨f, hf, hino, hrest⟩ := h.file
  obtain ⟨item, hitem, hrec⟩ := h.recorded
  constructor
  · exact ⟨f, hc.others x f hne hf, hnames.trans hino, hrest⟩
  · exact ⟨item, (hc.records x hne).trans hitem, hrec⟩

theorem Mirrors.confined (fam : Family res room) (h : Mirrors res room c s)
    (hc : c.Confined ((res i).files room) fd c') (hlocked : s'.locked = s.locked)
    (hdefaults : s'.defaults = s.defaults)
    (hothers : ∀ j, j ≠ i → s'.content j = s.content j ∧ s'.saved j = s.saved j)
    (hopened : ∀ x, x ≠ fd → s'.opened x = s.opened x)
    (hcontent : c'.os.content ((res i).names room).orig = s'.content i)
    (hsides : (res i).Keeps room c'.os (s'.saved i))
    (hheld : s'.saved i ≠ none → s'.content i ≠ none)
    (hnames : ∀ x k, x ≠ fd → s.opened x = some k → k.file = i →
      c'.os.fs.names (resolve ((res i).names room).orig) =
        c.os.fs.names (resolve ((res i).names room).orig))
    (hfd : ∀ k, s'.opened fd = some k → Stands (res k.file) room fd k.pos k.written c') :
    Mirrors res room c' s' := by
  have hapart : ∀ j, j ≠ i → ∀ p ∈ (res j).files room, p ∉ (res i).files room :=
    fun j hne => fam.apart j i hne
  constructor
  · exact fun j => (h.needs j).follows hc.follows
  · exact hc.follows.records h.records
  · rw [hlocked, h.locked, hc.loop]
  · intro j
    by_cases hj : j = i
    · rw [hj]
      exact hcontent
    · rw [(hothers j hj).1, ← h.content j]
      exact hc.elsewhere.content _ (hapart j hj _ List.mem_cons_self)
  · intro j
    rw [hdefaults, ← h.defaults j]
    exact defaultData_elsewhere hc.elsewhere (fam.defaults j i)
  · intro j
    by_cases hj : j = i
    · rw [hj]
      exact hsides
    · rw [(hothers j hj).2]
      refine (h.sides j).elsewhere hc.elsewhere (hapart j hj _ ?_) (hapart j hj _ ?_)
      · simp [FileResource.files]
      · simp [FileResource.files]
  · intro j
    by_cases hj : j = i
    · rw [hj]
      exact hheld
    · rw [(hothers j hj).1, (hothers j hj).2]
      exact h.held j
  · intro x k hx
    by_cases hxfd : x = fd
    · rw [hxfd] at hx ⊢
      exact hfd k hx
    · rw [hopened x hxfd] at hx
      apply (h.opened x k hx).confined hc hxfd
      by_cases hk : k.file = i
      · rw [hk]
        exact hnames x k hxfd hx hk
      · exact hc.elsewhere.names _ (hapart k.file hk _ List.mem_cons_self)

end Relation

section Calls

variable {res : ρ → FileResource com} {room : com.Roomy} {c : Client} {s : SavedFiles ρ}
  {fd : ℤ} {i : ρ} {k : Cursor ρ}

/-- The library answers a call as the files do, and leaves what they leave. -/
def Serves (res : ρ → FileResource com) (room : com.Roomy) (c : Client) (s : SavedFiles ρ)
    (call : AppCall ρ) : Prop :=
  s.Answers call (call.perform res c).1 ∧
    Mirrors res room (call.perform res c).2 (s.next (call, (call.perform res c).1))

omit [DecidableEq ρ] in
theorem Mirrors.data (h : Mirrors res room c s) {ino : ℕ}
    (hino : c.os.fs.names (resolve ((res i).names room).orig) = some ino) :
    s.content i = some (c.os.fs.data ino) ∧ s.data i = c.os.fs.data ino := by
  have hcontent : s.content i = some (c.os.fs.data ino) :=
    (h.content i).symm.trans (Fs.content_of_names hino)
  refine ⟨hcontent, ?_⟩
  rw [SavedFiles.data, hcontent, Option.getD_some]

omit [DecidableEq ρ] in
theorem Mirrors.same (h : Mirrors res room c s) {os : Os} (hsame : c.os.Same os) :
    Mirrors res room { c with os } s := by
  have hcontents : ∀ path, os.content path = c.os.content path := fun path =>
    congrArg (Fs.content · (resolve path)) hsame.fs
  refine ⟨fun i => (h.needs i).follows (c.follows_os os), h.records, h.locked,
    fun i => (hcontents _).trans (h.content i), fun i => ?_, fun i => ?_, h.held,
    fun fd k hopen => ?_⟩
  · rw [← h.defaults i]
    simp only [defaultData, hcontents]
  · exact ⟨(hcontents _).trans (h.sides i).1, (hcontents _).trans (h.sides i).2⟩
  · obtain ⟨f, hf, hino, hrest⟩ := (h.opened fd k hopen).file
    refine ⟨⟨f, ?_, ?_, hrest⟩, (h.opened fd k hopen).recorded⟩
    · rw [hsame.get]
      exact hf
    · rw [hsame.fs]
      exact hino

theorem Mirrors.moved (fam : Family res room) (h : Mirrors res room c s)
    (hopen : s.opened fd = some k) {os : Os} (hdisk : os.disk = c.os.disk)
    (hothers : c.os.Others fd os) {f : OpenFile} (hf : c.os.fds.get fd = some f) {n : ℕ}
    (hget : os.fds.get fd = some { f with offset := n }) :
    Mirrors res room { c with os } (s.place fd (some { k with pos := n })) := by
  have hfs : os.fs = c.os.fs := congrArg Logged.now hdisk
  have hcontents : ∀ path, os.content path = c.os.content path := fun path =>
    congrArg (Fs.content · (resolve path)) hfs
  obtain ⟨f', hf', hino, -, hread, hwrite⟩ := (h.opened fd k hopen).file
  rw [hf, Option.some.injEq] at hf'
  rw [← hf'] at hino hread hwrite
  have hc : c.Confined ((res k.file).files room) fd { c with os } := .of_os (.of_disk hdisk) hothers
  refine h.confined fam hc rfl rfl (fun _ _ => ⟨rfl, rfl⟩) (fun x hx => Function.update_of_ne hx _ _)
    ((hcontents _).trans (h.content k.file)) ⟨(hcontents _).trans (h.sides k.file).1,
      (hcontents _).trans (h.sides k.file).2⟩ (h.held k.file) (fun _ _ _ _ _ => ?_) fun k' hk => ?_
  · rw [hfs]
  · rw [SavedFiles.place_opened, if_pos rfl, Option.some.injEq] at hk
    rw [← hk]
    refine ⟨⟨_, hget, ?_, rfl, hread, hwrite⟩, (h.opened fd k hopen).recorded⟩
    rw [hfs]
    exact hino

theorem lseek_target {os : Os} {f : OpenFile} (hf : os.fds.get fd = some f) (offset : ℤ)
    (whence : Whence) :
    os.lseek fd offset whence =
      if seekTarget f.offset (os.fs.data f.ino).length offset whence < 0 then (-1, os.fail .other)
      else (seekTarget f.offset (os.fs.data f.ino).length offset whence,
        os.setFile fd { f with
          offset := (seekTarget f.offset (os.fs.data f.ino).length offset whence).toNat }) := by
  unfold Os.lseek
  rw [hf]
  cases whence <;> rfl

theorem Mirrors.seek (fam : Family res room) (h : Mirrors res room c s)
    (hopen : s.opened fd = some k) (offset : ℤ) (whence : Whence) :
    Serves res room c s (.seek fd offset whence) := by
  obtain ⟨f, hf, hino, hpos, -⟩ := (h.opened fd k hopen).file
  have hdata := (h.data hino).2
  have hinit := (h.needs k.file).initialized
  unfold Serves
  by_cases hlocked : Locked c.loop
  · have hs : s.locked = true := h.locked.trans (decide_eq_true hlocked)
    have hperform : AppCall.perform res c (.seek fd offset whence) = ((epersLockfs, none), c) := by
      simp only [AppCall.perform, pclFileSeek, if_pos hinit, if_neg (not_not.mpr hlocked)]
    rw [hperform]
    simp only [SavedFiles.Answers, SavedFiles.reply, SavedFiles.next, hopen, hs, Option.map_some,
      if_true, true_or]
    exact ⟨trivial, h⟩
  · have hs : s.locked = false := h.locked.trans (decide_eq_false hlocked)
    have hperform : AppCall.perform res c (.seek fd offset whence) =
        ((int (c.os.lseek fd offset whence).1, none),
          { c with os := (c.os.lseek fd offset whence).2 }) := by
      simp only [AppCall.perform, pclFileSeek, if_pos hinit, if_pos hlocked]
    rw [hperform, lseek_target hf]
    simp only [SavedFiles.Answers, SavedFiles.reply, SavedFiles.next, hopen, hs, Option.map_some,
      hdata, ← hpos, Bool.false_eq_true, if_false, false_or]
    split
    · exact ⟨rfl, h.same ⟨rfl, rfl⟩⟩
    · have hnonneg := (FdTable.nonneg_of_get hf).1
      have hdisk : ∀ g, (c.os.setFile fd g).disk = c.os.disk := fun g => rfl
      have hothers : ∀ g, c.os.Others fd (c.os.setFile fd g) := fun g =>
        .of_get fun x hx => Os.setFile_spares hnonneg hx.symm g
      refine ⟨rfl, h.moved fam hopen (hdisk _) (hothers _) hf ?_⟩
      rw [Os.get_setFile hnonneg, Function.update_self]

theorem Mirrors.read (fam : Family res room) (h : Mirrors res room c s)
    (hopen : s.opened fd = some k) (count : ℕ) : Serves res room c s (.read fd count) := by
  obtain ⟨f, hf, hino, hpos, hreadable, -⟩ := (h.opened fd k hopen).file
  have hdata := (h.data hino).2
  have hinit := (h.needs k.file).initialized
  obtain ⟨os', heq, hdisk, hget⟩ := Os.read_readable hf hreadable count
  have hperform : AppCall.perform res c (.read fd count) =
      ((((chunkAt (s.data k.file) k.pos count).length : ℤ),
        some (chunkAt (s.data k.file) k.pos count)), { c with os := os' }) := by
    simp only [AppCall.perform, pclFileReadData, if_pos hinit, heq, hdata, ← hpos, chunkAt,
      Option.map_some, Option.getD_some]
  unfold Serves
  rw [hperform]
  simp only [SavedFiles.Answers, SavedFiles.reply, SavedFiles.next, hopen, Option.map_some]
  refine ⟨trivial, h.moved fam hopen hdisk ?_ hf ?_⟩
  · apply Os.Others.of_get
    intro x hx
    rw [hget, Function.update_of_ne hx]
  · rw [hget, Function.update_self, hdata, ← hpos]
    rfl

theorem Mirrors.size (h : Mirrors res room c s) (hopen : s.opened fd = some k) :
    Serves res room c s (.size fd) := by
  obtain ⟨f, hf, hino, -⟩ := (h.opened fd k hopen).file
  have hinit := (h.needs k.file).initialized
  have hstat : c.os.fstat fd = some (s.data k.file).length := by
    rw [Os.fstat, hf, Option.map_some, (h.data hino).2]
  have hperform : AppCall.perform res c (.size fd) = ((int (s.data k.file).length, none), c) := by
    rw [AppCall.perform, pclFileGetSize, if_pos hinit, hstat, Option.map_some, Option.getD_some]
  unfold Serves
  rw [hperform]
  simp only [SavedFiles.Answers, SavedFiles.reply, SavedFiles.next, hopen, Option.map_some]
  exact ⟨trivial, h⟩

end Calls

end PersClient.File
