import PersClient.Key.Executed
import PersClient.Key.Sequences
import PersClient.Key.TableCache

/-! # The store behind local and shared keys

To an application the databases are one store of entries by file and key. A
resource has places in it: its own entry, a configurable and a factory default,
and the place its writes go to. What a call may answer and do to the store is
told by these places and by the entries in them.
-/

namespace PersClient.Key

open File Handle Access Prct

section Store

abbrev Volume := CStr → CStr → Option Bytes

structure Place where
  file : Option CStr
  key : CStr

def Place.entry (place : Place) (v : Volume) : Option Bytes :=
  place.file.bind fun path => v path place.key

structure Shelf where
  own : Place
  configurable : Place
  factory : Place
  written : Place
  shared : Bool

/-- A buffer of this size takes these data. -/
def fits (size : ℤ) (data : Bytes) : Bool := data.length ≤ size

def Shelf.first (shelf : Shelf) (v : Volume) (takes : Bytes → Bool) : Option Bytes :=
  [shelf.own, shelf.configurable, shelf.factory].findSome? fun place =>
    (place.entry v).filter takes

def Shelf.Bare (shelf : Shelf) (v : Volume) : Prop := shelf.first v (fun _ => true) = none

/-- What the store may answer, and what it holds afterwards; `told` says whether
a change of a shared resource could be announced. -/
inductive Shelf.Answers (shelf : Shelf) (told : Bool) (v : Volume) :
    KeyAccess → ℤ × Bytes → Volume → Prop
  | shutRead (buffer : Bytes) (size : ℤ) : shelf.own.file = none →
      shelf.Answers told v (.read buffer size) (-1, buffer) v
  | read {data : Bytes} {r : ℤ × Bytes} (buffer : Bytes) (size : ℤ) :
      shelf.own.file.isSome → shelf.first v (fits size) = some data → Delivers r data →
      shelf.Answers told v (.read buffer size) r v
  | unread {r : ℤ × Bytes} (buffer : Bytes) (size : ℤ) :
      shelf.own.file.isSome → shelf.first v (fits size) = none → r.1 < 0 →
      (shelf.Bare v → r.1 = epersNokey) → shelf.Answers told v (.read buffer size) r v
  | shutSize : shelf.own.file = none → shelf.Answers told v .getSize (-1, []) v
  | size {data : Bytes} : shelf.own.file.isSome → shelf.first v (fun _ => true) = some data →
      shelf.Answers told v .getSize (data.length, []) v
  | unsized : shelf.own.file.isSome → shelf.Bare v →
      shelf.Answers told v .getSize (epersNokey, []) v
  | shutDelete : shelf.own.file = none → shelf.Answers told v .delete (epersNoprctable, []) v
  | delete {path : CStr} {n : ℤ} : shelf.own.file = some path →
      (if (shelf.own.entry v).isSome then 0 ≤ n else n = epersNokey) →
      shelf.Answers told v .delete (n, []) (setEntry v path shelf.own.key none)
  | refused {n : ℤ} (buffer : Bytes) (size : ℤ) : n < 0 →
      shelf.Answers told v (.write buffer size) (n, []) v
  | write {path : CStr} {n : ℤ} (buffer : Bytes) (size : ℤ) : shelf.written.file = some path →
      (0 ≤ n ∨ shelf.shared ∧ told = false ∧ n = epersNotifySig) →
      shelf.Answers told v (.write buffer size) (n, [])
        (setEntry v path shelf.written.key (some (buffer.take size.toNat)))

end Store

section Laws

variable {W : Type}

/-- What is seen of the world: the files of open databases, their entries and
the files of open resource tables. -/
structure StoreView (W : Type) where
  bound : W → ℤ → Option CStr
  data : W → Volume
  tableBound : W → ℤ → Option CStr

def StoreView.seen (V : StoreView W) (w : W) : Volume × (ℤ → Option CStr) :=
  (V.data w, V.tableBound w)

/-- The resource tables by file, or why they cannot be opened. -/
abbrev Tables := CStr → Except ℤ (CStr → Option PersistenceConfigurationKey)

/-- The databases of the plugin behave as one store of entries. -/
structure DatabaseLaws (plugin : Plugin W) (V : StoreView W) : Prop
    extends LookLaws plugin V.bound V.seen where
  read_loaded : plugin.persComDbReadKey.isSome = true
  size_loaded : plugin.persComDbGetKeySize.isSome = true
  delete_loaded : plugin.persComDbDeleteKey.isSome = true
  notFound_neg : plugin.persComErrNotFound < 0
  read : ∀ f, plugin.persComDbReadKey = some f → ∀ handle path key buffer size w d,
    V.bound w handle = some path → V.data w path key = some d →
      if fits size d then Delivers (f handle key buffer size w).1 d
      else (f handle key buffer size w).1.1 < 0
  read_missing : ∀ f, plugin.persComDbReadKey = some f → ∀ handle path key buffer size w,
    V.bound w handle = some path → V.data w path key = none →
      (f handle key buffer size w).1.1 = plugin.persComErrNotFound
  size : ∀ f, plugin.persComDbGetKeySize = some f → ∀ handle path key w d,
    V.bound w handle = some path → V.data w path key = some d → (f handle key w).1 = d.length
  size_missing : ∀ f, plugin.persComDbGetKeySize = some f → ∀ handle path key w,
    V.bound w handle = some path → V.data w path key = none →
      (f handle key w).1 = plugin.persComErrNotFound
  write : ∀ f, plugin.persComDbWriteKey = some f → ∀ handle path key buffer size w,
    V.bound w handle = some path → V.data (f handle key buffer size w).2 =
      if 0 ≤ (f handle key buffer size w).1 then
        setEntry (V.data w) path key (some (buffer.take size.toNat))
      else V.data w
  write_tables : ∀ f, plugin.persComDbWriteKey = some f → ∀ handle key buffer size w,
    V.tableBound (f handle key buffer size w).2 = V.tableBound w
  delete : ∀ f, plugin.persComDbDeleteKey = some f → ∀ handle path key w,
    V.bound w handle = some path →
      (if (V.data w path key).isSome then 0 ≤ (f handle key w).1
        else (f handle key w).1 = plugin.persComErrNotFound) ∧
      V.data (f handle key w).2 = setEntry (V.data w) path key none
  delete_tables : ∀ f, plugin.persComDbDeleteKey = some f → ∀ handle key w,
    V.tableBound (f handle key w).2 = V.tableBound w
  close_seen : ∀ f, plugin.persComDbClose = some f → ∀ handle w,
    V.seen (f handle w).2 = V.seen w

/-- The plugin opens and reads the resource tables that there are. -/
structure TableLaws (plugin : Plugin W) (V : StoreView W) (tables : Tables) : Prop where
  open_loaded : plugin.persComRctOpen.isSome = true
  read_loaded : plugin.persComRctRead.isSome = true
  opened : ∀ f, plugin.persComRctOpen = some f → ∀ path table flags w, tables path = .ok table →
    0 ≤ (f path flags w).1 ∧ V.tableBound w (f path flags w).1 = none ∧
      V.tableBound (f path flags w).2 =
        Function.update (V.tableBound w) (f path flags w).1 (some path)
  notOpened : ∀ f, plugin.persComRctOpen = some f → ∀ path error flags w,
    tables path = .error error → error < 0 ∧ (f path flags w).1 = error ∧
      V.tableBound (f path flags w).2 = V.tableBound w
  open_data : ∀ f, plugin.persComRctOpen = some f → ∀ path flags w,
    V.data (f path flags w).2 = V.data w
  read : ∀ f, plugin.persComRctRead = some f → ∀ handle path table id w,
    V.tableBound w handle = some path → tables path = .ok table → (f handle id w).1 = table id
  read_seen : ∀ f, plugin.persComRctRead = some f → ∀ handle id w,
    V.seen (f handle id w).2 = V.seen w

end Laws

section Homes

variable {W : Type} (S : Setup W)

def Get.home (w : W) (g : Get) : Option CStr :=
  if arrayIdx S.com g.info < dbTableSize then
    (databaseFile S.com g.dbType).bind fun (name, flags) =>
      S.plugin.persComDbOpen.bind fun dbOpen =>
        let path := snprintf S.com.maxLengthPathFilename (g.dbPath ++ name)
        if 0 ≤ (dbOpen path flags w).1 then some path else none
  else none

/-- Requests of these that have a slot in common have a file in common. -/
def Separate (R : Set Get) : Prop := ∀ g ∈ R, ∀ g' ∈ R, g.slot S = g'.slot S → g.file S = g'.file S

variable {S} {V : StoreView W} {w : W} {g g' : Get}

theorem Get.home_eq_some {path : CStr} (h : g.home S w = some path) :
    arrayIdx S.com g.info < dbTableSize ∧ g.file S = some path ∧
      ∃ name flags dbOpen, databaseFile S.com g.dbType = some (name, flags) ∧
        S.plugin.persComDbOpen = some dbOpen ∧ 0 ≤ (dbOpen path flags w).1 := by
  unfold Get.home at h
  split at h
  · rename_i hsize
    obtain ⟨⟨name, flags⟩, hfile, h⟩ := Option.bind_eq_some_iff.mp h
    obtain ⟨dbOpen, hopen, h⟩ := Option.bind_eq_some_iff.mp h
    dsimp only at h
    split at h
    · rename_i hpos
      cases h
      exact ⟨hsize, by rw [Get.file, hfile]; rfl, name, flags, dbOpen, hfile, hopen, hpos⟩
    · cases h
  · cases h

theorem Get.home_of_open {path name : CStr} {flags : UInt8} {dbOpen : CStr → UInt8 → W → ℤ × W}
    (hsize : arrayIdx S.com g.info < dbTableSize) (hpath : g.file S = some path)
    (hfile : databaseFile S.com g.dbType = some (name, flags))
    (hopen : S.plugin.persComDbOpen = some dbOpen) :
    g.home S w = if 0 ≤ (dbOpen path flags w).1 then some path else none := by
  have hpath' : snprintf S.com.maxLengthPathFilename (g.dbPath ++ name) = path := by
    rw [Get.file, hfile] at hpath
    exact Option.some.inj hpath
  rw [Get.home, if_pos hsize, hfile, hopen]
  simp only [Option.bind_some, hpath']

theorem Get.home_congr (laws : LookLaws S.plugin V.bound V.seen) (w w' : W) (g : Get) :
    g.home S w = g.home S w' := by
  have hle : ∀ w w' path, g.home S w = some path → g.home S w' = some path := by
    intro w w' path hhome
    obtain ⟨hsize, hpath, name, flags, dbOpen, hfile, hopen, hpos⟩ := Get.home_eq_some hhome
    rw [Get.home_of_open hsize hpath hfile hopen]
    exact if_pos (laws.open_alike dbOpen hopen path flags w w' hpos)
  ext path
  exact ⟨hle w w' path, hle w' w path⟩

theorem Get.home_of_file (hslot : g.slot S = g'.slot S) (hfile : g.file S = g'.file S) (w : W) :
    g.home S w = g'.home S w := by
  have hidx : arrayIdx S.com g.info = arrayIdx S.com g'.info := congrArg Prod.fst hslot
  have htype : g.dbType = g'.dbType := congrArg Prod.snd hslot
  cases hnames : databaseFile S.com g'.dbType with
  | none => simp only [Get.home, htype, hnames, hidx, Option.bind_none]
  | some names =>
    obtain ⟨name, flags⟩ := names
    rw [Get.file, Get.file, htype, hnames] at hfile
    rw [Get.home, Get.home, htype, hnames, hidx]
    simp only [Option.bind_some, Option.some.inj hfile]

end Homes

end PersClient.Key
