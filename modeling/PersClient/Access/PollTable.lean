import Mathlib.Data.Multiset.Basic
import Mathlib.Data.List.Nodup
import PersClient.Lib.Steps

/-! # The poll table of the main loop

`dbus_service.c`: the main loop polls the pipe and what libdbus asks it to watch.
Two arrays of ten hold the descriptors and the objects they belong to. A watch
that is removed or switched off stays in them, and a new entry adds its events
to those its place held before.
-/

namespace PersClient.Access

open Steps Function

inductive DBusObjectType
  | none
  | watch
  | timeout
  deriving DecidableEq, Repr

/-- `tObjectEntry`. The watch and the timeout are one pointer. -/
structure ObjectEntry where
  objtype : DBusObjectType := .none
  object : ℕ := 0
  deriving DecidableEq, Repr

/-- `struct pollfd` without the events that came. -/
structure PollFd where
  fd : ℤ := 0
  events : UInt16 := 0
  deriving DecidableEq, Repr

def arraySize : ℕ := 10

def pollin : UInt16 := 0x001

def pollout : UInt16 := 0x004

structure PollInfo where
  nfds : ℕ
  fds : ℕ → PollFd
  objects : ℕ → ObjectEntry

structure DBusWatch where
  unixFd : ℤ
  flags : UInt32
  enabled : Bool
  deriving DecidableEq, Repr

structure DBusTimeout where
  interval : ℤ
  enabled : Bool
  deriving DecidableEq, Repr

section Source

def orEvents (events : UInt16) (flags : UInt32) : UInt16 :=
  let events := if flags &&& 1 ≠ 0 then events ||| pollin else events
  if flags &&& 2 ≠ 0 then events ||| pollout else events

def addWatch (address : ℕ) (watch : DBusWatch) (t : PollInfo) : Bool × PollInfo :=
  if t.nfds < arraySize then
    let objects := update t.objects t.nfds ⟨.watch, address⟩
    let entry := { t.fds t.nfds with fd := watch.unixFd }
    if watch.enabled then
      let entry := { entry with events := orEvents entry.events watch.flags }
      (true, { nfds := t.nfds + 1, fds := update t.fds t.nfds entry, objects })
    else (true, { t with fds := update t.fds t.nfds entry, objects })
  else (false, t)

/-- `removeWatch` frees the data of the watch, which has none, and leaves the table. -/
def removeWatch (t : PollInfo) : PollInfo := t

def watchToggled (address : ℕ) (watch : DBusWatch) (t : PollInfo) : PollInfo :=
  if watch.enabled then (addWatch address watch t).2 else removeWatch t

/-- `addTimeout`, with what `timerfd_create` and `timerfd_settime` give. -/
def addTimeout (address : ℕ) (timeout : DBusTimeout) (tfd settime : ℤ) (t : PollInfo) :
    Bool × PollInfo :=
  if t.nfds < arraySize then
    if 0 < timeout.interval ∧ timeout.enabled then
      if tfd ≠ -1 then
        if settime ≠ -1 then
          let entry := { fd := tfd, events := (t.fds t.nfds).events ||| pollin }
          (true,
            { nfds := t.nfds + 1
              fds := update t.fds t.nfds entry
              objects := update t.objects t.nfds ⟨.timeout, address⟩ })
        else (false, t)
      else (false, t)
    else (false, t)
  else (false, t)

/-- The search for a timeout from the end; the first entry is never found. -/
def findTimeout (objects : ℕ → ObjectEntry) (address : ℕ) : ℕ → Option ℕ
  | 0 => none
  | i + 1 =>
    if (objects i).object = address then (if 0 < i then some i else none)
    else findTimeout objects address i

def closeGap : ℕ → ℕ → PollInfo → PollInfo
  | 0, _, t => t
  | count + 1, i, t =>
    closeGap count (i + 1)
      { t with
        fds := update t.fds i (t.fds (i + 1))
        objects := update t.objects i (t.objects (i + 1)) }

/-- `removeTimeout`; whether the descriptor can be closed is only logged. -/
def removeTimeout (address : ℕ) (t : PollInfo) : PollInfo :=
  match findTimeout t.objects address t.nfds with
  | none => t
  | some i =>
    let nfds := t.nfds - 1
    let t := closeGap (nfds - i) i { t with nfds }
    { t with
      fds := update t.fds nfds { t.fds nfds with fd := -1 }
      objects := update t.objects nfds { t.objects nfds with objtype := .none } }

end Source

section Bus

/-- A watch or timeout libdbus has added, with the descriptor of a timeout's timer. -/
inductive BusObject
  | watch (watch : DBusWatch)
  | timeout (timeout : DBusTimeout) (tfd : ℤ)
  deriving DecidableEq, Repr

def BusObject.enabled : BusObject → Bool
  | .watch w => w.enabled
  | .timeout t _ => t.enabled

/-- The table, and what libdbus has added to it, each with its address. -/
structure Bus where
  table : PollInfo
  added : List (ℕ × BusObject)

/-- A callback, with what it is told. -/
inductive BusEvent
  | addWatch (address : ℕ) (watch : DBusWatch)
  | removeWatch (address : ℕ)
  | watchToggled (address : ℕ)
  | addTimeout (address : ℕ) (timeout : DBusTimeout) (tfd settime : ℤ)
  | removeTimeout (address : ℕ)
  deriving DecidableEq, Repr

def without (address : ℕ) (added : List (ℕ × BusObject)) : List (ℕ × BusObject) :=
  added.filter fun p => p.1 ≠ address

def replaced (address : ℕ) (object : BusObject) (added : List (ℕ × BusObject)) :
    List (ℕ × BusObject) :=
  added.map fun p => if p.1 = address then (address, object) else p

/-- A callback with what libdbus does about it: an object counts as added if
the callback says so, and a watch is toggled when its state has changed. -/
def busStep (s : Bus) : BusEvent → Bus
  | .addWatch address watch =>
    let (result, table) := addWatch address watch s.table
    { table, added := if result then s.added ++ [(address, .watch watch)] else s.added }
  | .removeWatch address =>
    { table := removeWatch s.table, added := without address s.added }
  | .watchToggled address =>
    match s.added.lookup address with
    | some (.watch watch) =>
      let watch := { watch with enabled := !watch.enabled }
      { table := watchToggled address watch s.table
        added := replaced address (.watch watch) s.added }
    | _ => s
  | .addTimeout address timeout tfd settime =>
    let (result, table) := addTimeout address timeout tfd settime s.table
    { table, added := if result then s.added ++ [(address, .timeout timeout tfd)] else s.added }
  | .removeTimeout address =>
    { table := removeTimeout address s.table, added := without address s.added }

def Bus.enabled (s : Bus) : List (ℕ × BusObject) := s.added.filter fun p => p.2.enabled

/-- The promises of libdbus: an object is added once before it is toggled or
removed, two objects have two addresses, and at most nine are enabled at once. -/
def Promised (s : Bus) (e : BusEvent) : Prop :=
  (match e with
    | .addWatch address _ | .addTimeout address _ _ _ => ∀ p ∈ s.added, p.1 ≠ address
    | .removeWatch address | .watchToggled address => ∃ watch, (address, .watch watch) ∈ s.added
    | .removeTimeout address => ∃ timeout tfd, (address, .timeout timeout tfd) ∈ s.added) ∧
  (busStep s e).enabled.length ≤ 9

/-- The table `setup_dbus_mainloop` leaves, with the pipe in its first entry. -/
def Bus.start (pipe : ℤ) : Bus where
  table := { nfds := 1, fds := update (fun _ => {}) 0 ⟨pipe, pollin⟩, objects := fun _ => {} }
  added := []

end Bus

section Purpose

structure Polled where
  objtype : DBusObjectType
  object : ℕ
  fd : ℤ
  events : UInt16
  deriving DecidableEq, Repr

def PollInfo.entry (t : PollInfo) (i : ℕ) : Polled where
  objtype := (t.objects i).objtype
  object := (t.objects i).object
  fd := (t.fds i).fd
  events := (t.fds i).events

/-- The entries behind the one of the pipe. -/
def PollInfo.entries (t : PollInfo) : List Polled :=
  (List.range (t.nfds - 1)).map fun i => t.entry (i + 1)

def polledAs (p : ℕ × BusObject) : Polled :=
  match p.2 with
  | .watch watch => ⟨.watch, p.1, watch.unixFd, orEvents 0 watch.flags⟩
  | .timeout _ tfd => ⟨.timeout, p.1, tfd, pollin⟩

/-- The pipe is first, and the entries behind it are those of the objects that
are added and enabled, each once. -/
structure PollsEnabled (pipe : ℤ) (s : Bus) : Prop where
  first : 1 ≤ s.table.nfds
  bounded : s.table.nfds ≤ arraySize
  pipe : s.table.entry 0 = ⟨.none, 0, pipe, pollin⟩
  entries : s.table.entries.Perm (s.enabled.map polledAs)
  once : (s.table.entries.map Polled.object).Nodup

end Purpose

section Entries

variable {t : PollInfo} {address : ℕ}

theorem orEvents_eq (events : UInt16) (flags : UInt32) :
    orEvents events flags = events ||| orEvents 0 flags := by
  unfold orEvents
  split <;> split <;> simp [UInt16.or_assoc]

/-- The events in the place of the next entry are among those it asks for. -/
def PollInfo.Fresh (t : PollInfo) (events : UInt16) : Prop :=
  (t.fds t.nfds).events ||| events = events

theorem entries_length (t : PollInfo) : t.entries.length = t.nfds - 1 := by
  rw [PollInfo.entries, List.length_map, List.length_range]

theorem entries_getElem {i : ℕ} (h : i < t.entries.length) : t.entries[i] = t.entry (i + 1) := by
  simp [PollInfo.entries]

theorem entries_push (hfirst : 1 ≤ t.nfds) {fd : PollFd} {object : ObjectEntry} :
    PollInfo.entries
        { nfds := t.nfds + 1
          fds := update t.fds t.nfds fd
          objects := update t.objects t.nfds object } =
      t.entries ++ [⟨object.objtype, object.object, fd.fd, fd.events⟩] := by
  unfold PollInfo.entries
  dsimp only
  rw [show t.nfds + 1 - 1 = t.nfds - 1 + 1 by omega, List.range_succ, List.map_append,
    List.map_singleton]
  congr 1
  · refine List.map_congr_left fun i hi => ?_
    have hne : i + 1 ≠ t.nfds := by
      have := List.mem_range.mp hi
      omega
    simp [PollInfo.entry, update_of_ne hne]
  · rw [show t.nfds - 1 + 1 = t.nfds by omega]
    simp [PollInfo.entry]

theorem entries_behind {n : ℕ} (hn : t.nfds = n) {fd : PollFd} {object : ObjectEntry} :
    PollInfo.entries
        { t with
          fds := update t.fds n fd
          objects := update t.objects n object } = t.entries := by
  subst hn
  unfold PollInfo.entries
  refine List.map_congr_left fun i hi => ?_
  have hne : i + 1 ≠ t.nfds := by
    have : i < t.nfds - 1 := List.mem_range.mp hi
    omega
  simp [PollInfo.entry, update_of_ne hne]

theorem closeGap_nfds (count i : ℕ) : (closeGap count i t).nfds = t.nfds := by
  induction count generalizing i t with
  | zero => rfl
  | succ count ih => rw [closeGap, ih]

theorem closeGap_entry (count i j : ℕ) :
    (closeGap count i t).entry j =
      if i ≤ j ∧ j < i + count then t.entry (j + 1) else t.entry j := by
  induction count generalizing i t with
  | zero => rw [closeGap, if_neg (by omega)]
  | succ count ih =>
    have hmoved : ∀ j, PollInfo.entry { t with
        fds := update t.fds i (t.fds (i + 1))
        objects := update t.objects i (t.objects (i + 1)) } j =
        if j = i then t.entry (i + 1) else t.entry j := by
      intro j
      by_cases hj : j = i
      · subst hj
        simp [PollInfo.entry]
      · simp [PollInfo.entry, hj]
    rw [closeGap, ih, hmoved, hmoved]
    split_ifs <;> first | rfl | omega | (subst j; rfl)

theorem findTimeout_some {objects : ℕ → ObjectEntry} {n i : ℕ}
    (h : findTimeout objects address n = some i) :
    0 < i ∧ i < n ∧ (objects i).object = address := by
  induction n with
  | zero => cases h
  | succ n ih =>
    unfold findTimeout at h
    split at h
    · rename_i hfound
      split at h
      · rename_i hpos
        cases h
        exact ⟨hpos, Nat.lt_succ_self _, hfound⟩
      · cases h
    · obtain ⟨hpos, hlt, hfound⟩ := ih h
      exact ⟨hpos, Nat.lt_succ_of_lt hlt, hfound⟩

theorem findTimeout_none {objects : ℕ → ObjectEntry} {n : ℕ}
    (h : findTimeout objects address n = none) {i : ℕ} (hpos : 0 < i) (hlt : i < n) :
    (objects i).object ≠ address := by
  induction n with
  | zero => exact absurd hlt (Nat.not_lt_zero _)
  | succ n ih =>
    unfold findTimeout at h
    split at h
    · split at h
      · cases h
      · omega
    · rename_i hother
      rcases Nat.lt_succ_iff_lt_or_eq.mp hlt with hlt | rfl
      · exact ih h hlt
      · exact hother

theorem eraseIdx_eq_filter {α β : Type*} [DecidableEq β] {f : α → β} {l : List α}
    (h : (l.map f).Nodup) {i : ℕ} (hi : i < l.length) :
    l.eraseIdx i = l.filter fun x => f x ≠ f l[i] := by
  induction l generalizing i with
  | nil => exact absurd hi (Nat.not_lt_zero _)
  | cons a l ih =>
    rw [List.map_cons, List.nodup_cons] at h
    cases i with
    | zero =>
      have hself : l.filter (fun x => f x ≠ f a) = l := by
        refine List.filter_eq_self.mpr fun x hx => decide_eq_true fun heq => ?_
        exact h.1 (heq ▸ List.mem_map_of_mem hx)
      rw [List.eraseIdx_cons_zero, List.getElem_cons_zero, List.filter_cons_of_neg (by simp), hself]
    | succ i =>
      have hi' : i < l.length := Nat.lt_of_succ_lt_succ hi
      have hne : f a ≠ f l[i] := fun heq => h.1 (heq ▸ List.mem_map_of_mem (List.getElem_mem hi'))
      rw [List.eraseIdx_cons_succ, ih h.2 hi', List.getElem_cons_succ,
        List.filter_cons_of_pos (by simpa using hne)]

theorem removeTimeout_entries (honce : (t.entries.map Polled.object).Nodup) :
    (removeTimeout address t).entries = t.entries.filter fun e => e.object ≠ address := by
  unfold removeTimeout
  split
  · rename_i hnone
    refine (List.filter_eq_self.mpr fun e he => ?_).symm
    obtain ⟨i, hi, rfl⟩ := List.mem_map.mp he
    have hlt : i < t.nfds - 1 := List.mem_range.mp hi
    exact decide_eq_true (findTimeout_none hnone (Nat.succ_pos i) (by omega))
  · rename_i i hsome
    obtain ⟨hpos, hlt, hfound⟩ := findTimeout_some hsome
    have hi : i - 1 < t.entries.length := by
      rw [entries_length]
      omega
    have hobject : t.entries[i - 1].object = address := by
      rw [entries_getElem, Nat.sub_add_cancel hpos]
      exact hfound
    have herase := eraseIdx_eq_filter honce hi
    rw [hobject] at herase
    rw [← herase]
    dsimp only
    have hnfds : (closeGap (t.nfds - 1 - i) i { t with nfds := t.nfds - 1 }).nfds = t.nfds - 1 :=
      closeGap_nfds _ _
    refine (entries_behind hnfds).trans ?_
    refine List.ext_getElem ?_ fun j hj hj' => ?_
    · rw [entries_length, hnfds, List.length_eraseIdx_of_lt hi, entries_length]
    · rw [entries_length, hnfds] at hj
      rw [entries_getElem, closeGap_entry, List.getElem_eraseIdx]
      split_ifs with hmoved hbefore hbefore
      · omega
      · rw [entries_getElem]
        rfl
      · rw [entries_getElem]
        rfl
      · omega

end Entries

section Table

variable {t t' : PollInfo} {address : ℕ}

structure SamePolled (t t' : PollInfo) : Prop where
  nfds : t'.nfds = t.nfds
  zero : 1 ≤ t.nfds → t'.entry 0 = t.entry 0
  entries : t'.entries = t.entries

structure PolledToo (t t' : PollInfo) (e : Polled) : Prop where
  room : t.nfds < arraySize
  nfds : t'.nfds = t.nfds + 1
  zero : 1 ≤ t.nfds → t'.entry 0 = t.entry 0
  entries : 1 ≤ t.nfds → t'.entries = t.entries ++ [e]

theorem entry_zero {n : ℕ} {fd : PollFd} {object : ObjectEntry} (hfirst : 1 ≤ t.nfds) :
    PollInfo.entry
        { nfds := n
          fds := update t.fds t.nfds fd
          objects := update t.objects t.nfds object } 0 = t.entry 0 := by
  have hne : 0 ≠ t.nfds := by omega
  simp [PollInfo.entry, update_of_ne hne]

theorem addWatch_full (watch : DBusWatch) (h : ¬ t.nfds < arraySize) :
    addWatch address watch t = (false, t) := by
  unfold addWatch
  rw [if_neg h]

theorem addWatch_disabled (address : ℕ) {watch : DBusWatch} (hroom : t.nfds < arraySize)
    (h : watch.enabled = false) :
    (addWatch address watch t).1 = true ∧ SamePolled t (addWatch address watch t).2 := by
  unfold addWatch
  simp only [hroom, h, if_true, Bool.false_eq_true, if_false, true_and]
  exact ⟨rfl, entry_zero, entries_behind rfl⟩

theorem addWatch_enabled (address : ℕ) {watch : DBusWatch} (hroom : t.nfds < arraySize)
    (h : watch.enabled = true) :
    (addWatch address watch t).1 = true ∧ PolledToo t (addWatch address watch t).2
      ⟨.watch, address, watch.unixFd, orEvents (t.fds t.nfds).events watch.flags⟩ := by
  unfold addWatch
  simp only [hroom, h, if_true, true_and]
  exact ⟨hroom, rfl, entry_zero, fun hfirst => entries_push hfirst⟩

def Armed (timeout : DBusTimeout) (tfd settime : ℤ) : Prop :=
  (0 < timeout.interval ∧ timeout.enabled) ∧ tfd ≠ -1 ∧ settime ≠ -1

theorem addTimeout_armed (address : ℕ) {timeout : DBusTimeout} {tfd settime : ℤ}
    (hroom : t.nfds < arraySize) (h : Armed timeout tfd settime) :
    (addTimeout address timeout tfd settime t).1 = true ∧
      PolledToo t (addTimeout address timeout tfd settime t).2
        ⟨.timeout, address, tfd, (t.fds t.nfds).events ||| pollin⟩ := by
  obtain ⟨hwanted, hmade, hset⟩ := h
  unfold addTimeout
  rw [if_pos hroom, if_pos hwanted, if_pos hmade, if_pos hset]
  exact ⟨rfl, hroom, rfl, entry_zero, fun hfirst => entries_push hfirst⟩

theorem addTimeout_refused {timeout : DBusTimeout} {tfd settime : ℤ}
    (h : ¬ (t.nfds < arraySize ∧ Armed timeout tfd settime)) :
    addTimeout address timeout tfd settime t = (false, t) := by
  unfold addTimeout
  split
  · rename_i hroom
    split
    · rename_i hwanted
      split
      · rename_i hmade
        split
        · rename_i hset
          exact absurd ⟨hroom, hwanted, hmade, hset⟩ h
        · rfl
      · rfl
    · rfl
  · rfl

theorem removeTimeout_nfds_le : (removeTimeout address t).nfds ≤ t.nfds := by
  unfold removeTimeout
  split
  · exact le_rfl
  · dsimp only
    rw [closeGap_nfds]
    exact Nat.sub_le _ _

theorem removeTimeout_first (h : 1 ≤ t.nfds) :
    1 ≤ (removeTimeout address t).nfds ∧ (removeTimeout address t).entry 0 = t.entry 0 := by
  unfold removeTimeout
  split
  · exact ⟨h, rfl⟩
  · rename_i i hsome
    obtain ⟨hpos, hlt, -⟩ := findTimeout_some hsome
    dsimp only
    rw [closeGap_nfds]
    refine ⟨show 1 ≤ t.nfds - 1 by omega, ?_⟩
    have hgap : (closeGap (t.nfds - 1 - i) i { t with nfds := t.nfds - 1 }).entry 0 = t.entry 0 := by
      rw [closeGap_entry, if_neg (by omega)]
      rfl
    have hne : 0 ≠ t.nfds - 1 := by omega
    rw [← hgap]
    simp [PollInfo.entry, update_of_ne hne]

end Table

section Added

variable {added : List (ℕ × BusObject)} {address : ℕ} {object : BusObject}

theorem added_split (hd : (added.map Prod.fst).Nodup) (h : (address, object) ∈ added) :
    ∃ l₁ l₂, added = l₁ ++ (address, object) :: l₂ ∧ without address added = l₁ ++ l₂ ∧
      (∀ o, replaced address o added = l₁ ++ (address, o) :: l₂) ∧
      added.lookup address = some object ∧ ∀ o, (address, o) ∈ added → o = object := by
  obtain ⟨l₁, l₂, rfl⟩ := List.append_of_mem h
  rw [List.map_append, List.map_cons, List.nodup_append, List.nodup_cons] at hd
  obtain ⟨-, ⟨hbehind, -⟩, hbefore⟩ := hd
  have h₁ : ∀ p ∈ l₁, p.1 ≠ address := fun p hp =>
    hbefore _ (List.mem_map_of_mem hp) _ List.mem_cons_self
  have h₂ : ∀ p ∈ l₂, p.1 ≠ address := by
    intro p hp heq
    have hmem : p.1 ∈ l₂.map Prod.fst := List.mem_map_of_mem hp
    exact hbehind (heq ▸ hmem)
  have hkeep : ∀ l : List (ℕ × BusObject), (∀ p ∈ l, p.1 ≠ address) → without address l = l :=
    fun l hl => List.filter_eq_self.mpr fun p hp => decide_eq_true (hl p hp)
  have hsame : ∀ o (l : List (ℕ × BusObject)), (∀ p ∈ l, p.1 ≠ address) → replaced address o l = l :=
    fun o l hl => (List.map_congr_left fun p hp => if_neg (hl p hp)).trans (List.map_id' l)
  refine ⟨l₁, l₂, rfl, ?_, ?_, ?_, ?_⟩
  · unfold without at hkeep ⊢
    rw [List.filter_append, hkeep l₁ h₁, List.filter_cons_of_neg (by simp), hkeep l₂ h₂]
  · intro o
    unfold replaced at hsame ⊢
    rw [List.map_append, hsame o l₁ h₁, List.map_cons, if_pos rfl, hsame o l₂ h₂]
  · rw [List.lookup_eq_some_iff]
    exact ⟨l₁, l₂, rfl, fun p hp => bne_iff_ne.mpr (h₁ p hp).symm⟩
  · intro o ho
    rcases List.mem_append.mp ho with ho | ho
    · exact absurd rfl (h₁ _ ho)
    · rcases List.mem_cons.mp ho with heq | ho
      · exact (Prod.mk.injEq _ _ _ _ ▸ heq).2
      · exact absurd rfl (h₂ _ ho)

end Added

section Step

variable {pipe : ℤ} {s : Bus} {t : PollInfo} {added : List (ℕ × BusObject)} {address : ℕ}

def Bus.Distinct (s : Bus) : Prop := (s.added.map Prod.fst).Nodup

/-- The condition on a callback: it neither removes nor switches off a watch
that is enabled, and an entry it makes finds no other events in its place. -/
def Keeps (s : Bus) : BusEvent → Prop
  | .addWatch _ watch =>
    watch.enabled → s.table.nfds < arraySize → s.table.Fresh (orEvents 0 watch.flags)
  | .removeWatch address => ∀ watch, (address, .watch watch) ∈ s.added → watch.enabled = false
  | .watchToggled address =>
    ∀ watch, (address, .watch watch) ∈ s.added →
      watch.enabled = false ∧ s.table.Fresh (orEvents 0 watch.flags)
  | .addTimeout _ timeout tfd settime =>
    Armed timeout tfd settime → s.table.nfds < arraySize → s.table.Fresh pollin
  | .removeTimeout _ => True

theorem polledAs_object (p : ℕ × BusObject) : (polledAs p).object = p.1 := by
  unfold polledAs
  split <;> rfl

theorem map_polledAs_object (l : List (ℕ × BusObject)) :
    (l.map polledAs).map Polled.object = l.map Prod.fst := by
  rw [List.map_map]
  exact List.map_congr_left fun p _ => polledAs_object p

theorem once_of_perm (hd : (added.map Prod.fst).Nodup)
    (h : t.entries.Perm ((added.filter fun p => p.2.enabled).map polledAs)) :
    (t.entries.map Polled.object).Nodup := by
  rw [(h.map Polled.object).nodup_iff, map_polledAs_object]
  exact hd.sublist (List.filter_sublist.map Prod.fst)

theorem perm_concat_iff {α : Type*} {l m : List α} (h : l.Perm m) {x y : α} :
    (l ++ [x]).Perm (y :: m) ↔ x = y := by
  have hl : (l ++ [x]).Perm (x :: m) := (List.perm_append_singleton x l).trans (h.cons x)
  constructor
  · intro hperm
    have hmulti : x ::ₘ (m : Multiset α) = y ::ₘ (m : Multiset α) :=
      Multiset.coe_eq_coe.mpr (hl.symm.trans hperm)
    exact (Multiset.cons_inj_left _).mp hmulti
  · rintro rfl
    exact hl

theorem PollsEnabled.same_iff (h : PollsEnabled pipe s) (hd : (added.map Prod.fst).Nodup)
    (hsame : SamePolled s.table t) :
    PollsEnabled pipe ⟨t, added⟩ ↔
      (s.enabled.map polledAs).Perm ((added.filter fun p => p.2.enabled).map polledAs) := by
  constructor
  · intro h'
    exact h.entries.symm.trans (hsame.entries ▸ h'.entries)
  · intro hperm
    have hentries : t.entries.Perm ((added.filter fun p => p.2.enabled).map polledAs) :=
      hsame.entries ▸ h.entries.trans hperm
    exact ⟨hsame.nfds ▸ h.first, hsame.nfds ▸ h.bounded, (hsame.zero h.first).trans h.pipe, hentries,
      once_of_perm hd hentries⟩

theorem PollsEnabled.too_iff (h : PollsEnabled pipe s) (hd : (added.map Prod.fst).Nodup)
    {e : Polled} (htoo : PolledToo s.table t e) {p : ℕ × BusObject}
    (hp : (added.filter fun p => p.2.enabled).Perm (p :: s.enabled)) :
    PollsEnabled pipe ⟨t, added⟩ ↔ e = polledAs p := by
  have hspec : ((added.filter fun p => p.2.enabled).map polledAs).Perm
      (polledAs p :: s.enabled.map polledAs) := hp.map polledAs
  rw [← perm_concat_iff h.entries]
  constructor
  · intro h'
    have hentries := h'.entries
    unfold Bus.enabled at hentries
    rw [htoo.entries h.first] at hentries
    exact hentries.trans hspec
  · intro hperm
    have hentries : t.entries.Perm ((added.filter fun p => p.2.enabled).map polledAs) :=
      htoo.entries h.first ▸ hperm.trans hspec.symm
    refine ⟨?_, ?_, (htoo.zero h.first).trans h.pipe, hentries, once_of_perm hd hentries⟩
    · exact htoo.nfds ▸ Nat.succ_pos _
    · exact htoo.nfds ▸ htoo.room

theorem Bus.Distinct.concat (hd : s.Distinct) (hnew : ∀ p ∈ s.added, p.1 ≠ address)
    (object : BusObject) : ((s.added ++ [(address, object)]).map Prod.fst).Nodup := by
  rw [List.map_append, List.nodup_append]
  refine ⟨hd, List.nodup_singleton _, fun a ha b hb => ?_⟩
  obtain ⟨p, hp, rfl⟩ := List.mem_map.mp ha
  exact (List.mem_singleton.mp hb) ▸ hnew p hp

theorem Bus.Distinct.without (hd : s.Distinct) (address : ℕ) :
    ((without address s.added).map Prod.fst).Nodup :=
  hd.sublist (List.filter_sublist.map Prod.fst)

theorem Bus.Distinct.replaced (hd : s.Distinct) (address : ℕ) (object : BusObject) :
    ((Access.replaced address object s.added).map Prod.fst).Nodup := by
  have hfst : (Access.replaced address object s.added).map Prod.fst = s.added.map Prod.fst := by
    unfold Access.replaced
    rw [List.map_map]
    refine List.map_congr_left fun p _ => ?_
    rw [Function.comp_apply]
    split
    · rename_i heq
      exact heq.symm
    · rfl
  rw [hfst]
  exact hd

theorem busStep_addWatch (s : Bus) (address : ℕ) (watch : DBusWatch) :
    busStep s (.addWatch address watch) = ⟨(addWatch address watch s.table).2,
      if (addWatch address watch s.table).1 then s.added ++ [(address, .watch watch)]
      else s.added⟩ := rfl

theorem busStep_addTimeout (s : Bus) (address : ℕ) (timeout : DBusTimeout) (tfd settime : ℤ) :
    busStep s (.addTimeout address timeout tfd settime) =
      ⟨(addTimeout address timeout tfd settime s.table).2,
        if (addTimeout address timeout tfd settime s.table).1 then
          s.added ++ [(address, .timeout timeout tfd)] else s.added⟩ := rfl

theorem busStep_watchToggled {watch : DBusWatch} (h : s.added.lookup address = some (.watch watch)) :
    busStep s (.watchToggled address) =
      ⟨watchToggled address { watch with enabled := !watch.enabled } s.table,
        replaced address (.watch { watch with enabled := !watch.enabled }) s.added⟩ := by
  unfold busStep
  simp only [h]

theorem Bus.Distinct.step (hd : s.Distinct) {e : BusEvent} (he : Promised s e) :
    (busStep s e).Distinct := by
  cases e with
  | addWatch address watch =>
    rw [busStep_addWatch]
    by_cases hresult : (addWatch address watch s.table).1 = true
    · rw [if_pos hresult]
      exact hd.concat he.1 _
    · rw [if_neg hresult]
      exact hd
  | removeWatch address => exact hd.without address
  | watchToggled address =>
    obtain ⟨watch, hwatch⟩ := he.1
    obtain ⟨-, -, -, -, -, hlookup, -⟩ := added_split hd hwatch
    rw [busStep_watchToggled hlookup]
    exact hd.replaced address _
  | addTimeout address timeout tfd settime =>
    rw [busStep_addTimeout]
    by_cases hresult : (addTimeout address timeout tfd settime s.table).1 = true
    · rw [if_pos hresult]
      exact hd.concat he.1 _
    · rw [if_neg hresult]
      exact hd
  | removeTimeout address => exact hd.without address

theorem filter_enabled_length {l₁ l₂ : List (ℕ × BusObject)} {object : BusObject}
    (hobject : object.enabled = true) :
    ((l₁ ++ (address, object) :: l₂).filter fun p => p.2.enabled).length =
      ((l₁ ++ l₂).filter fun p => p.2.enabled).length + 1 := by
  rw [List.filter_append, List.filter_cons, if_pos hobject, List.filter_append, List.length_append,
    List.length_cons, List.length_append]
  omega

theorem filter_disabled {l₁ l₂ : List (ℕ × BusObject)} {object : BusObject}
    (hobject : object.enabled = false) :
    (l₁ ++ (address, object) :: l₂).filter (fun p => p.2.enabled) =
      (l₁ ++ l₂).filter fun p => p.2.enabled := by
  rw [List.filter_append, List.filter_cons, if_neg (by simp [hobject]), ← List.filter_append]

theorem filter_enabled_perm {l₁ l₂ : List (ℕ × BusObject)} {object : BusObject}
    (hobject : object.enabled = true) :
    ((l₁ ++ (address, object) :: l₂).filter fun p => p.2.enabled).Perm
      ((address, object) :: (l₁ ++ l₂).filter fun p => p.2.enabled) := by
  rw [List.filter_append, List.filter_cons, if_pos hobject, List.filter_append]
  exact List.perm_middle

section Watch

variable {watch : DBusWatch}

theorem PollsEnabled.addWatch_iff (h : PollsEnabled pipe s)
    (hd : (busStep s (.addWatch address watch)).Distinct) :
    PollsEnabled pipe (busStep s (.addWatch address watch)) ↔
      Keeps s (.addWatch address watch) := by
  rw [busStep_addWatch] at hd ⊢
  by_cases hroom : s.table.nfds < arraySize
  · cases henabled : watch.enabled with
    | false =>
      have hoff : (BusObject.watch watch).enabled = false := henabled
      obtain ⟨hresult, hsame⟩ := addWatch_disabled address hroom henabled
      rw [if_pos hresult] at hd ⊢
      rw [h.same_iff hd hsame, filter_disabled hoff, List.append_nil]
      constructor
      · exact fun _ hcontra => absurd (henabled.symm.trans hcontra) Bool.false_ne_true
      · exact fun _ => List.Perm.refl _
    | true =>
      have hon : (BusObject.watch watch).enabled = true := henabled
      obtain ⟨hresult, htoo⟩ := addWatch_enabled address hroom henabled
      rw [if_pos hresult] at hd ⊢
      have hspec := @filter_enabled_perm address s.added [] _ hon
      rw [List.append_nil] at hspec
      rw [h.too_iff hd htoo hspec, orEvents_eq]
      simp [polledAs, Keeps, PollInfo.Fresh, henabled, hroom]
  · rw [addWatch_full watch hroom, if_neg Bool.false_ne_true]
    constructor
    · exact fun _ _ hroom' => absurd hroom' hroom
    · exact fun _ => h

theorem forall_watch_iff (hd : s.Distinct) (hwatch : (address, .watch watch) ∈ s.added)
    {P : DBusWatch → Prop} :
    (∀ watch', (address, .watch watch') ∈ s.added → P watch') ↔ P watch := by
  obtain ⟨-, -, -, -, -, -, honly⟩ := added_split hd hwatch
  constructor
  · exact fun h => h watch hwatch
  · intro h watch' hwatch'
    have heq := honly _ hwatch'
    rw [BusObject.watch.injEq] at heq
    rwa [heq]

theorem PollsEnabled.removeWatch_iff (h : PollsEnabled pipe s) (hd : s.Distinct)
    (hwatch : (address, .watch watch) ∈ s.added) :
    PollsEnabled pipe (busStep s (.removeWatch address)) ↔ Keeps s (.removeWatch address) := by
  obtain ⟨l₁, l₂, hadded, hwithout, -⟩ := added_split hd hwatch
  have hstep : PollsEnabled pipe (busStep s (.removeWatch address)) ↔ _ :=
    h.same_iff (hd.without address) ⟨rfl, fun _ => rfl, rfl⟩
  rw [hstep, Keeps, forall_watch_iff hd hwatch, hwithout, Bus.enabled, hadded]
  cases henabled : watch.enabled with
  | true =>
    have hon : (BusObject.watch watch).enabled = true := henabled
    constructor
    · intro hperm
      have hlength := hperm.length_eq
      rw [List.length_map, List.length_map, filter_enabled_length hon] at hlength
      omega
    · exact fun hoff => absurd hoff.symm Bool.false_ne_true
  | false =>
    have hoff : (BusObject.watch watch).enabled = false := henabled
    rw [filter_disabled hoff]
    exact iff_of_true (List.Perm.refl _) rfl

/-- An enabled watch that is switched off is polled on; one that is switched on
is polled with the events in its place. -/
theorem PollsEnabled.watchToggled_iff (h : PollsEnabled pipe s) (hd : s.Distinct)
    (hwatch : (address, .watch watch) ∈ s.added)
    (hnine : (busStep s (.watchToggled address)).enabled.length ≤ 9) :
    PollsEnabled pipe (busStep s (.watchToggled address)) ↔ Keeps s (.watchToggled address) := by
  obtain ⟨l₁, l₂, hadded, -, hreplaced, hlookup, -⟩ := added_split hd hwatch
  have hd' := hd.replaced address (.watch { watch with enabled := !watch.enabled })
  rw [busStep_watchToggled hlookup] at hnine ⊢
  rw [Keeps, forall_watch_iff hd hwatch]
  cases henabled : watch.enabled with
  | true =>
    have hon : (BusObject.watch watch).enabled = true := henabled
    rw [henabled] at hd'
    have hstep := h.same_iff hd' ⟨rfl, fun _ => rfl, rfl⟩
    rw [hreplaced, filter_disabled rfl, Bus.enabled, hadded] at hstep
    constructor
    · intro hpolls
      have hlength := (hstep.mp (hreplaced _ ▸ hpolls)).length_eq
      rw [List.length_map, List.length_map, filter_enabled_length hon] at hlength
      omega
    · rintro ⟨hoff, -⟩
      cases hoff
  | false =>
    have hoff : (BusObject.watch watch).enabled = false := henabled
    rw [henabled] at hd' hnine
    have hspec : ((replaced address (.watch { watch with enabled := !false }) s.added).filter
        fun p => p.2.enabled).Perm
        ((address, .watch { watch with enabled := !false }) :: s.enabled) := by
      rw [hreplaced, Bus.enabled, hadded, filter_disabled hoff]
      exact filter_enabled_perm rfl
    have hroom : s.table.nfds < arraySize := by
      have hlength := hspec.length_eq
      have hpolled := h.entries.length_eq
      have hfirst := h.first
      rw [entries_length, List.length_map] at hpolled
      rw [List.length_cons] at hlength
      unfold Bus.enabled at hnine
      unfold arraySize
      dsimp only at hnine
      omega
    obtain ⟨-, htoo⟩ := addWatch_enabled address hroom
      (show DBusWatch.enabled { watch with enabled := !false } = true from rfl)
    have hstep := h.too_iff hd' htoo hspec
    rw [orEvents_eq] at hstep
    refine hstep.trans ?_
    simp [polledAs, PollInfo.Fresh]

end Watch

section Timeout

variable {timeout : DBusTimeout} {tfd settime : ℤ}

theorem PollsEnabled.addTimeout_iff (h : PollsEnabled pipe s)
    (hd : (busStep s (.addTimeout address timeout tfd settime)).Distinct) :
    PollsEnabled pipe (busStep s (.addTimeout address timeout tfd settime)) ↔
      Keeps s (.addTimeout address timeout tfd settime) := by
  rw [busStep_addTimeout] at hd ⊢
  by_cases hset : s.table.nfds < arraySize ∧ Armed timeout tfd settime
  · obtain ⟨hroom, harmed⟩ := hset
    have hon : (BusObject.timeout timeout tfd).enabled = true := harmed.1.2
    obtain ⟨hresult, htoo⟩ := addTimeout_armed address hroom harmed
    rw [if_pos hresult] at hd ⊢
    have hspec := @filter_enabled_perm address s.added [] _ hon
    rw [List.append_nil] at hspec
    rw [h.too_iff hd htoo hspec]
    simp [polledAs, Keeps, PollInfo.Fresh, harmed, hroom]
  · rw [addTimeout_refused hset, if_neg Bool.false_ne_true]
    constructor
    · exact fun _ harmed hroom => absurd ⟨hroom, harmed⟩ hset
    · exact fun _ => h

theorem PollsEnabled.removeTimeout_step (h : PollsEnabled pipe s) (hd : s.Distinct) :
    PollsEnabled pipe (busStep s (.removeTimeout address)) := by
  obtain ⟨hfirst, hzero⟩ := @removeTimeout_first s.table address h.first
  have hentries : (removeTimeout address s.table).entries.Perm
      (((without address s.added).filter fun p => p.2.enabled).map polledAs) := by
    have hfilter : ((without address s.added).filter fun p => p.2.enabled).map polledAs =
        (s.enabled.map polledAs).filter fun e => e.object ≠ address := by
      rw [List.filter_map, without, Bus.enabled, List.filter_filter, List.filter_filter]
      refine congrArg _ (List.filter_congr fun p _ => ?_)
      rw [Function.comp_apply, polledAs_object, Bool.and_comm]
    rw [removeTimeout_entries h.once, hfilter]
    exact h.entries.filter _
  exact ⟨hfirst, removeTimeout_nfds_le.trans h.bounded, hzero.trans h.pipe, hentries,
    once_of_perm (hd.without address) hentries⟩

end Timeout

theorem PollsEnabled.step_iff (h : PollsEnabled pipe s) (hd : s.Distinct) {e : BusEvent}
    (he : Promised s e) : PollsEnabled pipe (busStep s e) ↔ Keeps s e := by
  have hd' := hd.step he
  obtain ⟨hpromise, hnine⟩ := he
  cases e with
  | addWatch address watch => exact h.addWatch_iff hd'
  | removeWatch address =>
    obtain ⟨watch, hwatch⟩ := hpromise
    exact h.removeWatch_iff hd hwatch
  | watchToggled address =>
    obtain ⟨watch, hwatch⟩ := hpromise
    exact h.watchToggled_iff hd hwatch hnine
  | addTimeout address timeout tfd settime => exact h.addTimeout_iff hd'
  | removeTimeout address => exact iff_of_true (h.removeTimeout_step hd) trivial

theorem start_distinct (pipe : ℤ) : (Bus.start pipe).Distinct := List.nodup_nil

theorem start_polls (pipe : ℤ) : PollsEnabled pipe (Bus.start pipe) where
  first := le_rfl
  bounded := Nat.le_of_ble_eq_true rfl
  pipe := rfl
  entries := List.Perm.refl _
  once := List.nodup_nil

/-- The table is exact throughout a run exactly when no enabled watch is removed
or switched off and no entry finds other events in its place. -/
theorem pollsEnabled_run_iff (pipe : ℤ) {es : List BusEvent}
    (hes : Guarded busStep Promised (Bus.start pipe) es) :
    (∀ fs, fs <+: es → PollsEnabled pipe (run busStep (Bus.start pipe) fs)) ↔
      Guarded busStep Keeps (Bus.start pipe) es :=
  forall_prefix_iff_guarded (fun _ _ hd he => hd.step he) (fun _ _ hd h he => h.step_iff hd he)
    (start_distinct pipe) (start_polls pipe) hes

def busWatch : DBusWatch where
  unixFd := 7
  flags := 1
  enabled := true

/-- A watch and a timeout in its place, the timeout being removed again. -/
def watchAndTimeout : List BusEvent :=
  [.addWatch 1 busWatch, .addTimeout 2 ⟨100, true⟩ 8 0, .removeTimeout 2]

theorem watch_and_timeout_polled :
    Guarded busStep Promised (Bus.start 3) watchAndTimeout ∧
      ∀ fs, fs <+: watchAndTimeout → PollsEnabled 3 (run busStep (Bus.start 3) fs) := by
  have hpromised : Guarded busStep Promised (Bus.start 3) watchAndTimeout := by
    refine ⟨⟨?_, ?_⟩, ⟨?_, ?_⟩, ⟨?_, ?_⟩, trivial⟩
    · exact fun p hp => absurd hp List.not_mem_nil
    · decide
    · decide
    · decide
    · exact ⟨⟨100, true⟩, 8, by decide⟩
    · decide
  have hkeeps : Guarded busStep Keeps (Bus.start 3) watchAndTimeout := by
    refine ⟨?_, ?_, trivial, trivial⟩
    · exact fun _ _ => by unfold PollInfo.Fresh; decide
    · exact fun _ _ => by unfold PollInfo.Fresh; decide
  exact ⟨hpromised, (pollsEnabled_run_iff 3 hpromised).mpr hkeeps⟩

/-- A watch that is removed stays in the table. -/
theorem removed_watch_polled :
    ¬ ∀ es, Guarded busStep Promised (Bus.start 3) es →
      ∀ fs, fs <+: es → PollsEnabled 3 (run busStep (Bus.start 3) fs) := by
  intro h
  have hpromised : Guarded busStep Promised (Bus.start 3)
      [.addWatch 1 busWatch, .removeWatch 1] :=
    ⟨⟨fun p hp => absurd hp List.not_mem_nil, by decide⟩, ⟨⟨busWatch, by decide⟩, by decide⟩, trivial⟩
  have hlength := (h _ hpromised _ (List.prefix_refl _)).entries.length_eq
  exact absurd hlength (by decide)

end Step

end PersClient.Access
