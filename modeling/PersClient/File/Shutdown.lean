import PersClient.File.Runs
import PersClient.File.Session
import PersClient.Handle.OpenList
import PersClient.Lib.Pieces

/-! # Full shutdown

`process_prepare_shutdown` calls `pclFileClose` for each item of `gOpenFdList`,
which gives back the item the walk stands at. Descriptors that are opened for
reading only, or to default data, are on no list.
-/

namespace PersClient.File

open Access Handle LinkedList Pieces Steps

section Source

/-- The client with the items of its `gOpenFdList`, and the descriptors `close`
was called for so far. -/
structure LinkedClient where
  client : Client
  list : Items.PersList
  closed : List ℤ := []

/-- `pclFileClose` finds a record and goes on to close the descriptor. -/
def Client.FindsRecord (c : Client) (fd : ℤ) : Prop :=
  0 < c.gPclInitCounter ∧ getFilePermission c.gFileHandleTree fd ≠ none

instance (c : Client) (fd : ℤ) : Decidable (c.FindsRecord fd) :=
  inferInstanceAs (Decidable (_ ∧ _))

/-- `pclFileClose` as the callback of `list_iterate`, with the items. -/
def closeItem (fd : ℤ) (s : LinkedClient) : Option LinkedClient :=
  let client := (pclFileClose fd s.client).2
  if s.client.FindsRecord fd then
    (Items.listItemRemove s.list fd).map fun removed =>
      { client, list := removed.2, closed := s.closed ++ [fd] }
  else some { s with client }

def Client.lockAccess (c : Client) : Client :=
  { c with loop := Access.processPrepareShutdown shutdownFull c.loop }

/-- `process_prepare_shutdown(Shutdown_Full)` on the client and the items. -/
def prepareFullShutdown (s : LinkedClient) : Option LinkedClient :=
  (Items.listIterate LinkedClient.list closeItem { s with client := s.client.lockAccess }).bind
    fun s => (Items.listDestroy s.list).map fun list =>
      { s with client := closeAllPersistenceHandle s.client, list }

end Source

section Purpose

variable (com : CommonObject) (appId : CStr)

/-- A file call, and the descriptors `pclFileOpen` has handed out that were not
closed since. -/
def openedStep (s : Client × List ℤ) (call : FileCall) : Client × List ℤ :=
  (fileStep com appId s.1 call,
    match call with
    | .fileOpen env ctx resourceId userNo seatNo =>
      let handle := (pclFileOpen com appId env ctx resourceId userNo seatNo s.1).1
      if 0 ≤ handle then handle :: s.2 else s.2
    | .fileClose fd => s.2.filter (· ≠ fd)
    | _ => s.2)

/-- A process after some file calls, with what it has open. -/
def openedAfter (fs : Fs) (fds : FdTable) (calls : List FileCall) : Client × List ℤ :=
  run (openedStep com appId) (Client.start fs fds, []) calls

/-- The shutdown finds every item it reads, closes each descriptor once, removes
its record and leaves the list empty. -/
def ClosesAll (opened : List ℤ) (s : LinkedClient) : Prop :=
  ∃ s', prepareFullShutdown s = some s' ∧
    (∀ fd ∈ opened, s'.closed.count fd = s.closed.count fd + 1 ∧
      getFilePermission s'.client.gFileHandleTree fd = none) ∧
    s'.client.gOpenFdList = [] ∧ s'.list.Represents []

end Purpose

section Walk

variable {s : LinkedClient} {c : Client} {fd : ℤ}

theorem pclFileClose_unrecorded (h : ¬ c.FindsRecord fd) : (pclFileClose fd c).2 = c := by
  unfold pclFileClose
  split
  · rename_i hinit
    cases hpermission : getFilePermission c.gFileHandleTree fd with
    | none => rfl
    | some permission => exact absurd ⟨hinit, by simp [hpermission]⟩ h
  · rfl

theorem closeItem_unrecorded (h : ¬ s.client.FindsRecord fd) : closeItem fd s = some s := by
  unfold closeItem
  rw [if_neg h, pclFileClose_unrecorded h]

theorem iterate_unrecorded (hlist : s.list.Represents s.client.gOpenFdList)
    (h : ∀ fd ∈ s.client.gOpenFdList, ¬ s.client.FindsRecord fd) :
    Items.listIterate LinkedClient.list closeItem s = some s := by
  have hwalk := Items.listIterate_foldl (fun _ t => t) hlist
    (fun t (ht : t = s) => by rw [ht])
    (fun fd hfd t ht => ⟨closeItem_unrecorded (ht ▸ h fd hfd), ht⟩) rfl
  rw [hwalk, List.foldl_fixed]

theorem iterate_recorded (hlist : s.list.Represents s.client.gOpenFdList)
    (hfd : fd ∈ s.client.gOpenFdList) (h : s.client.FindsRecord fd) :
    Items.listIterate LinkedClient.list closeItem s = none := by
  obtain ⟨cells, hcells, hl⟩ := hlist
  rcases split_cases (fun cell => decide (s.client.FindsRecord cell.2)) cells with
    hnone | ⟨pre, ⟨i, fd'⟩, post, rfl, hpre, hrecord⟩
  · rw [← hl] at hfd
    obtain ⟨cell, hcell, rfl⟩ := List.mem_map.mp hfd
    exact absurd h (of_decide_eq_false (hnone cell hcell))
  · have hrecord : s.client.FindsRecord fd' := of_decide_eq_true hrecord
    have hfree : ∀ cell ∈ pre, cell.2 ≠ fd' := by
      rintro cell hcell rfl
      exact of_decide_eq_false (hpre cell hcell) hrecord
    obtain ⟨list', hremove, -, hfreed⟩ := Items.listItemRemove_found hcells hfree
    have hcall : closeItem fd' s =
        some ⟨(pclFileClose fd' s.client).2, list', s.closed ++ [fd']⟩ := by
      unfold closeItem
      rw [if_pos hrecord, hremove, Option.map_some]
    exact Items.iterateFrom_none hcells.segment
      (fun cell hcell => closeItem_unrecorded (of_decide_eq_false (hpre cell hcell))) hcall hfreed _

theorem listIterate_unrecorded {l : List ℤ} (h : ∀ fd ∈ l, ¬ c.FindsRecord fd) :
    listIterate (fun fd c => (pclFileClose fd c).2) l c = c := by
  induction l with
  | nil => rfl
  | cons fd l ih =>
    have hfirst := pclFileClose_unrecorded (h fd List.mem_cons_self)
    have hrest := ih fun x hx => h x (List.mem_cons_of_mem _ hx)
    have hstep : listIterate (fun fd c => (pclFileClose fd c).2) (fd :: l) c =
        listIterate (fun fd c => (pclFileClose fd c).2) l (pclFileClose fd c).2 := rfl
    rw [hstep, hfirst, hrest]

/-- Without any record the shutdown is that of the client, and closes nothing. -/
theorem prepareFullShutdown_unrecorded (hlist : s.list.Represents s.client.gOpenFdList)
    (h : ∀ fd ∈ s.client.gOpenFdList, ¬ s.client.FindsRecord fd) :
    ∃ list, list.Represents [] ∧ prepareFullShutdown s = some
      { client := processPrepareShutdown shutdownFull s.client, list, closed := s.closed } := by
  obtain ⟨list, hdestroy, hempty⟩ := Items.listDestroy_represents hlist
  refine ⟨list, hempty, ?_⟩
  have hwalk : listIterate (fun fd c => (pclFileClose fd c).2) s.client.gOpenFdList
      s.client.lockAccess = s.client.lockAccess := listIterate_unrecorded h
  have hclient : processPrepareShutdown shutdownFull s.client =
      closeAllPersistenceHandle s.client.lockAccess := congrArg closeAllPersistenceHandle hwalk
  have hitems : Items.listIterate LinkedClient.list closeItem
      { s with client := s.client.lockAccess } = some { s with client := s.client.lockAccess } :=
    iterate_unrecorded hlist h
  rw [prepareFullShutdown, hitems, Option.bind_some, hclient]
  exact congrArg (Option.map _) hdestroy

theorem prepareFullShutdown_recorded (hlist : s.list.Represents s.client.gOpenFdList)
    (hfd : fd ∈ s.client.gOpenFdList) (h : s.client.FindsRecord fd) :
    prepareFullShutdown s = none := by
  have hitems : Items.listIterate LinkedClient.list closeItem
      { s with client := s.client.lockAccess } = none := iterate_recorded hlist hfd h
  rw [prepareFullShutdown, hitems, Option.bind_none]

end Walk

/-- The shutdown does what it is for exactly when there is nothing to do: no
descriptor is open, and what `gOpenFdList` still names has no record. -/
theorem closesAll_iff {com : CommonObject} {appId : CStr} {fs : Fs} {fds : FdTable}
    {calls : List FileCall} {list : Items.PersList}
    (hlist : list.Represents (openedAfter com appId fs fds calls).1.gOpenFdList) :
    ClosesAll (openedAfter com appId fs fds calls).2
        ⟨(openedAfter com appId fs fds calls).1, list, []⟩ ↔
      (openedAfter com appId fs fds calls).2 = [] ∧
        ∀ fd ∈ (openedAfter com appId fs fds calls).1.gOpenFdList,
          ¬ (openedAfter com appId fs fds calls).1.FindsRecord fd := by
  generalize openedAfter com appId fs fds calls = s at hlist ⊢
  obtain ⟨c, opened⟩ := s
  constructor
  · rintro ⟨s', hshutdown, hclosed, -⟩
    have hnone : ∀ fd ∈ c.gOpenFdList, ¬ c.FindsRecord fd := by
      intro fd hfd hrecord
      rw [prepareFullShutdown_recorded hlist hfd hrecord] at hshutdown
      cases hshutdown
    obtain ⟨list', -, hsome⟩ := prepareFullShutdown_unrecorded (s := ⟨c, list, []⟩) hlist hnone
    rw [hsome] at hshutdown
    cases hshutdown
    refine ⟨List.eq_nil_iff_forall_not_mem.mpr fun fd hfd => ?_, hnone⟩
    exact absurd (hclosed fd hfd).1 (by simp)
  · rintro ⟨rfl, hnone⟩
    obtain ⟨list', hempty, hsome⟩ := prepareFullShutdown_unrecorded (s := ⟨c, list, []⟩) hlist hnone
    exact ⟨_, hsome, fun fd hfd => absurd hfd List.not_mem_nil, rfl, hempty⟩

def openDocument (permission : PersistencePermission) : FileCall :=
  .fileOpen .reliable (document permission).dbContext (document permission).resourceId 0 0

/-- A process with the document on its disk. -/
def documentAfter (permission : PersistencePermission) (calls : List FileCall) : Client × List ℤ :=
  openedAfter CommonObject.standard (cstr "app")
    (Fs.single (document permission).dbContext.dbPath [65]) standardFds calls

/-- The document is opened and closed. -/
def openAndClose : List FileCall := [openDocument .readWrite, .fileClose 3]

theorem closed_document_closesAll :
    (documentAfter .readWrite openAndClose).1.gOpenFdList = [] ∧
      ClosesAll (documentAfter .readWrite openAndClose).2
        ⟨(documentAfter .readWrite openAndClose).1, Linked.empty, []⟩ := by
  have hlist : (documentAfter .readWrite openAndClose).1.gOpenFdList = [] := by decide +kernel
  have hopened : (documentAfter .readWrite openAndClose).2 = [] := by decide +kernel
  refine ⟨hlist, (closesAll_iff ?_).mpr ⟨hopened, fun fd hfd => ?_⟩⟩
  · change Linked.empty.Represents (documentAfter _ _).1.gOpenFdList
    rw [hlist]
    exact Linked.empty_represents
  · change fd ∈ (documentAfter .readWrite _).1.gOpenFdList at hfd
    rw [hlist] at hfd
    exact absurd hfd List.not_mem_nil

/-- With the document open the walk reads the item that `pclFileClose` gave back. -/
theorem open_document_astray :
    ¬ ∀ (calls : List FileCall) (list : Items.PersList),
      list.Represents (documentAfter .readWrite calls).1.gOpenFdList →
        ClosesAll (documentAfter .readWrite calls).2
          ⟨(documentAfter .readWrite calls).1, list, []⟩ := by
  intro h
  obtain ⟨list, hlist⟩ :=
    Items.exists_represents (documentAfter .readWrite [openDocument .readWrite]).1.gOpenFdList
  obtain ⟨s', hshutdown, -⟩ := h [openDocument .readWrite] list hlist
  have hfd : 3 ∈ (documentAfter .readWrite [openDocument .readWrite]).1.gOpenFdList := by
    decide +kernel
  have hrecord : (documentAfter .readWrite [openDocument .readWrite]).1.FindsRecord 3 := by
    decide +kernel
  rw [prepareFullShutdown_recorded hlist hfd hrecord] at hshutdown
  cases hshutdown

end PersClient.File
