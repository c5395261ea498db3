import PersClient.Key.Files

/-! # What lies in the local configuration

A function that looks for a resource keeps the entry in a local variable that is
not initialised. Where the search ends with an error it is left as it was. Two
of the file functions look at it all the same.
-/

namespace PersClient.Key

open File Handle Access

variable {W : Type*} {S : Setup W}

section Names

/-- A context without the two strings that are copied without their end. -/
def forgetNames (ctx : DbContext) : DbContext :=
  { ctx with configKey := { ctx.configKey with reponsible := [], customName := [] } }

variable {ctx ctx' : DbContext} (env : Env) (resourceId : CStr) (userNo seatNo : UInt32)
  (c : Client)

theorem pclFileOpen_congr (h : forgetNames ctx = forgetNames ctx') :
    File.pclFileOpen S.com S.appId env ctx resourceId userNo seatNo c =
      File.pclFileOpen S.com S.appId env ctx' resourceId userNo seatNo c := by
  have hforget : ∀ ctx,
      File.pclFileOpen S.com S.appId env (forgetNames ctx) resourceId userNo seatNo c =
        File.pclFileOpen S.com S.appId env ctx resourceId userNo seatNo c := by
    intro ctx
    unfold File.pclFileOpen pclFileOpenDefaultData pclFileOpenRegular openValid openUnlisted
      createRegular registerRegular wantsBackup forgetNames
    dsimp only
  rw [← hforget ctx, h, hforget]

theorem pclFileCreatePath_congr (h : forgetNames ctx = forgetNames ctx') :
    File.pclFileCreatePath S.com S.appId env ctx resourceId userNo seatNo c =
      File.pclFileCreatePath S.com S.appId env ctx' resourceId userNo seatNo c := by
  have hforget : ∀ ctx,
      File.pclFileCreatePath S.com S.appId env (forgetNames ctx) resourceId userNo seatNo c =
        File.pclFileCreatePath S.com S.appId env ctx resourceId userNo seatNo c := by
    intro ctx
    unfold File.pclFileCreatePath pathWantsBackup enterPath createForPath forgetNames
    dsimp only
  rw [← hforget ctx, h, hforget]

end Names

/-- The search settles the entry: the table has one, or it is a local one. -/
def Settled (S : Setup W) (context : PersistenceDbContext) (resourceId : CStr) (lib : Library W) :
    Prop :=
  context.ldbid = pclLdbidLocal ∨ ∃ configKey, TableEntry S context resourceId lib configKey

/-- What the functions that keep an entry in a local variable give back and
leave, all called in one state. -/
structure Outcomes (W : Type*) where
  fileOpen : ℤ × Library W
  fileCreatePath : ℤ × Library W
  fileRemove : ℤ × Library W
  keyReadData : Option ((ℤ × Bytes) × Library W)
  keyWriteData : ℤ × Library W
  keyGetSize : ℤ × Library W
  keyDelete : ℤ × Library W

def outcomes (S : Setup W) (env : Env) (frame : CallFrame) (context : PersistenceDbContext)
    (resourceId : CStr) (buffer : Bytes) (bufferSize : ℤ) (lib : Library W) : Outcomes W where
  fileOpen := pclFileOpen S env frame context resourceId lib
  fileCreatePath := pclFileCreatePath S env frame context resourceId lib
  fileRemove := pclFileRemove S frame context resourceId lib
  keyReadData := pclKeyReadData S frame context resourceId buffer bufferSize lib
  keyWriteData := pclKeyWriteData S frame context resourceId buffer bufferSize lib
  keyGetSize := pclKeyGetSize S frame context resourceId lib
  keyDelete := pclKeyDelete S frame context resourceId lib

section Settled

variable {context : PersistenceDbContext} {resourceId : CStr} {lib : Library W}
  {frame frame' : CallFrame}

/-- A settled search gives two calls the same context, or local ones that
differ in the two strings. -/
theorem Settled.cases (h : Settled S context resourceId lib) (frame : CallFrame)
    (leftover : PersistenceConfigurationKey) (isFile : Bool) :
    getDbContext S { frame with leftover } context resourceId isFile lib =
        getDbContext S frame context resourceId isFile lib ∨
      ∃ lib',
        getDbContext S { frame with leftover } context resourceId isFile lib =
          (contextOfEntry S context resourceId frame.behindKey
            (defaultConfigKey S.com isFile leftover), lib') ∧
        getDbContext S frame context resourceId isFile lib =
          (contextOfEntry S context resourceId frame.behindKey
            (defaultConfigKey S.com isFile frame.leftover), lib') := by
  unfold getDbContext
  dsimp only
  cases hentry : (lookupEntry S context resourceId lib).1 with
  | ok configKey => exact Or.inl rfl
  | error rval =>
    have hlocal : context.ldbid = pclLdbidLocal := by
      rcases h with h | h
      · exact h
      · obtain ⟨configKey, hfound⟩ := h
        rw [tableEntry_iff, hentry] at hfound
        cases hfound
    simp only [if_pos hlocal]
    exact Or.inr ⟨_, rfl, rfl⟩

theorem forgetNames_default {behindKey : CStr} {isFile : Bool}
    {leftover leftover' : PersistenceConfigurationKey} :
    forgetNames (contextOfEntry S context resourceId behindKey
        (defaultConfigKey S.com isFile leftover)) =
      forgetNames (contextOfEntry S context resourceId behindKey
        (defaultConfigKey S.com isFile leftover')) := rfl

variable (env : Env) (leftover : PersistenceConfigurationKey) (buffer : Bytes) (bufferSize : ℤ)

theorem Settled.keyDelete (h : Settled S context resourceId lib) :
    pclKeyDelete S { frame with leftover } context resourceId lib =
      pclKeyDelete S frame context resourceId lib := by
  unfold pclKeyDelete
  rcases h.cases frame leftover false with heq | ⟨lib', heq, heq'⟩
  · rw [heq]
    rfl
  · rw [heq, heq']
    rfl

theorem Settled.keyGetSize (h : Settled S context resourceId lib) :
    pclKeyGetSize S { frame with leftover } context resourceId lib =
      pclKeyGetSize S frame context resourceId lib := by
  unfold pclKeyGetSize
  rcases h.cases frame leftover false with heq | ⟨lib', heq, heq'⟩
  · rw [heq]
  · rw [heq, heq']
    rfl

theorem Settled.keyReadData (h : Settled S context resourceId lib) :
    pclKeyReadData S { frame with leftover } context resourceId buffer bufferSize lib =
      pclKeyReadData S frame context resourceId buffer bufferSize lib := by
  unfold pclKeyReadData
  rcases h.cases frame leftover false with heq | ⟨lib', heq, heq'⟩
  · rw [heq]
  · rw [heq, heq']
    rfl

theorem Settled.keyWriteData (h : Settled S context resourceId lib) :
    pclKeyWriteData S { frame with leftover } context resourceId buffer bufferSize lib =
      pclKeyWriteData S frame context resourceId buffer bufferSize lib := by
  unfold pclKeyWriteData
  rcases h.cases frame leftover false with heq | ⟨lib', heq, heq'⟩
  · rw [heq]
    rfl
  · rw [heq, heq']
    rfl

theorem Settled.fileOpen (h : Settled S context resourceId lib) :
    pclFileOpen S env { frame with leftover } context resourceId lib =
      pclFileOpen S env frame context resourceId lib := by
  unfold pclFileOpen
  rcases h.cases frame leftover true with heq | ⟨lib', heq, heq'⟩
  · rw [heq]
  · have hcall := pclFileOpen_congr (S := S) env resourceId context.userNo context.seatNo
      lib'.client
      (@forgetNames_default W S context resourceId frame.behindKey true leftover frame.leftover)
    rw [heq, heq']
    dsimp only
    rw [hcall]

theorem Settled.fileCreatePath (h : Settled S context resourceId lib) :
    pclFileCreatePath S env { frame with leftover } context resourceId lib =
      pclFileCreatePath S env frame context resourceId lib := by
  unfold pclFileCreatePath
  rcases h.cases frame leftover true with heq | ⟨lib', heq, heq'⟩
  · rw [heq]
  · have hcall := pclFileCreatePath_congr (S := S) env resourceId context.userNo context.seatNo
      lib'.client
      (@forgetNames_default W S context resourceId frame.behindKey true leftover frame.leftover)
    rw [heq, heq']
    dsimp only
    rw [hcall]

theorem Settled.fileRemove (h : Settled S context resourceId lib) :
    pclFileRemove S { frame with leftover } context resourceId lib =
      pclFileRemove S frame context resourceId lib := by
  unfold pclFileRemove
  rcases h.cases frame leftover true with heq | ⟨lib', heq, heq'⟩
  · rw [heq]
  · rw [heq, heq']
    rfl

end Settled

section Unsettled

variable {context : PersistenceDbContext} {resourceId : CStr} {lib : Library W} {env : Env}

theorem neg_one_le_openPath (env : Env) (path : CStr) (flags : OpenFlags) (os : Os) :
    -1 ≤ (os.openPath env path flags).1 := by
  have hinstall : ∀ (os : Os) (f : OpenFile), -1 ≤ (os.install f).1 := fun os f => by
    have : (0 : ℤ) ≤ os.fds.lowestFree := Int.natCast_nonneg _
    exact le_trans (by decide) this
  unfold Os.openPath Os.openFile
  split
  · exact le_rfl
  · split
    · exact hinstall _ _
    · split
      · exact hinstall _ _
      · exact le_rfl

/-- What `pclFileOpen` gives for a file is a descriptor or one of two errors. -/
theorem epersMaxhandle_le_fileOpen {ctx : DbContext} (hfile : ctx.configKey.type = .file)
    (hrval : ctx.rval < 0) (com : CommonObject) (appId : CStr) (env : Env) (userNo seatNo : UInt32)
    {c : Client} (hinit : 0 < c.gPclInitCounter) :
    epersMaxhandle ≤ (File.pclFileOpen com appId env ctx resourceId userNo seatNo c).1 := by
  have hopen : ∀ (path : CStr) (flags : OpenFlags) (os : Os),
      epersMaxhandle ≤ (os.openPath env path flags).1 :=
    fun path flags os => le_trans (by decide) (neg_one_le_openPath env path flags os)
  have hcreate : ∀ (path : CStr) (os : Os), epersMaxhandle ≤ (pclCreateFile com env path os).1 := by
    intro path os
    unfold pclCreateFile
    split
    · exact (show epersMaxhandle ≤ -1 by decide)
    · exact hopen _ _ _
  unfold File.pclFileOpen
  rw [if_pos hinit, if_pos hfile]
  split
  · dsimp only
    split
    · exact le_rfl
    · exact hopen _ _ _
  · unfold pclFileOpenRegular openUnlisted
    rw [if_neg (not_le.mpr hrval)]
    dsimp only
    split
    · split
      · exact hcreate _ _
      · exact hcreate _ _
    · exact le_rfl

/-- Without an entry, `pclFileOpen` goes by what the memory held: a file is
opened or the resource is no file. -/
theorem leftover_decides (env : Env) (frame : CallFrame) (hinit : 0 < lib.client.gPclInitCounter)
    (h : ¬ Settled S context resourceId lib) (file key : PersistenceConfigurationKey)
    (hfile : file.type = .file) (hkey : key.type = .key) :
    (pclFileOpen S env { frame with leftover := key } context resourceId lib).1 =
        epersResourceNoFile ∧
      epersResourceNoFile <
        (pclFileOpen S env { frame with leftover := file } context resourceId lib).1 := by
  obtain ⟨hlocal, hnone⟩ := not_or.mp h
  have hsame : (lookupEntry S context resourceId lib).2.client = lib.client :=
    lookupEntry_same.client
  cases hentry : (lookupEntry S context resourceId lib).1 with
  | ok configKey => exact absurd ⟨configKey, tableEntry_iff.mpr hentry⟩ hnone
  | error rval =>
    have hcontext : ∀ leftover : PersistenceConfigurationKey,
        getDbContext S { frame with leftover } context resourceId true lib =
          ({ rval, configKey := leftover, dbKey := [], dbPath := [],
             behindKey := frame.behindKey }, (lookupEntry S context resourceId lib).2) := by
      intro leftover
      unfold getDbContext
      dsimp only
      rw [hentry]
      dsimp only
      rw [if_neg hlocal]
    have hinit' : 0 < (lookupEntry S context resourceId lib).2.client.gPclInitCounter := by
      rwa [hsame]
    unfold pclFileOpen
    simp only [if_pos hinit, hcontext]
    constructor
    · unfold File.pclFileOpen
      have hno : key.type ≠ .file := by
        rw [hkey]
        decide
      rw [if_pos hinit', if_neg hno]
    · exact lt_of_lt_of_le (by decide)
        (epersMaxhandle_le_fileOpen hfile (lookupEntry_error hentry) S.com S.appId env _ _ hinit')

end Unsettled

/-- No function goes by what its local configuration held before, exactly when
the library is not initialised or the search settles the entry. -/
theorem outcomes_settled_iff (S : Setup W) (env : Env) (frame : CallFrame)
    (context : PersistenceDbContext) (resourceId : CStr) (buffer : Bytes) (bufferSize : ℤ)
    (lib : Library W) :
    (∀ leftover leftover',
      outcomes S env { frame with leftover } context resourceId buffer bufferSize lib =
        outcomes S env { frame with leftover := leftover' } context resourceId buffer bufferSize
          lib) ↔
      lib.client.gPclInitCounter = 0 ∨ Settled S context resourceId lib := by
  constructor
  · intro hsame
    by_contra hno
    obtain ⟨hcounter, hunsettled⟩ := not_or.mp hno
    have hinit : 0 < lib.client.gPclInitCounter := UInt32.pos_iff_ne_zero.mpr hcounter
    have hopen := congrArg (fun a => a.fileOpen.1)
      (hsame { frame.leftover with type := .key } { frame.leftover with type := .file })
    obtain ⟨hkey, hfile⟩ := leftover_decides env frame hinit hunsettled
      { frame.leftover with type := .file } { frame.leftover with type := .key } rfl rfl
    exact absurd (hkey.symm.trans hopen) hfile.ne
  · rintro (hcounter | hsettled) leftover leftover'
    · have hinit : ¬ 0 < lib.client.gPclInitCounter := by
        rw [hcounter]
        decide
      unfold outcomes pclFileOpen pclFileCreatePath pclFileRemove pclKeyReadData pclKeyWriteData
        pclKeyGetSize pclKeyDelete
      simp only [if_neg hinit]
    · have hframe : ∀ leftover,
          outcomes S env { frame with leftover } context resourceId buffer bufferSize lib =
            outcomes S env frame context resourceId buffer bufferSize lib := by
        intro leftover
        unfold outcomes
        rw [hsettled.fileOpen, hsettled.fileCreatePath, hsettled.fileRemove, hsettled.keyReadData,
          hsettled.keyWriteData, hsettled.keyGetSize, hsettled.keyDelete]
      exact (hframe leftover).trans (hframe leftover').symm

section Public

def memoryOf (type : PersistenceResourceType) : PersistenceConfigurationKey where
  policy := .wc
  storage := .local
  type
  permission := .readWrite
  maxSize := 16
  reponsible := []
  customName := []
  customID := []

/-- A plugin that could not be loaded completely: no table can be opened. -/
def tablelessSetup : Setup Unit :=
  ⟨.standard, cstr "app", { Plugin.constant (memoryOf .key) with persComRctOpen := none }⟩

theorem tableless_not_settled :
    ¬ Settled tablelessSetup ⟨0, 0, 0⟩ (cstr "doc") ⟨.start .empty .empty, (), fun _ => -1,
      fun _ => false, fun _ => none, fun _ => {}, none, none⟩ := by
  rintro (hlocal | ⟨configKey, hfound⟩)
  · exact absurd hlocal (by decide)
  · cases tableEntry_iff.mp hfound

/-- Whether a public resource without table is a file is left to the memory. -/
theorem tableless_open_differs :
    ¬ ∀ leftover leftover',
      outcomes tablelessSetup .reliable ⟨leftover, [], true⟩ ⟨0, 0, 0⟩ (cstr "doc") [] 0
          ⟨.start .empty .empty, (), fun _ => -1, fun _ => false, fun _ => none, fun _ => {}, none,
            none⟩ =
        outcomes tablelessSetup .reliable ⟨leftover', [], true⟩ ⟨0, 0, 0⟩ (cstr "doc") [] 0
          ⟨.start .empty .empty, (), fun _ => -1, fun _ => false, fun _ => none, fun _ => {}, none,
            none⟩ := by
  intro hsame
  have hopen := congrArg (fun a => a.fileOpen.1) (hsame (memoryOf .key) (memoryOf .file))
  obtain ⟨hkey, hfile⟩ := leftover_decides .reliable ⟨memoryOf .key, [], true⟩ (by decide)
    tableless_not_settled (memoryOf .file) (memoryOf .key) rfl rfl
  exact absurd (hkey.symm.trans hopen) hfile.ne

end Public

end PersClient.Key
