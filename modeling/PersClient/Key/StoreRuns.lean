import PersClient.Key.StoreCalls
import PersClient.Key.Success

/-! # Runs of the key store

The context of a resource is told by the resource tables, whichever of them are
open. So a run of key calls, with the databases closed in between or not,
answers call by call as the store of entries does, and leaves its entries.
-/

namespace PersClient.Key

open File Handle Access Prct

variable {W : Type}

section Contexts

variable (S : Setup W) (tables : Tables)

/-- What the tables say of a resource. -/
def entryIn (X : KeyResource) : Except ℤ PersistenceConfigurationKey :=
  match tables (tableFile S X.context.ldbid) with
  | .error rval => .error rval
  | .ok table =>
    match table X.resourceId with
    | none => .error epersNokeydata
    | some configKey => .ok configKey

def contextIn (frame : CallFrame) (X : KeyResource) : DbContext :=
  match entryIn S tables X with
  | .ok configKey => contextOfEntry S X.context X.resourceId frame.behindKey configKey
  | .error rval =>
    if X.context.ldbid = pclLdbidLocal then
      contextOfEntry S X.context X.resourceId frame.behindKey
        (defaultConfigKey S.com false frame.leftover)
    else { rval, configKey := frame.leftover, dbKey := [], dbPath := [],
           behindKey := frame.behindKey }

variable {S tables} {V : StoreView W} {R : Set Get} {lib lib' : Library W}

/-- The handle in the slot of a logical database is that of its table. -/
def HoldsTable (S : Setup W) (V : StoreView W) (lib : Library W) (ldbid : UInt32) : Prop :=
  0 ≤ lib.gResourceTable (tableSlot ldbid) ∧
    V.tableBound lib.world (lib.gResourceTable (tableSlot ldbid)) = some (tableFile S ldbid)

def TablesHeld (S : Setup W) (V : StoreView W) (tables : Tables) (lib : Library W) : Prop :=
  ∀ ldbid, lib.gResourceOpen (tableSlot ldbid) = true →
    (∃ table, tables (tableFile S ldbid) = .ok table) ∧ HoldsTable S V lib ldbid

theorem TablesHeld.beside (h : TablesHeld S V tables lib) (hbeside : Beside V lib lib') :
    TablesHeld S V tables lib' := by
  unfold TablesHeld HoldsTable
  rw [hbeside.table, hbeside.opened, hbeside.tableBound]
  exact h

structure Searched (S : Setup W) (V : StoreView W) (tables : Tables) (R : Set Get)
    (lib lib' : Library W) : Prop where
  homed : Homed S V R lib'
  held : TablesHeld S V tables lib'
  data : V.data lib'.world = V.data lib.world
  client : lib'.client = lib.client

variable (dlaws : DatabaseLaws S.plugin V) (tlaws : TableLaws S.plugin V tables)
  (hhomed : Homed S V R lib) (hheld : TablesHeld S V tables lib)
include dlaws tlaws hhomed hheld

theorem openResourceCfgTable_searched (ldbid : UInt32) {opened : Library W}
    (hopened : openResourceCfgTable S (getTableId ldbid).1 (getTableId ldbid).2 (tableSlot ldbid)
      lib = opened) :
    Searched S V tables R lib opened ∧
      ((∃ rval, tables (tableFile S ldbid) = .error rval ∧ rval < 0 ∧
          opened.gResourceTable (tableSlot ldbid) = rval) ∨
        (∃ table, tables (tableFile S ldbid) = .ok table) ∧ HoldsTable S V opened ldbid) := by
  unfold openResourceCfgTable at hopened
  split at hopened
  · rename_i hopen
    subst hopened
    exact ⟨⟨hhomed, hheld, rfl, rfl⟩, Or.inr (hheld ldbid hopen)⟩
  obtain ⟨f, hf⟩ := Option.isSome_iff_exists.mp tlaws.open_loaded
  rw [hf] at hopened
  have hpath : rctFilename S (getTableId ldbid).1 (getTableId ldbid).2 = tableFile S ldbid := rfl
  rw [hpath] at hopened
  dsimp only at hopened
  have hbound := dlaws.handles.rctOpen f hf (tableFile S ldbid) 0x04 lib.world
  have hdata := tlaws.open_data f hf (tableFile S ldbid) 0x04 lib.world
  cases htable : tables (tableFile S ldbid) with
  | error rval =>
    obtain ⟨hneg, hresult, hkept⟩ :=
      tlaws.notOpened f hf (tableFile S ldbid) rval 0x04 lib.world htable
    generalize f (tableFile S ldbid) 0x04 lib.world = made at *
    obtain ⟨handle, w⟩ := made
    dsimp only at hopened hbound hdata hresult hkept
    subst hopened hresult
    refine ⟨⟨hhomed.keep dlaws rfl hbound, fun ldbid' hin => ?_, hdata, rfl⟩,
      Or.inl ⟨handle, rfl, hneg, Function.update_self ..⟩⟩
    dsimp only at hin
    by_cases hslot : tableSlot ldbid' = tableSlot ldbid
    · rw [hslot, Function.update_self, decide_eq_true_iff] at hin
      omega
    · rw [Function.update_of_ne hslot] at hin
      unfold HoldsTable
      dsimp only
      rw [Function.update_of_ne hslot, hkept]
      exact hheld ldbid' hin
  | ok table =>
    obtain ⟨hpos, hfresh, hbinds⟩ :=
      tlaws.opened f hf (tableFile S ldbid) table 0x04 lib.world htable
    generalize f (tableFile S ldbid) 0x04 lib.world = made at *
    obtain ⟨handle, w⟩ := made
    dsimp only at hopened hbound hdata hpos hfresh hbinds
    subst hopened
    -- the slot is that of the tables of its class and group alone
    have hholds : ∀ ldbid', tableSlot ldbid' = tableSlot ldbid →
        (∃ table, tables (tableFile S ldbid') = .ok table) ∧ HoldsTable S V { lib with
          world := w
          gResourceTable := Function.update lib.gResourceTable (tableSlot ldbid) handle
          gResourceOpen := Function.update lib.gResourceOpen (tableSlot ldbid) (0 ≤ handle) }
            ldbid' := by
      intro ldbid' hslot
      have hfile : tableFile S ldbid' = tableFile S ldbid := by
        unfold tableFile
        rw [getTableId_eq_of_slot hslot]
      unfold HoldsTable
      dsimp only
      rw [hfile, hslot, Function.update_self, hbinds, Function.update_self]
      exact ⟨⟨table, htable⟩, hpos, rfl⟩
    refine ⟨⟨hhomed.keep dlaws rfl hbound, fun ldbid' hin => ?_, hdata, rfl⟩,
      Or.inr ⟨⟨table, rfl⟩, (hholds ldbid rfl).2⟩⟩
    by_cases hslot : tableSlot ldbid' = tableSlot ldbid
    · exact hholds ldbid' hslot
    · dsimp only at hin
      rw [Function.update_of_ne hslot] at hin
      obtain ⟨hthere, hpos', hbound'⟩ := hheld ldbid' hin
      refine ⟨hthere, ?_⟩
      unfold HoldsTable
      dsimp only
      rw [Function.update_of_ne hslot, hbinds, Function.update_of_ne]
      · exact ⟨hpos', hbound'⟩
      · intro heq
        rw [heq, hfresh] at hbound'
        cases hbound'

theorem lookupEntry_searched (X : KeyResource) :
    Searched S V tables R lib (lookupEntry S X.context X.resourceId lib).2 ∧
      (lookupEntry S X.context X.resourceId lib).1 = entryIn S tables X := by
  obtain ⟨hsearched, hfound⟩ := openResourceCfgTable_searched dlaws tlaws hhomed hheld
    X.context.ldbid rfl
  obtain ⟨f, hf⟩ := Option.isSome_iff_exists.mp tlaws.read_loaded
  have hslot : getResourceCfgTable S (getTableId X.context.ldbid).1 (getTableId X.context.ldbid).2
      lib = ((openResourceCfgTable S (getTableId X.context.ldbid).1 (getTableId X.context.ldbid).2
        (tableSlot X.context.ldbid) lib).gResourceTable (tableSlot X.context.ldbid),
      openResourceCfgTable S (getTableId X.context.ldbid).1 (getTableId X.context.ldbid).2
        (tableSlot X.context.ldbid) lib) := if_pos (tableSlot_lt X.context.ldbid)
  unfold lookupEntry entryIn
  dsimp only
  rw [hslot]
  generalize openResourceCfgTable S (getTableId X.context.ldbid).1 (getTableId X.context.ldbid).2
    (tableSlot X.context.ldbid) lib = opened at *
  dsimp only
  rcases hfound with ⟨rval, htable, hneg, hresult⟩ | ⟨⟨table, htable⟩, hpos, hbound⟩
  · rw [hresult, if_neg (not_le.mpr hneg), htable]
    exact ⟨hsearched, rfl⟩
  · have hread := tlaws.read f hf _ _ table X.resourceId opened.world hbound htable
    have hkept := dlaws.handles.rctRead f hf (opened.gResourceTable (tableSlot X.context.ldbid))
      X.resourceId opened.world
    have hseen := tlaws.read_seen f hf (opened.gResourceTable (tableSlot X.context.ldbid))
      X.resourceId opened.world
    rw [if_pos hpos, hf, htable]
    dsimp only
    rw [hread]
    refine ⟨⟨hsearched.homed.keep dlaws rfl hkept, ?_, ?_, hsearched.client⟩, ?_⟩
    · exact hsearched.held.beside ⟨rfl, rfl, congrArg Prod.snd hseen, rfl, rfl⟩
    · exact (congrArg Prod.fst hseen).trans hsearched.data
    · cases table X.resourceId <;> rfl

theorem getDbContext_searched (frame : CallFrame) (X : KeyResource) :
    Searched S V tables R lib (getDbContext S frame X.context X.resourceId false lib).2 ∧
      (getDbContext S frame X.context X.resourceId false lib).1 = contextIn S tables frame X := by
  obtain ⟨hsearched, hentry⟩ := lookupEntry_searched dlaws tlaws hhomed hheld X
  refine ⟨hsearched, ?_⟩
  unfold getDbContext contextIn
  cases hfound : entryIn S tables X with
  | error rval =>
    rw [hfound] at hentry
    simp only [hentry]
  | ok configKey =>
    rw [hfound] at hentry
    simp only [hentry]

end Contexts

section Runs

variable (S : Setup W)

/-- A call of a key function, or the closing of all databases. -/
inductive StoreEvent
  | call (frame : CallFrame) (X : KeyResource) (access : KeyAccess)
  | closeAll

def StoreEvent.perform (lib : Library W) : StoreEvent → Option ((ℤ × Bytes) × Library W)
  | call frame X access => access.perform S frame X lib
  | closeAll => some ((0, []), databaseCloseAll S lib)

/-- The results of a run and the library behind it; `none` where a call does not return. -/
def performEvents : List StoreEvent → Library W → Option (List (ℤ × Bytes) × Library W)
  | [], lib => some ([], lib)
  | e :: es, lib =>
    (e.perform S lib).bind fun (r, lib) =>
      (performEvents es lib).map fun (rs, lib) => (r :: rs, lib)

variable (tables : Tables) (w : W) (client : Client)

/-- The places of a resource, as the tables have them. -/
def resourceShelf (frame : CallFrame) (X : KeyResource) : Shelf :=
  let ctx := contextIn S tables frame X
  shelfOf S w ⟨X.context, ctx.configKey⟩ ctx.dbPath ctx.dbKey X.resourceId

/-- What an event may give with a store of these entries, and leave of it. -/
inductive EventServed (v : Volume) : StoreEvent → ℤ × Bytes → Volume → Prop
  | early {frame : CallFrame} {X : KeyResource} {access : KeyAccess} {rval : ℤ} :
      access.earlyRefusal S client = some rval →
      EventServed v (.call frame X access) (rval, access.buffer) v
  | late {frame : CallFrame} {X : KeyResource} {access : KeyAccess} {rval : ℤ} :
      access.earlyRefusal S client = none →
      access.lateRefusal S (contextIn S tables frame X) = some rval →
      EventServed v (.call frame X access) (rval, access.buffer) v
  | reached {frame : CallFrame} {X : KeyResource} {access : KeyAccess} {r : ℤ × Bytes}
      {v' : Volume} : access.earlyRefusal S client = none →
      access.lateRefusal S (contextIn S tables frame X) = none →
      (resourceShelf S tables w frame X).Answers frame.written v access r v' →
      EventServed v (.call frame X access) r v'
  | closed : EventServed v .closeAll (0, []) v

/-- What a run may give and leave. -/
inductive RunServed : Volume → List StoreEvent → List (ℤ × Bytes) → Volume → Prop
  | nil (v : Volume) : RunServed v [] [] v
  | cons {v v₁ v' : Volume} {e : StoreEvent} {es : List StoreEvent} {r : ℤ × Bytes}
      {rs : List (ℤ × Bytes)} : EventServed S tables w client v e r v₁ → RunServed v₁ es rs v' →
      RunServed v (e :: es) (r :: rs) v'

def StoreEvent.requests : StoreEvent → Set Get
  | call frame X _ =>
    let ctx := contextIn S tables frame X
    {g | ∃ t ∈ [DbType.policy ctx.configKey.policy, .confdefault, .default],
      g = keyGet ⟨X.context, ctx.configKey⟩ ctx.dbPath t}
  | closeAll => ∅

def requestsOf (events : List StoreEvent) : Set Get := {g | ∃ e ∈ events, g ∈ e.requests S tables}

/-- The resource of a call is not one of a custom library. -/
def StoreEvent.Stored : StoreEvent → Prop
  | call frame X _ => (contextIn S tables frame X).configKey.storage ≠ .custom
  | closeAll => True

variable {S tables w client} {V : StoreView W} {R : Set Get} {lib : Library W}

theorem KeyAccess.stored_of_lateRefusal {access : KeyAccess} {ctx : DbContext}
    (h : access.lateRefusal S ctx = none) : ctx.configKey.storage ≠ .lastEntry := by
  intro hlast
  unfold KeyAccess.lateRefusal at h
  simp only [hlast, if_true] at h
  split at h
  · cases access with
    | write _ _ =>
      dsimp only at h
      split at h <;> cases h
    | delete | getSize | read _ _ => cases h
  · cases access <;> cases h

structure Serving (S : Setup W) (V : StoreView W) (tables : Tables) (R : Set Get) (client : Client)
    (lib : Library W) : Prop where
  homed : Homed S V R lib
  held : TablesHeld S V tables lib
  counter : lib.client.gPclInitCounter = client.gPclInitCounter
  lock : lib.client.loop.gLockAccess = client.loop.gLockAccess

theorem Serving.earlyRefusal_eq (h : Serving S V tables R client lib) (access : KeyAccess) :
    access.earlyRefusal S lib.client = access.earlyRefusal S client := by
  have hlock : Locked lib.client.loop ↔ Locked client.loop := by
    unfold Locked isAccessLocked
    rw [h.lock]
  unfold KeyAccess.earlyRefusal
  rw [h.counter]
  cases access <;> simp only [hlock]

variable (dlaws : DatabaseLaws S.plugin V) (tlaws : TableLaws S.plugin V tables)
  (hR : Separate S R) (w : W)
include dlaws tlaws hR

theorem Serving.step (h : Serving S V tables R client lib) {e : StoreEvent}
    (hstored : e.Stored S tables) (hrequests : e.requests S tables ⊆ R) :
    ∃ r lib', e.perform S lib = some (r, lib') ∧ Serving S V tables R client lib' ∧
      EventServed S tables w client (V.data lib.world) e r (V.data lib'.world) := by
  cases e with
  | closeAll =>
    have hstays := h.homed.closeAll dlaws
    refine ⟨_, _, rfl, ⟨hstays.homed, h.held.beside hstays.beside,
      hstays.beside.counter.trans h.counter, hstays.beside.lock.trans h.lock⟩, ?_⟩
    rw [hstays.data]
    exact .closed
  | call frame X access =>
    dsimp only [StoreEvent.perform]
    rw [KeyAccess.perform_eq, h.earlyRefusal_eq]
    cases hearly : access.earlyRefusal S client with
    | some rval => exact ⟨_, _, rfl, h, .early hearly⟩
    | none =>
      obtain ⟨hsearched, hctx⟩ := getDbContext_searched dlaws tlaws h.homed h.held frame X
      generalize getDbContext S frame X.context X.resourceId false lib = found at *
      obtain ⟨ctx, lib₁⟩ := found
      dsimp only at hsearched hctx ⊢
      have h₁ : Serving S V tables R client lib₁ :=
        ⟨hsearched.homed, hsearched.held, by rw [hsearched.client]; exact h.counter,
          by rw [hsearched.client]; exact h.lock⟩
      rw [← hsearched.data]
      cases hlate : access.lateRefusal S ctx with
      | some rval => exact ⟨_, _, rfl, h₁, .late hearly (hctx ▸ hlate)⟩
      | none =>
        have hstorage : ctx.configKey.storage = .local ∨ ctx.configKey.storage = .shared := by
          have hlast := KeyAccess.stored_of_lateRefusal hlate
          have hcustom : ctx.configKey.storage ≠ .custom := by
            rw [hctx]
            exact hstored
          cases hs : ctx.configKey.storage with
          | «local» => exact Or.inl rfl
          | shared => exact Or.inr rfl
          | custom => exact absurd hs hcustom
          | lastEntry => exact absurd hs hlast
        obtain ⟨r, lib', hreach, hhomed, hbeside, hanswers⟩ := reach_answers
          ⟨X.context, ctx.configKey⟩ ctx.dbPath dlaws hR w hstorage
          (fun t ht => hrequests ⟨t, by rw [← hctx]; exact ht, by rw [← hctx]⟩) h₁.homed frame
          rfl rfl access
        refine ⟨r, lib', hreach, ⟨hhomed, h₁.held.beside hbeside,
          hbeside.counter.trans h₁.counter, hbeside.lock.trans h₁.lock⟩,
          .reached hearly (hctx ▸ hlate) ?_⟩
        unfold resourceShelf
        rw [← hctx]
        exact hanswers

omit dlaws tlaws hR in
theorem Serving.start (hempty : ∀ slot, lib.gHandlesDB slot = none)
    (hclosed : ∀ i, lib.gResourceOpen i = false) : Serving S V tables R lib.client lib := by
  constructor
  · constructor
    · intro slot handle hin
      rw [hempty] at hin
      cases hin
    · intro slot slot' handle hin
      rw [hempty] at hin
      cases hin
    · intro g hg handle hin
      rw [hempty] at hin
      cases hin
  · intro ldbid hin
    rw [hclosed] at hin
    cases hin
  · rfl
  · rfl

theorem Serving.run (h : Serving S V tables R client lib) {events : List StoreEvent}
    (hstored : ∀ e ∈ events, e.Stored S tables) (hrequests : requestsOf S tables events ⊆ R) :
    ∃ rs lib', performEvents S events lib = some (rs, lib') ∧
      RunServed S tables w client (V.data lib.world) events rs (V.data lib'.world) := by
  induction events generalizing lib with
  | nil => exact ⟨[], lib, rfl, .nil _⟩
  | cons e es ih =>
    obtain ⟨r, lib₁, hperform, h₁, hserved⟩ := h.step dlaws tlaws hR w
      (hstored e List.mem_cons_self) fun g hg => hrequests ⟨e, List.mem_cons_self, hg⟩
    obtain ⟨rs, lib', hrest, hserved'⟩ := ih h₁
      (fun e' he' => hstored e' (List.mem_cons_of_mem e he')) fun g ⟨e', he', hg⟩ => hrequests ⟨e', List.mem_cons_of_mem e he', hg⟩
    refine ⟨r :: rs, lib', ?_, .cons hserved hserved'⟩
    rw [performEvents, hperform, Option.bind_some]
    dsimp only
    rw [hrest]
    rfl

end Runs

/-- Every run of key calls on local and shared resources, with the databases
closed in between or not, returns; it answers, and changes the entries, as the
store of entries does, if no two requests share a slot but not a file. -/
theorem runs_as_store {S : Setup W} {V : StoreView W} {tables : Tables}
    (dlaws : DatabaseLaws S.plugin V) (tlaws : TableLaws S.plugin V tables)
    (events : List StoreEvent) (hstored : ∀ e ∈ events, e.Stored S tables)
    (hseparate : Separate S (requestsOf S tables events)) {lib : Library W}
    (hempty : ∀ slot, lib.gHandlesDB slot = none) (hclosed : ∀ i, lib.gResourceOpen i = false) :
    ∃ rs lib', performEvents S events lib = some (rs, lib') ∧
      RunServed S tables lib.world lib.client (V.data lib.world) events rs (V.data lib'.world) := by
  have hstart : Serving S V tables (requestsOf S tables events) lib.client lib :=
    .start hempty hclosed
  exact hstart.run dlaws tlaws hseparate lib.world hstored subset_rfl

section Spared

variable {S : Setup W} {tables : Tables} {w : W} {client : Client} {v v' : Volume}
  {path key : CStr}

/-- An event does not change the entry of this file and key. -/
def StoreEvent.Spares (S : Setup W) (tables : Tables) (w : W) (place : Place) : StoreEvent → Prop
  | call frame X (.write _ _) => (resourceShelf S tables w frame X).written ≠ place
  | call frame X .delete => (resourceShelf S tables w frame X).own ≠ place
  | call _ _ .getSize | call _ _ (.read _ _) | closeAll => True

theorem EventServed.spared {e : StoreEvent} {r : ℤ × Bytes}
    (h : EventServed S tables w client v e r v') (hspares : e.Spares S tables w ⟨some path, key⟩) :
    v' path key = v path key := by
  cases h with
  | early | late | closed => rfl
  | reached hearly hlate hanswers =>
    cases hanswers with
    | write buffer size hfile hresult =>
      apply setEntry_of_ne
      rintro ⟨rfl, rfl⟩
      exact hspares (by rw [← hfile])
    | delete hfile hresult =>
      apply setEntry_of_ne
      rintro ⟨rfl, rfl⟩
      exact hspares (by rw [← hfile])
    | shutRead | read | unread | shutSize | size | unsized | shutDelete | refused => rfl

theorem RunServed.spared {es : List StoreEvent} {rs : List (ℤ × Bytes)}
    (h : RunServed S tables w client v es rs v')
    (hspares : ∀ e ∈ es, e.Spares S tables w ⟨some path, key⟩) : v' path key = v path key := by
  induction h with
  | nil v => rfl
  | cons hserved hrest ih =>
    rw [ih fun e he => hspares e (List.mem_cons_of_mem _ he),
      hserved.spared (hspares _ List.mem_cons_self)]

theorem RunServed.append {es fs : List StoreEvent} {rs : List (ℤ × Bytes)}
    (h : RunServed S tables w client v (es ++ fs) rs v') :
    ∃ rs₁ v₁ rs₂, rs = rs₁ ++ rs₂ ∧ rs₁.length = es.length ∧
      RunServed S tables w client v es rs₁ v₁ ∧ RunServed S tables w client v₁ fs rs₂ v' := by
  induction es generalizing v rs with
  | nil => exact ⟨[], v, rs, rfl, rfl, .nil v, h⟩
  | cons e es ih =>
    cases h with
    | @cons _ v₁ _ _ _ r rs hserved hrest =>
      obtain ⟨rs₁, v₂, rs₂, rfl, hlength, hfirst, hsecond⟩ := ih hrest
      exact ⟨r :: rs₁, v₂, rs₂, rfl, congrArg Nat.succ hlength, .cons hserved hfirst, hsecond⟩

theorem RunServed.single {e : StoreEvent} {rs : List (ℤ × Bytes)}
    (h : RunServed S tables w client v [e] rs v') :
    ∃ r, rs = [r] ∧ EventServed S tables w client v e r v' := by
  cases h with
  | @cons _ v₁ _ _ _ r rs hserved hrest =>
    cases hrest
    exact ⟨r, rfl, hserved⟩

end Spared

section Written

variable {S : Setup W} {tables : Tables} {w : W} {client : Client} {v v' : Volume}
  {X : KeyResource} {configKey : PersistenceConfigurationKey}

theorem contextIn_of_entry (hentry : entryIn S tables X = .ok configKey) (frame : CallFrame) :
    contextIn S tables frame X =
      contextOfEntry S X.context X.resourceId frame.behindKey configKey := by
  rw [contextIn, hentry]

theorem resourceShelf_of_entry (hentry : entryIn S tables X = .ok configKey)
    (frame frame' : CallFrame) :
    resourceShelf S tables w frame X = resourceShelf S tables w frame' X := by
  unfold resourceShelf
  rw [contextIn_of_entry hentry, contextIn_of_entry hentry]
  unfold contextOfEntry
  split <;> rfl

theorem written_eq_own (huser : X.context.userNo ≠ pclUserDefaultdata) (frame : CallFrame) :
    (resourceShelf S tables w frame X).written = (resourceShelf S tables w frame X).own := by
  unfold resourceShelf shelfOf
  dsimp only
  rw [writtenType, writtenKey, if_neg huser, if_neg huser]

theorem EventServed.written {frame : CallFrame} {buffer : Bytes} {size n : ℤ}
    (h : EventServed S tables w client v (.call frame X (.write buffer size)) (n, []) v')
    (hentry : entryIn S tables X = .ok configKey) (hkey : configKey.type = .key) (hn : 0 ≤ n) :
    ((KeyAccess.write buffer size).earlyRefusal S client = none ∧
      (KeyAccess.write buffer size).lateRefusal S (contextIn S tables frame X) = none) ∧
    ∃ path, (resourceShelf S tables w frame X).written.file = some path ∧
      v' path (resourceShelf S tables w frame X).written.key = some (buffer.take size.toNat) := by
  have hneg : ¬ n < 0 := not_lt.mpr hn
  cases h with
  | early hearly => exact absurd (KeyAccess.earlyRefusal_neg hearly) hneg
  | late hearly hlate =>
    refine absurd (KeyAccess.lateRefusal_neg hlate fun _ => ?_) hneg
    rw [contextIn_of_entry hentry, contextOfEntry_configKey, hkey]
  | reached hearly hlate hanswers =>
    cases hanswers with
    | refused _ _ hrefused => exact absurd hrefused hneg
    | write _ _ hfile hresult => exact ⟨⟨hearly, hlate⟩, _, hfile, setEntry_self⟩

theorem KeyAccess.read_admitted {buffer : Bytes} {size : ℤ} {ctx ctx' : DbContext}
    (buffer' : Bytes) (size' : ℤ)
    (hearly : (KeyAccess.write buffer size).earlyRefusal S client = none)
    (hlate : (KeyAccess.write buffer size).lateRefusal S ctx = none)
    (hrval : ctx'.rval = ctx.rval) (hconfig : ctx'.configKey = ctx.configKey) :
    (KeyAccess.read buffer' size').earlyRefusal S client = none ∧
      (KeyAccess.read buffer' size').lateRefusal S ctx' = none := by
  constructor
  · unfold KeyAccess.earlyRefusal at hearly ⊢
    dsimp only at hearly ⊢
    split_ifs at hearly ⊢
    rfl
  · have hkey := KeyAccess.key_of_lateRefusal hlate
    have hstored := KeyAccess.stored_of_lateRefusal hlate
    unfold KeyAccess.lateRefusal
    rw [hrval, hconfig, if_pos hkey]
    exact if_neg hstored

/-- A read of an entry that is there and fits, by a library that took a write. -/
theorem EventServed.delivers {frame frame' : CallFrame} {buffer buffer' data : Bytes}
    {size size' : ℤ} {path : CStr} {r : ℤ × Bytes}
    (h : EventServed S tables w client v (.call frame' X (.read buffer' size')) r v')
    (hentry : entryIn S tables X = .ok configKey)
    (hearly : (KeyAccess.write buffer size).earlyRefusal S client = none)
    (hlate : (KeyAccess.write buffer size).lateRefusal S (contextIn S tables frame X) = none)
    (hfile : (resourceShelf S tables w frame X).own.file = some path)
    (hthere : v path (resourceShelf S tables w frame X).own.key = some data)
    (hfits : fits size' data = true) : Delivers r data := by
  rw [resourceShelf_of_entry hentry frame frame'] at hfile hthere
  have hown : (resourceShelf S tables w frame' X).own.entry v = some data := by
    rw [Place.entry, hfile]
    exact hthere
  have hfirst : (resourceShelf S tables w frame' X).first v (fits size') = some data := by
    rw [Shelf.first_eq, Shelf.entries, List.findSome?_cons, hown, Option.filter_some, if_pos hfits]
  have hctx : (contextIn S tables frame' X).rval = (contextIn S tables frame X).rval ∧
      (contextIn S tables frame' X).configKey = (contextIn S tables frame X).configKey := by
    rw [contextIn_of_entry hentry, contextIn_of_entry hentry]
    unfold contextOfEntry
    constructor <;> split <;> rfl
  have hread := KeyAccess.read_admitted buffer' size' hearly hlate hctx.1 hctx.2
  cases h with
  | early hrefused =>
    rw [hread.1] at hrefused
    cases hrefused
  | late _ hrefused =>
    rw [hread.2] at hrefused
    cases hrefused
  | reached _ _ hanswers =>
    cases hanswers with
    | shutRead _ _ hshut =>
      rw [hfile] at hshut
      cases hshut
    | read _ _ _ hfound hdelivers =>
      rw [hfirst] at hfound
      cases hfound
      exact hdelivers
    | unread _ _ _ hnone =>
      rw [hfirst] at hnone
      cases hnone

end Written

/-- Data that were written are read again, whatever was called before, and
whatever is called in between that does not change the entry itself. -/
theorem written_data_stay {S : Setup W} {V : StoreView W} {tables : Tables}
    (dlaws : DatabaseLaws S.plugin V) (tlaws : TableLaws S.plugin V tables) {lib lib' : Library W}
    (hempty : ∀ slot, lib.gHandlesDB slot = none) (hclosed : ∀ i, lib.gResourceOpen i = false)
    {X : KeyResource} {configKey : PersistenceConfigurationKey}
    (hentry : entryIn S tables X = .ok configKey) (hkey : configKey.type = .key)
    (huser : X.context.userNo ≠ pclUserDefaultdata) (before after : List StoreEvent)
    (frame frame' : CallFrame) (buffer buffer' : Bytes) (size size' : ℤ)
    (hafter : ∀ e ∈ after,
      e.Spares S tables lib.world (resourceShelf S tables lib.world frame X).own)
    (hstored : ∀ e ∈ before ++ .call frame X (.write buffer size) ::
      (after ++ [.call frame' X (.read buffer' size')]), e.Stored S tables)
    (hseparate : Separate S (requestsOf S tables (before ++ .call frame X (.write buffer size) ::
      (after ++ [.call frame' X (.read buffer' size')])))) {rs : List (ℤ × Bytes)}
    (hrun : performEvents S (before ++ .call frame X (.write buffer size) ::
      (after ++ [.call frame' X (.read buffer' size')])) lib = some (rs, lib')) :
    ∃ n r, rs[before.length]? = some (n, []) ∧ rs.getLast? = some r ∧
      (0 ≤ n → fits size' (buffer.take size.toNat) = true →
        Delivers r (buffer.take size.toNat)) := by
  have hstart : Serving S V tables (requestsOf S tables
    (before ++ .call frame X (.write buffer size) ::
      (after ++ [.call frame' X (.read buffer' size')]))) lib.client lib := .start hempty hclosed
  obtain ⟨rs', lib'', hrun', hserved⟩ :=
    hstart.run dlaws tlaws hseparate lib.world hstored subset_rfl
  rw [hrun] at hrun'
  cases hrun'
  obtain ⟨rs₁, v₁, rs₂, rfl, hlength, -, hrest⟩ := hserved.append
  cases hrest with
  | @cons _ v₂ _ _ _ written rs₂ hwrite hrest =>
    obtain ⟨rs₃, v₃, rs₄, rfl, -, hbetween, hlast⟩ := hrest.append
    obtain ⟨r, rfl, hread⟩ := hlast.single
    have hwritten : written.2 = [] := by
      cases hwrite with
      | early | late => rfl
      | reached _ _ hanswers => cases hanswers <;> rfl
    obtain ⟨n, rest⟩ := written
    dsimp only at hwritten
    subst hwritten
    refine ⟨n, r, ?_, ?_, fun hn hfits => ?_⟩
    · rw [← hlength, List.getElem?_append_right le_rfl, Nat.sub_self]
      rfl
    · rw [← List.cons_append, ← List.append_assoc, List.getLast?_concat]
    obtain ⟨⟨hearly, hlate⟩, path, hfile, hthere⟩ := hwrite.written hentry hkey hn
    rw [written_eq_own huser] at hfile hthere
    rw [← hbetween.spared fun e he => ?_] at hthere
    · exact hread.delivers hentry hearly hlate hfile hthere hfits
    · have hspares := hafter e he
      rw [← hfile]
      exact hspares

section Example

abbrev Shop := Store × List (Option CStr)

def onStore {α : Type} (f : Store → α × Store) (w : Shop) : α × Shop :=
  ((f w.1).1, ((f w.1).2, w.2))

/-- Every table names two cached local keys. -/
def shopTables : Tables := fun _ => .ok fun id =>
  if id = cstr "volume" ∨ id = cstr "tone" then some (localKeyEntry .wc) else none

abbrev shopBase : Plugin Store := .store (localKeyEntry .wc)

theorem shop_maps : MapLaws shopBase Store.bound Store.entries := store_maps

theorem shop_reads : ReadLaws shopBase Store.bound Store.entry := store_reads

def Plugin.shop : Plugin Shop where
  persComDbOpen := shopBase.persComDbOpen.map fun f path flags =>
    onStore (f path flags)
  persComDbClose := shopBase.persComDbClose.map fun f handle =>
    onStore (f handle)
  persComDbWriteKey := shopBase.persComDbWriteKey.map
    fun f handle key buffer size => onStore (f handle key buffer size)
  persComDbReadKey := shopBase.persComDbReadKey.map
    fun f handle key buffer size => onStore (f handle key buffer size)
  persComDbGetKeySize := shopBase.persComDbGetKeySize.map
    fun f handle key => onStore (f handle key)
  persComDbDeleteKey := shopBase.persComDbDeleteKey.map
    fun f handle key => onStore (f handle key)
  persComRctOpen := some fun path _ w => (w.2.length, (w.1, w.2 ++ [some path]))
  persComRctClose := some fun handle w => (0, (w.1, w.2.set handle.toNat none))
  persComRctRead := some fun handle id w =>
    (match numberedBound w.2 handle with
      | some _ => if id = cstr "volume" ∨ id = cstr "tone" then some (localKeyEntry .wc) else none
      | none => none, w)
  persComErrNotFound := -1
  dlopen := fun _ => none
  gCustomLibArray := fun _ => ⟨[], .undefined, .undefined⟩

def shopView : StoreView Shop where
  bound w := w.1.bound
  data w := w.1.entries
  tableBound w := numberedBound w.2

theorem shop_handles : DbHandleLaws Plugin.shop shopView.bound where
  opened := by
    rintro f ⟨⟩ path flags w hpos
    exact shop_maps.handles.opened _ rfl path flags w.1 hpos
  notOpened := by
    rintro f ⟨⟩ path flags w hneg
    exact shop_maps.handles.notOpened _ rfl path flags w.1 hneg
  closed := by
    rintro f ⟨⟩ handle w hpos
    exact shop_maps.handles.closed _ rfl handle w.1 hpos
  notClosed := by
    rintro f ⟨⟩ handle w hneg
    exact shop_maps.handles.notClosed _ rfl handle w.1 hneg
  writeKey := by
    rintro f ⟨⟩ handle key buffer size w
    exact shop_maps.handles.writeKey _ rfl handle key buffer size w.1
  readKey := by
    rintro f ⟨⟩ handle key buffer size w
    exact shop_maps.handles.readKey _ rfl handle key buffer size w.1
  getKeySize := by
    rintro f ⟨⟩ handle key w
    exact shop_maps.handles.getKeySize _ rfl handle key w.1
  deleteKey := by
    rintro f ⟨⟩ handle key w
    exact shop_maps.handles.deleteKey _ rfl handle key w.1
  rctOpen := by
    rintro f ⟨⟩ path flags w
    rfl
  rctRead := by
    rintro f ⟨⟩ handle id w
    rfl
  custom := by rintro name functs ⟨⟩

theorem shop_databases : DatabaseLaws Plugin.shop shopView where
  handles := shop_handles
  open_alike := by
    rintro f ⟨⟩ path flags w w' -
    exact Int.natCast_nonneg _
  open_seen := by
    rintro f ⟨⟩ path flags w
    rfl
  read_seen := by
    rintro f ⟨⟩ handle key buffer size w
    exact congrArg (·, numberedBound w.2) (shop_maps.read_seen _ rfl handle key buffer size w.1)
  size_seen := by
    rintro f ⟨⟩ handle key w
    exact congrArg (·, numberedBound w.2) (shop_maps.size_seen _ rfl handle key w.1)
  read_loaded := rfl
  size_loaded := rfl
  delete_loaded := rfl
  notFound_neg := show (-1 : ℤ) < 0 by decide
  read := by
    rintro f ⟨⟩ handle path key buffer size w d hbound hentry
    split
    · rename_i hfits
      exact shop_maps.read _ rfl handle path key buffer size w.1 d hbound hentry
        (of_decide_eq_true hfits)
    · rename_i hfits
      have hlong : ¬ (d.length : ℤ) ≤ size := fun hle => hfits (decide_eq_true hle)
      refine (shop_reads.read_refused _ rfl handle path key buffer size w.1 (.plain d) hbound ?_
        (decide_eq_false hlong)).1
      exact congrArg (Option.map DbEntry.plain) hentry
  read_missing := by
    rintro f ⟨⟩ handle path key buffer size w hbound hentry
    exact shop_reads.read_missing _ rfl handle path key buffer size w.1 hbound
      (congrArg (Option.map DbEntry.plain) hentry)
  size := by
    rintro f ⟨⟩ handle path key w d hbound hentry
    exact shop_maps.size _ rfl handle path key w.1 d hbound hentry
  size_missing := by
    rintro f ⟨⟩ handle path key w hbound hentry
    dsimp only [onStore]
    rw [Store.get_of_bound hbound, show w.1.entries path key = none from hentry]
    rfl
  write := by
    rintro f ⟨⟩ handle path key buffer size w hbound
    split
    · rename_i hpos
      exact shop_maps.write _ rfl handle path key buffer size w.1 hbound hpos
    · rename_i hneg
      dsimp only [onStore, shopView] at hneg hbound ⊢
      rw [hbound] at hneg ⊢
      dsimp only at hneg ⊢
      split
      · rfl
      · rename_i hsize
        rw [if_neg hsize] at hneg
        exact absurd (not_lt.mp hsize) hneg
  write_tables := by
    rintro f ⟨⟩ handle key buffer size w
    rfl
  delete := by
    rintro f ⟨⟩ handle path key w hbound
    refine ⟨?_, shop_maps.delete _ rfl handle path key w.1 hbound⟩
    split
    · rename_i hthere
      obtain ⟨d, hd⟩ := Option.isSome_iff_exists.mp hthere
      dsimp only [onStore, shopView] at hbound hd ⊢
      rw [hbound]
      dsimp only
      rw [hd]
    · rename_i hthere
      have hd := Option.not_isSome_iff_eq_none.mp hthere
      dsimp only [onStore, shopView] at hbound hd ⊢
      rw [hbound]
      dsimp only
      rw [hd]
      rfl
  delete_tables := by
    rintro f ⟨⟩ handle key w
    rfl
  close_seen := by
    rintro f ⟨⟩ handle w
    dsimp only [onStore, shopView, StoreView.seen]
    split <;> rfl

theorem shop_tables : TableLaws Plugin.shop shopView shopTables where
  open_loaded := rfl
  read_loaded := rfl
  opened := by
    rintro f ⟨⟩ path table flags w -
    exact ⟨Int.natCast_nonneg _,
      numbered_laws.opened _ rfl path flags w.2 (Int.natCast_nonneg _)⟩
  notOpened := by rintro f ⟨⟩ path error flags w ⟨⟩
  open_data := by
    rintro f ⟨⟩ path flags w
    rfl
  read := by
    rintro f ⟨⟩ handle path table id w hbound ⟨⟩
    dsimp only [shopView] at hbound ⊢
    rw [hbound]
  read_seen := by
    rintro f ⟨⟩ handle id w
    rfl

def shopSetup : Setup Shop := ⟨(storeSetup (localKeyEntry .wc)).com, cstr "app", .shop⟩

def shopLibrary : Library Shop where
  client := .start .empty .empty
  world := (⟨[], fun _ _ => none⟩, [])

def shopKey (id : CStr) : KeyResource := ⟨⟨pclLdbidLocal, 1, 0⟩, id⟩

inductive InShop : StoreEvent → Prop
  | call {id : CStr} (access : KeyAccess) : id ∈ [cstr "volume", cstr "tone"] →
      InShop (.call plainFrame (shopKey id) access)
  | closeAll : InShop .closeAll

theorem shop_entry {id : CStr} (hid : id ∈ [cstr "volume", cstr "tone"]) :
    entryIn shopSetup shopTables (shopKey id) = .ok (localKeyEntry .wc) := by
  have hnamed : id = cstr "volume" ∨ id = cstr "tone" := by simpa using hid
  rw [entryIn, shopTables]
  dsimp only [shopKey]
  rw [if_pos hnamed]

theorem shop_context {id : CStr} (hid : id ∈ [cstr "volume", cstr "tone"]) :
    (contextIn shopSetup shopTables plainFrame (shopKey id)).configKey = localKeyEntry .wc ∧
      (contextIn shopSetup shopTables plainFrame (shopKey id)).dbPath = cstr "/Data/mnt-c/app" := by
  rw [contextIn_of_entry (shop_entry hid)]
  refine ⟨contextOfEntry_configKey .., ?_⟩
  have hnamed : id = cstr "volume" ∨ id = cstr "tone" := by simpa using hid
  rcases hnamed with rfl | rfl <;> decide +kernel

theorem shop_stored {e : StoreEvent} (h : InShop e) : e.Stored shopSetup shopTables := by
  cases h with
  | call access hid =>
    rw [StoreEvent.Stored, (shop_context hid).1]
    decide
  | closeAll => trivial

theorem shop_separate {events : List StoreEvent} (h : ∀ e ∈ events, InShop e) :
    Separate shopSetup (requestsOf shopSetup shopTables events) := by
  have hget : ∀ g ∈ requestsOf shopSetup shopTables events, ∃ t,
      g = keyGet ⟨⟨pclLdbidLocal, 1, 0⟩, localKeyEntry .wc⟩ (cstr "/Data/mnt-c/app") t := by
    rintro g ⟨e, he, hg⟩
    cases h e he with
    | call access hid =>
      obtain ⟨t, -, rfl⟩ := hg
      rw [(shop_context hid).1, (shop_context hid).2]
      exact ⟨t, rfl⟩
    | closeAll => cases hg
  intro g hg g' hg' hslot
  obtain ⟨t, rfl⟩ := hget g hg
  obtain ⟨t', rfl⟩ := hget g' hg'
  obtain rfl : t = t' := congrArg Prod.snd hslot
  rfl

/-- A volume is written, all databases are closed, and it is read. -/
def closedBetween : List StoreEvent :=
  [.call plainFrame (shopKey (cstr "volume")) (.write [0x35] 1), .closeAll,
    .call plainFrame (shopKey (cstr "volume")) (.read [0, 0] 2)]

theorem closed_between_as_store :
    ∃ rs lib', performEvents shopSetup closedBetween shopLibrary = some (rs, lib') ∧
      RunServed shopSetup shopTables shopLibrary.world shopLibrary.client
        (shopView.data shopLibrary.world) closedBetween rs (shopView.data lib'.world) := by
  have hshop : ∀ e ∈ closedBetween, InShop e := by
    intro e he
    simp only [closedBetween, List.mem_cons, List.not_mem_nil, or_false] at he
    rcases he with rfl | rfl | rfl
    · exact .call _ (by simp)
    · exact .closeAll
    · exact .call _ (by simp)
  exact runs_as_store shop_databases shop_tables closedBetween
    (fun e he => shop_stored (hshop e he)) (shop_separate hshop) (fun _ => rfl) fun _ => rfl

/-- Another key is written and deleted between the write and the read of a volume. -/
def toneEvents : List StoreEvent :=
  [.call plainFrame (shopKey (cstr "tone")) (.write [0x36] 1),
    .call plainFrame (shopKey (cstr "tone")) .delete]

def toneBetween : List StoreEvent :=
  [] ++ .call plainFrame (shopKey (cstr "volume")) (.write [0x35] 1) ::
    (toneEvents ++ [.call plainFrame (shopKey (cstr "volume")) (.read [0, 0] 2)])

theorem tone_spares {e : StoreEvent} (he : e ∈ toneEvents) :
    e.Spares shopSetup shopTables shopLibrary.world
      (resourceShelf shopSetup shopTables shopLibrary.world plainFrame
        (shopKey (cstr "volume"))).own := by
  have hkeys : (resourceShelf shopSetup shopTables shopLibrary.world plainFrame
      (shopKey (cstr "tone"))).written.key ≠ (resourceShelf shopSetup shopTables shopLibrary.world
        plainFrame (shopKey (cstr "volume"))).own.key ∧
      (resourceShelf shopSetup shopTables shopLibrary.world plainFrame
        (shopKey (cstr "tone"))).own.key ≠ (resourceShelf shopSetup shopTables shopLibrary.world
          plainFrame (shopKey (cstr "volume"))).own.key := by decide +kernel
  simp only [toneEvents, List.mem_cons, List.not_mem_nil, or_false] at he
  rcases he with rfl | rfl
  · exact fun heq => hkeys.1 (congrArg Place.key heq)
  · exact fun heq => hkeys.2 (congrArg Place.key heq)

theorem tone_between_volume_stays :
    ∃ rs lib' n r, performEvents shopSetup toneBetween shopLibrary = some (rs, lib') ∧
      rs[0]? = some (n, []) ∧ 0 ≤ n ∧ rs.getLast? = some r ∧ Delivers r [0x35] := by
  have hruns : (performEvents shopSetup toneBetween shopLibrary).map (·.1[0]?) =
      some (some (1, [])) := by decide +kernel
  obtain ⟨⟨rs, lib'⟩, hrun, hfirst⟩ := Option.map_eq_some_iff.mp hruns
  have hshop : ∀ e ∈ toneBetween, InShop e := by
    intro e he
    simp only [toneBetween, toneEvents, List.nil_append, List.cons_append, List.mem_cons,
      List.not_mem_nil, or_false] at he
    rcases he with rfl | rfl | rfl | rfl <;> exact .call _ (by simp)
  obtain ⟨n, r, hwritten, hlast, hstays⟩ := written_data_stay shop_databases shop_tables
    (fun _ => rfl) (fun _ => rfl) (shop_entry (by simp)) rfl (by decide) [] toneEvents plainFrame
    plainFrame [0x35] [0, 0] 1 2 (fun e he => tone_spares he)
    (fun e he => shop_stored (hshop e he)) (shop_separate hshop) hrun
  have hn : n = 1 := by
    have hsame := hwritten.symm.trans hfirst
    cases hsame
    rfl
  have hnonneg : 0 ≤ n := by omega
  exact ⟨rs, lib', n, r, hrun, hwritten, hnonneg, hlast, hstays hnonneg (by decide)⟩

end Example

end PersClient.Key
