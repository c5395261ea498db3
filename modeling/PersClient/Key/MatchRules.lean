import PersClient.Lib.MatchRule
import PersClient.Access.Notification
import PersClient.Key.Calls
import PersClient.Prct.Namespaces

/-! # The match rules of a registration

A registration asks the bus for the signals of its context by three rules. The
resource id and the numbers are pasted into the rules as they are, and a rule is
cut to its buffer.
-/

namespace PersClient.Key

open Access Prct Text MatchRule

section Rules

def dbusMatchRuleSize : ℕ := 300

inductive BusRequest
  | addMatch (rule : CStr)
  | removeMatch (rule : CStr)
  deriving DecidableEq, Repr

variable (notifyLdbid notifyUserNo notifySeatNo : UInt32) (notifyKey : CStr)

def registrationText (member : CStr) : CStr :=
  cstr "type='signal',interface='org.genivi.persistence.adminconsumer',member='" ++ member ++
    cstr "',path='/org/genivi/persistence/adminconsumer',arg0='" ++ notifyKey ++
    cstr "',arg1='" ++ decimal notifyLdbid.toNat ++
    cstr "',arg2='" ++ decimal notifyUserNo.toNat ++
    cstr "',arg3='" ++ decimal notifySeatNo.toNat ++ cstr "'"

def ruleChanged : CStr :=
  snprintf dbusMatchRuleSize
    (registrationText notifyLdbid notifyUserNo notifySeatNo notifyKey (cstr "PersistenceResChange"))

def ruleDeleted : CStr :=
  snprintf dbusMatchRuleSize
    (registrationText notifyLdbid notifyUserNo notifySeatNo notifyKey (cstr "PersistenceResDelete"))

def ruleCreated : CStr :=
  snprintf dbusMatchRuleSize
    (registrationText notifyLdbid notifyUserNo notifySeatNo notifyKey (cstr "PersistenceResCreate"))

def processRegNotificationSignal (notifyPolicy : UInt32) : List BusRequest :=
  let ruleChanged := ruleChanged notifyLdbid notifyUserNo notifySeatNo notifyKey
  let ruleDeleted := ruleDeleted notifyLdbid notifyUserNo notifySeatNo notifyKey
  let ruleCreated := ruleCreated notifyLdbid notifyUserNo notifySeatNo notifyKey
  if notifyPolicy = PersNotifyRegPolicy.register.code then
    [.addMatch ruleChanged, .addMatch ruleDeleted, .addMatch ruleCreated]
  else if notifyPolicy = PersNotifyRegPolicy.unregister.code then
    [.removeMatch ruleChanged, .removeMatch ruleDeleted, .removeMatch ruleCreated]
  else []

def registrationPairs (member : CStr) : List (CStr × CStr) :=
  [(cstr "type", cstr "signal"), (cstr "interface", gDbusPersAdminConsInterface),
    (cstr "member", member), (cstr "path", gPersAdminConsumerPath), (cstr "arg0", notifyKey),
    (cstr "arg1", decimal notifyLdbid.toNat), (cstr "arg2", decimal notifyUserNo.toNat),
    (cstr "arg3", decimal notifySeatNo.toNat)]

theorem registrationText_eq (member : CStr) :
    registrationText notifyLdbid notifyUserNo notifySeatNo notifyKey member =
      ruleText (registrationPairs notifyLdbid notifyUserNo notifySeatNo notifyKey member) := by
  simp [registrationText, registrationPairs, ruleText, pairText, List.intercalate_cons_cons,
    List.intercalate_singleton, gDbusPersAdminConsInterface, gPersAdminConsumerPath, cstr_eq]

end Rules

section Bus

def typeName : MessageType → CStr
  | .signal => cstr "signal"
  | .methodCall => cstr "method_call"

def argNumber (name : CStr) : Option ℕ :=
  (List.range 64).find? fun n => name = cstr "arg" ++ decimal n

variable (others : CStr → CStr → DBusMessage → Bool)

/-- A message fulfils a pair of a rule. What the bus makes of the names that no
rule is meant to have is left open. -/
def fulfils (message : DBusMessage) (name value : CStr) : Bool :=
  if name = cstr "type" then value = typeName message.type
  else if name = cstr "interface" then value = message.interface
  else if name = cstr "member" then value = message.member
  else if name = cstr "path" then value = message.path
  else
    match argNumber name with
    | some n => message.args[n]? = some value
    | none => others name value message

def Forwards (rule : CStr) (message : DBusMessage) : Prop :=
  Selects (fun name value => fulfils others message name value) rule

/-- The rules for a context, each with the kind of signal it asks for. -/
def registrationRules (X : KeyResource) : List (NotifyStatus × CStr) :=
  [(.changed, ruleChanged X.context.ldbid X.context.userNo X.context.seatNo X.resourceId),
    (.deleted, ruleDeleted X.context.ldbid X.context.userNo X.context.seatNo X.resourceId),
    (.created, ruleCreated X.context.ldbid X.context.userNo X.context.seatNo X.resourceId)]

def contextSignal (Y : KeyResource) (reason : NotifyStatus) : Option DBusMessage :=
  processSendNotificationSignal Y.context.ldbid Y.context.userNo Y.context.seatNo reason.code
    Y.resourceId

/-- Every rule of a registration selects the signals of its kind and context,
and no others. -/
def SelectsOwn (com : CommonObject) (X : KeyResource) : Prop :=
  ∀ kind rule, (kind, rule) ∈ registrationRules X →
    ∀ (Y : KeyResource) (reason : NotifyStatus) (message : DBusMessage),
      Y.resourceId.length < com.maxLengthKeyName → contextSignal Y reason = some message →
        (Forwards others rule message ↔ reason = kind ∧ X = Y)

/-- The characters of a context in a rule. -/
def contextLength (X : KeyResource) : ℕ :=
  X.resourceId.length + (decimal X.context.ldbid.toNat).length +
    (decimal X.context.userNo.toNat).length + (decimal X.context.seatNo.toNat).length

end Bus

section Selection

variable {others : CStr → CStr → DBusMessage → Bool}

theorem processRegNotificationSignal_register (X : KeyResource) :
    processRegNotificationSignal X.context.ldbid X.context.userNo X.context.seatNo X.resourceId
        PersNotifyRegPolicy.register.code =
      (registrationRules X).map fun p => .addMatch p.2 := rfl

theorem fulfils_type (message : DBusMessage) (value : CStr) :
    fulfils others message (cstr "type") value ↔ value = typeName message.type := by
  rw [fulfils, if_pos rfl]
  exact decide_eq_true_iff

theorem fulfils_interface (message : DBusMessage) (value : CStr) :
    fulfils others message (cstr "interface") value ↔ value = message.interface := by
  rw [fulfils, if_neg (by simp [cstr_eq]), if_pos rfl]
  exact decide_eq_true_iff

theorem fulfils_member (message : DBusMessage) (value : CStr) :
    fulfils others message (cstr "member") value ↔ value = message.member := by
  rw [fulfils, if_neg (by simp [cstr_eq]), if_neg (by simp [cstr_eq]), if_pos rfl]
  exact decide_eq_true_iff

theorem fulfils_path (message : DBusMessage) (value : CStr) :
    fulfils others message (cstr "path") value ↔ value = message.path := by
  rw [fulfils, if_neg (by simp [cstr_eq]), if_neg (by simp [cstr_eq]),
    if_neg (by simp [cstr_eq]), if_pos rfl]
  exact decide_eq_true_iff

theorem argNumber_arg {n : ℕ} (hn : n < 64) : argNumber (cstr "arg" ++ decimal n) = some n := by
  unfold argNumber
  rw [List.find?_range_eq_some]
  refine ⟨by simp, List.mem_range.mpr hn, ?_⟩
  intro m hm
  simpa using fun h => Nat.ne_of_lt hm (decimal_injective h).symm

theorem fulfils_arg {message : DBusMessage} {n : ℕ} (hn : n < 64) (value : CStr) :
    fulfils others message (cstr "arg" ++ decimal n) value ↔ message.args[n]? = some value := by
  unfold fulfils
  rw [argNumber_arg hn]
  simp [cstr_eq]

def contextMessage (Y : KeyResource) (member : CStr) : DBusMessage where
  type := .signal
  path := gPersAdminConsumerPath
  interface := gDbusPersAdminConsInterface
  member
  args := [Y.resourceId, decimal Y.context.ldbid.toNat, decimal Y.context.userNo.toNat,
    decimal Y.context.seatNo.toNat]

theorem contextSignal_eq (Y : KeyResource) (reason : NotifyStatus) :
    contextSignal Y reason = (notifyReasonString reason.code).map (contextMessage Y) := by
  simp only [contextSignal, processSendNotificationSignal, snprintf_decimal]
  rfl

def contextPairs (X : KeyResource) (member : CStr) : List (CStr × CStr) :=
  registrationPairs X.context.ldbid X.context.userNo X.context.seatNo X.resourceId member

def headerPairs (member : CStr) : List (CStr × CStr) :=
  [(cstr "type", cstr "signal"), (cstr "interface", gDbusPersAdminConsInterface),
    (cstr "member", member), (cstr "path", gPersAdminConsumerPath)]

def numberPairs (X : KeyResource) : List (CStr × CStr) :=
  [(cstr "arg1", decimal X.context.ldbid.toNat), (cstr "arg2", decimal X.context.userNo.toNat),
    (cstr "arg3", decimal X.context.seatNo.toNat)]

theorem contextPairs_eq (X : KeyResource) (member : CStr) :
    contextPairs X member =
      headerPairs member ++ (cstr "arg0", X.resourceId) :: numberPairs X := rfl

theorem mem_registrationRules {X : KeyResource} {kind : NotifyStatus} {rule : CStr}
    (h : (kind, rule) ∈ registrationRules X) :
    ∃ member, notifyReasonString kind.code = some member ∧
      rule = (ruleText (contextPairs X member)).take 299 := by
  simp only [registrationRules, List.mem_cons, List.not_mem_nil, or_false, Prod.mk.injEq] at h
  rcases h with ⟨rfl, rfl⟩ | ⟨rfl, rfl⟩ | ⟨rfl, rfl⟩
  · exact ⟨gChangeSignal, rfl, congrArg _ (registrationText_eq ..)⟩
  · exact ⟨gDeleteSignal, rfl, congrArg _ (registrationText_eq ..)⟩
  · exact ⟨gCreateSignal, rfl, congrArg _ (registrationText_eq ..)⟩

theorem member_cases {reason : NotifyStatus} {member : CStr}
    (h : notifyReasonString reason.code = some member) :
    (reason = .deleted ∧ member = gDeleteSignal) ∨ (reason = .created ∧ member = gCreateSignal) ∨
      (reason = .changed ∧ member = gChangeSignal) := by
  cases reason with
  | noChanged => cases h
  | lastEntry => cases h
  | deleted => exact Or.inl ⟨rfl, (Option.some.inj h).symm⟩
  | created => exact Or.inr (Or.inl ⟨rfl, (Option.some.inj h).symm⟩)
  | changed => exact Or.inr (Or.inr ⟨rfl, (Option.some.inj h).symm⟩)

theorem member_text {reason : NotifyStatus} {member : CStr}
    (h : notifyReasonString reason.code = some member) : member.length = 20 ∧ '\'' ∉ member := by
  rcases member_cases h with ⟨-, rfl⟩ | ⟨-, rfl⟩ | ⟨-, rfl⟩
  · simp [gDeleteSignal, cstr_eq]
  · simp [gCreateSignal, cstr_eq]
  · simp [gChangeSignal, cstr_eq]

theorem member_inj {reason kind : NotifyStatus} {member : CStr}
    (hreason : notifyReasonString reason.code = some member)
    (hkind : notifyReasonString kind.code = some member) : reason = kind := by
  have hmembers : gDeleteSignal ≠ gCreateSignal ∧ gDeleteSignal ≠ gChangeSignal ∧
      gCreateSignal ≠ gChangeSignal := by
    simp [gDeleteSignal, gCreateSignal, gChangeSignal, cstr_eq]
  obtain ⟨hdc, hdg, hcg⟩ := hmembers
  rcases member_cases hreason with ⟨rfl, rfl⟩ | ⟨rfl, rfl⟩ | ⟨rfl, rfl⟩ <;>
    rcases member_cases hkind with ⟨rfl, heq⟩ | ⟨rfl, heq⟩ | ⟨rfl, heq⟩ <;>
      first | rfl | exact absurd heq (by assumption) | exact absurd heq.symm (by assumption)

theorem length_contextPairs (X : KeyResource) {member : CStr} (hmember : member.length = 20) :
    (ruleText (contextPairs X member)).length = 169 + contextLength X := by
  simp [contextPairs, registrationPairs, ruleText, pairText, List.intercalate_cons_cons,
    List.intercalate_singleton, gDbusPersAdminConsInterface, gPersAdminConsumerPath, cstr_eq,
    contextLength, hmember]
  omega

theorem names_nodup (X : KeyResource) (member : CStr) :
    ((contextPairs X member).map Prod.fst).Nodup := by
  simp [contextPairs, registrationPairs, cstr_eq]

theorem fulfils_headerPairs (Y : KeyResource) (member member' : CStr) :
    (∀ p ∈ headerPairs member, fulfils others (contextMessage Y member') p.1 p.2) ↔
      member = member' := by
  simp [headerPairs, fulfils_type, fulfils_interface, fulfils_member, fulfils_path,
    contextMessage, typeName]

theorem arg_names : cstr "arg0" = cstr "arg" ++ decimal 0 ∧ cstr "arg1" = cstr "arg" ++ decimal 1 ∧
    cstr "arg2" = cstr "arg" ++ decimal 2 ∧ cstr "arg3" = cstr "arg" ++ decimal 3 := by
  simp only [cstr_eq]
  decide

theorem fulfils_resourceId (Y : KeyResource) (member value : CStr) :
    fulfils others (contextMessage Y member) (cstr "arg0") value ↔ Y.resourceId = value := by
  rw [arg_names.1, fulfils_arg (by decide)]
  simp [contextMessage]

theorem fulfils_numberPairs (X Y : KeyResource) (member : CStr) :
    (∀ p ∈ numberPairs X, fulfils others (contextMessage Y member) p.1 p.2) ↔
      X.context = Y.context := by
  obtain ⟨-, h1, h2, h3⟩ := arg_names
  have hnumber (m n : UInt32) : decimal n.toNat = decimal m.toNat ↔ m = n := by
    rw [decimal_injective.eq_iff, UInt32.toNat_inj, eq_comm]
  obtain ⟨⟨ldbid, userNo, seatNo⟩, resourceId⟩ := X
  obtain ⟨⟨ldbid', userNo', seatNo'⟩, resourceId'⟩ := Y
  simp only [numberPairs, List.forall_mem_cons, h1, h2, h3, fulfils_arg (show 1 < 64 by decide),
    fulfils_arg (show 2 < 64 by decide), fulfils_arg (show 3 < 64 by decide)]
  simp [contextMessage, hnumber]

/-- A message has all the pairs of a rule exactly when it is of its kind and context. -/
theorem fulfils_contextPairs (X Y : KeyResource) (member member' : CStr) :
    (∀ p ∈ contextPairs X member, fulfils others (contextMessage Y member') p.1 p.2) ↔
      member = member' ∧ X = Y := by
  rw [contextPairs_eq, List.forall_mem_append, List.forall_mem_cons, fulfils_headerPairs,
    fulfils_resourceId, fulfils_numberPairs]
  obtain ⟨context, resourceId⟩ := X
  obtain ⟨context', resourceId'⟩ := Y
  rw [KeyResource.mk.injEq]
  constructor
  · rintro ⟨hmember, hresource, hcontext⟩
    exact ⟨hmember, hcontext, hresource.symm⟩
  · rintro ⟨hmember, hcontext, hresource⟩
    exact ⟨hmember, hresource.symm, hcontext⟩

theorem writable_contextPairs {X : KeyResource} (hid : '\'' ∉ X.resourceId) {member : CStr}
    (hmember : '\'' ∉ member) : ∀ p ∈ contextPairs X member, Writable p := by
  have hdecimal (n : ℕ) : '\'' ∉ decimal n :=
    fun h => absurd (isDigit_of_mem_decimal h) (by decide)
  intro p hp
  simp only [contextPairs, registrationPairs, List.mem_cons, List.not_mem_nil, or_false] at hp
  rcases hp with rfl | rfl | rfl | rfl | rfl | rfl | rfl | rfl
  · simp [Writable, cstr_eq]
  · simp [Writable, cstr_eq, gDbusPersAdminConsInterface]
  · simpa [Writable, cstr_eq] using hmember
  · simp [Writable, cstr_eq, gPersAdminConsumerPath]
  · simpa [Writable, cstr_eq] using hid
  · simpa [Writable, cstr_eq] using hdecimal _
  · simpa [Writable, cstr_eq] using hdecimal _
  · simpa [Writable, cstr_eq] using hdecimal _

/-- A rule that fits its buffer and has no apostrophe to mislead the reader
selects the signals of its context. -/
theorem forwards_iff_of_fits {X : KeyResource} (hid : '\'' ∉ X.resourceId)
    (hfits : contextLength X ≤ 130) {member : CStr} (hlength : member.length = 20)
    (hmember : '\'' ∉ member) (Y : KeyResource) (member' : CStr) :
    Forwards others ((ruleText (contextPairs X member)).take 299) (contextMessage Y member') ↔
      member = member' ∧ X = Y := by
  have htake : (ruleText (contextPairs X member)).take 299 = ruleText (contextPairs X member) := by
    apply List.take_of_length_le
    rw [length_contextPairs X hlength]
    omega
  have hread := read_ruleText (writable_contextPairs hid hmember)
  rw [htake, ← fulfils_contextPairs]
  constructor
  · rintro ⟨pairs, hpairs, -, hholds⟩
    obtain rfl := Option.some.inj (hread.symm.trans hpairs)
    exact hholds
  · intro hholds
    exact ⟨_, hread, names_nodup X member, hholds⟩

theorem not_forwards_of_apostrophe {X : KeyResource} (hid : '\'' ∈ X.resourceId) {member : CStr}
    (hlength : member.length = 20) (hmember : '\'' ∉ member) (member' : CStr) :
    ¬ Forwards others ((ruleText (contextPairs X member)).take 299) (contextMessage X member') := by
  rintro ⟨pairs, hpairs, -, hholds⟩
  have hheader : ∀ p ∈ headerPairs member, Writable p := fun p hp =>
    writable_contextPairs (X := ⟨X.context, []⟩) (by simp) hmember p
      (contextPairs_eq _ member ▸ List.mem_append_left _ hp)
  have hfree : '\\' ∉ ruleText (numberPairs X) := by
    have hdecimal (n : ℕ) : '\\' ∉ decimal n :=
      fun h => absurd (isDigit_of_mem_decimal h) (by decide)
    simp [numberPairs, ruleText, pairText, List.intercalate_cons_cons, List.intercalate_singleton,
      cstr_eq, hdecimal]
  have hroom : (ruleText (headerPairs member)).length + (cstr "arg0").length + 3 ≤ 299 := by
    simp [headerPairs, ruleText, pairText, List.intercalate_cons_cons, List.intercalate_singleton,
      gDbusPersAdminConsInterface, gPersAdminConsumerPath, cstr_eq, hlength]
  rw [contextPairs_eq] at hpairs
  obtain ⟨w, hw, hne⟩ := read_take_pasted (by simp [headerPairs]) hheader (by simp [cstr_eq]) hid
    (by simp [numberPairs]) hfree hroom hpairs
  exact hne ((fulfils_resourceId X member' w).mp (hholds _ hw)).symm

def otherSeat (X : KeyResource) : KeyResource :=
  { X with context := { X.context with seatNo := X.context.seatNo + 1 } }

theorem otherSeat_ne (X : KeyResource) : X ≠ otherSeat X := by
  intro h
  have hseat : X.context.seatNo = X.context.seatNo + 1 :=
    congrArg (fun Y : KeyResource => Y.context.seatNo) h
  simp at hseat

def seatlessPairs (X : KeyResource) (member : CStr) : List (CStr × CStr) :=
  headerPairs member ++ [(cstr "arg0", X.resourceId),
    (cstr "arg1", decimal X.context.ldbid.toNat), (cstr "arg2", decimal X.context.userNo.toNat)]

theorem fulfils_otherSeat {X : KeyResource} {member member' : CStr} {p : CStr × CStr}
    (hp : p ∈ seatlessPairs X member) (value : CStr)
    (h : fulfils others (contextMessage X member') p.1 value) :
    fulfils others (contextMessage (otherSeat X) member') p.1 value := by
  obtain ⟨-, h1, h2, -⟩ := arg_names
  simp only [seatlessPairs, headerPairs, List.cons_append, List.nil_append, List.mem_cons,
    List.not_mem_nil, or_false] at hp
  rcases hp with rfl | rfl | rfl | rfl | rfl | rfl | rfl
  · rwa [fulfils_type] at h ⊢
  · rwa [fulfils_interface] at h ⊢
  · rwa [fulfils_member] at h ⊢
  · rwa [fulfils_path] at h ⊢
  · rwa [fulfils_resourceId] at h ⊢
  · rwa [h1, fulfils_arg (by decide)] at h ⊢
  · rwa [h2, fulfils_arg (by decide)] at h ⊢

theorem not_fulfils_seat (Y : KeyResource) (member : CStr) :
    ¬ fulfils others (contextMessage Y member) (cstr "arg3") [] := by
  obtain ⟨-, -, -, h3⟩ := arg_names
  rw [h3, fulfils_arg (by decide)]
  intro h
  exact Nat.toDigits_ne_nil (Option.some.inj h)

/-- A rule cut at its end does not ask for the seat: what it selects of its own
context it selects of another seat, too. -/
theorem forwards_otherSeat {X : KeyResource} (hid : '\'' ∉ X.resourceId)
    (hlong : 130 < contextLength X) {member : CStr} (hlength : member.length = 20)
    (hmember : '\'' ∉ member) {member' : CStr}
    (h : Forwards others ((ruleText (contextPairs X member)).take 299) (contextMessage X member')) :
    Forwards others ((ruleText (contextPairs X member)).take 299)
      (contextMessage (otherSeat X) member') := by
  obtain ⟨pairs, hpairs, hnodup, hholds⟩ := h
  have hcut : 299 < (ruleText (contextPairs X member)).length := by
    rw [length_contextPairs X hlength]
    omega
  obtain ⟨init, p, rest, hsplit, hinit⟩ :=
    read_ruleText_take (writable_contextPairs hid hmember) hcut hpairs
  have hwhole : contextPairs X member =
      seatlessPairs X member ++ [(cstr "arg3", decimal X.context.seatNo.toNat)] := rfl
  have hfront : init <+: seatlessPairs X member := by
    have hprefix : init <+: contextPairs X member := hsplit ▸ List.prefix_append ..
    rw [hwhole] at hprefix hsplit
    rcases List.prefix_concat_iff.mp hprefix with hall | hfront
    · have hshort := congrArg List.length hsplit
      rw [← hall] at hshort
      simp at hshort
    · exact hfront
  refine ⟨pairs, hpairs, hnodup, ?_⟩
  intro q hq
  have hown := hholds q hq
  have hcases : q ∈ init ∨ q = (p.1, []) := by
    rcases hinit with rfl | rfl
    · exact Or.inl hq
    · simpa using hq
  rcases hcases with hmem | rfl
  · exact fulfils_otherSeat (hfront.subset hmem) q.2 hown
  · have hp : p ∈ contextPairs X member := hsplit ▸ by simp
    rw [hwhole, List.mem_append, List.mem_singleton] at hp
    rcases hp with hp | rfl
    · exact fulfils_otherSeat hp [] hown
    · exact absurd hown (not_fulfils_seat X member')

/-- A registration selects exactly its own signals as long as its resource id has
no apostrophe and leaves room for its numbers. -/
theorem selects_own_iff (others : CStr → CStr → DBusMessage → Bool) (com : CommonObject)
    (X : KeyResource) (hX : X.resourceId.length < com.maxLengthKeyName) :
    SelectsOwn others com X ↔ '\'' ∉ X.resourceId ∧ contextLength X ≤ 130 := by
  constructor
  · intro h
    have hchange : (NotifyStatus.changed, ruleChanged X.context.ldbid X.context.userNo
        X.context.seatNo X.resourceId) ∈ registrationRules X := List.mem_cons_self
    obtain ⟨member, hkind, hrule⟩ := mem_registrationRules hchange
    obtain ⟨hlength, hmember⟩ := member_text hkind
    have hsignal (Y : KeyResource) :
        contextSignal Y .changed = some (contextMessage Y member) := by
      rw [contextSignal_eq, hkind, Option.map_some]
    have hown := (h _ _ hchange X .changed _ hX (hsignal X)).mpr ⟨rfl, rfl⟩
    rw [hrule] at hown
    have hid : '\'' ∉ X.resourceId := fun hid =>
      not_forwards_of_apostrophe hid hlength hmember member hown
    refine ⟨hid, ?_⟩
    by_contra hlong
    have hother := forwards_otherSeat hid (Nat.lt_of_not_le hlong) hlength hmember hown
    rw [← hrule] at hother
    exact otherSeat_ne X ((h _ _ hchange (otherSeat X) .changed _ hX (hsignal _)).mp hother).2
  · rintro ⟨hid, hfits⟩ kind rule hrule Y reason message - hmessage
    obtain ⟨member, hkind, rfl⟩ := mem_registrationRules hrule
    obtain ⟨hlength, hmember⟩ := member_text hkind
    rw [contextSignal_eq] at hmessage
    obtain ⟨member', hreason, rfl⟩ := Option.map_eq_some_iff.mp hmessage
    rw [forwards_iff_of_fits hid hfits hlength hmember]
    constructor
    · rintro ⟨rfl, hXY⟩
      exact ⟨member_inj hreason hkind, hXY⟩
    · rintro ⟨rfl, hXY⟩
      exact ⟨Option.some.inj (hkind.symm.trans hreason), hXY⟩

theorem plain_id_selects_own :
    SelectsOwn (fun _ _ _ => false) .standard ⟨⟨0xFF, 1, 2⟩, ['a']⟩ :=
  (selects_own_iff _ .standard ⟨⟨0xFF, 1, 2⟩, ['a']⟩ (by decide)).mpr
    ⟨by decide, by simp [contextLength]; decide⟩

/-- A registration for a resource id with an apostrophe does not select the
changes of this resource. -/
theorem apostrophe_selects_nothing :
    ¬ ∀ X : KeyResource, X.resourceId.length < CommonObject.standard.maxLengthKeyName →
      SelectsOwn (fun _ _ _ => false) .standard X := by
  intro h
  have hown := h ⟨⟨0xFF, 1, 2⟩, ['i', 't', '\'', 's']⟩ (by decide) .changed _ List.mem_cons_self
    ⟨⟨0xFF, 1, 2⟩, ['i', 't', '\'', 's']⟩ .changed (contextMessage _ gChangeSignal) (by decide)
    (contextSignal_eq _ _)
  have hmem : (NotifyStatus.changed, ruleChanged 0xFF 1 2 ['i', 't', '\'', 's']) ∈
      registrationRules ⟨⟨0xFF, 1, 2⟩, ['i', 't', '\'', 's']⟩ := List.mem_cons_self
  obtain ⟨member, hkind, hrule⟩ := mem_registrationRules hmem
  obtain ⟨hlength, hmember⟩ := member_text hkind
  rw [hrule] at hown
  exact not_forwards_of_apostrophe (by decide) hlength hmember gChangeSignal (hown.mpr ⟨rfl, rfl⟩)

end Selection

end PersClient.Key
