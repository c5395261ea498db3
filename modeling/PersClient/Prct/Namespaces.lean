import PersClient.Prct.Address

/-! # Which resources share an address

The address of a key resource is read back field by field: the database names
the policy and the group, the key names the namespace, the user and then either
the resource id or a seat in front of it. Only the last choice is ambiguous.
-/

namespace PersClient.Prct

open Text

variable {com : CommonObject}

/-- A resource of type key as an application names it. -/
structure KeyResource where
  context : PersistenceDbContext
  resourceId : CStr
  deriving DecidableEq, Repr

def Numbered (ldbid : UInt32) : Prop := ¬ (ldbid < 0x80 ∨ ldbid = pclLdbidLocal)

instance (ldbid : UInt32) : Decidable (Numbered ldbid) := by
  unfold Numbered
  infer_instance

/-- The resource id of `X` spells the seat and the resource id of `Y`, which
agrees with `X` otherwise and whose keys carry the user. -/
def SeatAlias (X Y : KeyResource) : Prop :=
  X.context.ldbid = Y.context.ldbid ∧ X.context.userNo = Y.context.userNo ∧
    X.context.seatNo = 0 ∧ Y.context.seatNo ≠ 0 ∧
    X.resourceId = cstr "seat/" ++ decimal Y.context.seatNo.toNat ++ '/' :: Y.resourceId ∧
    (X.context.userNo ≠ 0 ∨ Numbered X.context.ldbid)

instance (X Y : KeyResource) : Decidable (SeatAlias X Y) := by
  unfold SeatAlias
  infer_instance

def SameDatabase (a b : UInt32) : Prop := a = b ∨ (0x80 ≤ a ∧ 0x80 ≤ b)

section Folder

theorem sharedGroupFolder_injective : Function.Injective sharedGroupFolder := by
  intro a b h
  exact UInt32.toNat_inj.mp (hex_injective (List.append_cancel_left h))

theorem sharedGroupFolder_ne_public (a : UInt32) : sharedGroupFolder a ≠ sharedPublicFolder := by
  simp [sharedGroupFolder, sharedPublicFolder, cstr_eq]

theorem folder_eq_iff {a b : UInt32} : folder a = folder b ↔ SameDatabase a b := by
  have hg : ∀ x, sharedGroupFolder x ≠ [] := fun x => by simp [sharedGroupFolder, cstr_eq]
  have hp : sharedPublicFolder ≠ [] := by simp [sharedPublicFolder, cstr_eq]
  unfold folder SameDatabase
  by_cases ha : a < 0x80 <;> by_cases hb : b < 0x80 <;>
    simp only [ha, hb, if_true, if_false]
  · have hn : ¬ (0x80 ≤ a ∧ 0x80 ≤ b) := fun h => absurd ha (UInt32.not_lt.mpr h.1)
    simp only [hn, or_false]
    by_cases hpa : a = pclLdbidPublic <;> by_cases hpb : b = pclLdbidPublic <;>
      simp only [hpa, hpb, ne_eq, not_true_eq_false, not_false_eq_true, if_true, if_false]
    · exact iff_of_false (sharedGroupFolder_ne_public b).symm (fun h => hpb h.symm)
    · exact iff_of_false (sharedGroupFolder_ne_public a) (fun h => by simp at h)
    · exact sharedGroupFolder_injective.eq_iff
  · refine iff_of_false ?_ ?_
    · split
      · exact hg a
      · exact hp
    · rintro (rfl | ⟨h, -⟩)
      · exact hb ha
      · exact absurd ha (UInt32.not_lt.mpr h)
  · refine iff_of_false ?_ ?_
    · split
      · exact (hg b).symm
      · exact hp.symm
    · rintro (rfl | ⟨-, h⟩)
      · exact ha hb
      · exact absurd hb (UInt32.not_lt.mpr h)
  · exact iff_of_true trivial (Or.inr ⟨UInt32.not_lt.mp ha, UInt32.not_lt.mp hb⟩)

/-- Of the logical databases that share the local database only one leaves
its number out of the keys. -/
theorem eq_of_sameDatabase {a b : UInt32} (h : SameDatabase a b) (ha : ¬ Numbered a)
    (hb : ¬ Numbered b) : a = b := by
  rcases h with h | ⟨hla, hlb⟩
  · exact h
  · have hla : ¬ a < 0x80 := UInt32.not_lt.mpr hla
    have hlb : ¬ b < 0x80 := UInt32.not_lt.mpr hlb
    simp only [Numbered, hla, hlb, false_or, not_not] at ha hb
    rw [ha, hb]

end Folder

section Path

theorem getDbPath_key (std : com.Standard) (appId : AppId com) {info : PersistenceInfo}
    (htype : info.configKey.type = .key) (hpolicy : info.configKey.policy ≠ .na)
    (dbKey dbPath : CStr) :
    getDbPath com appId.chars info dbKey dbPath =
      policyPrefix com info.configKey.policy ++ appId.chars ++ folder info.context.ldbid := by
  have hfit : (policyPrefix com info.configKey.policy ++ appId.chars ++
      folder info.context.ldbid ++ []).length < com.maxLengthPathFilename - 1 := by
    have := @policyPrefix_length_le com info.configKey.policy
    have := folder_length_le info.context.ldbid
    have := appId.bounded
    have := std.path_room
    simp only [List.length_append, List.length_nil]
    omega
  rw [getDbPath_eq hpolicy (by rw [htype]; rfl) hfit, List.append_nil]

end Path

section Key

/-- What follows the user in a key: the resource id, behind its seat if it has one. -/
def seatTail (seatNo : UInt32) (resourceId : CStr) : CStr :=
  if seatNo = 0 then resourceId
  else cstr "seat/" ++ decimal seatNo.toNat ++ '/' :: resourceId

theorem seatTail_eq_iff {s t : UInt32} {x y : CStr} :
    seatTail s x = seatTail t y ↔ (s = t ∧ x = y) ∨
      (s = 0 ∧ t ≠ 0 ∧ x = cstr "seat/" ++ decimal t.toNat ++ '/' :: y) ∨
      (t = 0 ∧ s ≠ 0 ∧ y = cstr "seat/" ++ decimal s.toNat ++ '/' :: x) := by
  unfold seatTail
  by_cases hs : s = 0 <;> by_cases ht : t = 0 <;>
    simp only [hs, ht, if_true, if_false, ne_eq, not_true_eq_false, not_false_eq_true,
      true_and, false_and, and_false, or_false, false_or]
  · simp only [Ne.symm ht, false_and, false_or]
  · exact eq_comm
  · rw [List.append_assoc, List.append_assoc, List.append_cancel_left_eq,
      field_append_inj (slash_notMem_decimal _) (slash_notMem_decimal _),
      decimal_injective.eq_iff, UInt32.toNat_inj]

theorem dbKeyText_eq (std : com.Standard) (X : KeyResource) :
    dbKeyText com X.context X.resourceId =
      if Numbered X.context.ldbid then
        '/' :: (hex X.context.ldbid.toNat ++ '/' :: (cstr "user/" ++
          (decimal X.context.userNo.toNat ++ '/' :: seatTail X.context.seatNo X.resourceId)))
      else if X.context.userNo = 0 ∧ X.context.seatNo = 0 then
        '/' :: (cstr "node" ++ '/' :: X.resourceId)
      else
        '/' :: (cstr "user" ++ '/' ::
          (decimal X.context.userNo.toNat ++ '/' :: seatTail X.context.seatNo X.resourceId)) := by
  unfold dbKeyText Numbered seatTail
  rw [std.node, std.user, std.seat]
  simp only [cstr_eq]
  by_cases hn : X.context.ldbid < 0x80 ∨ X.context.ldbid = pclLdbidLocal <;>
    by_cases hu : X.context.userNo = 0 <;> by_cases hs : X.context.seatNo = 0 <;>
    simp [hn, hu, hs]

theorem userPart_eq_iff {u v s t : UInt32} {x y : CStr} :
    decimal u.toNat ++ '/' :: seatTail s x = decimal v.toNat ++ '/' :: seatTail t y ↔
      u = v ∧ seatTail s x = seatTail t y := by
  rw [field_append_inj (slash_notMem_decimal _) (slash_notMem_decimal _),
    decimal_injective.eq_iff, UInt32.toNat_inj]

theorem notMem_hex_of_notMem {c : Char} (h : c ∉ hexAlphabet) (n : ℕ) : c ∉ hex n :=
  fun hc => h (mem_hexAlphabet_of_mem_hex hc)

theorem slash_notMem_node : '/' ∉ cstr "node" := by simp [cstr_eq]

theorem slash_notMem_user : '/' ∉ cstr "user" := by simp [cstr_eq]

theorem node_ne_user : cstr "node" ≠ cstr "user" := by simp [cstr_eq]

theorem hex_ne_node (n : ℕ) : hex n ≠ cstr "node" :=
  fun h => notMem_hex_of_notMem (c := 'n') (by decide) n (h ▸ by simp [cstr_eq])

theorem hex_ne_user (n : ℕ) : hex n ≠ cstr "user" :=
  fun h => notMem_hex_of_notMem (c := 'u') (by decide) n (h ▸ by simp [cstr_eq])

theorem component_eq_iff {a b x y : CStr} (ha : '/' ∉ a) (hb : '/' ∉ b) :
    '/' :: (a ++ '/' :: x) = '/' :: (b ++ '/' :: y) ↔ a = b ∧ x = y := by
  rw [List.cons.injEq, field_append_inj ha hb]
  simp only [true_and]

theorem tail_eq_iff {X Y : KeyResource} (hl : X.context.ldbid = Y.context.ldbid)
    (hu : X.context.userNo = Y.context.userNo)
    (hkey : Numbered X.context.ldbid ∨
      (¬ (X.context.userNo = 0 ∧ X.context.seatNo = 0) ∧
        ¬ (Y.context.userNo = 0 ∧ Y.context.seatNo = 0))) :
    seatTail X.context.seatNo X.resourceId = seatTail Y.context.seatNo Y.resourceId ↔
      X = Y ∨ SeatAlias X Y ∨ SeatAlias Y X := by
  obtain ⟨⟨l, u, s⟩, x⟩ := X
  obtain ⟨⟨m, v, t⟩, y⟩ := Y
  simp only at hl hu hkey
  subst hl hu
  rw [seatTail_eq_iff]
  simp only [SeatAlias, KeyResource.mk.injEq, PersistenceDbContext.mk.injEq, true_and]
  refine or_congr Iff.rfl (or_congr ?_ ?_)
  · constructor
    · rintro ⟨hs, ht, hx⟩
      exact ⟨hs, ht, hx, hkey.symm.imp (fun h hu => h.1 ⟨hu, hs⟩) id⟩
    · rintro ⟨hs, ht, hx, -⟩
      exact ⟨hs, ht, hx⟩
  · constructor
    · rintro ⟨ht, hs, hy⟩
      exact ⟨ht, hs, hy, hkey.symm.imp (fun h hu => h.2 ⟨hu, ht⟩) id⟩
    · rintro ⟨ht, hs, hy, -⟩
      exact ⟨ht, hs, hy⟩

theorem SeatAlias.sameContext {X Y : KeyResource} (h : SeatAlias X Y) :
    X.context.ldbid = Y.context.ldbid ∧ X.context.userNo = Y.context.userNo := ⟨h.1, h.2.1⟩

theorem not_alias_of_ne {X Y : KeyResource}
    (h : X.context.ldbid ≠ Y.context.ldbid ∨ X.context.userNo ≠ Y.context.userNo) :
    ¬ (X = Y ∨ SeatAlias X Y ∨ SeatAlias Y X) := by
  rintro (rfl | ha | ha)
  · simp at h
  · exact h.elim (absurd ha.sameContext.1) (absurd ha.sameContext.2)
  · exact h.elim (absurd ha.sameContext.1.symm) (absurd ha.sameContext.2.symm)

theorem not_alias_of_node {X Y : KeyResource} (hn : ¬ Numbered X.context.ldbid)
    (hX : X.context.userNo = 0 ∧ X.context.seatNo = 0)
    (hY : ¬ (Y.context.userNo = 0 ∧ Y.context.seatNo = 0)) :
    ¬ (X = Y ∨ SeatAlias X Y ∨ SeatAlias Y X) := by
  rintro (rfl | ⟨-, -, -, -, -, h⟩ | ⟨-, -, -, hs, -⟩)
  · exact hY hX
  · exact h.elim (absurd hX.1) hn
  · exact hs hX.2

theorem dbKeyText_eq_iff (std : com.Standard) {X Y : KeyResource}
    (hdb : SameDatabase X.context.ldbid Y.context.ldbid) :
    dbKeyText com X.context X.resourceId = dbKeyText com Y.context Y.resourceId ↔
      X = Y ∨ SeatAlias X Y ∨ SeatAlias Y X := by
  rw [dbKeyText_eq std, dbKeyText_eq std]
  by_cases hX : Numbered X.context.ldbid <;> by_cases hY : Numbered Y.context.ldbid <;>
    simp only [hX, hY, if_true, if_false]
  · rw [component_eq_iff (slash_notMem_hex _) (slash_notMem_hex _), hex_injective.eq_iff,
      UInt32.toNat_inj, List.append_cancel_left_eq, userPart_eq_iff]
    by_cases hl : X.context.ldbid = Y.context.ldbid
    · by_cases hu : X.context.userNo = Y.context.userNo
      · simp only [hl, hu, true_and]
        exact tail_eq_iff hl hu (Or.inl hX)
      · exact iff_of_false (fun h => hu h.2.1) (not_alias_of_ne (Or.inr hu))
    · exact iff_of_false (fun h => hl h.1) (not_alias_of_ne (Or.inl hl))
  · have hl : X.context.ldbid ≠ Y.context.ldbid := fun h => hY (h ▸ hX)
    refine iff_of_false ?_ (not_alias_of_ne (Or.inl hl))
    split
    · rw [component_eq_iff (slash_notMem_hex _) slash_notMem_node]
      exact fun h => hex_ne_node _ h.1
    · rw [component_eq_iff (slash_notMem_hex _) slash_notMem_user]
      exact fun h => hex_ne_user _ h.1
  · have hl : X.context.ldbid ≠ Y.context.ldbid := fun h => hX (h ▸ hY)
    refine iff_of_false ?_ (not_alias_of_ne (Or.inl hl))
    split
    · rw [component_eq_iff slash_notMem_node (slash_notMem_hex _)]
      exact fun h => hex_ne_node _ h.1.symm
    · rw [component_eq_iff slash_notMem_user (slash_notMem_hex _)]
      exact fun h => hex_ne_user _ h.1.symm
  · have hl : X.context.ldbid = Y.context.ldbid := eq_of_sameDatabase hdb hX hY
    by_cases hnX : X.context.userNo = 0 ∧ X.context.seatNo = 0 <;>
      by_cases hnY : Y.context.userNo = 0 ∧ Y.context.seatNo = 0
    · rw [if_pos hnX, if_pos hnY, component_eq_iff slash_notMem_node slash_notMem_node]
      have : X.resourceId = Y.resourceId ↔ X = Y := by
        obtain ⟨⟨l, u, s⟩, x⟩ := X
        obtain ⟨⟨m, v, t⟩, y⟩ := Y
        simp_all
      simp only [true_and, this, SeatAlias, hnX, hnY, ne_eq, not_true_eq_false, false_and,
        and_false, or_false]
    · rw [if_pos hnX, if_neg hnY, component_eq_iff slash_notMem_node slash_notMem_user]
      exact iff_of_false (fun h => node_ne_user h.1) (not_alias_of_node hX hnX hnY)
    · rw [if_neg hnX, if_pos hnY, component_eq_iff slash_notMem_user slash_notMem_node]
      refine iff_of_false (fun h => node_ne_user h.1.symm) ?_
      intro h
      exact not_alias_of_node hY hnY hnX (h.imp Eq.symm Or.symm)
    · rw [if_neg hnX, if_neg hnY, component_eq_iff slash_notMem_user slash_notMem_user,
        userPart_eq_iff]
      by_cases hu : X.context.userNo = Y.context.userNo
      · simp only [hu, true_and]
        exact tail_eq_iff hl hu (Or.inr ⟨hnX, hnY⟩)
      · exact iff_of_false (fun h => hu h.2.1) (not_alias_of_ne (Or.inr hu))

end Key

section Address

/-- Two key resources of one policy, their keys uncut, have different addresses
exactly when neither id spells the seat of the other. -/
theorem address_ne_iff (std : com.Standard) (appId : AppId com) {X Y : KeyResource} (hne : X ≠ Y)
    {configX configY : PersistenceConfigurationKey} (htypeX : configX.type = .key)
    (htypeY : configY.type = .key) (hpolicy : configX.policy = configY.policy)
    (hna : configX.policy ≠ .na)
    (hX : (dbKeyText com X.context X.resourceId).length < com.maxLengthKeyName)
    (hY : (dbKeyText com Y.context Y.resourceId).length < com.maxLengthKeyName)
    (bufferX bufferY : CStr) :
    let a := getDbPathAndKey com appId.chars ⟨X.context, configX⟩ X.resourceId bufferX
    let b := getDbPathAndKey com appId.chars ⟨Y.context, configY⟩ Y.resourceId bufferY
    (a.dbPath, a.dbKey) ≠ (b.dbPath, b.dbKey) ↔ ¬ (SeatAlias X Y ∨ SeatAlias Y X) := by
  intro a b
  have hpath : a.dbPath = b.dbPath ↔ SameDatabase X.context.ldbid Y.context.ldbid := by
    simp only [a, b, getDbPathAndKey]
    rw [getDbPath_key std appId htypeX hna, getDbPath_key std appId htypeY (hpolicy ▸ hna)]
    simp only [hpolicy, List.append_cancel_left_eq]
    exact folder_eq_iff
  have hkey : a.dbKey = b.dbKey ↔
      dbKeyText com X.context X.resourceId = dbKeyText com Y.context Y.resourceId := by
    simp only [a, b, getDbPathAndKey, getDbKey, snprintf_of_lt hX, snprintf_of_lt hY]
  have hor : (X = Y ∨ SeatAlias X Y ∨ SeatAlias Y X) ↔ (SeatAlias X Y ∨ SeatAlias Y X) :=
    or_iff_right hne
  rw [ne_eq, Prod.mk.injEq, hpath, hkey, ← hor]
  refine not_congr ⟨fun h => (dbKeyText_eq_iff std h.1).mp h.2, fun h => ?_⟩
  have hl : X.context.ldbid = Y.context.ldbid := by
    by_contra hl
    exact not_alias_of_ne (Or.inl hl) h
  exact ⟨Or.inl hl, (dbKeyText_eq_iff std (Or.inl hl)).mpr h⟩

def cachedKeyEntry : PersistenceConfigurationKey where
  policy := .wc
  storage := .local
  type := .key
  permission := .readWrite
  maxSize := 64
  reponsible := cstr "default"
  customName := []
  customID := []

/-- An application with the id `app`. -/
def exampleApp : AppId CommonObject.standard where
  chars := cstr "app"
  bounded := app_bounded

/-- Resource `seat/2/lang` of user 1 at no seat. -/
def spelledSeat : KeyResource := ⟨⟨0xFF, 1, 0⟩, cstr "seat/2/lang"⟩

/-- Resource `lang` of user 1 at seat 2. -/
def realSeat : KeyResource := ⟨⟨0xFF, 1, 2⟩, cstr "lang"⟩

theorem spelledSeat_collides :
    ¬ ∀ X Y : KeyResource, X ≠ Y →
      (dbKeyText CommonObject.standard X.context X.resourceId).length < 128 →
      (dbKeyText CommonObject.standard Y.context Y.resourceId).length < 128 →
      let a := getDbPathAndKey CommonObject.standard exampleApp.chars ⟨X.context, cachedKeyEntry⟩
        X.resourceId []
      let b := getDbPathAndKey CommonObject.standard exampleApp.chars ⟨Y.context, cachedKeyEntry⟩
        Y.resourceId []
      (a.dbPath, a.dbKey) ≠ (b.dbPath, b.dbKey) := by
  intro h
  exact h spelledSeat realSeat (by decide +kernel) (by decide +kernel) (by decide +kernel)
    (by decide +kernel)

/-- The seats of one user keep the resource apart. -/
theorem address_ne_of_seats :
    let a := getDbPathAndKey CommonObject.standard exampleApp.chars
      ⟨⟨0xFF, 1, 1⟩, cachedKeyEntry⟩ (cstr "lang") []
    let b := getDbPathAndKey CommonObject.standard exampleApp.chars
      ⟨⟨0xFF, 1, 2⟩, cachedKeyEntry⟩ (cstr "lang") []
    (a.dbPath, a.dbKey) ≠ (b.dbPath, b.dbKey) :=
  (address_ne_iff CommonObject.standard_standard exampleApp
    (X := ⟨⟨0xFF, 1, 1⟩, cstr "lang"⟩) (Y := ⟨⟨0xFF, 1, 2⟩, cstr "lang"⟩)
    (by decide +kernel) rfl rfl rfl (by decide) (by decide +kernel) (by decide +kernel)
    [] []).mpr (by decide +kernel)

end Address

end PersClient.Prct
