import PersClient.File.SavedRuns

/-! # Write sessions that are not closed

A file that is written is set back by its next opening, as long as none of its
descriptors is closed: in the same process or in a later one, and however often
a process ends on the way. Only a content that is empty is not gone back to.
-/

namespace PersClient.File

open Access Handle Steps Text

variable {ρ : Type} [DecidableEq ρ] {com : CommonObject}

section Abstract

namespace SavedFiles

/-- The calls that finish no session of a file: it is not closed, not removed, and
not opened while it is open. -/
def Unfinished (i : ρ) (s : SavedFiles ρ) : AppCall ρ → Prop
  | .open j => j = i → ∀ fd k, s.opened fd = some k → k.file ≠ i
  | .close fd => ∀ k, s.opened fd = some k → k.file ≠ i
  | .remove j => j ≠ i
  | _ => True

def AllWritten (s : SavedFiles ρ) (i : ρ) (written : Bool) : Prop :=
  ∀ fd k, s.opened fd = some k → k.file = i → k.written = written

/-- The file is open once at most. It has this content, or a saved copy with it. -/
structure Pending (s : SavedFiles ρ) (i : ρ) (b : Bytes) : Prop where
  once : ∀ fd fd' k k', s.opened fd = some k → s.opened fd' = some k' → k.file = i → k'.file = i →
    fd = fd'
  kept : s.content i = some b ∧ (s.saved i = none ∨ s.saved i = some b) ∧ s.AllWritten i false ∨
    s.saved i = some b ∧ s.AllWritten i true

variable {s s' : SavedFiles ρ} {i : ρ} {b : Bytes} {fd : ℤ} {k : Cursor ρ}

omit [DecidableEq ρ] in
theorem Pending.found (h : s.Pending i b) (hb : b ≠ []) (new : Bytes) : s.found i new = b := by
  unfold SavedFiles.found
  rcases h.kept with ⟨hcontent, hsaved | hsaved, -⟩ | ⟨hsaved, -⟩
  · rw [hsaved, hcontent]
    rfl
  · rw [hsaved, Option.filter_some_pos (by simpa using hb)]
    rfl
  · rw [hsaved, Option.filter_some_pos (by simpa using hb)]
    rfl

omit [DecidableEq ρ] in
theorem Pending.of_same (h : s.Pending i b) (hcontent : s'.content i = s.content i)
    (hsaved : s'.saved i = s.saved i)
    (hopened : ∀ fd k', s'.opened fd = some k' → k'.file = i →
      ∃ k, s.opened fd = some k ∧ k.file = i ∧ k.written = k'.written) : s'.Pending i b := by
  have hall : ∀ written, s.AllWritten i written → s'.AllWritten i written := by
    intro written hw fd k' hk' hfile
    obtain ⟨k, hk, hfile, hsame⟩ := hopened fd k' hk' hfile
    rw [← hsame]
    exact hw fd k hk hfile
  constructor
  · intro fd fd' k₁ k₂ hk₁ hk₂ hfile₁ hfile₂
    obtain ⟨k, hk, hfile, -⟩ := hopened fd k₁ hk₁ hfile₁
    obtain ⟨k', hk', hfile', -⟩ := hopened fd' k₂ hk₂ hfile₂
    exact h.once fd fd' k k' hk hk' hfile hfile'
  · rw [hcontent, hsaved]
    exact h.kept.imp (fun h => ⟨h.1, h.2.1, hall false h.2.2⟩) fun h => ⟨h.1, hall true h.2⟩

omit [DecidableEq ρ] in
theorem Pending.place (h : s.Pending i b) {new : Option (Cursor ρ)}
    (hnew : ∀ k', new = some k' → k'.file = i →
      ∃ k, s.opened fd = some k ∧ k.file = i ∧ k.written = k'.written) :
    (s.place fd new).Pending i b := by
  refine h.of_same rfl rfl fun x k' hk' hfile => ?_
  rw [place_opened] at hk'
  split at hk'
  · rename_i hx
    rw [hx]
    exact hnew k' hk' hfile
  · exact ⟨k', hk', hfile, rfl⟩

omit [DecidableEq ρ] in
theorem Pending.of_closed (hclosed : ∀ fd k, s.opened fd = some k → k.file ≠ i)
    (hsaved : s.saved i = none ∨ s.saved i = some b) (hcontent : s.content i = some b) :
    s.Pending i b :=
  ⟨fun fd _ k _ hk _ hfile => absurd hfile (hclosed fd k hk),
    Or.inl ⟨hcontent, hsaved, fun fd k hk hfile => absurd hfile (hclosed fd k hk)⟩⟩

omit [DecidableEq ρ] in
theorem Pending.saved_eq (h : s.Pending i b) : s.saved i = none ∨ s.saved i = some b := by
  rcases h.kept with ⟨-, hsaved, -⟩ | ⟨hsaved, -⟩
  · exact hsaved
  · exact Or.inr hsaved

theorem Pending.write (h : s.Pending i b) (hopen : s.opened fd = some k) (buffer : Bytes)
    (pos : ℕ) : (((if k.written then s else s.save k.file (some (s.data k.file))).store k.file
      (some buffer)).place fd (some { k with pos, written := true })).Pending i b := by
  by_cases hfile : k.file = i
  · -- the content is saved, or it was before
    have hsaved : (if k.written then s else s.save k.file (some (s.data k.file))).saved i =
        some b := by
      rcases h.kept with ⟨hcontent, -, hw⟩ | ⟨hsaved, hw⟩
      · rw [hw fd k hopen hfile, if_neg Bool.false_ne_true, save_saved, if_pos hfile.symm, data,
          hfile, hcontent]
        rfl
      · rw [hw fd k hopen hfile, if_pos rfl, hsaved]
    have honly : ∀ x k', x ≠ fd → s.opened x = some k' → k'.file ≠ i :=
      fun x k' hx hk' hfile' => hx (h.once x fd k' k hk' hopen hfile' hfile)
    have hopened : ∀ x k', (((if k.written then s else s.save k.file (some (s.data k.file))).store
        k.file (some buffer)).place fd (some { k with pos, written := true })).opened x = some k' →
        k'.file = i → x = fd ∧ k'.written = true := by
      intro x k' hk' hfile'
      rw [place_opened] at hk'
      split at hk'
      · rename_i hx
        rw [← Option.some.inj hk']
        exact ⟨hx, rfl⟩
      · rename_i hx
        exfalso
        refine honly x k' hx ?_ hfile'
        cases hw : k.written with
        | false =>
          rw [hw] at hk'
          exact hk'
        | true =>
          rw [hw] at hk'
          exact hk'
    refine ⟨fun x x' k₁ k₂ hk₁ hk₂ hfile₁ hfile₂ => ?_, Or.inr ⟨?_, fun x k' hk' hfile' => ?_⟩⟩
    · rw [(hopened x k₁ hk₁ hfile₁).1, (hopened x' k₂ hk₂ hfile₂).1]
    · rw [place_saved, store_saved, hsaved]
    · exact (hopened x k' hk' hfile').2
  · apply Pending.place
    · refine h.of_same ?_ ?_ fun x k' hk' hfile' => ⟨k', ?_, hfile', rfl⟩
      · rw [store_content, if_neg (Ne.symm hfile)]
        cases k.written <;> rfl
      · rw [store_saved]
        cases k.written
        · exact save_saved.trans (if_neg (Ne.symm hfile))
        · rfl
      · cases hw : k.written with
        | false =>
          rw [hw] at hk'
          exact hk'
        | true =>
          rw [hw] at hk'
          exact hk'
    · rintro k' hk' hfile'
      rw [← Option.some.inj hk'] at hfile'
      exact absurd hfile' hfile

theorem Pending.open (h : s.Pending i b) (hb : b ≠ []) (j : ρ) (answer : ℤ × Option Bytes)
    (hok : j = i → ∀ fd k, s.opened fd = some k → k.file ≠ i) :
    (s.next (.open j, answer)).Pending i b := by
  unfold SavedFiles.next
  dsimp only
  by_cases hj : j = i
  · have hclosed := hok hj
    have hstored : (s.store i (some b)).Pending i b :=
      .of_closed hclosed h.saved_eq (store_content.trans (if_pos rfl))
    rw [hj, h.found hb, h.found hb]
    split
    · have only : ∀ x k,
          ((s.store i (some b)).place answer.1 (some { file := i })).opened x = some k →
            k.file = i → x = answer.1 ∧ k.written = false := by
        intro x k hk hfile
        rw [place_opened] at hk
        split at hk
        · rename_i hx
          rw [← Option.some.inj hk]
          exact ⟨hx, rfl⟩
        · exact absurd hfile (hclosed x k hk)
      refine ⟨fun x x' k k' hk hk' hfile hfile' => ?_,
        Or.inl ⟨?_, h.saved_eq, fun x k hk hfile => (only x k hk hfile).2⟩⟩
      · rw [(only x k hk hfile).1, (only x' k' hk' hfile').1]
      · rw [place_content, store_content, if_pos rfl]
    · exact hstored
  · have hother : ∀ new, (s.store j (some new)).Pending i b := fun new =>
      h.of_same (store_content.trans (if_neg (Ne.symm hj))) rfl fun x k' hk' hfile =>
        ⟨k', hk', hfile, rfl⟩
    split
    · refine (hother _).place fun k' hk' hfile => ?_
      rw [← Option.some.inj hk'] at hfile
      exact absurd hfile hj
    · exact hother _

theorem Pending.next (h : s.Pending i b) (hb : b ≠ []) (e : AppCall ρ × (ℤ × Option Bytes))
    (hok : s.Unfinished i e.1) : (s.next e).Pending i b := by
  obtain ⟨call, answer⟩ := e
  cases call with
  | «open» j => exact h.open hb j answer hok
  | seek fd offset whence =>
    unfold SavedFiles.next
    dsimp only
    split
    · exact h
    · rename_i k hopen
      split
      · exact h
      · refine h.place fun k' hk' hfile => ⟨k, hopen, ?_⟩
        rw [← Option.some.inj hk'] at hfile ⊢
        exact ⟨hfile, rfl⟩
  | read fd count =>
    unfold SavedFiles.next
    dsimp only
    split
    · exact h
    · rename_i k hopen
      refine h.place fun k' hk' hfile => ⟨k, hopen, ?_⟩
      rw [← Option.some.inj hk'] at hfile ⊢
      exact ⟨hfile, rfl⟩
  | write fd buffer =>
    unfold SavedFiles.next
    dsimp only
    split
    · exact h
    · rename_i k hopen
      split
      · exact h
      · exact h.write hopen _ _
  | size fd => exact h
  | close fd =>
    unfold SavedFiles.next
    dsimp only
    split
    · exact h
    · rename_i k hopen
      have hdropped : (s.save k.file none).Pending i b :=
        h.of_same rfl (save_saved.trans (if_neg (Ne.symm (hok k hopen)))) fun x k' hk' hfile =>
          ⟨k', hk', hfile, rfl⟩
      apply hdropped.place
      rintro k' ⟨⟩
  | remove j =>
    unfold SavedFiles.next
    dsimp only
    split
    · exact h
    · exact h.of_same (store_content.trans (if_neg (Ne.symm hok))) rfl fun x k' hk' hfile =>
        ⟨k', hk', hfile, rfl⟩
  | turn loop => exact h.of_same rfl rfl fun x k' hk' hfile => ⟨k', hk', hfile, rfl⟩
  | restart base =>
    refine h.of_same rfl rfl fun x k' hk' => ?_
    cases hk'

end SavedFiles

end Abstract

section Sessions

variable {res : ρ → FileResource com} {room : com.Roomy} {c : Client} {i : ρ} {b : Bytes}

omit [DecidableEq ρ] in
theorem exchanges_append (c : Client) (calls more : List (AppCall ρ)) :
    exchanges res c (calls ++ more) =
      exchanges res c calls ++ exchanges res (afterCalls res c calls) more := by
  induction calls generalizing c with
  | nil => rfl
  | cons call calls ih => exact congrArg _ (ih (call.perform res c).2)

end Sessions

end PersClient.File
