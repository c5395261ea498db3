import PersClient.Lib.Text
import Mathlib.Data.List.Nodup

/-! # Match rules

A rule is a text of comma separated pairs `name='value'`, read by an automaton.
Values without an apostrophe are read back, a rule cut short says nothing about
its last name, and a value with an apostrophe, pasted between the quotes, is
never read as itself.
-/

namespace PersClient.MatchRule

inductive Place
  | name
  | plain
  | escaped
  | quoted
  deriving DecidableEq, Repr

structure Reader where
  pairs : List (CStr × CStr)
  name : CStr
  value : CStr
  place : Place
  deriving DecidableEq, Repr

namespace Reader

def start (pairs : List (CStr × CStr)) : Reader := ⟨pairs, [], [], .name⟩

def plainStep (r : Reader) (c : Char) : Reader :=
  if c = ',' then start (r.pairs ++ [(r.name, r.value)])
  else if c = '\'' then { r with place := .quoted }
  else if c = '\\' then { r with place := .escaped }
  else { r with value := r.value ++ [c], place := .plain }

def step (r : Reader) (c : Char) : Reader :=
  match r.place with
  | .name => if c = '=' then { r with place := .plain } else { r with name := r.name ++ [c] }
  | .plain => r.plainStep c
  -- outside of quotes a backslash stands for itself unless an apostrophe follows
  | .escaped =>
    if c = '\'' then { r with value := r.value ++ [c], place := .plain }
    else plainStep { r with value := r.value ++ ['\\'] } c
  | .quoted => if c = '\'' then { r with place := .plain } else { r with value := r.value ++ [c] }

/-- The pairs at the end of a rule. An open quote and a name without a value are errors. -/
def finish (r : Reader) : Option (List (CStr × CStr)) :=
  match r.place with
  | .name => if r.name = [] then some r.pairs else none
  | .plain => some (r.pairs ++ [(r.name, r.value)])
  | .escaped => some (r.pairs ++ [(r.name, r.value ++ ['\\'])])
  | .quoted => none

def run (r : Reader) (s : CStr) : Reader := s.foldl step r

@[simp] theorem run_nil (r : Reader) : r.run [] = r := rfl

@[simp] theorem run_cons (r : Reader) (c : Char) (s : CStr) : r.run (c :: s) = (r.step c).run s :=
  rfl

@[simp] theorem run_append (r : Reader) (s t : CStr) : r.run (s ++ t) = (r.run s).run t :=
  List.foldl_append

end Reader

open Reader

/-- The pairs of a rule, `none` where it is malformed. -/
def read (s : CStr) : Option (List (CStr × CStr)) := ((start []).run s).finish

def Selects (holds : CStr → CStr → Prop) (rule : CStr) : Prop :=
  ∃ pairs, read rule = some pairs ∧ (pairs.map Prod.fst).Nodup ∧ ∀ p ∈ pairs, holds p.1 p.2

section Written

def pairText (p : CStr × CStr) : CStr := p.1 ++ '=' :: '\'' :: (p.2 ++ ['\''])

def ruleText (ps : List (CStr × CStr)) : CStr := [','].intercalate (ps.map pairText)

/-- A pair that can be written: the name has no sign of equality and the value no apostrophe. -/
def Writable (p : CStr × CStr) : Prop := '=' ∉ p.1 ∧ '\'' ∉ p.2

theorem ruleText_singleton (p : CStr × CStr) : ruleText [p] = pairText p := by
  simp [ruleText, List.intercalate_singleton]

theorem ruleText_cons {p : CStr × CStr} {ps : List (CStr × CStr)} (hps : ps ≠ []) :
    ruleText (p :: ps) = pairText p ++ ',' :: ruleText ps := by
  unfold ruleText
  rw [List.map_cons, List.intercalate_cons_of_ne_nil (by simpa using hps), List.append_assoc]
  rfl

theorem ruleText_append {ps qs : List (CStr × CStr)} (hps : ps ≠ []) (hqs : qs ≠ []) :
    ruleText (ps ++ qs) = ruleText ps ++ ',' :: ruleText qs := by
  induction ps with
  | nil => exact absurd rfl hps
  | cons p ps ih =>
    by_cases hne : ps = []
    · rw [hne, List.singleton_append, ruleText_cons hqs, ruleText_singleton]
    · rw [List.cons_append, ruleText_cons (by simp [hne]), ruleText_cons hne, ih hne,
        List.append_assoc, List.cons_append]

theorem run_name {r : Reader} (hr : r.place = .name) {s : CStr} (hs : '=' ∉ s) :
    r.run s = { r with name := r.name ++ s } := by
  induction s generalizing r with
  | nil => simp
  | cons c s ih =>
    obtain ⟨hc, hs⟩ := List.ne_and_not_mem_of_not_mem_cons hs
    have hstep : r.step c = { r with name := r.name ++ [c] } := by
      simp only [step, hr, Ne.symm hc, if_false]
    rw [run_cons, hstep]
    apply (ih ?_ hs).trans
    · simp
    · exact hr

theorem run_quoted {r : Reader} (hr : r.place = .quoted) {s : CStr} (hs : '\'' ∉ s) :
    r.run s = { r with value := r.value ++ s } := by
  induction s generalizing r with
  | nil => simp
  | cons c s ih =>
    obtain ⟨hc, hs⟩ := List.ne_and_not_mem_of_not_mem_cons hs
    have hstep : r.step c = { r with value := r.value ++ [c] } := by
      simp only [step, hr, Ne.symm hc, if_false]
    rw [run_cons, hstep]
    apply (ih ?_ hs).trans
    · simp
    · exact hr

theorem run_open (pairs : List (CStr × CStr)) {name : CStr} (hname : '=' ∉ name) :
    (start pairs).run (name ++ ['=', '\'']) = ⟨pairs, name, [], .quoted⟩ := by
  rw [run_append, run_name rfl hname]
  rfl

theorem run_pairText (pairs : List (CStr × CStr)) {p : CStr × CStr} (hp : Writable p) :
    (start pairs).run (pairText p) = ⟨pairs, p.1, p.2, .plain⟩ := by
  have hsplit : pairText p = (p.1 ++ ['=', '\'']) ++ (p.2 ++ ['\'']) := by simp [pairText]
  rw [hsplit, run_append, run_open pairs hp.1, run_append, run_quoted rfl hp.2]
  rfl

theorem run_pairText_comma (pairs : List (CStr × CStr)) {p : CStr × CStr} (hp : Writable p)
    (s : CStr) : (start pairs).run (pairText p ++ ',' :: s) = (start (pairs ++ [p])).run s := by
  rw [run_append, run_pairText pairs hp]
  rfl

theorem run_ruleText_comma (pairs : List (CStr × CStr)) {ps : List (CStr × CStr)} (hne : ps ≠ [])
    (hps : ∀ p ∈ ps, Writable p) (s : CStr) :
    (start pairs).run (ruleText ps ++ ',' :: s) = (start (pairs ++ ps)).run s := by
  induction ps generalizing pairs with
  | nil => exact absurd rfl hne
  | cons p ps ih =>
    have hp := hps p List.mem_cons_self
    by_cases hnil : ps = []
    · rw [hnil, ruleText_singleton, run_pairText_comma pairs hp]
    · rw [ruleText_cons hnil, List.append_assoc, List.cons_append, run_pairText_comma pairs hp,
        ih _ hnil fun q hq => hps q (List.mem_cons_of_mem _ hq), List.append_assoc,
        List.singleton_append]

theorem finish_ruleText (pairs : List (CStr × CStr)) {ps : List (CStr × CStr)}
    (hps : ∀ p ∈ ps, Writable p) :
    ((start pairs).run (ruleText ps)).finish = some (pairs ++ ps) := by
  induction ps generalizing pairs with
  | nil => simp [ruleText, List.intercalate_nil, start, finish]
  | cons p ps ih =>
    have hp := hps p List.mem_cons_self
    by_cases hne : ps = []
    · rw [hne, ruleText_singleton, run_pairText pairs hp]
      rfl
    · rw [ruleText_cons hne, run_pairText_comma pairs hp,
        ih _ fun q hq => hps q (List.mem_cons_of_mem _ hq)]
      simp

theorem read_ruleText {ps : List (CStr × CStr)} (hps : ∀ p ∈ ps, Writable p) :
    read (ruleText ps) = some ps := finish_ruleText [] hps

example : read "a=\\',b=\\,c=','".toList = read "a=''\\''',b='\\',c=','".toList := by decide

end Written

section Cut

variable {pairs qs : List (CStr × CStr)}

theorem finish_pairText_take {p : CStr × CStr} (hp : Writable p) {m : ℕ}
    (hm : m < (pairText p).length)
    (hq : ((start pairs).run ((pairText p).take m)).finish = some qs) :
    qs = pairs ∨ qs = pairs ++ [(p.1, [])] := by
  by_cases hname : m ≤ p.1.length
  · have htake : (pairText p).take m = p.1.take m := List.take_append_of_le_length hname
    rw [htake, run_name rfl fun h => hp.1 (List.mem_of_mem_take h)] at hq
    have hpairs : pairs = qs := by
      by_contra hne
      simp [start, finish, hne] at hq
    exact Or.inl hpairs.symm
  · obtain ⟨k, rfl⟩ := Nat.exists_eq_add_of_lt (Nat.lt_of_not_le hname)
    have hsplit : (pairText p).take (p.1.length + k + 1) =
        p.1 ++ '=' :: ('\'' :: (p.2 ++ ['\''])).take k := by
      rw [pairText, Nat.add_assoc, List.take_length_add_append, List.take_succ_cons]
    rw [hsplit, run_append, run_name rfl hp.1, run_cons] at hq
    cases k with
    | zero => exact Or.inr (Option.some.inj hq).symm
    | succ k =>
      have hk : k ≤ p.2.length := by
        simp only [pairText, List.length_append, List.length_cons, List.length_nil] at hm
        omega
      -- the quote is open at the cut
      rw [List.take_succ_cons, List.take_append_of_le_length hk, run_cons,
        run_quoted rfl fun h => hp.2 (List.mem_of_mem_take h)] at hq
      cases hq

theorem finish_ruleText_take {ps : List (CStr × CStr)} (hps : ∀ p ∈ ps, Writable p) {m : ℕ}
    (hm : m < (ruleText ps).length)
    (hq : ((start pairs).run ((ruleText ps).take m)).finish = some qs) :
    ∃ init p rest, ps = init ++ p :: rest ∧
      (qs = pairs ++ init ∨ qs = pairs ++ init ++ [(p.1, [])]) := by
  induction ps generalizing pairs m with
  | nil => exact absurd hm (Nat.not_lt_zero m)
  | cons p ps ih =>
    have hp := hps p List.mem_cons_self
    by_cases hcut : m < (pairText p).length
    · have htake : (ruleText (p :: ps)).take m = (pairText p).take m := by
        by_cases hne : ps = []
        · rw [hne, ruleText_singleton]
        · rw [ruleText_cons hne, List.take_append_of_le_length (Nat.le_of_lt hcut)]
      rw [htake] at hq
      refine ⟨[], p, ps, rfl, ?_⟩
      simpa using finish_pairText_take hp hcut hq
    · have hne : ps ≠ [] := by
        rintro rfl
        exact hcut (ruleText_singleton p ▸ hm)
      obtain ⟨k, rfl⟩ := Nat.exists_eq_add_of_le (Nat.le_of_not_lt hcut)
      rw [ruleText_cons hne, List.take_length_add_append] at hq
      cases k with
      | zero =>
        rw [List.take_zero, List.append_nil, run_pairText pairs hp] at hq
        obtain ⟨q, rest, rfl⟩ := List.exists_cons_of_ne_nil hne
        exact ⟨[p], q, rest, rfl, Or.inl (Option.some.inj hq).symm⟩
      | succ k =>
        rw [List.take_succ_cons, run_pairText_comma pairs hp] at hq
        have hk : k < (ruleText ps).length := by
          rw [ruleText_cons hne, List.length_append, List.length_cons] at hm
          omega
        obtain ⟨init, q, rest, rfl, hqs⟩ :=
          ih (fun q hq => hps q (List.mem_cons_of_mem _ hq)) hk hq
        exact ⟨p :: init, q, rest, rfl, by simpa using hqs⟩

/-- A rule cut short keeps the pairs before some pair, and of this pair at most
the name. -/
theorem read_ruleText_take {ps : List (CStr × CStr)} (hps : ∀ p ∈ ps, Writable p) {m : ℕ}
    (hm : m < (ruleText ps).length) (hq : read ((ruleText ps).take m) = some qs) :
    ∃ init p rest, ps = init ++ p :: rest ∧ (qs = init ∨ qs = init ++ [(p.1, [])]) := by
  simpa using finish_ruleText_take hps hm hq

end Cut

section Apostrophe

variable {pairs qs : List (CStr × CStr)} {name value : CStr}

/-- The reader has completed a pair with the name, and its value is not the given one. -/
def Misread (pairs : List (CStr × CStr)) (name value : CStr) (r : Reader) : Prop :=
  ∃ w rest, r.pairs = pairs ++ (name, w) :: rest ∧ w ≠ value

def Inside (pairs : List (CStr × CStr)) (name : CStr) (r : Reader) : Prop :=
  r.pairs = pairs ∧ r.name = name ∧ r.place ≠ .name

/-- The characters a reader holds, with the backslash it has not yet written. -/
def held (r : Reader) : ℕ := r.value.length + if r.place = .escaped then 1 else 0

theorem held_of_ne {r : Reader} (h : r.place ≠ .escaped) : held r = r.value.length := by
  rw [held, if_neg h, Nat.add_zero]

/-- What the reader holds is bounded in its length, and in its apostrophes. -/
structure Short (pairs : List (CStr × CStr)) (name : CStr) (length count : ℕ) (r : Reader) :
    Prop where
  inside : Inside pairs name r
  held_le : held r ≤ length
  count_le : r.value.count '\'' ≤ count

/-- The apostrophes are bounded alone, where no backslash can announce another one. -/
structure Few (pairs : List (CStr × CStr)) (name : CStr) (count : ℕ) (r : Reader) : Prop where
  inside : Inside pairs name r
  place_ne : r.place ≠ .escaped
  count_le : r.value.count '\'' ≤ count

theorem step_pairs (r : Reader) (c : Char) : r.pairs <+: (r.step c).pairs := by
  unfold step plainStep start
  split <;> split_ifs <;> simp

theorem Misread.step {r : Reader} (h : Misread pairs name value r) (c : Char) :
    Misread pairs name value (r.step c) := by
  obtain ⟨w, rest, hpairs, hw⟩ := h
  obtain ⟨more, hmore⟩ := step_pairs r c
  refine ⟨w, rest ++ more, ?_, hw⟩
  rw [← hmore, hpairs, List.append_assoc, List.cons_append]

theorem Misread.run {r : Reader} (h : Misread pairs name value r) (s : CStr) :
    Misread pairs name value (r.run s) := by
  induction s generalizing r with
  | nil => exact h
  | cons c s ih => exact ih (h.step c)

theorem Misread.finish {r : Reader} (h : Misread pairs name value r) (hq : r.finish = some qs) :
    ∃ w rest, qs = pairs ++ (name, w) :: rest ∧ w ≠ value := by
  obtain ⟨w, rest, hpairs, hw⟩ := h
  have hprefix : r.pairs <+: qs := by
    unfold Reader.finish at hq
    split at hq
    · split_ifs at hq
      exact Option.some.inj hq ▸ List.prefix_refl _
    · exact Option.some.inj hq ▸ List.prefix_append ..
    · exact Option.some.inj hq ▸ List.prefix_append ..
    · cases hq
  obtain ⟨more, rfl⟩ := hprefix
  exact ⟨w, rest ++ more, by rw [hpairs, List.append_assoc, List.cons_append], hw⟩

theorem ne_of_length_lt {w : CStr} (h : w.length < value.length) : w ≠ value := by
  rintro rfl
  exact Nat.lt_irrefl _ h

theorem ne_of_count_lt {w : CStr} (h : w.count '\'' < value.count '\'') : w ≠ value := by
  rintro rfl
  exact Nat.lt_irrefl _ h

/-- Outside of quotes a comma ends the value, and what else is read is counted. -/
theorem plainStep_short {length count : ℕ} {r : Reader} (hinside : Inside pairs name r)
    (hlength : r.value.length ≤ length) (hcount : r.value.count '\'' ≤ count)
    (hvalue : length < value.length) (c : Char) :
    Short pairs name (length + 1) (count + [c].count '\'') (r.plainStep c) ∨
      Misread pairs name value (r.plainStep c) := by
  obtain ⟨rfl, rfl, hplace⟩ := hinside
  unfold plainStep
  split_ifs with hcomma hquote hescape
  · right
    exact ⟨r.value, [], rfl, ne_of_length_lt (by omega)⟩
  · left
    exact ⟨⟨rfl, rfl, by simp⟩, by simp [held]; omega, by simp; omega⟩
  · left
    exact ⟨⟨rfl, rfl, by simp⟩, by simp [held]; omega, by simp; omega⟩
  · left
    refine ⟨⟨rfl, rfl, by simp⟩, by simp [held]; omega, ?_⟩
    simp only [List.count_append]
    omega

theorem Short.step {length count : ℕ} {r : Reader} (h : Short pairs name length count r)
    (hvalue : length < value.length) (c : Char) :
    Short pairs name (length + 1) (count + [c].count '\'') (r.step c) ∨
      Misread pairs name value (r.step c) := by
  obtain ⟨⟨rfl, rfl, hplace⟩, hheld, hcount⟩ := h
  unfold Reader.step
  split
  · contradiction
  · rename_i hplain
    rw [held_of_ne (by simp [hplain])] at hheld
    exact plainStep_short ⟨rfl, rfl, hplace⟩ hheld hcount hvalue c
  · rename_i hescaped
    simp only [held, hescaped, if_true] at hheld
    split_ifs with hc
    · left
      refine ⟨⟨rfl, rfl, by simp⟩, by simp [held]; omega, ?_⟩
      simp only [List.count_append]
      omega
    · exact plainStep_short (r := { r with value := r.value ++ ['\\'] }) ⟨rfl, rfl, hplace⟩
        (by simpa using hheld) (by simpa using hcount) hvalue c
  · rename_i hquoted
    rw [held_of_ne (by simp [hquoted])] at hheld
    left
    split_ifs with hc
    · exact ⟨⟨rfl, rfl, by simp⟩, by simp [held]; omega, Nat.le_add_right_of_le hcount⟩
    · refine ⟨⟨rfl, rfl, hplace⟩, by simp [held, hquoted]; omega, ?_⟩
      simp only [List.count_append]
      omega

theorem Short.run {length count : ℕ} {r : Reader} (h : Short pairs name length count r) {s : CStr}
    (hvalue : length + s.length ≤ value.length) :
    Short pairs name (length + s.length) (count + s.count '\'') (r.run s) ∨
      Misread pairs name value (r.run s) := by
  induction s generalizing length count r with
  | nil => exact Or.inl h
  | cons c s ih =>
    rw [List.length_cons] at hvalue
    have hlength : length < value.length := by omega
    rcases h.step hlength c with hstep | hstep
    · have hrun := ih hstep (by omega)
      rwa [Nat.add_right_comm, Nat.add_assoc _ _ (s.count _), ← List.count_append] at hrun
    · exact Or.inr (hstep.run s)

theorem Short.finish {length count : ℕ} {r : Reader} (h : Short pairs name length count r)
    (hvalue : length < value.length) (hq : r.finish = some qs) :
    ∃ w rest, qs = pairs ++ (name, w) :: rest ∧ w ≠ value := by
  obtain ⟨⟨rfl, rfl, hplace⟩, hheld, -⟩ := h
  unfold Reader.finish at hq
  split at hq
  · contradiction
  · rename_i hplain
    rw [held_of_ne (by simp [hplain])] at hheld
    exact ⟨r.value, [], (Option.some.inj hq).symm, ne_of_length_lt (by omega)⟩
  · rename_i hescaped
    simp only [held, hescaped, if_true] at hheld
    refine ⟨r.value ++ ['\\'], [], (Option.some.inj hq).symm, ne_of_length_lt ?_⟩
    simp only [List.length_append, List.length_cons, List.length_nil]
    omega
  · cases hq

theorem Few.step {count : ℕ} {r : Reader} (h : Few pairs name count r)
    (hvalue : count < value.count '\'') {c : Char} (hc : c ≠ '\\') :
    Few pairs name count (r.step c) ∨ Misread pairs name value (r.step c) := by
  obtain ⟨⟨rfl, rfl, hname⟩, hescaped, hcount⟩ := h
  cases hplace : r.place with
  | name => exact absurd hplace hname
  | escaped => exact absurd hplace hescaped
  | plain =>
    simp only [Reader.step, hplace, plainStep, hc, if_false]
    split_ifs with hcomma hquote
    · exact Or.inr ⟨r.value, [], rfl, ne_of_count_lt (by omega)⟩
    · exact Or.inl ⟨⟨rfl, rfl, by simp⟩, by simp, hcount⟩
    · exact Or.inl ⟨⟨rfl, rfl, by simp⟩, by simp, by simpa [hquote] using hcount⟩
  | quoted =>
    simp only [Reader.step, hplace]
    left
    split_ifs with hquote
    · exact ⟨⟨rfl, rfl, by simp⟩, by simp, hcount⟩
    · exact ⟨⟨rfl, rfl, by simp⟩, by simp, by simpa [hquote] using hcount⟩

theorem Few.run {count : ℕ} {r : Reader} (h : Few pairs name count r)
    (hvalue : count < value.count '\'') {s : CStr} (hs : '\\' ∉ s) :
    Few pairs name count (r.run s) ∨ Misread pairs name value (r.run s) := by
  induction s generalizing r with
  | nil => exact Or.inl h
  | cons c s ih =>
    obtain ⟨hc, hs⟩ := List.ne_and_not_mem_of_not_mem_cons hs
    rcases h.step hvalue hc.symm with hstep | hstep
    · exact ih hstep hs
    · exact Or.inr (hstep.run s)

theorem Few.finish {count : ℕ} {r : Reader} (h : Few pairs name count r)
    (hvalue : count < value.count '\'') (hq : r.finish = some qs) :
    ∃ w rest, qs = pairs ++ (name, w) :: rest ∧ w ≠ value := by
  obtain ⟨⟨rfl, rfl, hname⟩, hescaped, hcount⟩ := h
  unfold Reader.finish at hq
  split at hq
  · contradiction
  · exact ⟨r.value, [], (Option.some.inj hq).symm, ne_of_count_lt (by omega)⟩
  · contradiction
  · cases hq

/-- At the quote that should close the value: an escaped one ends up in the value
and leaves it short, any other one leaves the apostrophes few. -/
theorem Short.close {length count : ℕ} {r : Reader} (h : Short pairs name length count r) :
    (Short pairs name length (count + 1) (r.step '\'') ∧ (r.step '\'').place = .plain) ∨
      Few pairs name count (r.step '\'') := by
  obtain ⟨⟨rfl, rfl, hname⟩, hheld, hcount⟩ := h
  cases hplace : r.place with
  | name => exact absurd hplace hname
  | plain =>
    simp only [Reader.step, hplace, plainStep]
    exact Or.inr ⟨⟨rfl, rfl, by simp⟩, by simp, hcount⟩
  | escaped =>
    simp only [held, hplace, if_true] at hheld
    simp only [Reader.step, hplace, if_true]
    refine Or.inl ⟨⟨⟨rfl, rfl, by simp⟩, ?_, by simpa using hcount⟩, trivial⟩
    simpa [held] using hheld
  | quoted =>
    simp only [Reader.step, hplace, if_true]
    exact Or.inr ⟨⟨rfl, rfl, by simp⟩, by simp, hcount⟩

theorem Short.tail {length count : ℕ} {r : Reader} (h : Short pairs name length count r)
    (hlength : length < value.length) (hcount : count < value.count '\'') {tail : CStr}
    (htail : '\\' ∉ tail) (m : ℕ) (hq : (r.run (('\'' :: ',' :: tail).take m)).finish = some qs) :
    ∃ w rest, qs = pairs ++ (name, w) :: rest ∧ w ≠ value := by
  cases m with
  | zero => exact h.finish hlength hq
  | succ m =>
    rw [List.take_succ_cons, run_cons] at hq
    rcases h.close with ⟨hshort, hplain⟩ | hfew
    · cases m with
      | zero => exact hshort.finish hlength hq
      | succ m =>
        rw [List.take_succ_cons, run_cons] at hq
        have hclosed : Misread pairs name value ((r.step '\'').step ',') := by
          obtain ⟨⟨rfl, rfl, -⟩, hheld, -⟩ := hshort
          rw [held_of_ne (by simp [hplain])] at hheld
          refine ⟨(r.step '\'').value, [], ?_, ne_of_length_lt (by omega)⟩
          rw [Reader.step, hplain]
          rfl
        exact (hclosed.run _).finish hq
    · have hfree : '\\' ∉ (',' :: tail).take m := by
        intro hmem
        rcases List.mem_cons.mp (List.mem_of_mem_take hmem) with heq | hmem
        · exact absurd heq (by decide)
        · exact htail hmem
      rcases hfew.run hcount hfree with hrun | hrun
      · exact hrun.finish hcount hq
      · exact hrun.finish hq

/-- A value with an apostrophe, pasted between the quotes and cut anywhere behind,
is read as another value, if the rule is well formed at all. -/
theorem finish_pasted (hvalue : '\'' ∈ value) {tail : CStr} (htail : '\\' ∉ tail) (m : ℕ)
    (hq : ((⟨pairs, name, [], .quoted⟩ : Reader).run
      ((value ++ '\'' :: ',' :: tail).take m)).finish = some qs) :
    ∃ w rest, qs = pairs ++ (name, w) :: rest ∧ w ≠ value := by
  obtain ⟨front, behind, rfl, hfront⟩ := List.eq_append_cons_of_mem hvalue
  rw [List.append_assoc, List.cons_append] at hq
  by_cases hm : m ≤ front.length
  · -- the first quote is open at the cut
    rw [List.take_append_of_le_length hm,
      run_quoted rfl fun h => hfront (List.mem_of_mem_take h)] at hq
    cases hq
  · obtain ⟨k, rfl⟩ := Nat.exists_eq_add_of_lt (Nat.lt_of_not_le hm)
    rw [Nat.add_assoc, List.take_length_add_append, List.take_succ_cons, run_append,
      run_quoted rfl hfront, run_cons] at hq
    have hclosed : Short pairs name front.length 0
        (Reader.step ⟨pairs, name, [] ++ front, .quoted⟩ '\'') :=
      ⟨⟨rfl, rfl, by simp [Reader.step]⟩, by simp [held, Reader.step],
        by simpa [Reader.step] using List.count_eq_zero.mpr hfront⟩
    by_cases hk : k ≤ behind.length
    · rw [List.take_append_of_le_length hk] at hq
      have hlength : front.length + (behind.take k).length ≤ (front ++ '\'' :: behind).length := by
        simp
      rcases hclosed.run hlength with hrun | hrun
      · exact hrun.finish (by simp) hq
      · exact hrun.finish hq
    · obtain ⟨j, rfl⟩ := Nat.exists_eq_add_of_lt (Nat.lt_of_not_le hk)
      rw [Nat.add_assoc, List.take_length_add_append, run_append] at hq
      have hlength : front.length + behind.length ≤ (front ++ '\'' :: behind).length := by simp
      rcases hclosed.run hlength with hrun | hrun
      · exact hrun.tail (by simp) (by simp [List.count_eq_zero.mpr hfront]) htail _ hq
      · exact (hrun.run _).finish hq

/-- A rule with an apostrophe in one value, cut anywhere behind the opening quote
of this value, asks for another value. -/
theorem read_take_pasted {front rest : List (CStr × CStr)} (hne : front ≠ [])
    (hfront : ∀ p ∈ front, Writable p) (hname : '=' ∉ name) (hvalue : '\'' ∈ value)
    (hrest : rest ≠ []) (hfree : '\\' ∉ ruleText rest) {m : ℕ}
    (hm : (ruleText front).length + name.length + 3 ≤ m)
    (hq : read ((ruleText (front ++ (name, value) :: rest)).take m) = some qs) :
    ∃ w, (name, w) ∈ qs ∧ w ≠ value := by
  have hsplit : ruleText (front ++ (name, value) :: rest) =
      (ruleText front ++ ',' :: (name ++ ['=', '\''])) ++
        (value ++ '\'' :: ',' :: ruleText rest) := by
    rw [ruleText_append hne (by simp), ruleText_cons hrest]
    simp [pairText]
  obtain ⟨k, rfl⟩ : ∃ k, m = (ruleText front ++ ',' :: (name ++ ['=', '\''])).length + k :=
    Nat.exists_eq_add_of_le (by simp; omega)
  rw [hsplit, List.take_length_add_append, read, run_append, run_ruleText_comma [] hne hfront,
    run_open _ hname] at hq
  obtain ⟨w, more, rfl, hw⟩ := finish_pasted hvalue hfree k hq
  exact ⟨w, by simp, hw⟩

end Apostrophe

end PersClient.MatchRule
