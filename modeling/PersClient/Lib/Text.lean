import Mathlib.Data.List.Basic
import Mathlib.Data.List.TakeWhile
import Mathlib.Data.Nat.Log
import Mathlib.Tactic.IntervalCases

/-! # C strings, bounded printing and numerals

A C string is the list of characters before its terminating zero. `snprintf`
keeps what fits its buffer, `%u` and `%x` render numerals without a separator,
so a rendered field can be split off at the first character it cannot contain.
-/

namespace PersClient

/-- The characters of a C string, its terminating zero left out. -/
abbrev CStr := List Char

/-- A string literal of the source. -/
@[irreducible]
def cstr (s : String) : CStr := s.toList

theorem cstr_eq (s : String) : cstr s = s.toList := by rw [cstr]

/-- What a buffer of `size` characters holds after printing `text` into it. -/
def snprintf (size : ℕ) (text : CStr) : CStr := text.take (size - 1)

theorem snprintf_of_lt {size : ℕ} {text : CStr} (h : text.length < size) :
    snprintf size text = text := List.take_of_length_le (by omega)

namespace Text

def decimal (n : ℕ) : CStr := Nat.toDigits 10 n

def hex (n : ℕ) : CStr := Nat.toDigits 16 n

theorem decimal_injective : Function.Injective decimal := by
  intro m n h
  rw [← Nat.ofDigitChars_ten_toDigits (n := m), ← Nat.ofDigitChars_ten_toDigits (n := n)]
  exact congrArg (fun s => Nat.ofDigitChars 10 s 0) h

theorem slash_notMem_decimal (n : ℕ) : '/' ∉ decimal n := by
  intro h
  exact absurd (Nat.isDigit_of_mem_toDigits (by omega) (by omega) h) (by decide)

theorem digitChar_injOn {m n : ℕ} (hm : m < 16) (hn : n < 16)
    (h : m.digitChar = n.digitChar) : m = n := by
  interval_cases m <;> interval_cases n <;> first | rfl | exact absurd h (by decide)

theorem hex_step (n : ℕ) :
    hex n = if n < 16 then [n.digitChar] else hex (n / 16) ++ [(n % 16).digitChar] :=
  Nat.toDigits_eq_if (by omega)

theorem hex_ne_nil (n : ℕ) : hex n ≠ [] := by
  rw [hex_step]
  split <;> simp

theorem hex_injective : Function.Injective hex := by
  intro m
  induction m using Nat.strong_induction_on with
  | _ m ih =>
    intro n h
    rw [hex_step m, hex_step n] at h
    by_cases hm : m < 16 <;> by_cases hn : n < 16 <;> simp only [hm, hn, if_true, if_false] at h
    · exact digitChar_injOn hm hn (by simpa using h)
    · rw [← List.nil_append [m.digitChar]] at h
      obtain ⟨h, -⟩ := List.append_inj' h rfl
      exact absurd h.symm (hex_ne_nil _)
    · rw [← List.nil_append [n.digitChar]] at h
      obtain ⟨h, -⟩ := List.append_inj' h rfl
      exact absurd h (hex_ne_nil _)
    · obtain ⟨hq, hr⟩ := List.append_inj' h rfl
      have hq := ih (m / 16) (by omega) hq
      have hr := digitChar_injOn (Nat.mod_lt m (by omega)) (Nat.mod_lt n (by omega))
        (by simpa using hr)
      omega

def hexAlphabet : CStr := "0123456789abcdef".toList

theorem mem_hexAlphabet_of_mem_hex {n : ℕ} {c : Char} : c ∈ hex n → c ∈ hexAlphabet := by
  induction n using Nat.strong_induction_on with
  | _ n ih =>
    have digit : ∀ d < 16, d.digitChar ∈ hexAlphabet := by decide
    rw [hex_step]
    split
    · rename_i hn
      intro h
      rw [List.mem_singleton.mp h]
      exact digit n hn
    · rename_i hn
      intro h
      rcases List.mem_append.mp h with h | h
      · exact ih (n / 16) (by omega) h
      · rw [List.mem_singleton.mp h]
        exact digit _ (Nat.mod_lt n (by omega))

theorem slash_notMem_hex (n : ℕ) : '/' ∉ hex n :=
  fun h => absurd (mem_hexAlphabet_of_mem_hex h) (by decide)

theorem hex_length_le {n k : ℕ} (hk : 0 < k) (h : n < 16 ^ k) : (hex n).length ≤ k := by
  exact (Nat.length_toDigits_le_iff (by omega) hk).mpr h

theorem decimal_length_le {n k : ℕ} (hk : 0 < k) (h : n < 10 ^ k) : (decimal n).length ≤ k :=
  (Nat.length_toDigits_le_iff (by omega) hk).mpr h

section Numbers

def isSpace (c : Char) : Bool := c = ' ' || ('\t' ≤ c && c ≤ '\r')

/-- The number `strtol` reads with base 10, before it is cut to the range of `long`. -/
def signedValue (text : CStr) : ℤ :=
  match text.dropWhile isSpace with
  | '-' :: digits => -Nat.ofDigitChars 10 (digits.takeWhile Char.isDigit) 0
  | '+' :: digits => Nat.ofDigitChars 10 (digits.takeWhile Char.isDigit) 0
  | digits => Nat.ofDigitChars 10 (digits.takeWhile Char.isDigit) 0

/-- `strtol` with base 10, for a `long` of 64 bits. -/
def strtol (text : CStr) : ℤ := max (-2 ^ 63) (min (signedValue text) (2 ^ 63 - 1))

def atoi (text : CStr) : Int32 := Int32.ofInt (strtol text)

theorem isDigit_of_mem_decimal {n : ℕ} {c : Char} (h : c ∈ decimal n) : c.isDigit :=
  Nat.isDigit_of_mem_toDigits (by omega) (by omega) h

theorem digit_cases {c : Char} (h : c.isDigit) : isSpace c = false ∧ c ≠ '-' ∧ c ≠ '+' := by
  simp only [Char.isDigit, Bool.and_eq_true, decide_eq_true_eq] at h
  refine ⟨?_, ?_, ?_⟩
  · have hspace : c ≠ ' ' := by
      rintro rfl
      exact absurd h.1 (by decide)
    have htab : ¬ c ≤ '\r' := fun hle => absurd (UInt32.le_trans h.1 hle) (by decide)
    simp [isSpace, hspace, htab]
  · rintro rfl
    exact absurd h.1 (by decide)
  · rintro rfl
    exact absurd h.1 (by decide)

theorem signedValue_decimal (n : ℕ) : signedValue (decimal n) = n := by
  have digits : (decimal n).takeWhile Char.isDigit = decimal n :=
    List.takeWhile_eq_self_iff.mpr fun c hc => isDigit_of_mem_decimal hc
  have value : Nat.ofDigitChars 10 (decimal n) 0 = n := Nat.ofDigitChars_ten_toDigits
  cases htext : decimal n with
  | nil => exact absurd htext Nat.toDigits_ne_nil
  | cons c rest =>
    obtain ⟨hspace, hminus, hplus⟩ :=
      digit_cases (isDigit_of_mem_decimal (htext ▸ List.mem_cons_self : c ∈ decimal n))
    have hdrop : (c :: rest).dropWhile isSpace = c :: rest := by
      simp [hspace]
    unfold signedValue
    rw [hdrop]
    split
    · rename_i heq
      exact absurd (List.cons.inj heq).1 hminus
    · rename_i heq
      exact absurd (List.cons.inj heq).1 hplus
    · rw [← htext, digits, value]

/-- `%u` and the signed `atoi` agree on all numbers of 32 bits. -/
theorem atoi_decimal (n : UInt32) : (atoi (decimal n.toNat)).toUInt32 = n := by
  have hn := n.toNat_lt
  have hrange : strtol (decimal n.toNat) = n.toNat := by
    unfold strtol
    rw [signedValue_decimal]
    omega
  unfold atoi
  rw [hrange, Int32.ofInt_eq_ofNat]
  exact UInt32.toNat.inj (by simp [Int32.ofNat])

end Numbers

/-- Two texts cut at a separator that neither first field contains agree
exactly when both fields do. -/
theorem field_append_inj {a b x y : CStr} {c : Char} (ha : c ∉ a) (hb : c ∉ b) :
    a ++ c :: x = b ++ c :: y ↔ a = b ∧ x = y := by
  constructor
  · induction a generalizing b with
    | nil =>
      cases b with
      | nil => simp
      | cons d b =>
        intro h
        have : c = d := by simpa using congrArg List.head? h
        exact absurd (this ▸ List.mem_cons_self) hb
    | cons e a ih =>
      cases b with
      | nil =>
        intro h
        have : e = c := by simpa using congrArg List.head? h
        exact absurd (this ▸ List.mem_cons_self) ha
      | cons d b =>
        intro h
        simp only [List.cons_append, List.cons.injEq] at h
        obtain ⟨rfl, h⟩ := h
        obtain ⟨rfl, rfl⟩ := ih (fun h => ha (List.mem_cons_of_mem _ h))
          (fun h => hb (List.mem_cons_of_mem _ h)) h
        exact ⟨rfl, rfl⟩
  · rintro ⟨rfl, rfl⟩
    rfl

section Tokens

variable (delim : Char → Bool)

/-- The maximal runs of characters that are no delimiters, `cur` being read so far. -/
def tokensFrom (cur : CStr) : CStr → List CStr
  | [] => if cur = [] then [] else [cur]
  | c :: s =>
    if delim c then (if cur = [] then [] else [cur]) ++ tokensFrom [] s
    else tokensFrom (cur ++ [c]) s

/-- The tokens of a text, as `strtok` delivers them. -/
def tokens (s : CStr) : List CStr := tokensFrom delim [] s

variable {delim}

theorem tokensFrom_append_delim {c : Char} (hc : delim c = true) (cur a b : CStr) :
    tokensFrom delim cur (a ++ c :: b) = tokensFrom delim cur a ++ tokens delim b := by
  induction a generalizing cur with
  | nil => simp [tokensFrom, tokens, hc]
  | cons d a ih =>
    simp only [List.cons_append, tokensFrom]
    split
    · rw [ih, List.append_assoc]
    · exact ih _

theorem tokens_append_delim {c : Char} (hc : delim c = true) (a b : CStr) :
    tokens delim (a ++ c :: b) = tokens delim a ++ tokens delim b :=
  tokensFrom_append_delim hc [] a b

theorem tokens_cons_delim {c : Char} (hc : delim c = true) (s : CStr) :
    tokens delim (c :: s) = tokens delim s := tokens_append_delim hc [] s

theorem tokensFrom_of_forall {s : CStr} (h : ∀ c ∈ s, delim c = false) (cur : CStr)
    (hne : cur ++ s ≠ []) : tokensFrom delim cur s = [cur ++ s] := by
  induction s generalizing cur with
  | nil =>
    rw [List.append_nil] at hne
    simp [tokensFrom, hne]
  | cons c s ih =>
    have hc := h c List.mem_cons_self
    simp only [tokensFrom, hc, Bool.false_eq_true, if_false]
    rw [ih (fun d hd => h d (List.mem_cons_of_mem _ hd)) _ (by simp)]
    simp

theorem tokens_of_forall {s : CStr} (h : ∀ c ∈ s, delim c = false) (hne : s ≠ []) :
    tokens delim s = [s] := tokensFrom_of_forall h [] hne

theorem tokensFrom_congr {delim' : Char → Bool} {s : CStr} (h : ∀ c ∈ s, delim c = delim' c)
    (cur : CStr) : tokensFrom delim cur s = tokensFrom delim' cur s := by
  induction s generalizing cur with
  | nil => rfl
  | cons c s ih =>
    simp only [tokensFrom, h c List.mem_cons_self, ih (fun d hd => h d (List.mem_cons_of_mem _ hd))]

theorem tokens_congr {delim' : Char → Bool} {s : CStr} (h : ∀ c ∈ s, delim c = delim' c) :
    tokens delim s = tokens delim' s := tokensFrom_congr h []

theorem mem_tokensFrom {t cur s : CStr} (hcur : ∀ c ∈ cur, delim c = false)
    (ht : t ∈ tokensFrom delim cur s) : t ≠ [] ∧ ∀ c ∈ t, delim c = false := by
  induction s generalizing cur with
  | nil =>
    simp only [tokensFrom] at ht
    split at ht
    · cases ht
    · rename_i hne
      rw [List.mem_singleton.mp ht]
      exact ⟨hne, hcur⟩
  | cons d s ih =>
    simp only [tokensFrom] at ht
    split at ht
    · rcases List.mem_append.mp ht with ht | ht
      · split at ht
        · cases ht
        · rename_i hne
          rw [List.mem_singleton.mp ht]
          exact ⟨hne, hcur⟩
      · exact ih (by simp) ht
    · rename_i hd
      refine ih (fun c hc => ?_) ht
      rcases List.mem_append.mp hc with hc | hc
      · exact hcur c hc
      · rw [List.mem_singleton.mp hc]
        exact Bool.eq_false_iff.mpr hd

theorem mem_tokens {t s : CStr} (ht : t ∈ tokens delim s) : t ≠ [] ∧ ∀ c ∈ t, delim c = false :=
  mem_tokensFrom (by simp) ht

theorem mem_of_mem_tokensFrom {t cur s : CStr} {c : Char} (ht : t ∈ tokensFrom delim cur s)
    (hc : c ∈ t) : c ∈ cur ++ s := by
  have hhead : ∀ rest : CStr, t ∈ (if cur = [] then [] else [cur]) → c ∈ cur ++ rest := by
    intro rest ht
    split at ht
    · cases ht
    · exact List.mem_append_left _ (List.mem_singleton.mp ht ▸ hc)
  induction s generalizing cur with
  | nil => exact hhead [] ht
  | cons d s ih =>
    simp only [tokensFrom] at ht
    split at ht
    · rcases List.mem_append.mp ht with ht | ht
      · exact hhead _ ht
      · have hmem := ih ht fun rest h => absurd h List.not_mem_nil
        exact List.mem_append_right _ (List.mem_cons_of_mem d hmem)
    · have hmem := ih ht fun rest h => by
        simp only [List.append_eq_nil_iff, List.cons_ne_nil, and_false, if_false] at h
        exact List.mem_append_left _ (List.mem_singleton.mp h ▸ hc)
      simpa using hmem

theorem mem_of_mem_tokens {t s : CStr} {c : Char} (ht : t ∈ tokens delim s) (hc : c ∈ t) : c ∈ s :=
  mem_of_mem_tokensFrom ht hc

theorem tokensFrom_length_le (cur s : CStr) (sep : Char) :
    ((tokensFrom delim cur s).flatMap fun t => sep :: t).length ≤ cur.length + s.length + 1 := by
  induction s generalizing cur with
  | nil =>
    simp only [tokensFrom]
    split <;> simp
  | cons d s ih =>
    simp only [tokensFrom]
    split
    · have hrest := ih []
      split <;> simp only [List.nil_append, List.flatMap_append, List.flatMap_cons,
        List.flatMap_nil, List.append_nil, List.length_append, List.length_cons,
        List.length_nil] at hrest ⊢ <;> omega
    · have hrest := ih (cur ++ [d])
      simp only [List.length_append, List.length_cons, List.length_nil] at hrest ⊢
      omega

/-- Written behind separators, the tokens are at most one longer than the text. -/
theorem tokens_length_le (s : CStr) (sep : Char) :
    ((tokens delim s).flatMap fun t => sep :: t).length ≤ s.length + 1 := by
  have h := @tokensFrom_length_le delim [] s sep
  rwa [List.length_nil, Nat.zero_add] at h

theorem tokens_flatMap {c : Char} (hc : delim c = true) {ts : List CStr}
    (hts : ∀ t ∈ ts, t ≠ [] ∧ ∀ d ∈ t, delim d = false) :
    tokens delim (ts.flatMap fun t => c :: t) = ts := by
  induction ts with
  | nil => rfl
  | cons t ts ih =>
    obtain ⟨hne, hfree⟩ := hts t List.mem_cons_self
    have ih := ih fun u hu => hts u (List.mem_cons_of_mem _ hu)
    rw [List.flatMap_cons]
    cases ts with
    | nil =>
      rw [List.flatMap_nil, List.append_nil]
      exact (tokens_cons_delim hc t).trans (tokens_of_forall hfree hne)
    | cons u us =>
      rw [List.flatMap_cons, List.cons_append, tokens_cons_delim hc] at ih
      rw [List.flatMap_cons, List.cons_append, List.cons_append, tokens_cons_delim hc,
        tokens_append_delim hc, tokens_of_forall hfree hne, ih, List.singleton_append]

theorem tokensFrom_getLast {c : Char} (hc : delim c = false) (cur s : CStr) :
    ∃ t, (tokensFrom delim cur (s ++ [c])).getLast? = some (t ++ [c]) := by
  induction s generalizing cur with
  | nil => exact ⟨cur, by simp [tokensFrom, hc]⟩
  | cons d s ih =>
    simp only [List.cons_append, tokensFrom]
    split
    · obtain ⟨t, ht⟩ := ih []
      exact ⟨t, by simp [List.getLast?_append, ht]⟩
    · exact ih _

theorem tokens_getLast {c : Char} (hc : delim c = false) (s : CStr) :
    ∃ t, (tokens delim (s ++ [c])).getLast? = some (t ++ [c]) := tokensFrom_getLast hc [] s

end Tokens

section Collapse

def collapse : CStr → CStr
  | [] => []
  | [c] => [c]
  | c :: d :: s => if c = '/' ∧ d = '/' then collapse (d :: s) else c :: collapse (d :: s)

theorem collapse_cons {c : Char} (hc : c ≠ '/') (s : CStr) :
    collapse (c :: s) = c :: collapse s := by
  cases s with
  | nil => rfl
  | cons d s => rw [collapse, if_neg fun h => hc h.1]

theorem collapse_slash {c : Char} (hc : c ≠ '/') (s : CStr) :
    collapse ('/' :: c :: s) = '/' :: collapse (c :: s) := by
  rw [collapse, if_neg fun h => hc h.2]

theorem collapse_twice (s : CStr) : collapse ('/' :: '/' :: s) = collapse ('/' :: s) := by
  rw [collapse, if_pos ⟨rfl, rfl⟩]

theorem mem_collapse {c : Char} (s : CStr) : c ∈ collapse s ↔ c ∈ s := by
  fun_induction collapse s with
  | case1 => rfl
  | case2 => rfl
  | case3 c' d s h ih =>
    rw [ih, h.1, h.2]
    simp
  | case4 c' d s h ih => rw [List.mem_cons, ih, ← List.mem_cons]

theorem head?_collapse (s : CStr) : (collapse s).head? = s.head? := by
  fun_induction collapse s with
  | case1 => rfl
  | case2 => rfl
  | case3 c d s h ih => rw [ih, List.head?_cons, List.head?_cons, h.1, h.2]
  | case4 c d s h ih => rfl

theorem getLast?_collapse (s : CStr) : (collapse s).getLast? = s.getLast? := by
  fun_induction collapse s with
  | case1 => rfl
  | case2 => rfl
  | case3 c d s h ih => rw [ih, List.getLast?_cons_cons]
  | case4 c d s h ih => rw [List.getLast?_cons, ih, ← List.getLast?_cons]

/-- A path that ends with a name is its names behind slashes, once it begins
with a slash. -/
theorem flatMap_tokens_slash (s : CStr) (hlast : s.getLast? ≠ some '/') :
    (s ≠ [] → ((tokens (· == '/') s).flatMap fun t => '/' :: t) = collapse ('/' :: s)) ∧
      ∀ cur ≠ [], ((tokensFrom (· == '/') cur s).flatMap fun t => '/' :: t) =
        '/' :: (cur ++ collapse s) := by
  induction s with
  | nil =>
    refine ⟨fun h => absurd rfl h, fun cur hcur => ?_⟩
    simp [tokensFrom, hcur, collapse]
  | cons c s ih =>
    by_cases hc : c = '/'
    · subst hc
      have hs : s ≠ [] := by
        rintro rfl
        exact hlast rfl
      have hlast' : s.getLast? ≠ some '/' := by
        obtain ⟨d, s, rfl⟩ := List.exists_cons_of_ne_nil hs
        rwa [List.getLast?_cons_cons] at hlast
      have hrest := (ih hlast').1 hs
      constructor
      · intro _
        rw [tokens_cons_delim rfl, hrest, collapse_twice]
      · intro cur hcur
        simp only [tokensFrom, beq_self_eq_true, if_true, if_neg hcur]
        rw [List.flatMap_append, ← tokens, hrest]
        simp
    · have hlast' : s.getLast? ≠ some '/' := by
        cases s with
        | nil => exact fun h => by cases h
        | cons d s => rwa [List.getLast?_cons_cons] at hlast
      have hdelim : (c == '/') = false := beq_false_of_ne hc
      constructor
      · intro _
        rw [tokens, tokensFrom, if_neg (by simp [hdelim]), List.nil_append,
          (ih hlast').2 [c] (List.cons_ne_nil _ _), collapse_slash hc, collapse_cons hc]
        rfl
      · intro cur hcur
        rw [tokensFrom, if_neg (by simp [hdelim]), (ih hlast').2 _ (by simp), collapse_cons hc]
        simp

end Collapse

end Text

end PersClient
