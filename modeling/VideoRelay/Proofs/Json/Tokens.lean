import Mathlib.Data.List.TakeWhile
import VideoRelay.Json.Parser
import VideoRelay.Json.Printer

/-!
# Reading back numbers and strings

Behind a value stands nothing, or the comma or the bracket that follows it (`Delimited`).  A number is
read in front of that as it is read alone (`number?_append`), and reading it takes characters from the
front only (`number?_suffix`); what a whole number of 64 bits is written as is read as the number
(`number?_intChars`).

A string ends with its quote, so anything may stand behind it.  Each character is escaped to
something that is read as the code of the character (`units?_escapeChar`), and codes of characters
are no surrogates (`joinUnits?_codes`); so a written string is read as itself (`quoted?_escaped`).
-/

namespace VideoRelay

/-! ### Digits -/

namespace Decimal

theorem isDigit_of_mem_digits {n : Nat} {c : Char} (h : c ∈ digits n) : c.isDigit = true :=
  Nat.isDigit_of_mem_toDigits (by decide) (by decide) h

theorem digits_ne_nil (n : Nat) : digits n ≠ [] := Nat.toDigits_ne_nil

theorem digitsValue_digits (n : Nat) : digitsValue (digits n) = n := Nat.ofDigitChars_ten_toDigits

/-- Only zero is written with a zero in front. -/
theorem head?_digits {n : Nat} (hn : 0 < n) : (digits n).head? ≠ some '0' := by
  induction n using Nat.strongRecOn with
  | ind n ih =>
    by_cases h : n < 10
    · have hall : ∀ m : Fin 10, 0 < m.val → (digits m.val).head? ≠ some '0' := by decide
      exact hall ⟨n, h⟩ hn
    · have hrec := ih (n / 10) (by omega) (by omega)
      rw [digits, Nat.toDigits_of_base_le (by decide) (by omega), List.head?_append]
      intro he
      rcases Option.or_eq_some_iff.1 he with he | ⟨he, -⟩
      · exact hrec he
      · exact Nat.toDigits_ne_nil (List.head?_eq_none_iff.1 he)

end Decimal

namespace Json

/-! ### Numbers in front of something else -/

/-- What may stand behind a value: nothing, or a character that continues no number. -/
def Delimited (s : List Char) : Prop := ∀ c ∈ s.head?, c = ',' ∨ c = ']' ∨ c = '}'

theorem delimited_nil : Delimited [] := by
  intro c hc
  cases hc

theorem delimited_cons {c : Char} (h : c = ',' ∨ c = ']' ∨ c = '}') (s : List Char) :
    Delimited (c :: s) := by
  intro d hd
  cases hd
  exact h

theorem splitDigits_append (s : List Char) {r : List Char} (hr : Delimited r) :
    splitDigits (s ++ r) = ((splitDigits s).1, (splitDigits s).2 ++ r) := by
  induction s with
  | nil =>
    cases r with
    | nil => rfl
    | cons c r =>
      have hc : c.isDigit = false := by
        rcases hr c rfl with rfl | rfl | rfl <;> decide
      simp [splitDigits, hc]
  | cons c s ih =>
    simp only [splitDigits, Prod.mk.injEq] at ih
    by_cases hc : c.isDigit = true
    · simp [splitDigits, hc, ih.1, ih.2]
    · simp [splitDigits, hc]

theorem fraction?_append {s t r : List Char} {ds : Option (List Char)} (hr : Delimited r)
    (h : fraction? s = some (ds, t)) : fraction? (s ++ r) = some (ds, t ++ r) := by
  cases s with
  | nil =>
    cases h
    cases r with
    | nil => rfl
    | cons c r =>
      have hc : c ≠ '.' := by
        rcases hr c rfl with rfl | rfl | rfl <;> decide
      rw [List.nil_append, fraction?]
      intro _ h
      exact hc (List.cons.inj h).1
  | cons c s =>
    by_cases hc : c = '.'
    · subst hc
      simp only [List.cons_append, fraction?, splitDigits_append s hr] at h ⊢
      split at h
      · cases h
      · next hd =>
        cases h
        rw [if_neg hd]
    · rw [fraction?] at h
      · cases h
        rw [List.cons_append, fraction?]
        intro _ h
        exact hc (List.cons.inj h).1
      · intro _ h
        exact hc (List.cons.inj h).1

theorem splitSign_append {s : List Char} (hs : s ≠ []) (r : List Char) :
    Decimal.splitSign (s ++ r) = ((Decimal.splitSign s).1, (Decimal.splitSign s).2 ++ r) := by
  cases s with
  | nil => exact absurd rfl hs
  | cons c s =>
    simp only [List.cons_append, Decimal.splitSign]
    split <;> first | rfl | simp_all

theorem exponent?_append {s t r : List Char} {e : Option Int} (hr : Delimited r)
    (h : exponent? s = some (e, t)) : exponent? (s ++ r) = some (e, t ++ r) := by
  cases s with
  | nil =>
    cases h
    cases r with
    | nil => rfl
    | cons c r =>
      have hc : ¬ (c = 'e' ∨ c = 'E') := by
        rcases hr c rfl with rfl | rfl | rfl <;> decide
      rw [List.nil_append, exponent?, if_neg hc]
  | cons c s =>
    rw [List.cons_append, exponent?]
    rw [exponent?] at h
    by_cases hc : c = 'e' ∨ c = 'E'
    · rw [if_pos hc] at h ⊢
      by_cases hs : s = []
      · subst hs
        cases h
      · rw [splitSign_append hs]
        dsimp only at h ⊢
        rw [splitDigits_append _ hr]
        split at h
        · cases h
        · next hd =>
          rw [if_neg hd]
          cases h
          rfl
    · rw [if_neg hc] at h ⊢
      cases h
      rfl

/-- A number without its sign. -/
def unsigned? (negative : Bool) (s : List Char) : Option (Numeral × List Char) := do
  let (whole, r) := splitDigits s
  if whole = [] ∨ (1 < whole.length ∧ whole.head? = some '0') then none
  else
    let (fraction, r) ← fraction? r
    let (exponent, r) ← exponent? r
    some (numeral negative whole fraction exponent, r)

theorem number?_minus (s : List Char) : number? ('-' :: s) = unsigned? true s := rfl

theorem number?_of_ne {c : Char} (hc : c ≠ '-') (s : List Char) :
    number? (c :: s) = unsigned? false (c :: s) := by
  rw [number?]
  · rfl
  · intro _ h
    exact hc (List.cons.inj h).1

theorem unsigned?_eq_some {negative : Bool} {s t : List Char} {n : Numeral}
    (h : unsigned? negative s = some (n, t)) :
    ∃ ds r₁ e r₂, ¬ ((splitDigits s).1 = [] ∨
        (1 < (splitDigits s).1.length ∧ (splitDigits s).1.head? = some '0')) ∧
      fraction? (splitDigits s).2 = some (ds, r₁) ∧ exponent? r₁ = some (e, r₂) ∧
      n = numeral negative (splitDigits s).1 ds e ∧ t = r₂ := by
  simp only [unsigned?] at h
  split at h
  · cases h
  · next hw =>
    simp only [Option.bind_eq_bind, Option.bind_eq_some_iff, Option.some.injEq, Prod.mk.injEq] at h
    obtain ⟨⟨ds, r₁⟩, hf, ⟨e, r₂⟩, he, rfl, rfl⟩ := h
    exact ⟨ds, r₁, e, r₂, hw, hf, he, rfl, rfl⟩

theorem unsigned?_append {negative : Bool} {s t r : List Char} {n : Numeral} (hr : Delimited r)
    (h : unsigned? negative s = some (n, t)) : unsigned? negative (s ++ r) = some (n, t ++ r) := by
  obtain ⟨ds, r₁, e, r₂, hw, hf, he, rfl, rfl⟩ := unsigned?_eq_some h
  simp only [unsigned?, splitDigits_append s hr, if_neg hw, fraction?_append hr hf,
    exponent?_append hr he, Option.bind_eq_bind, Option.bind_some]

/-- A number is read in front of something else as it is read alone. -/
theorem number?_append {s t r : List Char} {n : Numeral} (hr : Delimited r)
    (h : number? s = some (n, t)) : number? (s ++ r) = some (n, t ++ r) := by
  cases s with
  | nil => cases h
  | cons c s =>
    by_cases hc : c = '-'
    · subst hc
      exact unsigned?_append hr h
    · rw [number?_of_ne hc] at h
      rw [List.cons_append, number?_of_ne hc]
      exact unsigned?_append hr h

/-! ### What reading a number leaves -/

theorem fraction?_suffix {s t : List Char} {ds : Option (List Char)}
    (h : fraction? s = some (ds, t)) : t <:+ s := by
  unfold fraction? at h
  split at h
  · dsimp only at h
    split at h
    · cases h
    · cases h
      exact (List.dropWhile_suffix _).trans (List.suffix_cons _ _)
  · cases h
    exact List.suffix_refl _

theorem splitSign_suffix (s : List Char) : (Decimal.splitSign s).2 <:+ s := by
  unfold Decimal.splitSign
  split
  · exact List.suffix_cons _ _
  · exact List.suffix_cons _ _
  · exact List.suffix_refl _

theorem exponent?_suffix {s t : List Char} {e : Option Int}
    (h : exponent? s = some (e, t)) : t <:+ s := by
  unfold exponent? at h
  split at h
  · split at h
    · dsimp only at h
      split at h
      · cases h
      · cases h
        exact (List.dropWhile_suffix _).trans ((splitSign_suffix _).trans (List.suffix_cons _ _))
    · cases h
      exact List.suffix_refl _
  · cases h
    exact List.suffix_refl _

theorem unsigned?_suffix {negative : Bool} {s t : List Char} {n : Numeral}
    (h : unsigned? negative s = some (n, t)) : t <:+ s := by
  obtain ⟨ds, r₁, e, r₂, -, hf, he, -, rfl⟩ := unsigned?_eq_some h
  exact (exponent?_suffix he).trans ((fraction?_suffix hf).trans (List.dropWhile_suffix _))

theorem number?_suffix {s t : List Char} {n : Numeral} (h : number? s = some (n, t)) : t <:+ s := by
  cases s with
  | nil => cases h
  | cons c s =>
    by_cases hc : c = '-'
    · subst hc
      exact (unsigned?_suffix h).trans (List.suffix_cons _ _)
    · rw [number?_of_ne hc] at h
      exact unsigned?_suffix h

/-! ### Whole numbers -/

theorem splitDigits_digits (n : Nat) : splitDigits (Decimal.digits n) = (Decimal.digits n, []) := by
  have hall : ∀ c ∈ Decimal.digits n, Char.isDigit c = true := fun c hc =>
    Decimal.isDigit_of_mem_digits hc
  rw [splitDigits, List.takeWhile_eq_self_iff.2 hall, List.dropWhile_eq_nil_iff.2 hall]

theorem ofDigits_digits (negative : Bool) {n : Nat} (hn : n < UInt64.size) :
    Decimal.ofDigits negative (Decimal.digits n) [] 0 = ⟨negative, n, 0⟩ := by
  have hlt : Decimal.digitsValue (Decimal.digits n) < UInt64.size := by
    rwa [Decimal.digitsValue_digits]
  have htake := Decimal.takeDigits_of_digitsValue_lt hlt
  rw [Decimal.digitsValue_digits] at htake
  simp [Decimal.ofDigits, htake, Decimal.takeDigits]

theorem unsigned?_digits (negative : Bool) {n : Nat} (hn : n < UInt64.size) :
    unsigned? negative (Decimal.digits n) =
      some (if !negative then .whole n
        else if n = 0 ∨ -(n : Int) < Int64.minValue.toInt then .decimal ⟨negative, n, 0⟩ false
        else .whole (-n), []) := by
  have hzero : ¬ (Decimal.digits n = [] ∨
      (1 < (Decimal.digits n).length ∧ (Decimal.digits n).head? = some '0')) := by
    rintro (h | ⟨hl, h⟩)
    · exact Decimal.digits_ne_nil n h
    · by_cases hn : 0 < n
      · exact Decimal.head?_digits hn h
      · obtain rfl : n = 0 := by omega
        exact absurd hl (by decide)
  have hnumeral : numeral negative (Decimal.digits n) none none =
      if !negative then .whole n
        else if n = 0 ∨ -(n : Int) < Int64.minValue.toInt then .decimal ⟨negative, n, 0⟩ false
        else .whole (-n) := by
    simp [numeral, ofDigits_digits negative hn]
  simp only [unsigned?, splitDigits_digits, if_neg hzero, fraction?, exponent?, Option.bind_eq_bind,
    Option.bind_some, hnumeral]

/-- A whole number of 64 bits is read as itself. -/
theorem number?_intChars {i : Int} (hlow : Int64.minValue.toInt ≤ i) (hhigh : i < UInt64.size) :
    number? (intChars i) = some (.whole i, []) := by
  have hmin : Int64.minValue.toInt = -2 ^ 63 := by decide
  have hsize : UInt64.size = 2 ^ 64 := rfl
  by_cases hi : i < 0
  · have hn : i.natAbs < UInt64.size := by omega
    have hlt : ¬ (i.natAbs = 0 ∨ -(i.natAbs : Int) < Int64.minValue.toInt) := by omega
    have hneg : -(i.natAbs : Int) = i := by omega
    rw [intChars, decide_eq_true hi, Decimal.signChars, if_pos rfl, List.singleton_append,
      number?_minus, unsigned?_digits true hn, if_neg hlt, hneg]
    rfl
  · have hn : i.natAbs < UInt64.size := by omega
    have hpos : (i.natAbs : Int) = i := by omega
    obtain ⟨c, ds, hds⟩ : ∃ c ds, Decimal.digits i.natAbs = c :: ds :=
      List.exists_cons_of_ne_nil (Decimal.digits_ne_nil _)
    have hc : c ≠ '-' := by
      rintro rfl
      have hdigit : Char.isDigit '-' = true :=
        Decimal.isDigit_of_mem_digits (n := i.natAbs) (hds ▸ List.mem_cons_self)
      exact absurd hdigit (by decide)
    rw [intChars, decide_eq_false hi, Decimal.signChars, if_neg Bool.false_ne_true, List.nil_append,
      hds, number?_of_ne hc, ← hds, unsigned?_digits false hn, hpos]
    rfl

/-! ### Strings -/

theorem hexValue?_hexDigit {n : Nat} (h : n < 16) : Text.hexValue? (Text.hexDigit n) = some n := by
  have hall : ∀ m : Fin 16, Text.hexValue? (Text.hexDigit m) = some m.val := by decide
  exact hall ⟨n, h⟩

/-- A character that is escaped by one letter. -/
theorem units?_letter {e : Char} {n : Nat} (hn : escapeUnit? e = some n) (hu : e ≠ 'u')
    (s : List Char) :
    units? ('\\' :: e :: s) = (units? s).map fun p => (n :: p.1, p.2) := by
  rw [units?]
  · rw [hn]
    cases units? s <;> rfl
  · rintro _ _ _ _ _ h -
    exact hu h

theorem units?_hex {n : Nat} (hn : n < 256) (s : List Char) :
    units? ('\\' :: 'u' :: '0' :: '0' :: Text.hexDigit (n / 16) :: Text.hexDigit (n % 16) :: s) =
      (units? s).map fun p => (n :: p.1, p.2) := by
  have h0 : Text.hexValue? '0' = some 0 := by decide
  rw [units?, h0, hexValue?_hexDigit (by omega), hexValue?_hexDigit (by omega)]
  have hsum : 0 * 4096 + 0 * 256 + n / 16 * 16 + n % 16 = n := by omega
  simp only [Option.bind_eq_bind, Option.bind_some, hsum]
  cases units? s <;> rfl

theorem units?_plain {c : Char} (hq : c ≠ '"') (hb : c ≠ '\\') (hc : ¬ c.toNat < 32)
    (s : List Char) : units? (c :: s) = (units? s).map fun p => (c.toNat :: p.1, p.2) := by
  rw [units?]
  · rw [if_neg fun h => h.elim hc hb]
    cases units? s <;> rfl
  · exact hq
  · rintro _ _ _ _ _ h -
    exact hb h
  · rintro _ _ h -
    exact hb h

/-- An escaped character is read as its code. -/
theorem units?_escapeChar (c : Char) (s : List Char) :
    units? (escapeChar c ++ s) = (units? s).map fun p => (c.toNat :: p.1, p.2) := by
  unfold escapeChar
  split
  · next h => subst h; exact units?_letter rfl (by decide) s
  split
  · next h => subst h; exact units?_letter rfl (by decide) s
  split
  · next h => subst h; exact units?_letter rfl (by decide) s
  split
  · next h => subst h; exact units?_letter rfl (by decide) s
  split
  · next h => subst h; exact units?_letter rfl (by decide) s
  split
  · next h => rw [h]; exact units?_letter rfl (by decide) s
  split
  · next h => rw [h]; exact units?_letter rfl (by decide) s
  split
  · next h => exact units?_hex (by omega) s
  · next hq hb _ _ _ _ _ hc => exact units?_plain hq hb hc s

theorem units?_escaped (cs s : List Char) :
    units? (cs.flatMap escapeChar ++ '"' :: s) = some (cs.map Char.toNat, s) := by
  induction cs with
  | nil => rfl
  | cons c cs ih => rw [List.flatMap_cons, List.append_assoc, units?_escapeChar, ih]; rfl

/-- The code of a character is no surrogate. -/
theorem not_surrogate (c : Char) :
    isHighSurrogate c.toNat = false ∧ isLowSurrogate c.toNat = false := by
  have h := c.valid
  have ht : c.toNat = c.val.toNat := rfl
  simp only [UInt32.isValidChar, Nat.isValidChar] at h
  constructor
  · simp [isHighSurrogate]; omega
  · simp [isLowSurrogate]; omega

theorem joinUnits?_codes (cs : List Char) : joinUnits? (cs.map Char.toNat) = some cs := by
  induction cs with
  | nil => rfl
  | cons c cs ih =>
    obtain ⟨hhigh, hlow⟩ := not_surrogate c
    cases cs with
    | nil =>
      simp only [List.map_cons, List.map_nil, joinUnits?, hhigh, hlow, Bool.or_self,
        Bool.false_eq_true, ↓reduceIte, Char.ofNat_toNat]
    | cons d cs =>
      rw [List.map_cons] at ih
      rw [List.map_cons, List.map_cons, joinUnits?, hhigh, hlow, ih]
      simp only [Bool.false_eq_true, ↓reduceIte, Option.map_some, Char.ofNat_toNat]

/-- A written string is read as itself. -/
theorem quoted?_escaped (t : String) (s : List Char) :
    quoted? (t.toList.flatMap escapeChar ++ '"' :: s) = some (some t, s) := by
  rw [quoted?, units?_escaped]
  simp only [Option.bind_eq_bind, Option.bind_some, joinUnits?_codes, Option.map_some,
    String.ofList_toList]

end Json

end VideoRelay
