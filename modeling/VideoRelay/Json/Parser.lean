import VideoRelay.Json.Nesting
import VideoRelay.Text.Hex

/-!
# Reading JSON

`parse?` reads one strict JSON value with optional white space around it.  Every step returns the
characters that it leaves, with a proof that they are fewer, so the recursion ends.  The escapes of
a string are read as code units first; a high surrogate and the low one behind it are one character,
and any other surrogate makes the string ill-formed.

An array or object inside `depthLimit` others is ill-formed too.
-/

namespace VideoRelay.Json

/-- What a reading step leaves of `s`. -/
abbrev Shorter (s : List Char) := { r : List Char // r.length < s.length }

/-- What a step leaves of a part of `s`, as what is left of `s`. -/
def Shorter.within {s t : List Char} (r : Shorter t) (h : t.length ≤ s.length) : Shorter s :=
  ⟨r.1, Nat.lt_of_lt_of_le r.2 h⟩

/-- What a step leaves of what another step has left of `s`. -/
def Shorter.behind {s t : List Char} (r : Shorter t) (h : t.length < s.length) : Shorter s :=
  ⟨r.1, Nat.lt_trans r.2 h⟩

def isBlank (c : Char) : Bool := c = ' ' || c = '\t' || c = '\n' || c = '\r'

def skipBlanks (s : List Char) : { r : List Char // r.length ≤ s.length } :=
  ⟨s.dropWhile isBlank, (List.dropWhile_suffix _).sublist.length_le⟩

/-- Reads one given character. -/
def expect? (c : Char) : (s : List Char) → Option (Shorter s)
  | [] => none
  | d :: r => if d = c then some ⟨r, by simp⟩ else none

/-! ### Strings -/

/-- The code unit of a one-letter escape. -/
def escapeUnit? : Char → Option Nat
  | '"' => some 0x22
  | '\\' => some 0x5C
  | '/' => some 0x2F
  | 'b' => some 0x8
  | 'f' => some 0xC
  | 'n' => some 0xA
  | 'r' => some 0xD
  | 't' => some 0x9
  | _ => none

/-- The code units up to the closing quote, and what follows it. -/
def units? : List Char → Option (List Nat × List Char)
  | [] => none
  | '"' :: r => some ([], r)
  | '\\' :: 'u' :: a :: b :: c :: d :: r => do
    let n := (← Text.hexValue? a) * 4096 + (← Text.hexValue? b) * 256 +
      (← Text.hexValue? c) * 16 + (← Text.hexValue? d)
    let (us, rest) ← units? r
    some (n :: us, rest)
  | '\\' :: e :: r => do
    let n ← escapeUnit? e
    let (us, rest) ← units? r
    some (n :: us, rest)
  | c :: r =>
    if c.toNat < 32 ∨ c = '\\' then none
    else do
      let (us, rest) ← units? r
      some (c.toNat :: us, rest)

theorem length_units? {s r : List Char} {us : List Nat} (h : units? s = some (us, r)) :
    r.length < s.length := by
  fun_induction units? s generalizing us with
  | case1 => simp at h
  | case2 => simp_all
  | case3 a b c d r' ih =>
    simp only [Option.bind_eq_bind, Option.bind_eq_some_iff, Option.some.injEq, Prod.mk.injEq] at h
    obtain ⟨_, _, _, _, _, _, _, _, ⟨us', _⟩, hp, _, rfl⟩ := h
    have := ih hp
    simp only [List.length_cons] at this ⊢
    omega
  | case4 e r' _ ih =>
    simp only [Option.bind_eq_bind, Option.bind_eq_some_iff, Option.some.injEq, Prod.mk.injEq] at h
    obtain ⟨_, _, ⟨us', _⟩, hp, _, rfl⟩ := h
    have := ih hp
    simp only [List.length_cons] at this ⊢
    omega
  | case5 => simp at h
  | case6 c r' _ _ _ _ ih =>
    simp only [Option.bind_eq_bind, Option.bind_eq_some_iff, Option.some.injEq, Prod.mk.injEq] at h
    obtain ⟨⟨us', _⟩, hp, _, rfl⟩ := h
    have := ih hp
    simp only [List.length_cons] at this ⊢
    omega

def isHighSurrogate (n : Nat) : Bool := 0xD800 ≤ n && n < 0xDC00

def isLowSurrogate (n : Nat) : Bool := 0xDC00 ≤ n && n < 0xE000

/-- The characters of a row of code units, if no surrogate stands alone. -/
def joinUnits? : List Nat → Option (List Char)
  | [] => some []
  | [n] => if isHighSurrogate n || isLowSurrogate n then none else some [Char.ofNat n]
  | n :: m :: r =>
    if isHighSurrogate n then
      if isLowSurrogate m then
        (joinUnits? r).map (Char.ofNat (0x10000 + (n - 0xD800) * 0x400 + (m - 0xDC00)) :: ·)
      else none
    else if isLowSurrogate n then none
    else (joinUnits? (m :: r)).map (Char.ofNat n :: ·)

/-- The text of a string behind its opening quote, if it names one. -/
def quoted? (s : List Char) : Option (Option String × List Char) := do
  let (us, rest) ← units? s
  some ((joinUnits? us).map String.ofList, rest)

theorem length_quoted? {s r : List Char} {t : Option String} (h : quoted? s = some (t, r)) :
    r.length < s.length := by
  simp only [quoted?, Option.bind_eq_bind, Option.bind_eq_some_iff, Option.some.injEq,
    Prod.mk.injEq] at h
  obtain ⟨⟨us, _⟩, hu, _, rfl⟩ := h
  exact length_units? hu

/-! ### Numbers -/

/-- The digits at the front, and what follows them. -/
def splitDigits (s : List Char) : List Char × List Char :=
  (s.takeWhile Char.isDigit, s.dropWhile Char.isDigit)

/-- A point with at least one digit behind it, if there is a point. -/
def fraction? (s : List Char) : Option (Option (List Char) × List Char) :=
  match s with
  | '.' :: r =>
    let (ds, rest) := splitDigits r
    if ds = [] then none else some (some ds, rest)
  | _ => some (none, s)

/-- An exponent with at least one digit, if there is one. -/
def exponent? (s : List Char) : Option (Option Int × List Char) :=
  match s with
  | e :: r =>
    if e = 'e' ∨ e = 'E' then
      let (negative, r) := Decimal.splitSign r
      let (ds, rest) := splitDigits r
      let n : Int := Decimal.digitsValue ds
      if ds = [] then none else some (some (if negative then -n else n), rest)
    else some (none, s)
  | [] => some (none, s)

/-- The number of a sign, whole digits, fraction and exponent. -/
def numeral (negative : Bool) (whole : List Char) (fraction : Option (List Char))
    (exponent : Option Int) : Numeral :=
  let d := Decimal.ofDigits negative whole (fraction.getD []) (exponent.getD 0)
  let n : Int := d.significand
  if fraction.isSome || exponent.isSome || d.exponent != 0 then .decimal d exponent.isSome
  else if !negative then .whole n
  else if n = 0 ∨ -n < Int64.minValue.toInt then .decimal d false
  else .whole (-n)

def number? (s : List Char) : Option (Numeral × List Char) := do
  let (negative, r) := match s with
    | '-' :: r => (true, r)
    | _ => (false, s)
  let (whole, r) := splitDigits r
  if whole = [] ∨ (1 < whole.length ∧ whole.head? = some '0') then none
  else
    let (fraction, r) ← fraction? r
    let (exponent, r) ← exponent? r
    some (numeral negative whole fraction exponent, r)

theorem length_splitDigits (s : List Char) :
    (splitDigits s).1.length + (splitDigits s).2.length = s.length := by
  rw [splitDigits, ← List.length_append, List.takeWhile_append_dropWhile]

theorem length_fraction? {s r : List Char} {ds : Option (List Char)}
    (h : fraction? s = some (ds, r)) : r.length ≤ s.length := by
  unfold fraction? at h
  split at h
  · next r' =>
    have hd := length_splitDigits r'
    dsimp only at h
    split at h
    · simp at h
    · simp only [Option.some.injEq, Prod.mk.injEq] at h
      obtain ⟨_, rfl⟩ := h
      simp only [List.length_cons]
      omega
  · simp only [Option.some.injEq, Prod.mk.injEq] at h
    simp [h.2]

theorem length_exponent? {s r : List Char} {e : Option Int} (h : exponent? s = some (e, r)) :
    r.length ≤ s.length := by
  unfold exponent? at h
  split at h
  · next c r' =>
    have hs := Decimal.length_splitSign r'
    have hd := length_splitDigits (Decimal.splitSign r').2
    split at h
    · dsimp only at h
      split at h
      · simp at h
      · simp only [Option.some.injEq, Prod.mk.injEq] at h
        obtain ⟨_, rfl⟩ := h
        simp only [List.length_cons]
        omega
    · simp only [Option.some.injEq, Prod.mk.injEq] at h
      simp [← h.2]
  · simp only [Option.some.injEq, Prod.mk.injEq] at h
    simp [← h.2]

theorem length_number? {s r : List Char} {n : Numeral} (h : number? s = some (n, r)) :
    r.length < s.length := by
  have hs : ∃ neg t, t.length ≤ s.length ∧ (match s with
      | '-' :: r => (true, r)
      | _ => (false, s)) = (neg, t) := by
    split
    · exact ⟨true, _, by simp, rfl⟩
    · exact ⟨false, _, Nat.le_refl _, rfl⟩
  obtain ⟨neg, t, ht, he⟩ := hs
  have hd := length_splitDigits t
  simp only [number?, he] at h
  split at h
  · simp at h
  · next hw =>
    simp only [Option.bind_eq_bind, Option.bind_eq_some_iff, Option.some.injEq,
      Prod.mk.injEq] at h
    obtain ⟨⟨fr, t₁⟩, hf, ⟨ex, t₂⟩, hx, _, rfl⟩ := h
    have h₁ : t₁.length ≤ (splitDigits t).2.length := length_fraction? hf
    have h₂ : t₂.length ≤ t₁.length := length_exponent? hx
    have h₀ : 0 < (splitDigits t).1.length := List.length_pos_iff.2 fun h => hw (.inl h)
    show t₂.length < s.length
    omega

/-! ### Values -/

/-- An object of its fields; a key without a text spoils it. -/
def ofMembers (members : List (Option String × Json)) : Json :=
  match members.mapM fun m => m.1.map fun k => (k, m.2) with
  | some fields => .object fields
  | none => .illFormed

/-- Reads a key behind its opening quote. -/
def key? (s : List Char) : Option (Option String × Shorter s) :=
  match h : quoted? s with
  | none => none
  | some (key, rest) => some (key, ⟨rest, length_quoted? h⟩)

mutual

/-- Reads a value at the front. -/
def value? (s : List Char) : Option (Json × Shorter s) :=
  match s with
  | [] => none
  | '{' :: r => do
    let (members, ⟨rest, h⟩) ← members? r true
    some (ofMembers members, ⟨rest, by simp; omega⟩)
  | '[' :: r => do
    let (items, ⟨rest, h⟩) ← items? r true
    some (.array items, ⟨rest, by simp; omega⟩)
  | '"' :: r =>
    match h : quoted? r with
    | none => none
    | some (text, rest) =>
      some (text.elim .illFormed .string, ⟨rest, by have := length_quoted? h; simp; omega⟩)
  | 'n' :: 'u' :: 'l' :: 'l' :: r => some (.null, ⟨r, by simp; omega⟩)
  | 't' :: 'r' :: 'u' :: 'e' :: r => some (.bool true, ⟨r, by simp; omega⟩)
  | 'f' :: 'a' :: 'l' :: 's' :: 'e' :: r => some (.bool false, ⟨r, by simp; omega⟩)
  | c :: r =>
    match h : number? (c :: r) with
    | none => none
    | some (n, rest) => some (.number n, ⟨rest, length_number? h⟩)
termination_by 2 * s.length

/-- Reads items up to the closing bracket; only a first one may be missing. -/
def items? (s : List Char) (first : Bool) : Option (List Json × Shorter s) :=
  let ⟨s₁, h₁⟩ := skipBlanks s
  match expect? ']' s₁, first with
  | some ⟨r, h⟩, true => some ([], ⟨r, by omega⟩)
  | _, _ => do
    let (v, ⟨s₂, h₂⟩) ← value? s₁
    let ⟨s₃, h₃⟩ := skipBlanks s₂
    match expect? ',' s₃ with
    | some ⟨r, h⟩ => do
      let (vs, ⟨rest, h'⟩) ← items? r false
      some (v :: vs, ⟨rest, by omega⟩)
    | none => do
      let ⟨rest, h⟩ ← expect? ']' s₃
      some ([v], ⟨rest, by omega⟩)
termination_by 2 * s.length + 1

/-- Reads fields up to the closing brace; only a first one may be missing. -/
def members? (s : List Char) (first : Bool) :
    Option (List (Option String × Json) × Shorter s) :=
  let ⟨s₁, h₁⟩ := skipBlanks s
  match expect? '}' s₁, first with
  | some ⟨r, h⟩, true => some ([], ⟨r, by omega⟩)
  | _, _ => do
    let ⟨s₂, h₂⟩ ← expect? '"' s₁
    let (key, ⟨s₃, h₃⟩) ← key? s₂
    let ⟨s₄, h₄⟩ := skipBlanks s₃
    let ⟨s₅, h₅⟩ ← expect? ':' s₄
    let ⟨s₆, h₆⟩ := skipBlanks s₅
    let (v, ⟨s₇, h₇⟩) ← value? s₆
    let ⟨s₈, h₈⟩ := skipBlanks s₇
    match expect? ',' s₈ with
    | some ⟨r, h⟩ => do
      let (ms, ⟨rest, h'⟩) ← members? r false
      some ((key, v) :: ms, ⟨rest, by omega⟩)
    | none => do
      let ⟨rest, h⟩ ← expect? '}' s₈
      some ([(key, v)], ⟨rest, by omega⟩)
termination_by 2 * s.length + 1

end

/-- Reads a text that holds one value and nothing else but white space. -/
def parseChars? (s : List Char) : Option Json := do
  let (v, ⟨rest, _⟩) ← value? (skipBlanks s).1
  if (skipBlanks rest).1.isEmpty then some v else none

/-- How many arrays and objects may lie in each other for something to be read of the innermost. -/
def depthLimit : Nat := 127

def parse? (s : String) : Option Json := (parseChars? s.toList).map (clip depthLimit)

end VideoRelay.Json
