import VideoRelay.Json.Basic
import VideoRelay.Text.Hex

/-!
# Numbers, truth values and dates of TOML

`scalar?` reads one of the values of TOML that are written without quotes and brackets.  Whole
numbers have 64 bits with a sign; an underscore may stand between two digits; a date has to exist.
A date reads as an object of one field, and infinities and NaN as values of which nothing can be
read.
-/

namespace VideoRelay.Toml

/-- Removes underscores, each of which has to stand between two digits. -/
def joinDigits? (isDigit : Char → Bool) : List Char → Option (List Char)
  | [] => none
  | [c] => if isDigit c then some [c] else none
  | c :: '_' :: r => if isDigit c then (joinDigits? isDigit r).map (c :: ·) else none
  | c :: r => if isDigit c then (joinDigits? isDigit r).map (c :: ·) else none

/-- The value of digits in a base up to 16. -/
def digitsValue (base : Nat) (cs : List Char) : Nat :=
  cs.foldl (fun n c => base * n + (Text.hexValue? c).getD 0) 0

def isDigitOf (base : Nat) (c : Char) : Bool :=
  match Text.hexValue? c with
  | some n => n < base
  | none => false

/-- Decimal digits without a leading zero. -/
def wholeDigits? (cs : List Char) : Option (List Char) := do
  let ds ← joinDigits? Char.isDigit cs
  if ds.length > 1 && ds.head? == some '0' then none else some ds

def int64Of? (i : Int) : Option Json :=
  if Int64.minValue.toInt ≤ i ∧ i ≤ Int64.maxValue.toInt then some (Json.ofInt i) else none

/-- A whole number with a base in front. -/
def based? (base : Nat) (cs : List Char) : Option Json := do
  let ds ← joinDigits? (isDigitOf base) cs
  int64Of? (digitsValue base ds)

def integer? : List Char → Option Json
  | '0' :: 'x' :: r => based? 16 r
  | '0' :: 'o' :: r => based? 8 r
  | '0' :: 'b' :: r => based? 2 r
  | cs => do
    let (negative, r) := Decimal.splitSign cs
    let ds ← wholeDigits? r
    let n : Int := Decimal.digitsValue ds
    int64Of? (if negative then -n else n)

/-! ### Floats -/

/-- Splits at the first character of a class; the character itself is dropped. -/
def splitAtFirst (p : Char → Bool) (cs : List Char) : List Char × Option (List Char) :=
  match cs.span fun c => !p c with
  | (front, _ :: back) => (front, some back)
  | (front, []) => (front, none)

/-- A number with a fraction or an exponent, or infinity or NaN. -/
def float? (cs : List Char) : Option Json := do
  let (negative, r) := Decimal.splitSign cs
  if r = ['i', 'n', 'f'] ∨ r = ['n', 'a', 'n'] then some .illFormed
  else
    let (mantissa, exponent) := splitAtFirst (fun c => c = 'e' || c = 'E') r
    let (whole, fraction) := splitAtFirst (· = '.') mantissa
    if exponent.isNone && fraction.isNone then none
    else
      let ws ← wholeDigits? whole
      let fs ← match fraction with
        | none => some []
        | some f => joinDigits? Char.isDigit f
      let e : Int ← match exponent with
        | none => some 0
        | some e => do
          let (down, r) := Decimal.splitSign e
          let ds ← joinDigits? Char.isDigit r
          let n : Int := Decimal.digitsValue ds
          some (if down then -n else n)
      let d : Decimal :=
        ⟨negative, Decimal.digitsValue (ws ++ fs), e - (fs.length : Int)⟩
      if d.toFloat.isInf && !negative then none else some (.number (.decimal d exponent.isSome))

/-! ### Dates and times -/

/-- A number of exactly so many digits. -/
def fixedDigits? (n : Nat) (cs : List Char) : Option Nat :=
  if cs.length = n ∧ cs.all Char.isDigit then some (Decimal.digitsValue cs) else none

def daysInMonth (year month : Nat) : Nat :=
  if month = 2 then
    if year % 4 = 0 ∧ (year % 100 ≠ 0 ∨ year % 400 = 0) then 29 else 28
  else if month = 4 ∨ month = 6 ∨ month = 9 ∨ month = 11 then 30
  else 31

def isDate : List Char → Bool
  | [y₁, y₂, y₃, y₄, '-', m₁, m₂, '-', d₁, d₂] =>
    match fixedDigits? 4 [y₁, y₂, y₃, y₄], fixedDigits? 2 [m₁, m₂], fixedDigits? 2 [d₁, d₂] with
    | some y, some m, some d => 1 ≤ m && m ≤ 12 && 1 ≤ d && d ≤ daysInMonth y m
    | _, _, _ => false
  | _ => false

/-- Hours and minutes with a colon between them. -/
def isClock (a b c d : Char) : Bool :=
  match fixedDigits? 2 [a, b], fixedDigits? 2 [c, d] with
  | some h, some m => h ≤ 23 && m ≤ 59
  | _, _ => false

/-- A distance from universal time, or nothing if none may be missing. -/
def isOffset : List Char → Bool
  | ['Z'] => true
  | ['z'] => true
  | [s, a, b, ':', c, d] => (s = '+' || s = '-') && isClock a b c d
  | _ => false

/-- The time at the front, and what follows it. -/
def time? : List Char → Option (List Char)
  | a :: b :: ':' :: c :: d :: ':' :: e :: f :: r =>
    match fixedDigits? 2 [e, f] with
    | some s =>
      if isClock a b c d && s ≤ 60 then
        match r with
        | '.' :: r' =>
          let (ds, rest) := r'.span Char.isDigit
          if ds.isEmpty then none else some rest
        | _ => some r
      else none
    | none => none
  | _ => none

/-- A time, with an offset or without. -/
def isTimeWithOffset (cs : List Char) : Bool :=
  match time? cs with
  | some r => r.isEmpty || isOffset r
  | none => false

/-- A date, a time of day, or both with one of the letters `T` and `t` between them. -/
def isDateTime (cs : List Char) : Bool :=
  isDate cs || time? cs == some [] ||
    (isDate (cs.take 10) &&
      match cs.drop 10 with
      | c :: r => (c = 'T' || c = 't') && isTimeWithOffset r
      | [] => false)

def ofDateTime (cs : List Char) : Json := .object [("datetime", .string (String.ofList cs))]

/-- A value without quotes and brackets. -/
def scalar? (cs : List Char) : Option Json :=
  if cs = ['t', 'r', 'u', 'e'] then some (.bool true)
  else if cs = ['f', 'a', 'l', 's', 'e'] then some (.bool false)
  else if isDateTime cs then some (ofDateTime cs)
  else (integer? cs).or (float? cs)

end VideoRelay.Toml
