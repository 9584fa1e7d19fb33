import VideoRelay.Decimal.Basic

/-!
# Decimals read in steps

A numeral can be read as a double without exact arithmetic.  `ofDigits` keeps as many of its leading
digits as 64 bits hold, and `stepwise?` makes a double of them and multiplies or divides it by a power
of ten.  Every step rounds, so the result may be a neighbour of the nearest double.

`takeDigits_lt` and `significand_ofDigits_lt` say that 64 bits hold what is kept, and
`takeDigits_of_digitsValue_lt` that nothing is dropped if they hold all of it.
-/

namespace VideoRelay.Decimal

/-! ### Digits -/

/-- Appends digits to a number as long as 64 bits hold it, and leaves the others. -/
def takeDigits (n : Nat) : List Char → Nat × List Char
  | [] => (n, [])
  | c :: cs =>
    if 10 * n + (c.toNat - 48) < UInt64.size then takeDigits (10 * n + (c.toNat - 48)) cs
    else (n, c :: cs)

/-- The decimal of the digits before and behind the point, without those that do not fit. -/
def ofDigits (negative : Bool) (whole fraction : List Char) (exponent : Int) : Decimal :=
  let (n, dropped) := takeDigits 0 whole
  let (n, unread) := takeDigits n fraction
  ⟨negative, n, exponent + dropped.length - (fraction.length - unread.length)⟩

theorem takeDigits_lt {n : Nat} {cs : List Char} (h : n < UInt64.size) :
    (takeDigits n cs).1 < UInt64.size := by
  induction cs generalizing n with
  | nil => exact h
  | cons c cs ih =>
    unfold takeDigits
    split
    · next hc => exact ih hc
    · exact h

theorem significand_ofDigits_lt (negative : Bool) (whole fraction : List Char) (exponent : Int) :
    (ofDigits negative whole fraction exponent).significand < UInt64.size :=
  takeDigits_lt (takeDigits_lt (by decide))

/-- A number does not get smaller by the digits behind it. -/
theorem le_foldl_digits (n : Nat) (cs : List Char) :
    n ≤ cs.foldl (fun n c => 10 * n + (c.toNat - 48)) n := by
  induction cs generalizing n with
  | nil => exact Nat.le_refl _
  | cons c cs ih => exact Nat.le_trans (by omega) (ih (10 * n + (c.toNat - 48)))

theorem takeDigits_of_foldl_lt {n : Nat} {cs : List Char}
    (h : cs.foldl (fun n c => 10 * n + (c.toNat - 48)) n < UInt64.size) :
    takeDigits n cs = (cs.foldl (fun n c => 10 * n + (c.toNat - 48)) n, []) := by
  induction cs generalizing n with
  | nil => rfl
  | cons c cs ih =>
    have hc : 10 * n + (c.toNat - 48) < UInt64.size := Nat.lt_of_le_of_lt (le_foldl_digits _ cs) h
    rw [takeDigits, if_pos hc, ih h, List.foldl_cons]

theorem takeDigits_of_digitsValue_lt {cs : List Char} (h : digitsValue cs < UInt64.size) :
    takeDigits 0 cs = (digitsValue cs, []) := takeDigits_of_foldl_lt h

/-! ### Doubles -/

/-- The greatest exponent of a power of ten that is a double. -/
def greatestPower : Nat := 308

/-- The double nearest to a power of ten. -/
def powerOfTen (n : Nat) : Float := Float.ofScientific 1 false n

/-- A double multiplied by a power of ten, or divided by powers of ten one after the other; none if it
grows out of range. -/
def scale? (x : Float) (e : Int) : Option Float :=
  if e < -greatestPower then
    if x == 0 then some x else scale? (x / powerOfTen greatestPower) (e + greatestPower)
  else if e < 0 then some (x / powerOfTen e.natAbs)
  else if greatestPower < e then if x == 0 then some x else none
  else
    let y := x * powerOfTen e.natAbs
    if y.isInf then none else some y
termination_by e.natAbs
decreasing_by
  simp only [greatestPower] at *
  omega

/-- The double that a decimal is read as; none if it is out of range. -/
def stepwise? (d : Decimal) : Option Float :=
  (scale? (UInt64.ofNat d.significand).toFloat d.exponent).map fun x => if d.negative then -x else x

end VideoRelay.Decimal
