import VideoRelay.Proofs.Decimal.Leading
import VideoRelay.Proofs.Json.Legible

/-!
# Every written number is read to its end

A numeral is a row of digits that is zero or does not begin with one, a fraction that has digits or
is not there, and an exponent of the same kind; `unsigned?_append_of` puts them together.  The numeral
of a decimal is of that form with an exponent (`legible_scientific`), and positionally unless it is a
zero of many places (`legible_positional`), which no float is (`legible_ofBinary`).
-/

namespace VideoRelay.Json

/-- A row of digits. -/
def AreDigits (ds : List Char) : Prop := ∀ c ∈ ds, Char.isDigit c = true

/-- What stands behind a row of digits: nothing, or a character that is no digit. -/
def Stops (s : List Char) : Prop := ∀ c ∈ s.head?, Char.isDigit c = false

theorem areDigits_digits (n : Nat) : AreDigits (Decimal.digits n) :=
  fun _ hc => Decimal.isDigit_of_mem_digits hc

theorem areDigits_zeros (n : Nat) : AreDigits (List.replicate n '0') := by
  intro c hc
  rw [(List.mem_replicate.1 hc).2]
  rfl

theorem AreDigits.append {ds es : List Char} (hds : AreDigits ds) (hes : AreDigits es) :
    AreDigits (ds ++ es) := List.forall_mem_append.2 ⟨hds, hes⟩

theorem stops_nil : Stops [] := fun c hc => by cases hc

theorem stops_cons {c : Char} (hc : c.isDigit = false) (s : List Char) : Stops (c :: s) := by
  intro d hd
  cases hd
  exact hc

/-! ### The parts of a numeral -/

section Parts

variable {ds s r : List Char} {fraction : Option (List Char)} {exponent : Option Int}

theorem splitDigits_append_of (hds : AreDigits ds) (hs : Stops s) :
    splitDigits (ds ++ s) = (ds, s) := by
  have hnone : s.takeWhile Char.isDigit = [] ∧ s.dropWhile Char.isDigit = s := by
    cases s with
    | nil => exact ⟨rfl, rfl⟩
    | cons c s => simp [hs c rfl]
  rw [splitDigits, List.takeWhile_append_of_pos hds, List.dropWhile_append_of_pos hds, hnone.1,
    hnone.2, List.append_nil]

theorem fraction?_point (hne : ds ≠ []) (hds : AreDigits ds) (hs : Stops s) :
    fraction? ('.' :: (ds ++ s)) = some (some ds, s) := by
  simp only [fraction?, splitDigits_append_of hds hs, if_neg hne]

theorem exponent?_signed {sign : Char} (hsign : sign = '-' ∨ sign = '+') (n : Nat) :
    ∃ e, exponent? ('e' :: sign :: Decimal.digits n) = some (e, []) := by
  obtain ⟨negative, hsplit⟩ : ∃ negative,
      Decimal.splitSign (sign :: Decimal.digits n) = (negative, Decimal.digits n) := by
    rcases hsign with rfl | rfl
    · exact ⟨true, rfl⟩
    · exact ⟨false, rfl⟩
  simp only [exponent?, hsplit, splitDigits_digits, if_neg (Decimal.digits_ne_nil n), true_or,
    if_true]
  exact ⟨_, rfl⟩

/-- A numeral without a sign, of parts that are read one after the other. -/
theorem unsigned?_append_of (negative : Bool) (hds : AreDigits ds) (hne : ds ≠ [])
    (hlead : ds.length = 1 ∨ ds.head? ≠ some '0') (hs : Stops s)
    (hfraction : fraction? s = some (fraction, r)) (hexponent : exponent? r = some (exponent, [])) :
    unsigned? negative (ds ++ s) = some (numeral negative ds fraction exponent, []) := by
  have hwhole : ¬ (ds = [] ∨ (1 < ds.length ∧ ds.head? = some '0')) := by
    rintro (hnil | ⟨hlong, hzero⟩)
    · exact hne hnil
    · exact hlead.elim (fun hone => absurd hlong (by omega)) fun h => h hzero
  simp only [unsigned?, splitDigits_append_of hds hs, if_neg hwhole, hfraction, hexponent,
    Option.bind_eq_bind, Option.bind_some]

/-- The sign in front of a digit is read as the sign of the number. -/
theorem number?_signChars (negative : Bool) (hds : AreDigits ds) (hne : ds ≠ []) (s : List Char) :
    number? (Decimal.signChars negative ++ (ds ++ s)) = unsigned? negative (ds ++ s) := by
  cases negative with
  | true => exact number?_minus _
  | false =>
    obtain ⟨c, ds, rfl⟩ := List.exists_cons_of_ne_nil hne
    have hc : c ≠ '-' := by
      rintro rfl
      exact absurd (hds '-' List.mem_cons_self) (by decide)
    exact number?_of_ne hc _

end Parts

/-! ### Decimals -/

theorem legible_of_number? {n : Numeral} (h : ∃ m, number? (numeralChars n) = some (m, [])) :
    n.legible = true := h.elim fun _ hm => (legible_number hm).2

theorem legible_scientific (d : Decimal) : (Numeral.decimal d true).legible = true := by
  obtain ⟨c, rest, hdigits⟩ := List.exists_cons_of_ne_nil (Decimal.digits_ne_nil d.significand)
  have hall : AreDigits (c :: rest) := hdigits ▸ areDigits_digits d.significand
  have hone : AreDigits [c] := fun e he => hall e (List.mem_cons.2 (Or.inl (List.mem_singleton.1 he)))
  have hrest : AreDigits rest := fun e he => hall e (List.mem_cons_of_mem c he)
  have hsign : (if d.leadingExponent < 0 then '-' else '+') = '-' ∨
      (if d.leadingExponent < 0 then '-' else '+') = '+' := by
    split
    · exact Or.inl rfl
    · exact Or.inr rfl
  obtain ⟨e, hexponent⟩ := exponent?_signed hsign d.leadingExponent.natAbs
  refine legible_of_number? ?_
  rw [numeralChars, Decimal.scientific, hdigits, List.append_assoc, List.append_assoc,
    List.take_succ_cons, List.take_zero, number?_signChars _ hone (List.cons_ne_nil c [])]
  cases rest with
  | nil =>
    exact ⟨_, unsigned?_append_of _ hone (List.cons_ne_nil c []) (Or.inl rfl)
      (stops_cons (by decide) _) rfl hexponent⟩
  | cons b rest =>
    exact ⟨_, unsigned?_append_of _ hone (List.cons_ne_nil c []) (Or.inl rfl)
      (stops_cons (by decide) _)
      (fraction?_point (List.cons_ne_nil b rest) hrest (stops_cons (by decide) _)) hexponent⟩

/-- A text with digits on both sides of its point. -/
theorem number?_point (negative : Bool) {whole fraction : List Char} (hwhole : AreDigits whole)
    (hne : whole ≠ []) (hlead : whole.length = 1 ∨ whole.head? ≠ some '0')
    (hfraction : AreDigits fraction) (hsome : fraction ≠ []) :
    ∃ m, number? (Decimal.signChars negative ++ (whole ++ '.' :: fraction)) = some (m, []) := by
  have hpoint := fraction?_point hsome hfraction stops_nil
  rw [List.append_nil] at hpoint
  rw [number?_signChars _ hwhole hne]
  exact ⟨_, unsigned?_append_of _ hwhole hne hlead (stops_cons (by decide) _) hpoint rfl⟩

/-- The digits before the point, if there are any but a zero put there. -/
theorem head?_whole {d : Decimal} (hzero : d.significand = 0 → d.exponent ≤ 0) {whole : List Char}
    (hwhole : whole = (Decimal.digits d.significand).take (d.leadingExponent.toNat + 1) ++
      List.replicate (d.leadingExponent.toNat + 1 - (Decimal.digits d.significand).length) '0') :
    whole ≠ [] ∧ (whole.length = 1 ∨ whole.head? ≠ some '0') := by
  obtain ⟨c, rest, hdigits⟩ := List.exists_cons_of_ne_nil (Decimal.digits_ne_nil d.significand)
  rw [hdigits, List.take_succ_cons, List.cons_append] at hwhole
  refine ⟨hwhole ▸ List.cons_ne_nil _ _, ?_⟩
  rcases Nat.eq_zero_or_pos d.significand with hd | hd
  · -- zero has one digit, so no place is left for another one
    have hone : Decimal.digits d.significand = ['0'] := by rw [hd]; rfl
    have hplaces : d.leadingExponent.toNat = 0 := by
      have := hzero hd
      rw [Decimal.leadingExponent, hone, List.length_singleton]
      omega
    obtain ⟨-, rfl⟩ := List.cons.inj (hdigits.symm.trans hone)
    exact Or.inl (by rw [hwhole, hplaces]; rfl)
  · have hhead := Decimal.head?_digits hd
    rw [hdigits] at hhead
    rw [hwhole]
    exact Or.inr hhead

theorem legible_positional {d : Decimal} (hzero : d.significand = 0 → d.exponent ≤ 0) :
    (Numeral.decimal d false).legible = true := by
  have hdigits := areDigits_digits d.significand
  refine legible_of_number? ?_
  rw [numeralChars, Decimal.positional]
  dsimp only
  split
  · -- a zero, the point, and zeros up to the leading digit
    exact number?_point _ (areDigits_zeros 1) (List.cons_ne_nil _ _) (Or.inl rfl)
      ((areDigits_zeros _).append hdigits)
      (List.append_ne_nil_of_right_ne_nil _ (Decimal.digits_ne_nil _))
  · obtain ⟨hne, hlead⟩ := head?_whole hzero rfl
    refine number?_point _ ?_ hne hlead ?_ ?_
    · exact AreDigits.append (fun c hc => hdigits c (List.mem_of_mem_take hc)) (areDigits_zeros _)
    · split
      · exact areDigits_zeros 1
      · exact fun c hc => hdigits c (List.mem_of_mem_drop hc)
    · split
      · exact List.cons_ne_nil _ _
      · next hrest => exact fun hnil => hrest (List.isEmpty_iff.2 hnil)

/-! ### Floats -/

/-- The numeral of a float is read to its end. -/
theorem legible_ofBinary {F : Type} [BinaryFloat F] (layout : FloatLayout) (x : F) :
    (ofBinary layout x).legible = true := by
  unfold ofBinary
  split
  · rfl
  · next d hd =>
    have hzero (hs : d.significand = 0) : d.exponent ≤ 0 :=
      Int.le_of_eq (Decimal.exponent_eq_zero_of_shortest? hd hs)
    change (Numeral.decimal d _).legible = true
    generalize (decide (d.leadingExponent < layout.lowest) ||
      decide (layout.highest < d.leadingExponent)) = scientific
    cases scientific with
    | true => exact legible_scientific d
    | false => exact legible_positional hzero

end VideoRelay.Json
