import VideoRelay.Proofs.Json.Tokens

/-!
# Reading a value at the front of a text

The parser returns what it leaves together with a proof that it is shorter.  `read?`, `readItems?` and
`readMembers?` forget the proof, and the laws here say what they read in a text that begins like a
written value: one law for each kind of value, and for the items of an array and the fields of an
object one for none, one for the last and one for the others.  White space is not written, so a value
begins with a character that `Opens` it.
-/

namespace VideoRelay.Json

/-! ### Values -/

/-- A value at the front, and what follows it. -/
def read? (s : List Char) : Option (Json × List Char) := (value? s).map fun p => (p.1, p.2.1)

def readItems? (s : List Char) (first : Bool) : Option (List Json × List Char) :=
  (items? s first).map fun p => (p.1, p.2.1)

def readMembers? (s : List Char) (first : Bool) :
    Option (List (Option String × Json) × List Char) :=
  (members? s first).map fun p => (p.1, p.2.1)

theorem read?_array (s : List Char) :
    read? ('[' :: s) = (readItems? s true).map fun p => (.array p.1, p.2) := by
  rw [read?, value?, readItems?]
  cases items? s true <;> rfl

theorem read?_object (s : List Char) :
    read? ('{' :: s) = (readMembers? s true).map fun p => (ofMembers p.1, p.2) := by
  rw [read?, value?, readMembers?]
  cases members? s true <;> rfl

theorem read?_string (t : String) (s : List Char) :
    read? (stringChars t ++ s) = some (.string t, s) := by
  rw [read?, stringChars, List.cons_append, List.cons_append, List.append_assoc,
    List.singleton_append, value?]
  split
  · next h => rw [quoted?_escaped] at h; cases h
  · next h => rw [quoted?_escaped] at h; cases h; rfl

theorem read?_null (s : List Char) : read? ('n' :: 'u' :: 'l' :: 'l' :: s) = some (.null, s) := by
  rw [read?, value?]; rfl

theorem read?_true (s : List Char) :
    read? ('t' :: 'r' :: 'u' :: 'e' :: s) = some (.bool true, s) := by
  rw [read?, value?]; rfl

theorem read?_false (s : List Char) :
    read? ('f' :: 'a' :: 'l' :: 's' :: 'e' :: s) = some (.bool false, s) := by
  rw [read?, value?]; rfl

/-- Whether a character begins a numeral. -/
def BeginsNumeral (c : Char) : Prop := c.isDigit = true ∨ c = '-'

theorem read?_number {c : Char} (hc : BeginsNumeral c) (s : List Char) :
    read? (c :: s) = (number? (c :: s)).map fun p => (.number p.1, p.2) := by
  have hne : ∀ d : Char, d.isDigit = false → d ≠ '-' → c ≠ d := by
    rintro d hd hm rfl
    rcases hc with hc | hc
    · rw [hd] at hc
      cases hc
    · exact hm hc
  rw [read?, value?]
  · split
    · next h => exact (congrArg (Option.map fun p => (Json.number p.1, p.2)) h).symm
    · next h => exact (congrArg (Option.map fun p => (Json.number p.1, p.2)) h).symm
  · exact hne _ (by decide) (by decide)
  · exact hne _ (by decide) (by decide)
  · exact hne _ (by decide) (by decide)
  · exact fun _ h _ => hne _ (by decide) (by decide) h
  · exact fun _ h _ => hne _ (by decide) (by decide) h
  · exact fun _ h _ => hne _ (by decide) (by decide) h

/-- A character that begins a value: no white space and no closing bracket. -/
def Opens (c : Char) : Prop := isBlank c = false ∧ c ≠ ']' ∧ c ≠ '}'

instance (c : Char) : Decidable (Opens c) :=
  inferInstanceAs (Decidable (isBlank c = false ∧ c ≠ ']' ∧ c ≠ '}'))

theorem skipBlanks_of_opens {c : Char} (hc : isBlank c = false) (s : List Char) :
    skipBlanks (c :: s) = ⟨c :: s, Nat.le_refl _⟩ := by
  simp [skipBlanks, hc]

theorem expect?_self (c : Char) (s : List Char) :
    expect? c (c :: s) = some ⟨s, Nat.lt_succ_self s.length⟩ := by
  simp [expect?]

theorem expect?_of_ne {c d : Char} (h : d ≠ c) (s : List Char) : expect? c (d :: s) = none := by
  simp [expect?, h]

/-! ### Items -/

theorem readItems?_none (s : List Char) : readItems? (']' :: s) true = some ([], s) := by
  rw [readItems?, items?, skipBlanks_of_opens (by decide)]
  dsimp only
  rw [expect?_self]
  rfl

theorem readItems?_last {c : Char} {s t : List Char} {v : Json} (hc : Opens c) (first : Bool)
    (h : read? (c :: s) = some (v, ']' :: t)) : readItems? (c :: s) first = some ([v], t) := by
  obtain ⟨⟨w, r⟩, hv, hr⟩ := Option.map_eq_some_iff.1 h
  obtain ⟨r, hlt⟩ := r
  cases hr
  rw [readItems?, items?, skipBlanks_of_opens hc.1]
  dsimp only
  rw [expect?_of_ne hc.2.1, hv]
  rfl

theorem readItems?_cons {c : Char} {s t r : List Char} {v : Json} {vs : List Json} (hc : Opens c)
    (first : Bool) (h : read? (c :: s) = some (v, ',' :: t))
    (hvs : readItems? t false = some (vs, r)) : readItems? (c :: s) first = some (v :: vs, r) := by
  obtain ⟨⟨w, r⟩, hv, hr⟩ := Option.map_eq_some_iff.1 h
  obtain ⟨⟨ws, r'⟩, hws, hr'⟩ := Option.map_eq_some_iff.1 hvs
  obtain ⟨r, hlt⟩ := r
  obtain ⟨r', hlt'⟩ := r'
  cases hr
  cases hr'
  rw [readItems?, items?, skipBlanks_of_opens hc.1]
  dsimp only
  rw [expect?_of_ne hc.2.1, hv]
  change Option.map _ ((items? t false).bind _) = _
  rw [hws]
  rfl

/-! ### Fields -/

theorem key?_escaped (k : String) (s : List Char) :
    ∃ h, key? (k.toList.flatMap escapeChar ++ '"' :: s) = some (some k, ⟨s, h⟩) := by
  refine ⟨length_quoted? (quoted?_escaped k s), ?_⟩
  rw [key?]
  split
  · next h => rw [quoted?_escaped] at h; cases h
  · next h => rw [quoted?_escaped] at h; cases h; rfl

theorem readMembers?_none (s : List Char) : readMembers? ('}' :: s) true = some ([], s) := by
  rw [readMembers?, members?, skipBlanks_of_opens (by decide)]
  dsimp only
  rw [expect?_self]
  rfl

/-- What is read behind white space, as the parser has it. -/
theorem value?_of_read? {c : Char} {s t : List Char} {v : Json} (hc : Opens c)
    (h : read? (c :: s) = some (v, t)) :
    ∃ hlt, value? (skipBlanks (c :: s)).1 = some (v, ⟨t, hlt⟩) := by
  rw [← show (skipBlanks (c :: s)).1 = c :: s by rw [skipBlanks_of_opens hc.1]] at h
  obtain ⟨⟨w, ⟨t', hlt⟩⟩, hv, hr⟩ := Option.map_eq_some_iff.1 h
  cases hr
  exact ⟨hlt, hv⟩

theorem readMembers?_last {k : String} {c : Char} {s t : List Char} {v : Json} (hc : Opens c)
    (first : Bool) (h : read? (c :: s) = some (v, '}' :: t)) :
    readMembers? (stringChars k ++ ':' :: c :: s) first = some ([(some k, v)], t) := by
  obtain ⟨hlt, hv⟩ := value?_of_read? hc h
  obtain ⟨hlk, hk⟩ := key?_escaped k (':' :: c :: s)
  rw [stringChars, List.cons_append, List.cons_append, List.append_assoc, List.singleton_append,
    readMembers?, members?]
  change Option.map _ ((key? (k.toList.flatMap escapeChar ++ '"' :: ':' :: c :: s)).bind _) = _
  rw [hk, Option.bind_some]
  change Option.map _ ((value? (skipBlanks (c :: s)).1).bind _) = _
  rw [hv]
  rfl

theorem readMembers?_cons {k : String} {c : Char} {s t r : List Char} {v : Json}
    {ms : List (Option String × Json)} (hc : Opens c) (first : Bool)
    (h : read? (c :: s) = some (v, ',' :: t)) (hms : readMembers? t false = some (ms, r)) :
    readMembers? (stringChars k ++ ':' :: c :: s) first = some ((some k, v) :: ms, r) := by
  obtain ⟨hlt, hv⟩ := value?_of_read? hc h
  obtain ⟨⟨ws, ⟨r', hlt'⟩⟩, hws, hr'⟩ := Option.map_eq_some_iff.1 hms
  cases hr'
  obtain ⟨hlk, hk⟩ := key?_escaped k (':' :: c :: s)
  rw [stringChars, List.cons_append, List.cons_append, List.append_assoc, List.singleton_append,
    readMembers?, members?]
  change Option.map _ ((key? (k.toList.flatMap escapeChar ++ '"' :: ':' :: c :: s)).bind _) = _
  rw [hk, Option.bind_some]
  change Option.map _ ((value? (skipBlanks (c :: s)).1).bind _) = _
  rw [hv]
  change Option.map _ ((members? t false).bind _) = _
  rw [hws]
  rfl

/-! ### Whole texts -/

theorem parseChars?_eq (s : List Char) :
    parseChars? s = (read? (skipBlanks s).1).bind fun p =>
      if (skipBlanks p.2).1.isEmpty then some p.1 else none := by
  rw [parseChars?, read?]
  cases value? (skipBlanks s).1 <;> rfl

end VideoRelay.Json
