import VideoRelay.Json.Basic
import VideoRelay.Text.Hex

/-!
# Writing JSON

`render` writes a value without white space.  A string escapes the quote, the backslash and the
control characters, and nothing else; `le_toNat_of_mem_stringChars` says that no control character
is left in it.
-/

namespace VideoRelay.Json

/-- One character of a string, escaped where it has to be. -/
def escapeChar (c : Char) : List Char :=
  if c = '"' then ['\\', '"']
  else if c = '\\' then ['\\', '\\']
  else if c = '\n' then ['\\', 'n']
  else if c = '\r' then ['\\', 'r']
  else if c = '\t' then ['\\', 't']
  else if c.toNat = 8 then ['\\', 'b']
  else if c.toNat = 12 then ['\\', 'f']
  else if c.toNat < 32 then
    ['\\', 'u', '0', '0', Text.hexDigit (c.toNat / 16), Text.hexDigit (c.toNat % 16)]
  else [c]

def stringChars (s : String) : List Char := '"' :: s.toList.flatMap escapeChar ++ ['"']

def intChars (i : Int) : List Char :=
  Decimal.signChars (i < 0) ++ Decimal.digits i.natAbs

def numeralChars : Numeral → List Char
  | .whole i => intChars i
  | .decimal d true => d.scientific
  | .decimal d false => d.positional

mutual

/-- The characters of a value; what nothing can be read from is written as null. -/
def chars : Json → List Char
  | .null => ['n', 'u', 'l', 'l']
  | .bool true => ['t', 'r', 'u', 'e']
  | .bool false => ['f', 'a', 'l', 's', 'e']
  | .number n => numeralChars n
  | .string s => stringChars s
  | .array items => '[' :: itemsChars items ++ [']']
  | .object fields => '{' :: fieldsChars fields ++ ['}']
  | .illFormed => ['n', 'u', 'l', 'l']

def itemsChars : List Json → List Char
  | [] => []
  | [v] => chars v
  | v :: w :: rest => chars v ++ ',' :: itemsChars (w :: rest)

def fieldsChars : List (String × Json) → List Char
  | [] => []
  | [(k, v)] => stringChars k ++ ':' :: chars v
  | (k, v) :: f :: rest => stringChars k ++ ':' :: chars v ++ ',' :: fieldsChars (f :: rest)

end

/-- The text of a value. -/
def render (v : Json) : String := String.ofList (chars v)

theorem le_toNat_hexDigit {n : Nat} (h : n < 16) : 32 ≤ (Text.hexDigit n).toNat := by
  have : ∀ m : Fin 16, 32 ≤ (Text.hexDigit m).toNat := by decide
  exact this ⟨n, h⟩

theorem le_toNat_of_mem_escapeChar {c d : Char} (h : d ∈ escapeChar c) : 32 ≤ d.toNat := by
  unfold escapeChar at h
  split at h
  · simp at h; rcases h with rfl | rfl <;> decide
  split at h
  · simp at h; subst h; decide
  split at h
  · simp at h; rcases h with rfl | rfl <;> decide
  split at h
  · simp at h; rcases h with rfl | rfl <;> decide
  split at h
  · simp at h; rcases h with rfl | rfl <;> decide
  split at h
  · simp at h; rcases h with rfl | rfl <;> decide
  split at h
  · simp at h; rcases h with rfl | rfl <;> decide
  split at h
  · next hc =>
    simp at h
    rcases h with rfl | rfl | rfl | rfl | rfl
    · decide
    · decide
    · decide
    · exact le_toNat_hexDigit (by omega)
    · exact le_toNat_hexDigit (by omega)
  · next hc =>
    simp at h
    subst h
    omega

/-- A written string holds no control character. -/
theorem le_toNat_of_mem_stringChars {s : String} {d : Char} (h : d ∈ stringChars s) :
    32 ≤ d.toNat := by
  simp only [stringChars, List.cons_append, List.mem_cons, List.mem_append, List.mem_flatMap,
    List.not_mem_nil, or_false] at h
  rcases h with rfl | ⟨c, -, hd⟩ | rfl
  · decide
  · exact le_toNat_of_mem_escapeChar hd
  · decide

end VideoRelay.Json
