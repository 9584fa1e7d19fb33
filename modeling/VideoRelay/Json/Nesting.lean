import VideoRelay.Json.Basic

/-!
# How deep arrays and objects lie in each other

`depth` counts the levels of a value and `clip` spoils what lies below a given number of them.  By
`clip_eq_self` a value with no more levels than that is left alone.
-/

namespace VideoRelay.Json

mutual

/-- How many arrays and objects lie in each other. -/
def depth : Json → Nat
  | .array items => depthItems items + 1
  | .object fields => depthFields fields + 1
  | _ => 0

def depthItems : List Json → Nat
  | [] => 0
  | v :: rest => max (depth v) (depthItems rest)

def depthFields : List (String × Json) → Nat
  | [] => 0
  | (_, v) :: rest => max (depth v) (depthFields rest)

end

mutual

/-- Keeps `room` levels of arrays and objects; those below them are spoiled. -/
def clip (room : Nat) : Json → Json
  | .array items => match room with
    | 0 => .illFormed
    | room + 1 => .array (clipItems room items)
  | .object fields => match room with
    | 0 => .illFormed
    | room + 1 => .object (clipFields room fields)
  | v => v

def clipItems (room : Nat) : List Json → List Json
  | [] => []
  | v :: rest => clip room v :: clipItems room rest

def clipFields (room : Nat) : List (String × Json) → List (String × Json)
  | [] => []
  | (k, v) :: rest => (k, clip room v) :: clipFields room rest

end

mutual

theorem clip_eq_self {room : Nat} : (v : Json) → v.depth ≤ room → clip room v = v
  | .array items, h => by
    cases room with
    | zero => simp [depth] at h
    | succ n => simp [clip, clipItems_eq_self items (by simp [depth] at h; omega)]
  | .object fields, h => by
    cases room with
    | zero => simp [depth] at h
    | succ n => simp [clip, clipFields_eq_self fields (by simp [depth] at h; omega)]
  | .null, _ => rfl
  | .bool _, _ => rfl
  | .number _, _ => rfl
  | .string _, _ => rfl
  | .illFormed, _ => rfl

theorem clipItems_eq_self {room : Nat} :
    (items : List Json) → depthItems items ≤ room → clipItems room items = items
  | [], _ => rfl
  | v :: rest, h => by
    have h' := Nat.max_le.1 h
    simp [clipItems, clip_eq_self v h'.1, clipItems_eq_self rest h'.2]

theorem clipFields_eq_self {room : Nat} :
    (fields : List (String × Json)) → depthFields fields ≤ room → clipFields room fields = fields
  | [], _ => rfl
  | (k, v) :: rest, h => by
    have h' := Nat.max_le.1 h
    simp [clipFields, clip_eq_self v h'.1, clipFields_eq_self rest h'.2]

end

end VideoRelay.Json
