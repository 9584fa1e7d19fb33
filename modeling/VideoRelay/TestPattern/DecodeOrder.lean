/-!
# Decode order

The pictures of a group are numbered in the order in which they are shown.  Anchors are the first
picture, every `between + 1`-th one and the last; an anchor is decoded before the pictures between it
and the anchor before it.  `length_decodeOrder` says that a group is decoded in as many steps as it
has pictures.
-/

namespace VideoRelay.TestPattern

/-- What is decoded after an anchor: the next anchor, the pictures between the two, and so on. -/
def decodeFrom (size between anchor : Nat) : List Nat :=
  if anchor + 1 < size then
    let next := min (anchor + between + 1) (size - 1)
    next :: List.range' (anchor + 1) (next - (anchor + 1)) ++ decodeFrom size between next
  else []
termination_by size - anchor

/-- The pictures of a group in the order in which they are decoded. -/
def decodeOrder (size between : Nat) : List Nat := 0 :: decodeFrom size between 0

theorem length_decodeFrom {size between anchor : Nat} (h : anchor < size) :
    (decodeFrom size between anchor).length = size - 1 - anchor := by
  fun_induction decodeFrom size between anchor with
  | case1 anchor hlt next ih =>
    have := ih (by omega)
    simp only [List.cons_append, List.length_cons, List.length_append, List.length_range', this]
    omega
  | case2 anchor hlt =>
    simp only [List.length_nil]
    omega

theorem length_decodeOrder {size between : Nat} (h : 0 < size) :
    (decodeOrder size between).length = size := by
  rw [decodeOrder, List.length_cons, length_decodeFrom h]
  omega

end VideoRelay.TestPattern
