/-!
# File extensions

The extension of a path is what follows the last point in its last component, if something stands
before that point.
-/

namespace VideoRelay.Text

/-- The parts of a text between separators. -/
def splitAtChar (separator : Char) : List Char → List (List Char)
  | [] => [[]]
  | c :: cs =>
    if c = separator then [] :: splitAtChar separator cs
    else
      match splitAtChar separator cs with
      | first :: rest => (c :: first) :: rest
      | [] => [[c]]

/-- The last component of a path; components that are empty or a point do not count. -/
def fileName? (path : List Char) : Option (List Char) :=
  let components := (splitAtChar '/' path).filter fun c => c ≠ [] && c ≠ ['.']
  components.getLast?.filter fun c => c ≠ ['.', '.']

/-- What follows the last point of a file name that does not begin with it. -/
def extension? (path : String) : Option String := do
  match splitAtChar '.' (← fileName? path.toList) with
  | [_] => none
  | [[], _] => none
  | parts => parts.getLast?.map String.ofList

theorem extension?_dotted {stem ext : List Char} (hs : stem ≠ []) (h1 : '.' ∉ stem)
    (h2 : '/' ∉ stem) (h3 : '.' ∉ ext) (h4 : '/' ∉ ext) :
    extension? (String.ofList (stem ++ '.' :: ext)) = some (String.ofList ext) := by
  have hslash : ∀ l : List Char, '/' ∉ l → splitAtChar '/' l = [l] := by
    intro l
    induction l with
    | nil => intro; rfl
    | cons c cs ih =>
      intro h
      simp only [List.mem_cons, not_or] at h
      simp [splitAtChar, Ne.symm h.1, ih h.2]
  have hdot : ∀ l : List Char, '.' ∉ l → splitAtChar '.' l = [l] := by
    intro l
    induction l with
    | nil => intro; rfl
    | cons c cs ih =>
      intro h
      simp only [List.mem_cons, not_or] at h
      simp [splitAtChar, Ne.symm h.1, ih h.2]
  have hsplit : splitAtChar '.' (stem ++ '.' :: ext) = [stem, ext] := by
    clear hs h2
    induction stem with
    | nil => simp [splitAtChar, hdot ext h3]
    | cons c cs ih =>
      simp only [List.mem_cons, not_or] at h1
      simp [splitAtChar, Ne.symm h1.1, ih h1.2]
  have hname : fileName? (stem ++ '.' :: ext) = some (stem ++ '.' :: ext) := by
    have hn : '/' ∉ stem ++ '.' :: ext := by simp [h2, h4]
    have hd : stem ++ '.' :: ext ≠ ['.'] := by
      cases stem with
      | nil => exact absurd rfl hs
      | cons c cs => simp
    have hdd : stem ++ '.' :: ext ≠ ['.', '.'] := by
      intro e
      cases stem with
      | nil => exact hs rfl
      | cons c cs =>
        simp only [List.cons_append, List.cons.injEq] at e
        exact h1 (by simp [e.1])
    simp [fileName?, hslash _ hn, hd, hdd]
  obtain _ | ⟨c, cs⟩ := stem
  · exact absurd rfl hs
  · rw [extension?, String.toList_ofList, hname]
    simp only [Option.bind_eq_bind, Option.bind_some]
    rw [hsplit]
    rfl

end VideoRelay.Text
