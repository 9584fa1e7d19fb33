import VideoRelay.Proofs.Frame.ClassNumbers
import VideoRelay.Proofs.Frame.Detected

/-!
# Keys and symbols

A detection names its class twice, by the key and by the symbol.  The symbol belongs to the scope and the
label, the key to the text that is made of them.  So the key says as much as the symbol as long as no two
classes make one text of different scopes and labels.  They do if they overlap, that is, if the scope of
one goes on into the label of the other (`classKey_eq_classKey_iff`).

Frames that are prepared one after the other ask one table for the classes that they show, in order
(`SymbolTable.Follows.prepareAll`).  What holds of the symbols in a table then holds of the detections of
all these frames: `Frame.keys_agree_iff`.
-/

namespace VideoRelay

/-! ### Classes with one key -/

/-- The scope of one class goes on, behind a point, into the label of the other. -/
def Overlap (c c' : String × String) : Prop :=
  ∃ middle, c'.1 = classKey c.1 middle ∧ c.2 = classKey middle c'.2 ∨
    c.1 = classKey c'.1 middle ∧ c'.2 = classKey middle c.2

theorem Overlap.symm {c c' : String × String} (h : Overlap c c') : Overlap c' c := by
  obtain ⟨middle, h⟩ := h
  exact ⟨middle, Or.symm h⟩

theorem classKey_ne_scope (scope label : String) : classKey scope label ≠ scope := by
  intro h
  have hlength := congrArg (fun s : String => s.toList.length) h
  simp only [toList_classKey, List.length_append, List.length_cons] at hlength
  omega

/-- Classes that overlap have different scopes. -/
theorem Overlap.fst_ne {c c' : String × String} (h : Overlap c c') : c.1 ≠ c'.1 := by
  intro heq
  obtain ⟨middle, ⟨hscope, -⟩ | ⟨hscope, -⟩⟩ := h
  · exact classKey_ne_scope c.1 middle (hscope.symm.trans heq.symm)
  · exact classKey_ne_scope c'.1 middle (hscope.symm.trans heq)

/-- Classes overlap only if there is a point in one of the scopes. -/
theorem Overlap.point_mem {c c' : String × String} (h : Overlap c c') :
    '.' ∈ c.1.toList ∨ '.' ∈ c'.1.toList := by
  obtain ⟨middle, ⟨hscope, -⟩ | ⟨hscope, -⟩⟩ := h
  · right
    rw [hscope, toList_classKey]
    exact List.mem_append_right _ List.mem_cons_self
  · left
    rw [hscope, toList_classKey]
    exact List.mem_append_right _ List.mem_cons_self

/-- What one text has in front of the point of the other. -/
theorem overlap_of_append {c c' : String × String} {between : List Char}
    (hscope : c'.1.toList = c.1.toList ++ between)
    (hlabel : '.' :: c.2.toList = between ++ '.' :: c'.2.toList) : c = c' ∨ Overlap c c' := by
  cases between with
  | nil =>
    rw [List.append_nil, String.toList_inj] at hscope
    rw [List.nil_append, List.cons.injEq, String.toList_inj] at hlabel
    exact .inl (Prod.ext hscope.symm hlabel.2)
  | cons point middle =>
    rw [List.cons_append, List.cons.injEq] at hlabel
    obtain ⟨rfl, hlabel⟩ := hlabel
    refine .inr ⟨.ofList middle, .inl ⟨?_, ?_⟩⟩
    · rw [← String.toList_inj, toList_classKey, hscope, String.toList_ofList]
    · rw [← String.toList_inj, toList_classKey, hlabel, String.toList_ofList]

theorem classKey_eq_of_overlap {c c' : String × String} (h : Overlap c c') :
    classKey c.1 c.2 = classKey c'.1 c'.2 := by
  rw [← String.toList_inj]
  obtain ⟨middle, ⟨hscope, hlabel⟩ | ⟨hscope, hlabel⟩⟩ := h <;>
    simp [hscope, hlabel, toList_classKey]

/-- Classes have one key exactly if they are the same or overlap. -/
theorem classKey_eq_classKey_iff {c c' : String × String} :
    classKey c.1 c.2 = classKey c'.1 c'.2 ↔ c = c' ∨ Overlap c c' := by
  constructor
  · intro h
    rw [← String.toList_inj, toList_classKey, toList_classKey, List.append_eq_append_iff] at h
    obtain ⟨between, hscope, hlabel⟩ | ⟨between, hscope, hlabel⟩ := h
    · exact overlap_of_append hscope hlabel
    · exact (overlap_of_append hscope hlabel).imp Eq.symm Overlap.symm
  · rintro (rfl | h)
    · rfl
    · exact classKey_eq_of_overlap h

/-! ### The classes that frames show -/

variable {S : Type}

/-- The class of an observation. -/
def Observation.shown (a : Observation S) : String × String := (a.scope, a.label)

/-- How a detection names its class. -/
def Detection.naming (d : Detection S) : String × ClassSymbol := (d.key, d.symbol)

/-- How the detections of classes name them. -/
def SymbolTable.namingIn (classes : List (String × String)) (c : String × String) :
    String × ClassSymbol := (classKey c.1 c.2, symbolIn classes c)

namespace Frame

/-- The classes of the detections that a frame gets, in order.  A frame that has only detections gets
none. -/
def shown (f : Frame S) : List (String × String) :=
  if f.observations = [] ∧ f.detections ≠ [] then []
  else f.others.map Observation.shown ++ [(Primary.scope, Primary.label)]

theorem shown_of_observed {f : Frame S} (h : f.detections = [] ∨ f.observations ≠ []) :
    f.shown = f.others.map Observation.shown ++ [(Primary.scope, Primary.label)] :=
  if_neg fun hdetected => h.elim hdetected.2 (· hdetected.1)

theorem shown_of_detected {f : Frame S} (hobservations : f.observations = [])
    (hdetections : f.detections ≠ []) : f.shown = [] := if_pos ⟨hobservations, hdetections⟩

/-- Linking parents does not change what a detection is called. -/
theorem naming_linkParents (observations : List (Observation S)) (ids : List UInt64)
    (primary : Option UInt64) (detections : List (Detection S)) :
    (linkParents observations ids primary detections).map Detection.naming =
      detections.map Detection.naming := by
  refine List.ext_getElem? fun i => ?_
  rw [List.getElem?_map, List.getElem?_map]
  cases hd : detections[i]? with
  | none =>
    rw [List.getElem?_eq_none_iff] at hd
    rw [List.getElem?_eq_none (by rwa [length_linkParents])]
  | some d =>
    obtain ⟨parent, hlinked⟩ := getElem?_linkParents observations ids primary hd
    rw [hlinked]
    rfl

/-- The classes that a new table knows and those that frames show. -/
def shownIn (runs : List (Frame S × Source × Bool)) : List (String × String) :=
  (Primary.scope, Primary.label) :: runs.flatMap fun r => r.1.shown

theorem mem_shownIn {runs : List (Frame S × Source × Bool)} {i k : Nat} {f : Frame S} {source : Source}
    {passThrough : Bool} {c : String × String} (hi : runs[i]? = some (f, source, passThrough))
    (hc : f.shown[k]? = some c) : c ∈ shownIn runs :=
  List.mem_cons_of_mem _
    (List.mem_flatMap.2 ⟨_, List.mem_of_getElem? hi, List.mem_of_getElem? hc⟩)

/-- The class of a detection at a position. -/
theorem class_at {classes : List (String × String)} {f g : Frame S}
    (h : g.detections.map Detection.naming = f.shown.map (SymbolTable.namingIn classes)) {k : Nat}
    {d : Detection S} (hd : g.detections[k]? = some d) :
    ∃ c, f.shown[k]? = some c ∧ d.key = classKey c.1 c.2 ∧ d.symbol = SymbolTable.symbolIn classes c := by
  have hk : (f.shown.map (SymbolTable.namingIn classes))[k]? = some d.naming := by
    rw [← h, List.getElem?_map, hd]
    rfl
  rw [List.getElem?_map, Option.map_eq_some_iff] at hk
  obtain ⟨c, hc, hnaming⟩ := hk
  exact ⟨c, hc, (congrArg Prod.fst hnaming).symm, (congrArg Prod.snd hnaming).symm⟩

end Frame

variable [Coordinate S] {t : SymbolTable} {classes : List (String × String)}

namespace SymbolTable.Follows

theorem detectAll (h : t.Follows classes) (p : Placement S) (observations : List (Observation S)) :
    (p.detectAll observations t).1.map Detection.naming =
        (observations.map Observation.shown).map
          (namingIn (classes ++ observations.map Observation.shown)) ∧
      (p.detectAll observations t).2.Follows (classes ++ observations.map Observation.shown) := by
  induction observations generalizing t classes with
  | nil => exact ⟨rfl, by rwa [List.map_nil, List.append_nil]⟩
  | cons a rest ih =>
    obtain ⟨hnaming, hfollows⟩ := ih (h.assign a.scope a.label)
    rw [List.append_assoc, List.singleton_append] at hnaming hfollows
    refine ⟨?_, hfollows⟩
    have hfirst : symbolIn (classes ++ a.shown :: rest.map Observation.shown) a.shown =
        (t.assign a.scope a.label).1 := by
      rw [h.assign_fst, List.append_cons]
      exact symbolIn_append (List.mem_append_right _ List.mem_cons_self) _
    rw [Placement.detectAll, List.map_cons, List.map_cons, List.map_cons, namingIn, hfirst]
    exact congrArg _ hnaming

/-- Turning the observations of a frame into detections asks for the classes that it shows. -/
theorem convert (h : t.Follows classes) {f : Frame S} (hf : f.detections = [] ∨ f.observations ≠ [])
    (source : Source) :
    (f.convert source t).1.detections.map Detection.naming =
        f.shown.map (namingIn (classes ++ f.shown)) ∧
      (f.convert source t).2.Follows (classes ++ f.shown) := by
  obtain ⟨hnaming, hfollows⟩ := h.detectAll (f.placement source) f.others
  have hlast := hfollows.assign Primary.scope Primary.label
  have hsymbol := hfollows.assign_fst Primary.scope Primary.label
  rw [List.append_assoc, ← Frame.shown_of_observed hf] at hlast hsymbol
  refine ⟨?_, hlast⟩
  have hothers : (f.others.map Observation.shown).map (namingIn (classes ++ f.shown)) =
      (f.others.map Observation.shown).map
        (namingIn (classes ++ f.others.map Observation.shown)) := by
    refine List.map_congr_left fun c hc => ?_
    rw [Frame.shown_of_observed hf, ← List.append_assoc]
    exact congrArg _ (symbolIn_append (List.mem_append_right _ hc) _)
  rw [Frame.detections_convert, Frame.naming_linkParents, Frame.unlinked, List.map_append, hnaming,
    ← hothers]
  conv_rhs => rw [Frame.shown_of_observed hf, List.map_append, ← Frame.shown_of_observed hf]
  exact congrArg _ (congrArg (fun symbol => [(Primary.key, symbol)]) hsymbol)

end SymbolTable.Follows

/-! ### Frames prepared with one table -/

namespace Frame

/-- Prepares frames with one table, one after the other, each for a source and passed through or not. -/
def prepareAll : List (Frame S × Source × Bool) → SymbolTable → List (Frame S) × SymbolTable
  | [], symbols => ([], symbols)
  | (f, source, passThrough) :: rest, symbols =>
    let (f, symbols) := f.prepare source passThrough symbols
    let (frames, symbols) := prepareAll rest symbols
    (f :: frames, symbols)

end Frame

namespace SymbolTable.Follows

theorem prepare_snd (h : t.Follows classes) (f : Frame S) (source : Source) (passThrough : Bool) :
    (f.prepare source passThrough t).2.Follows (classes ++ f.shown) := by
  by_cases hf : f.detections = [] ∨ f.observations ≠ []
  · rw [Frame.prepare_of_observed hf]
    exact (h.convert hf source).2
  · rw [not_or, not_ne_iff] at hf
    rw [Frame.prepare_of_detected hf.2 hf.1, Frame.shown_of_detected hf.2 hf.1, List.append_nil]
    exact h

/-- The detections that a frame gets are called by the classes that it shows, with the symbols that the
order of these classes gives them, whatever frames come later. -/
theorem prepareAll (h : t.Follows classes) (runs : List (Frame S × Source × Bool)) {i : Nat}
    {f : Frame S} {source : Source} {passThrough : Bool} (hi : runs[i]? = some (f, source, passThrough))
    (hf : f.detections = [] ∨ f.observations ≠ []) :
    ∃ g, (Frame.prepareAll runs t).1[i]? = some g ∧
      g.detections.map Detection.naming =
        f.shown.map (namingIn (classes ++ runs.flatMap fun r => r.1.shown)) := by
  induction runs generalizing t classes i with
  | nil => simp at hi
  | cons r rest ih =>
    obtain ⟨f', source', passThrough'⟩ := r
    cases i with
    | zero =>
      cases hi
      refine ⟨(f.prepare source passThrough t).1, List.getElem?_cons_zero, ?_⟩
      have hlater : f.shown.map (namingIn (classes ++ f.shown)) = f.shown.map
          (namingIn (classes ++ ((f, source, passThrough) :: rest).flatMap fun r => r.1.shown)) := by
        refine List.map_congr_left fun c hc => ?_
        rw [List.flatMap_cons, ← List.append_assoc, namingIn, namingIn,
          symbolIn_append (List.mem_append_right _ hc)]
      rw [← hlater, Frame.prepare_of_observed hf]
      exact (h.convert hf source).1
    | succ i =>
      have hfollows := h.prepare_snd f' source' passThrough'
      obtain ⟨g, hg, hnaming⟩ := ih hfollows hi
      rw [List.append_assoc] at hnaming
      exact ⟨g, hg, hnaming⟩

end SymbolTable.Follows

namespace Frame

open SymbolTable

/-- **Keys and symbols tell the same classes apart, unless two classes overlap.**  Frames are prepared
one after the other with one table that is new, and there is a number for each scope and for each label of
a scope.  Two frames, or one and the same, had observations or no detections.  Then each detection that
they have got is that of a class that the frame shows, by position.  Two such detections have one symbol
exactly if they have one class, and one key exactly if, besides, the classes may overlap.  So they agree on
whether they mean the same exactly if the two classes do not overlap. -/
theorem keys_agree_iff {runs : List (Frame S × Source × Bool)}
    (hscopes : (scopesOf (shownIn runs)).length ≤ UInt32.size)
    (hlabels : ∀ scope, (labelsOf (shownIn runs) scope).length ≤ UInt32.size) {i j : Nat}
    {f f' : Frame S} {source source' : Source} {passThrough passThrough' : Bool}
    (hi : runs[i]? = some (f, source, passThrough))
    (hj : runs[j]? = some (f', source', passThrough'))
    (hf : f.detections = [] ∨ f.observations ≠ [])
    (hf' : f'.detections = [] ∨ f'.observations ≠ []) :
    let frames := (prepareAll runs .initial).1
    ∃ g g', frames[i]? = some g ∧ frames[j]? = some g' ∧
      g.detections.length = f.shown.length ∧ g'.detections.length = f'.shown.length ∧
      ∀ (k l : Nat) (d d' : Detection S), g.detections[k]? = some d → g'.detections[l]? = some d' →
        ∃ c c', f.shown[k]? = some c ∧ f'.shown[l]? = some c' ∧
          d.key = classKey c.1 c.2 ∧ d'.key = classKey c'.1 c'.2 ∧
          (d.symbol = d'.symbol ↔ c = c') ∧ (d.key = d'.key ↔ c = c' ∨ Overlap c c') ∧
          ((d.key = d'.key ↔ d.symbol = d'.symbol) ↔ ¬Overlap c c') := by
  intro frames
  obtain ⟨g, hg, hnaming⟩ := follows_initial.prepareAll runs hi hf
  obtain ⟨g', hg', hnaming'⟩ := follows_initial.prepareAll runs hj hf'
  refine ⟨g, g', hg, hg', by simpa using congrArg List.length hnaming,
    by simpa using congrArg List.length hnaming', fun k l d d' hd hd' => ?_⟩
  obtain ⟨c, hc, hkey, hsymbol⟩ := class_at hnaming hd
  obtain ⟨c', hc', hkey', hsymbol'⟩ := class_at hnaming' hd'
  have hsame : d.symbol = d'.symbol ↔ c = c' := by
    rw [hsymbol, hsymbol']
    exact symbolIn_inj (mem_shownIn hi hc) (mem_shownIn hj hc') hscopes hlabels
  have hshared : d.key = d'.key ↔ c = c' ∨ Overlap c c' := by
    rw [hkey, hkey']
    exact classKey_eq_classKey_iff
  refine ⟨c, c', hc, hc', hkey, hkey', hsame, hshared, ?_⟩
  rw [hsame, hshared]
  constructor
  · intro hagree hoverlap
    exact hoverlap.fst_ne (congrArg Prod.fst (hagree.1 (.inr hoverlap)))
  · intro hnot
    exact ⟨fun h => h.resolve_right hnot, .inl⟩

/-- Two frames of different sources show a class, and each shows another one besides. -/
def sites : List (Frame Float32 × Source × Bool) :=
  [({ Frame.arriving "gate" 0 8 8 with
      observations :=
        [{ id := 1, scope := "yard", label := "north.car", region := .upright ⟨2, 2, 2, 2⟩ },
          { id := 2, scope := "yard", label := "car", region := .upright ⟨6, 6, 2, 2⟩ }] },
      ⟨"gate", none, some ⟨8, 8⟩, ⟨8, 8, none⟩, 0⟩, false),
    ({ Frame.arriving "door" 0 8 8 with
      observations :=
        [{ id := 1, scope := "hall", label := "north.car", region := .upright ⟨2, 2, 4, 4⟩ },
          { id := 2, scope := "yard", label := "car", region := .upright ⟨4, 4, 2, 2⟩ }] },
      ⟨"door", none, some ⟨8, 8⟩, ⟨16, 16, none⟩, 0⟩, true)]

theorem sites_agree :
    let frames := (prepareAll sites .initial).1
    (scopesOf (shownIn sites)).length ≤ UInt32.size ∧
      (∀ scope, (labelsOf (shownIn sites) scope).length ≤ UInt32.size) ∧
      ∃ g g', frames[0]? = some g ∧ frames[1]? = some g' ∧
        ∃ north car hall again, g.detections[0]? = some north ∧ g.detections[1]? = some car ∧
          g'.detections[0]? = some hall ∧ g'.detections[1]? = some again ∧ car.key = again.key ∧
          car.symbol = again.symbol ∧ north.key ≠ hall.key ∧ north.symbol ≠ hall.symbol := by
  intro frames
  have hscopes : (scopesOf (shownIn sites)).length ≤ UInt32.size :=
    Nat.le_trans (length_scopesOf_le _) (by decide)
  have hlabels : ∀ scope, (labelsOf (shownIn sites) scope).length ≤ UInt32.size := fun scope =>
    Nat.le_trans (length_labelsOf_le _ scope) (by decide)
  obtain ⟨g, g', hg, hg', hlength, hlength', hagree⟩ :=
    keys_agree_iff (i := 0) (j := 1) hscopes hlabels rfl rfl (.inl rfl) (.inl rfl)
  have hthree : g.detections.length = 3 := hlength
  have hthree' : g'.detections.length = 3 := hlength'
  obtain ⟨north, hnorth⟩ : ∃ d, g.detections[0]? = some d := ⟨_, List.getElem?_eq_getElem (by omega)⟩
  obtain ⟨car, hcar⟩ : ∃ d, g.detections[1]? = some d := ⟨_, List.getElem?_eq_getElem (by omega)⟩
  obtain ⟨hall, hhall⟩ : ∃ d, g'.detections[0]? = some d := ⟨_, List.getElem?_eq_getElem (by omega)⟩
  obtain ⟨again, hagain⟩ : ∃ d, g'.detections[1]? = some d := ⟨_, List.getElem?_eq_getElem (by omega)⟩
  obtain ⟨c, c', hc, hc', -, -, hsymbol, hkey, -⟩ := hagree 1 1 car again hcar hagain
  cases (show some ("yard", "car") = some c from hc)
  cases (show some ("yard", "car") = some c' from hc')
  obtain ⟨b, b', hb, hb', -, -, hsymbol', -, hboth⟩ := hagree 0 0 north hall hnorth hhall
  cases (show some ("yard", "north.car") = some b from hb)
  cases (show some ("hall", "north.car") = some b' from hb')
  -- there is no point in the scopes
  have hnot : ¬Overlap ("yard", "north.car") ("hall", "north.car") := fun h =>
    absurd h.point_mem (by decide)
  have hdifferent : north.symbol ≠ hall.symbol := fun h => absurd (hsymbol'.1 h) (by decide)
  exact ⟨hscopes, hlabels, g, g', hg, hg', north, car, hall, again, hnorth, hcar, hhall, hagain,
    hkey.2 (.inl rfl), hsymbol.2 rfl, fun h => hdifferent ((hboth.2 hnot).1 h), hdifferent⟩

/-- One frame that shows two classes of one name. -/
def twofold : Frame Float32 :=
  { Frame.arriving "cam-1" 0 8 8 with
    observations :=
      [{ id := 1, scope := "yard.north", label := "car", region := .upright ⟨2, 2, 2, 2⟩ },
        { id := 2, scope := "yard", label := "north.car", region := .upright ⟨6, 6, 2, 2⟩ }] }

/-- The two detections have one key and different symbols. -/
theorem twofold_shares_key :
    ∃ g first second,
      (prepareAll [(twofold, ⟨"cam-1", none, some ⟨8, 8⟩, ⟨8, 8, none⟩, 0⟩, false)] .initial).1[0]? =
        some g ∧
      g.detections[0]? = some first ∧ g.detections[1]? = some second ∧ first.key = second.key ∧
      first.symbol ≠ second.symbol := by
  refine ⟨_, _, _, rfl, rfl, rfl, ?_, ?_⟩
  · decide
  · decide

end Frame

end VideoRelay
