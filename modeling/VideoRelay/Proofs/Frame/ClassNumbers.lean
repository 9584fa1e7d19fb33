import Mathlib.Data.List.Induction
import VideoRelay.Frame.Symbols
import VideoRelay.Proofs.Flight.Numbers

/-!
# The numbers of classes

Scopes are numbered in the order in which they first appear, and the labels of a scope in the order in
which they first appear with it.  So the classes that a table was asked for tell the symbol of each
(`symbolIn`), and classes that come later do not change it (`symbolIn_append`).

`Follows` ties a table to the classes that it was asked for.  A new table has been asked for the primary
class, asking for one more class is a step that keeps the tie (`Follows.assign`), and what any number of
calls return and what is found behind them follows: `numbered_in_order`.
-/

namespace VideoRelay

/-! ### Order of first appearance -/

section Appearance

variable {α : Type} [DecidableEq α]

theorem eraseDups_concat (l : List α) (a : α) :
    (l ++ [a]).eraseDups = if a ∈ l then l.eraseDups else l.eraseDups ++ [a] := by
  rw [List.eraseDups_append, List.removeAll]
  by_cases h : a ∈ l <;> simp [h, List.eraseDups_cons]

theorem idxOf_eraseDups_append {l : List α} {a : α} (h : a ∈ l) (more : List α) :
    (l ++ more).eraseDups.idxOf a = l.eraseDups.idxOf a := by
  rw [List.eraseDups_append, List.idxOf_append_of_mem (List.mem_eraseDups.2 h)]

theorem length_eraseDups_le (l : List α) : l.eraseDups.length ≤ l.length := by
  induction l using List.reverseRecOn with
  | nil => exact Nat.le_refl 0
  | append_singleton l a ih =>
    rw [eraseDups_concat, List.length_append, List.length_singleton]
    split
    · omega
    · rw [List.length_append, List.length_singleton]
      omega

theorem idxOf_concat_self {l : List α} {a : α} (h : a ∉ l) : (l ++ [a]).idxOf a = l.length := by
  rw [List.idxOf_append_of_notMem h, List.idxOf_cons_self, Nat.add_zero]

end Appearance

namespace SymbolTable

/-- The scopes of classes, in the order in which they first appear. -/
def scopesOf (classes : List (String × String)) : List String := (classes.map Prod.fst).eraseDups

/-- The labels of a scope, in the order in which they first appear with it. -/
def labelsOf (classes : List (String × String)) (scope : String) : List String :=
  ((classes.filter fun c => c.1 = scope).map Prod.snd).eraseDups

/-- The symbol of a class when scopes and labels are numbered in the order in which they first
appear. -/
def symbolIn (classes : List (String × String)) (c : String × String) : ClassSymbol :=
  ⟨.ofNat ((scopesOf classes).idxOf c.1), .ofNat ((labelsOf classes c.1).idxOf c.2)⟩

variable {classes : List (String × String)} {scope label : String}

theorem mem_scopesOf : scope ∈ scopesOf classes ↔ ∃ label, (scope, label) ∈ classes := by
  simp [scopesOf, List.mem_eraseDups]

theorem mem_labelsOf : label ∈ labelsOf classes scope ↔ (scope, label) ∈ classes := by
  simp [labelsOf, List.mem_eraseDups]

theorem length_scopesOf_le (classes : List (String × String)) :
    (scopesOf classes).length ≤ classes.length := by
  have h := length_eraseDups_le (classes.map Prod.fst)
  rwa [List.length_map] at h

theorem length_labelsOf_le (classes : List (String × String)) (scope : String) :
    (labelsOf classes scope).length ≤ classes.length := by
  have h := length_eraseDups_le ((classes.filter fun c => c.1 = scope).map Prod.snd)
  rw [List.length_map] at h
  exact Nat.le_trans h (List.length_filter_le _ _)

/-- Classes that come later do not change the symbol of a class. -/
theorem symbolIn_append {c : String × String} (h : c ∈ classes) (more : List (String × String)) :
    symbolIn (classes ++ more) c = symbolIn classes c := by
  have hscope : c.1 ∈ classes.map Prod.fst := List.mem_map_of_mem h
  have hlabel : c.2 ∈ (classes.filter fun b => b.1 = c.1).map Prod.snd :=
    List.mem_map_of_mem (List.mem_filter.2 ⟨h, decide_eq_true rfl⟩)
  rw [symbolIn, symbolIn, scopesOf, scopesOf, labelsOf, labelsOf, List.map_append, List.filter_append,
    List.map_append, idxOf_eraseDups_append hscope, idxOf_eraseDups_append hlabel]

theorem scopesOf_concat (classes : List (String × String)) (scope label : String) :
    scopesOf (classes ++ [(scope, label)]) =
      if scope ∈ scopesOf classes then scopesOf classes else scopesOf classes ++ [scope] := by
  simp only [scopesOf, List.map_append, List.map_cons, List.map_nil, eraseDups_concat,
    List.mem_eraseDups]

theorem labelsOf_concat_self (classes : List (String × String)) (scope label : String) :
    labelsOf (classes ++ [(scope, label)]) scope =
      if label ∈ labelsOf classes scope then labelsOf classes scope
      else labelsOf classes scope ++ [label] := by
  have hlast : [(scope, label)].filter (fun c => c.1 = scope) = [(scope, label)] :=
    List.filter_cons_of_pos (decide_eq_true rfl)
  simp only [labelsOf, List.filter_append, hlast, List.map_append, List.map_cons, List.map_nil,
    eraseDups_concat, List.mem_eraseDups]

theorem labelsOf_concat_of_ne {other : String} (h : other ≠ scope) (label : String) :
    labelsOf (classes ++ [(scope, label)]) other = labelsOf classes other := by
  rw [labelsOf, List.filter_append, List.filter_cons_of_neg (by simpa using h.symm), List.filter_nil,
    List.append_nil, labelsOf]

/-! ### Tables that follow the order -/

end SymbolTable

/-- A scope has a number, and its labels are numbered in order. -/
structure ScopeSymbols.Numbers (s : ScopeSymbols) (number : Nat) (labels : List String) : Prop where
  number : s.number = .ofNat number
  keys : s.labels.keys = labels
  label : ∀ label n, s.labels.find? label = some n → n = .ofNat (labels.idxOf label)

/-- One more label gets the next number. -/
theorem ScopeSymbols.Numbers.insert {s : ScopeSymbols} {number : Nat} {labels : List String}
    (h : s.Numbers number labels) {label : String} (hlabel : label ∉ labels) :
    ({ s with labels := s.labels.insert label (.ofNat labels.length) } : ScopeSymbols).Numbers number
      (labels ++ [label]) := by
  refine ⟨h.number, ?_, fun other n hn => ?_⟩
  · rw [Table.keys_insert_of_notMem _ (h.keys ▸ hlabel), h.keys]
  · dsimp only at hn
    rw [Table.find?_insert] at hn
    split at hn
    · next ho =>
      cases hn
      rw [ho, idxOf_concat_self hlabel]
    · have hother : other ∈ labels := h.keys ▸ Table.mem_keys_iff.2 (by rw [hn]; rfl)
      rw [h.label other n hn, List.idxOf_append_of_mem hother]

namespace SymbolTable

variable {t : SymbolTable} {classes : List (String × String)} {scope label : String}

/-- A table has numbered scopes and labels in the order in which classes were asked for. -/
structure Follows (t : SymbolTable) (classes : List (String × String)) : Prop where
  keys : t.scopes.keys = scopesOf classes
  scope : ∀ scope s, t.scopes.find? scope = some s →
    s.Numbers ((scopesOf classes).idxOf scope) (labelsOf classes scope)

namespace Follows

theorem mem_scopesOf (h : t.Follows classes) :
    scope ∈ scopesOf classes ↔ (t.scopes.find? scope).isSome = true := by
  rw [← h.keys, Table.mem_keys_iff]

theorem mem_iff (h : t.Follows classes) {s : ScopeSymbols} (hs : t.scopes.find? scope = some s) :
    (scope, label) ∈ classes ↔ (s.labels.find? label).isSome = true := by
  rw [← mem_labelsOf, ← (h.scope scope s hs).keys, Table.mem_keys_iff]

/-- The classes that were asked for are found, with the symbols that their order gives them. -/
theorem find?_eq (h : t.Follows classes) (scope label : String) :
    t.find? scope label =
      if (scope, label) ∈ classes then some (symbolIn classes (scope, label)) else none := by
  cases hs : t.scopes.find? scope with
  | none =>
    have hnone : (scope, label) ∉ classes := fun hm => by
      have hscope := h.mem_scopesOf.1 (SymbolTable.mem_scopesOf.2 ⟨label, hm⟩)
      rw [hs] at hscope
      cases hscope
    rw [if_neg hnone, find?, hs]
    rfl
  | some s =>
    have hnumbers := h.scope scope s hs
    cases hn : s.labels.find? label with
    | none =>
      have hnone : (scope, label) ∉ classes := fun hm => by
        have hlabel := (h.mem_iff hs).1 hm
        rw [hn] at hlabel
        cases hlabel
      rw [if_neg hnone]
      simp [find?, hs, hn]
    | some n =>
      rw [if_pos ((h.mem_iff hs).2 (by rw [hn]; rfl)), symbolIn, ← hnumbers.number,
        ← hnumbers.label label n hn]
      simp [find?, hs, hn]

/-- A class that was asked for before changes nothing. -/
theorem known (h : t.Follows classes) (hc : (scope, label) ∈ classes) :
    t.Follows (classes ++ [(scope, label)]) := by
  have hscopes : scopesOf (classes ++ [(scope, label)]) = scopesOf classes := by
    rw [scopesOf_concat, if_pos (SymbolTable.mem_scopesOf.2 ⟨label, hc⟩)]
  have hlabels : ∀ other, labelsOf (classes ++ [(scope, label)]) other = labelsOf classes other := by
    intro other
    by_cases ho : other = scope
    · rw [ho, labelsOf_concat_self, if_pos (mem_labelsOf.2 hc)]
    · exact labelsOf_concat_of_ne ho label
  refine ⟨hscopes ▸ h.keys, fun other s hs => ?_⟩
  rw [hscopes, hlabels]
  exact h.scope other s hs

/-- A new label of a known scope gets the next number in it. -/
theorem adjust (h : t.Follows classes) {s : ScopeSymbols} (hs : t.scopes.find? scope = some s)
    (hc : (scope, label) ∉ classes) :
    (⟨t.scopes.adjust scope fun s => { s with
        labels := s.labels.insert label (.ofNat (labelsOf classes scope).length) }⟩ :
      SymbolTable).Follows (classes ++ [(scope, label)]) := by
  have hscopes : scopesOf (classes ++ [(scope, label)]) = scopesOf classes := by
    rw [scopesOf_concat, if_pos (h.mem_scopesOf.2 (by rw [hs]; rfl))]
  have hlabel : label ∉ labelsOf classes scope := fun hm => hc (mem_labelsOf.1 hm)
  refine ⟨?_, fun other s' hs' => ?_⟩
  · rw [hscopes, ← h.keys]
    exact Table.keys_adjust _ _ _
  · rw [hscopes]
    dsimp only at hs'
    rw [Table.find?_adjust] at hs'
    split at hs'
    · next ho =>
      subst ho
      rw [hs] at hs'
      cases hs'
      rw [labelsOf_concat_self, if_neg hlabel]
      exact (h.scope other s hs).insert hlabel
    · next ho =>
      rw [labelsOf_concat_of_ne ho]
      exact h.scope other s' hs'

/-- A new scope gets the next number, and its first label the number zero. -/
theorem insert (h : t.Follows classes) (hs : t.scopes.find? scope = none) (label : String) :
    (⟨t.scopes.insert scope ⟨.ofNat (scopesOf classes).length, Table.empty.insert label 0⟩⟩ :
      SymbolTable).Follows (classes ++ [(scope, label)]) := by
  have hscope : scope ∉ scopesOf classes := by
    rw [h.mem_scopesOf, hs]
    exact Bool.false_ne_true
  have hlabels : labelsOf classes scope = [] := List.eq_nil_iff_forall_not_mem.2 fun other ho =>
    hscope (SymbolTable.mem_scopesOf.2 ⟨other, mem_labelsOf.1 ho⟩)
  refine ⟨?_, fun other s hs' => ?_⟩
  · rw [Table.keys_insert_of_notMem _ (h.keys ▸ hscope), h.keys, scopesOf_concat, if_neg hscope]
  · rw [scopesOf_concat, if_neg hscope]
    dsimp only at hs'
    rw [Table.find?_insert] at hs'
    split at hs'
    · next ho =>
      cases hs'
      subst ho
      have hnew : (⟨.ofNat (scopesOf classes).length, Table.empty⟩ : ScopeSymbols).Numbers
          (scopesOf classes).length [] := ⟨rfl, rfl, fun label n hn => by cases hn⟩
      rw [idxOf_concat_self hscope, labelsOf_concat_self, hlabels, if_neg List.not_mem_nil]
      exact hnew.insert List.not_mem_nil
    · next ho =>
      have hother : other ∈ scopesOf classes := h.mem_scopesOf.2 (by rw [hs']; rfl)
      rw [List.idxOf_append_of_mem hother, labelsOf_concat_of_ne ho]
      exact h.scope other s hs'

/-- Asking for a class keeps the order. -/
theorem assign (h : t.Follows classes) (scope label : String) :
    (t.assign scope label).2.Follows (classes ++ [(scope, label)]) := by
  unfold SymbolTable.assign
  cases hs : t.scopes.find? scope with
  | none =>
    have hsize : t.scopes.size = (scopesOf classes).length := by
      rw [← h.keys, Table.keys, List.length_map, Table.size]
    rw [hsize]
    exact h.insert hs label
  | some s =>
    dsimp only
    cases hn : s.labels.find? label with
    | some n => exact h.known ((h.mem_iff hs).2 (by rw [hn]; rfl))
    | none =>
      have hsize : s.labels.size = (labelsOf classes scope).length := by
        rw [← (h.scope scope s hs).keys, Table.keys, List.length_map, Table.size]
      rw [hsize]
      refine h.adjust hs fun hc => ?_
      have hlabel := (h.mem_iff hs).1 hc
      rw [hn] at hlabel
      cases hlabel

theorem assign_fst (h : t.Follows classes) (scope label : String) :
    (t.assign scope label).1 = symbolIn (classes ++ [(scope, label)]) (scope, label) := by
  have hfound := t.find?_assign scope label
  rw [(h.assign scope label).find?_eq, if_pos (List.mem_append_right _ List.mem_cons_self)] at hfound
  exact (Option.some.inj hfound).symm

end Follows

theorem follows_initial : initial.Follows [(Primary.scope, Primary.label)] := by
  have hempty : (⟨Table.empty⟩ : SymbolTable).Follows [] := by
    refine ⟨rfl, fun scope s hs => ?_⟩
    cases hs
  exact hempty.assign Primary.scope Primary.label

/-! ### Any calls -/

/-- Asks for classes, one after the other. -/
def assignAll (t : SymbolTable) : List (String × String) → List ClassSymbol × SymbolTable
  | [] => ([], t)
  | c :: rest =>
    let (symbol, t) := t.assign c.1 c.2
    let (symbols, t) := t.assignAll rest
    (symbol :: symbols, t)

theorem Follows.assignAll (h : t.Follows classes) (calls : List (String × String)) :
    (t.assignAll calls).1 = calls.map (symbolIn (classes ++ calls)) ∧
      (t.assignAll calls).2.Follows (classes ++ calls) := by
  induction calls generalizing t classes with
  | nil => exact ⟨rfl, by rwa [List.append_nil]⟩
  | cons c rest ih =>
    obtain ⟨hsymbols, hfollows⟩ := ih (h.assign c.1 c.2)
    rw [List.append_assoc, List.singleton_append] at hsymbols hfollows
    refine ⟨?_, hfollows⟩
    have hfirst : symbolIn (classes ++ c :: rest) c = symbolIn (classes ++ [c]) c := by
      rw [List.append_cons]
      exact symbolIn_append (List.mem_append_right _ List.mem_cons_self) rest
    rw [SymbolTable.assignAll, List.map_cons, hfirst, ← h.assign_fst c.1 c.2, ← hsymbols]

/-- As long as there is a number for each scope and for each label of a scope, the numbers are
positions in the order of first appearance. -/
theorem toNat_symbolIn {c : String × String} (hc : c ∈ classes)
    (hscopes : (scopesOf classes).length ≤ UInt32.size)
    (hlabels : (labelsOf classes c.1).length ≤ UInt32.size) :
    (symbolIn classes c).model.toNat = (scopesOf classes).idxOf c.1 ∧
      (symbolIn classes c).label.toNat = (labelsOf classes c.1).idxOf c.2 := by
  have hscope := List.idxOf_lt_length_of_mem (mem_scopesOf.2 ⟨c.2, hc⟩)
  have hlabel := List.idxOf_lt_length_of_mem (mem_labelsOf.2 hc)
  exact ⟨UInt32.toNat_ofNat_of_lt' (Nat.lt_of_lt_of_le hscope hscopes),
    UInt32.toNat_ofNat_of_lt' (Nat.lt_of_lt_of_le hlabel hlabels)⟩

theorem model_symbolIn_inj {c c' : String × String} (hc : c ∈ classes) (hc' : c' ∈ classes)
    (hscopes : (scopesOf classes).length ≤ UInt32.size)
    (hlabels : ∀ scope, (labelsOf classes scope).length ≤ UInt32.size) :
    (symbolIn classes c).model = (symbolIn classes c').model ↔ c.1 = c'.1 := by
  rw [← UInt32.toNat_inj, (toNat_symbolIn hc hscopes (hlabels _)).1,
    (toNat_symbolIn hc' hscopes (hlabels _)).1]
  exact List.idxOf_inj (mem_scopesOf.2 ⟨c.2, hc⟩)

/-- Different classes have different symbols. -/
theorem symbolIn_inj {c c' : String × String} (hc : c ∈ classes) (hc' : c' ∈ classes)
    (hscopes : (scopesOf classes).length ≤ UInt32.size)
    (hlabels : ∀ scope, (labelsOf classes scope).length ≤ UInt32.size) :
    symbolIn classes c = symbolIn classes c' ↔ c = c' := by
  refine ⟨fun h => ?_, fun h => by rw [h]⟩
  have hscope := (model_symbolIn_inj hc hc' hscopes hlabels).1 (congrArg ClassSymbol.model h)
  have hlabel : (symbolIn classes c).label.toNat = (symbolIn classes c').label.toNat := by rw [h]
  rw [(toNat_symbolIn hc hscopes (hlabels _)).2, (toNat_symbolIn hc' hscopes (hlabels _)).2,
    ← hscope] at hlabel
  exact Prod.ext hscope ((List.idxOf_inj (mem_labelsOf.2 hc)).1 hlabel)

/-- **Classes are numbered in the order in which they first appear.**  A new table is asked for classes,
and there is a number for each scope and for each label of a scope.  Then each call returns the symbol
that is found in the end, so the calls for one class all return the same.  Found are the primary class,
with `(0, 0)`, and those that were asked for.  The number of a scope is its position among the scopes in
the order in which they first appear, the primary one being the first, and the number of a label is its
position among the labels of its scope.  So two classes have one symbol only if they are the same, and
one number of the scope only if they have the same scope. -/
theorem numbered_in_order {calls : List (String × String)}
    (hscopes : (scopesOf ((Primary.scope, Primary.label) :: calls)).length ≤ UInt32.size)
    (hlabels : ∀ scope,
      (labelsOf ((Primary.scope, Primary.label) :: calls) scope).length ≤ UInt32.size) :
    let classes := (Primary.scope, Primary.label) :: calls
    let symbols := (initial.assignAll calls).1
    let t := (initial.assignAll calls).2
    (∀ (i : Nat) scope label, calls[i]? = some (scope, label) →
        ∃ symbol, symbols[i]? = some symbol ∧ t.find? scope label = some symbol) ∧
      (∀ scope label, (t.find? scope label).isSome = true ↔ (scope, label) ∈ classes) ∧
      t.find? Primary.scope Primary.label = some ⟨0, 0⟩ ∧
      (∀ scope label symbol, t.find? scope label = some symbol →
        symbol.model.toNat = (scopesOf classes).idxOf scope ∧
          symbol.label.toNat = (labelsOf classes scope).idxOf label) ∧
      ∀ scope label scope' label' symbol symbol', t.find? scope label = some symbol →
        t.find? scope' label' = some symbol' →
          (symbol = symbol' ↔ scope = scope' ∧ label = label') ∧
          (symbol.model = symbol'.model ↔ scope = scope') := by
  intro classes symbols t
  obtain ⟨hsymbols, hfollows⟩ := follows_initial.assignAll calls
  have hfind : ∀ scope label, t.find? scope label =
      if (scope, label) ∈ classes then some (symbolIn classes (scope, label)) else none :=
    hfollows.find?_eq
  have hfound : ∀ {scope label symbol}, t.find? scope label = some symbol →
      (scope, label) ∈ classes ∧ symbol = symbolIn classes (scope, label) := by
    intro scope label symbol h
    rw [hfind] at h
    split at h
    · next hm => exact ⟨hm, (Option.some.inj h).symm⟩
    · cases h
  refine ⟨fun i scope label hi => ?_, fun scope label => ?_, ?_, fun scope label symbol h => ?_,
    fun scope label scope' label' symbol symbol' h h' => ?_⟩
  · refine ⟨symbolIn classes (scope, label), ?_, ?_⟩
    · rw [show symbols = calls.map (symbolIn classes) from hsymbols, List.getElem?_map, hi]
      rfl
    · rw [hfind, if_pos (List.mem_cons_of_mem _ (List.mem_of_getElem? hi))]
  · rw [hfind]
    split <;> simp [*]
  · -- a class that comes first keeps its symbol
    have hprimary : (Primary.scope, Primary.label) ∈ [(Primary.scope, Primary.label)] :=
      List.mem_cons_self
    have hkept : symbolIn classes (Primary.scope, Primary.label) =
        symbolIn [(Primary.scope, Primary.label)] (Primary.scope, Primary.label) :=
      symbolIn_append hprimary calls
    rw [hfind, if_pos List.mem_cons_self, hkept]
    decide
  · obtain ⟨hm, rfl⟩ := hfound h
    exact toNat_symbolIn hm hscopes (hlabels scope)
  · obtain ⟨hm, rfl⟩ := hfound h
    obtain ⟨hm', rfl⟩ := hfound h'
    rw [symbolIn_inj hm hm' hscopes hlabels, model_symbolIn_inj hm hm' hscopes hlabels, Prod.mk.injEq]
    exact ⟨Iff.rfl, Iff.rfl⟩

/-- A class is asked for twice, a label stands in several scopes, and the primary scope has a second
label. -/
def mixed : List (String × String) :=
  [("yolo", "person"), ("plates", "car"), ("yolo", "car"), ("auto", "car"), ("yolo", "person")]

theorem mixed_numbered :
    let classes := (Primary.scope, Primary.label) :: mixed
    let symbols := (initial.assignAll mixed).1
    let t := (initial.assignAll mixed).2
    (scopesOf classes).length ≤ UInt32.size ∧
      (∀ scope, (labelsOf classes scope).length ≤ UInt32.size) ∧
      ∃ person car second, symbols[0]? = some person ∧ symbols[4]? = some person ∧
        symbols[2]? = some car ∧ symbols[3]? = some second ∧ person = ⟨1, 0⟩ ∧ car.label.toNat = 1 ∧
        second.model.toNat = 0 ∧ person.model = car.model ∧ person ≠ second ∧
        t.find? "plates" "person" = none := by
  intro classes symbols t
  have hscopes : (scopesOf classes).length ≤ UInt32.size :=
    Nat.le_trans (length_scopesOf_le classes) (by decide)
  have hlabels : ∀ scope, (labelsOf classes scope).length ≤ UInt32.size := fun scope =>
    Nat.le_trans (length_labelsOf_le classes scope) (by decide)
  obtain ⟨hcalls, hfound, -, hnumbers, hsame⟩ := numbered_in_order hscopes hlabels
  obtain ⟨person, hperson, hfind⟩ := hcalls 0 "yolo" "person" rfl
  obtain ⟨again, hagain, hfind'⟩ := hcalls 4 "yolo" "person" rfl
  obtain ⟨car, hcar, hcarfind⟩ := hcalls 2 "yolo" "car" rfl
  obtain ⟨second, hsecond, hsecondfind⟩ := hcalls 3 "auto" "car" rfl
  cases hfind.symm.trans hfind'
  obtain ⟨hmodel, hlabel⟩ := hnumbers _ _ _ hfind
  refine ⟨hscopes, hlabels, person, car, second, hperson, hagain, hcar, hsecond, ?_,
    (hnumbers _ _ _ hcarfind).2, (hnumbers _ _ _ hsecondfind).1,
    (hsame _ _ _ _ _ _ hfind hcarfind).2.2 rfl,
    fun h => absurd ((hsame _ _ _ _ _ _ hfind hsecondfind).1.1 h).1 (by decide), ?_⟩
  · obtain ⟨model, label⟩ := person
    exact congrArg₂ ClassSymbol.mk (UInt32.toNat_inj.1 hmodel) (UInt32.toNat_inj.1 hlabel)
  · rw [← Option.not_isSome_iff_eq_none, hfound]
    decide

end SymbolTable

end VideoRelay
