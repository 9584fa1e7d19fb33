import VideoRelay.Frame.Basic
import VideoRelay.Proofs.Json.Recovery

/-!
# Written frames read back

A frame is recovered from its written form, and from every rearrangement of it in which the added
fields are unknown ones (`UnknownField`).  Each part of a frame has its lemma `recovers`, with the
levels of its written form; the one of an object goes through the fields, first for what is written
and then for what is read.

Most objects are read field by field.  Contents, steps and regions are read as a whole, to find
their kind, so what is added to them has to be readable (`recovers_tagged`).  Linkages know of a
field `previous` whatever their kind is, so it is not an unknown one for them
(`Linkage.saysNoPrevious_eq`).

`Frame.reads_back` is about the texts of whole frames.
-/

namespace VideoRelay

open Json

/-! ### The floats of a frame -/

def Box.singles (b : Box Float32) : List Float32 := [b.xc, b.yc, b.width, b.height]

def Region.singles : Region Float32 → List Float32
  | .upright b => b.singles
  | .turned b => b.box.singles ++ b.angle.toList

def AttributeValue.doubles : AttributeValue → List Float
  | .float x => [x]
  | .floats xs => xs
  | _ => []

def Attribute.singles (a : Attribute) : List Float32 :=
  a.values.flatMap fun v => v.confidence.toList

def Attribute.doubles (a : Attribute) : List Float := a.values.flatMap fun v => v.value.doubles

def Observation.singles (a : Observation Float32) : List Float32 :=
  a.region.singles ++ a.confidence :: a.attributes.flatMap Attribute.singles

def Observation.doubles (a : Observation Float32) : List Float :=
  a.attributes.flatMap Attribute.doubles

def Detection.singles (d : Detection Float32) : List Float32 :=
  d.region.singles ++ d.confidence :: d.properties.flatMap fun p => p.confidence.toList

def Detection.doubles (d : Detection Float32) : List Float :=
  d.properties.flatMap fun p => p.value.doubles

/-- Every single in a frame. -/
def Frame.singles (f : Frame Float32) : List Float32 :=
  f.observations.flatMap Observation.singles ++ f.detections.flatMap Detection.singles

/-- Every double in a frame. -/
def Frame.doubles (f : Frame Float32) : List Float :=
  f.observations.flatMap Observation.doubles ++ f.detections.flatMap Detection.doubles

/-! ### Unknown fields -/

/-- The kinds of linkages. -/
def Linkage.kinds : List String := ["unavailable", "unlinked", "after"]

/-- Whether these are the fields of a linkage. -/
def IsLinkage (fields : List (String × Json)) : Prop :=
  ∃ kind ∈ Linkage.kinds, ("kind", .string kind) ∈ fields

/-- Whether an object with these fields names its kind next to what belongs to the kind. -/
def IsTagged (fields : List (String × Json)) : Prop :=
  "op" ∈ fields.map Prod.fst ∨ "kind" ∈ fields.map Prod.fst ∧ ¬ IsLinkage fields

/-- What is unknown in an object with these fields. -/
structure UnknownField (fields : List (String × Json)) (e : String × Json) : Prop where
  name : e.1 ∉ fields.map Prod.fst
  /-- A linkage knows of a predecessor, even if it has none. -/
  previous (h : IsLinkage fields) : e.1 ≠ "previous"
  /-- A tagged object is read as a whole, so there has to be a value to read. -/
  readable (h : IsTagged fields) : e.2.readable = true

namespace Json

variable {α : Type} {f : Json → Option α} {fields rest : List (String × Json)} {v : Json} {x : α}
  {d : Nat}

/-- Shallow, and readable however it is rearranged. -/
structure Settled (v : Json) (levels : Nat) : Prop extends v.Shallow levels where
  readable {w : Json} (h : Rearranged UnknownField v.reread w) : w.readable = true

theorem Recovers.settled (h : Recovers UnknownField f v x d) (hf : Strict f) : v.Settled d :=
  ⟨h.toShallow, fun hw => h.readable hf hw⟩

theorem recovers_object {read : List (String × Json) → Option α}
    (hfields : ∀ e ∈ fields, e.2.Shallow d) (hn : (fields.map Prod.fst).Nodup)
    (reads : ∀ stood, Holds UnknownField (rereadFields fields) stood → read stood = some x) :
    Recovers UnknownField (fun v => v.fields?.bind read) (.object fields) x (d + 1) :=
  Recovers.object hfields hn (fun _ he => he.name) reads

theorem isTagged_rereadFields {tag k : String}
    (htag : tag = "op" ∨ tag = "kind" ∧ k ∉ Linkage.kinds) (hn : tag ∉ rest.map Prod.fst) :
    IsTagged (rereadFields ((tag, .string k) :: rest)) := by
  rcases htag with rfl | ⟨rfl, hk⟩
  · exact Or.inl List.mem_cons_self
  · refine Or.inr ⟨List.mem_cons_self, ?_⟩
    rintro ⟨kind, hkind, hmem⟩
    rcases List.mem_cons.1 hmem with he | hmem
    · cases he
      exact hk hkind
    · exact hn (map_fst_rereadFields rest ▸ List.mem_map_of_mem (f := Prod.fst) hmem)

/-- An object that names its kind next to what belongs to the kind. -/
theorem recovers_tagged {tag k : String} {read : String → List (String × Json) → Option α}
    (htag : tag = "op" ∨ tag = "kind" ∧ k ∉ Linkage.kinds)
    (hn : (tag :: rest.map Prod.fst).Nodup) (hrest : ∀ e ∈ rest, e.2.Settled d)
    (reads : ∀ stood, Holds UnknownField (rereadFields ((tag, .string k) :: rest)) stood →
      read k stood = some x) :
    Recovers UnknownField (fun v => v.taggedFields?.bind fun fields =>
        (field? fields tag string?).bind fun kind => read kind fields)
      (.object ((tag, .string k) :: rest)) x (d + 1) := by
  have htagged := isTagged_rereadFields htag (List.nodup_cons.1 hn).1
  have hkind : Recovers UnknownField string? (.string k) k d := recovers_string k
  have hfields : ∀ e ∈ (tag, Json.string k) :: rest, e.2.Settled d :=
    List.forall_mem_cons.2 ⟨hkind.settled strict_string?, hrest⟩
  refine Recovers.object (fun e he => (hfields e he).toShallow) hn (fun _ he => he.name)
    fun stood hstood => ?_
  -- everything in the object is readable, so the kind is looked for, and it is there
  rw [hstood.taggedFields?_eq (fun e he w => (hfields e he).readable)
      fun e he => he.readable htagged, Option.bind_some,
    hstood.field?_eq hkind List.mem_cons_self, Option.bind_some]
  exact reads stood hstood

end Json

/-! ### Regions -/

namespace Box

variable {b : Box Float32} (h : ∀ x ∈ b.singles, ReadsBack ofFloat32 float32? x)
include h

theorem recovers_fields : Recovers UnknownField float32? (ofFloat32 b.xc) b.xc 0 ∧
    Recovers UnknownField float32? (ofFloat32 b.yc) b.yc 0 ∧
    Recovers UnknownField float32? (ofFloat32 b.width) b.width 0 ∧
    Recovers UnknownField float32? (ofFloat32 b.height) b.height 0 := by
  simp only [singles, List.forall_mem_cons] at h
  exact ⟨recovers_float32 h.1, recovers_float32 h.2.1, recovers_float32 h.2.2.1,
    recovers_float32 h.2.2.2.1⟩

theorem settled_fields : ∀ e ∈ b.fields, e.2.Settled 0 := by
  obtain ⟨hxc, hyc, hwidth, hheight⟩ := recovers_fields h
  simp only [fields, List.forall_mem_cons]
  exact ⟨hxc.settled strict_float32?, hyc.settled strict_float32?,
    hwidth.settled strict_float32?, hheight.settled strict_float32?,
    fun e he => absurd he List.not_mem_nil⟩

theorem ofFields?_eq {fields stood : List (String × Json)}
    (hstood : Holds UnknownField (rereadFields fields) stood) (hsub : b.fields ⊆ fields) :
    ofFields? stood = some b := by
  obtain ⟨hxc, hyc, hwidth, hheight⟩ := recovers_fields h
  simp only [Box.fields, List.cons_subset] at hsub
  simp only [ofFields?, hstood.field?_eq hxc hsub.1, hstood.field?_eq hyc hsub.2.1,
    hstood.field?_eq hwidth hsub.2.2.1, hstood.field?_eq hheight hsub.2.2.2.1]
  rfl

end Box

namespace Region

theorem recovers (r : Region Float32) (h : ∀ x ∈ r.singles, ReadsBack ofFloat32 float32? x) :
    Recovers UnknownField Region.ofJson? r.toJson r 1 := by
  cases r with
  | upright b =>
    refine recovers_tagged (by decide) (by simp [Box.fields]) (Box.settled_fields h)
      fun stood hstood => ?_
    rw [if_pos rfl, Box.ofFields?_eq h hstood (List.subset_cons_self _ _)]
    rfl
  | turned b =>
    simp only [singles, List.forall_mem_append, Option.mem_toList] at h
    have hangle : Recovers UnknownField (optional? float32?) (ofOption ofFloat32 b.angle)
        b.angle 0 := Recovers.option rfl fun x hx => recovers_float32 (h.2 x hx)
    refine recovers_tagged (by decide) (by simp [Box.fields]) ?_ fun stood hstood => ?_
    · exact List.forall_mem_append.2 ⟨Box.settled_fields h.1,
        List.forall_mem_singleton.2 (hangle.settled strict_float32?.optional?)⟩
    · rw [if_neg (by decide), if_pos rfl, Box.ofFields?_eq h.1 hstood (fun e he => by simp [he]),
        hstood.optionalField?_eq hangle (by simp)]
      rfl

end Region

/-! ### Contents, steps and linkages -/

namespace Content

theorem recovers (c : Content) : Recovers UnknownField Content.ofJson? c.toJson c 2 := by
  cases c with
  | none =>
    refine recovers_tagged (by decide) (by simp) (fun e he => absurd he List.not_mem_nil)
      fun stood _ => ?_
    rw [if_pos rfl]
  | carried bytes =>
    have hdata : Recovers UnknownField (list? uint8?) (.ofList (fun b => .ofNat b.toNat) bytes)
        bytes 1 := Recovers.list fun b _ => recovers_uint8 b
    refine recovers_tagged (by decide) (by simp)
      (List.forall_mem_singleton.2 (hdata.settled strict_uint8?.list?)) fun stood hstood => ?_
    rw [if_neg (by decide), if_pos rfl, hstood.field?_eq hdata (by simp)]
    rfl
  | elsewhere method location =>
    have hmethod : Recovers UnknownField string? (.string method) method 1 := recovers_string method
    have hlocation : Recovers UnknownField (optional? string?) (.ofOption Json.string location)
      location 1 := Recovers.option rfl fun s _ => recovers_string s
    refine recovers_tagged (by decide) (by simp) ?_ fun stood hstood => ?_
    · simp only [List.forall_mem_cons]
      exact ⟨hmethod.settled strict_string?, hlocation.settled strict_string?.optional?,
        fun e he => absurd he List.not_mem_nil⟩
    · rw [if_neg (by decide), if_neg (by decide), if_pos rfl, hstood.field?_eq hmethod (by simp),
        hstood.optionalField?_eq hlocation (by simp)]
      rfl

end Content

namespace SizeStep

theorem recovers_sizeJson {op : String} {step : UInt32 → UInt32 → SizeStep} (w h : UInt32)
    {read : String → List (String × Json) → Option SizeStep}
    (hread : ∀ fields, read op fields = ofSizeFields? fields step) :
    Recovers UnknownField (fun v => v.taggedFields?.bind fun fields =>
        (field? fields "op" string?).bind fun op => read op fields)
      (sizeJson op w h) (step w h) 1 := by
  have hwidth : Recovers UnknownField uint32? (ofNat w.toNat) w 0 := recovers_uint32 w
  have hheight : Recovers UnknownField uint32? (ofNat h.toNat) h 0 := recovers_uint32 h
  refine recovers_tagged (Or.inl rfl) (by simp) ?_ fun stood hstood => ?_
  · simp only [List.forall_mem_cons]
    exact ⟨hwidth.settled strict_uint32?, hheight.settled strict_uint32?,
      fun e he => absurd he List.not_mem_nil⟩
  · rw [hread, ofSizeFields?, hstood.field?_eq hwidth (by simp),
      hstood.field?_eq hheight (by simp)]
    rfl

theorem recovers (s : SizeStep) : Recovers UnknownField SizeStep.ofJson? s.toJson s 1 := by
  cases s with
  | initial w h => exact recovers_sizeJson w h fun fields => if_pos rfl
  | scaled w h => exact recovers_sizeJson w h fun fields => rfl
  | resulting w h => exact recovers_sizeJson w h fun fields => rfl
  | padded l t r b =>
    have hl : Recovers UnknownField uint32? (ofNat l.toNat) l 0 := recovers_uint32 l
    have ht : Recovers UnknownField uint32? (ofNat t.toNat) t 0 := recovers_uint32 t
    have hr : Recovers UnknownField uint32? (ofNat r.toNat) r 0 := recovers_uint32 r
    have hb : Recovers UnknownField uint32? (ofNat b.toNat) b 0 := recovers_uint32 b
    refine recovers_tagged (by decide) (by simp) ?_ fun stood hstood => ?_
    · simp only [List.forall_mem_cons]
      exact ⟨hl.settled strict_uint32?, ht.settled strict_uint32?, hr.settled strict_uint32?,
        hb.settled strict_uint32?, fun e he => absurd he List.not_mem_nil⟩
    · rw [if_neg (by decide), if_neg (by decide), if_pos rfl, hstood.field?_eq hl (by simp),
        hstood.field?_eq ht (by simp), hstood.field?_eq hr (by simp), hstood.field?_eq hb (by simp)]
      rfl

end SizeStep

namespace Linkage

theorem saysNoPrevious_eq {k : String} {stood : List (String × Json)} (hk : k ∈ Linkage.kinds)
    (hstood : Holds UnknownField (rereadFields [("kind", .string k)]) stood) :
    saysNoPrevious stood = true := by
  have hlinkage : IsLinkage (rereadFields [("kind", .string k)]) := ⟨k, hk, List.mem_cons_self⟩
  have habsent : stood.lookup "previous" = none :=
    hstood.absent (by simp [rereadFields]) fun e he => he.previous hlinkage
  rw [saysNoPrevious, habsent]

theorem recovers (l : Linkage) : Recovers UnknownField Linkage.ofJson? l.toJson l 1 := by
  have hkind (k : String) : Recovers UnknownField name? (.string k) k 0 := recovers_name k
  cases l with
  | unavailable =>
    refine recovers_object (List.forall_mem_singleton.2 (hkind _).toShallow) (by simp)
      fun stood hstood => ?_
    rw [hstood.field?_eq (hkind _) List.mem_cons_self, Option.bind_eq_bind, Option.bind_some,
      if_pos rfl, if_pos (saysNoPrevious_eq (by decide) hstood)]
  | unlinked =>
    refine recovers_object (List.forall_mem_singleton.2 (hkind _).toShallow) (by simp)
      fun stood hstood => ?_
    rw [hstood.field?_eq (hkind _) List.mem_cons_self, Option.bind_eq_bind, Option.bind_some,
      if_neg (by decide), if_pos rfl, if_pos (saysNoPrevious_eq (by decide) hstood)]
  | after previous =>
    have hprevious : Recovers UnknownField uint64? (ofNat previous.toNat) previous 0 :=
      recovers_uint64 previous
    refine recovers_object ?_ (by simp) fun stood hstood => ?_
    · simp only [List.forall_mem_cons]
      exact ⟨(hkind _).toShallow, hprevious.toShallow, fun e he => absurd he List.not_mem_nil⟩
    · rw [hstood.field?_eq (hkind _) List.mem_cons_self, Option.bind_eq_bind, Option.bind_some,
        if_neg (by decide), if_neg (by decide), if_pos rfl, hstood.field?_eq hprevious (by simp)]
      rfl

end Linkage

namespace Transcoding

theorem recovers {d : Nat} (t : Transcoding) :
    Recovers UnknownField Transcoding.ofJson? t.toJson t d := by
  have hname : Recovers UnknownField name? (.string t.name) t.name d := recovers_name t.name
  refine ⟨hname.toShallow, fun hw => ?_⟩
  rw [ofJson?, hname.reads hw]
  cases t <;> rfl

end Transcoding

namespace Outline

theorem recovers {d : Nat} (o : Outline) :
    Recovers UnknownField Outline.ofJson? o.toJson o d := by
  have hname : Recovers UnknownField name? (.string o.name) o.name d := recovers_name o.name
  refine ⟨hname.toShallow, fun hw => ?_⟩
  rw [ofJson?, hname.reads hw]
  cases o <;> rfl

end Outline

/-! ### Attributes -/

namespace AttributeValue

theorem recovers_plain (v : AttributeValue) (h : ∀ x ∈ v.doubles, ReadsBack ofFloat float? x) :
    Recovers UnknownField (ofTypeName? v.typeName) v.plainJson v 1 := by
  cases v with
  | integer i => exact (recovers_int64 i).map integer
  | float x => exact (recovers_float (h x List.mem_cons_self)).map float
  | text s => exact (recovers_string s).map text
  | truth b => exact (recovers_bool b).map truth
  | integers is => exact (Recovers.list fun i _ => recovers_int64 i).map integers
  | floats xs => exact (Recovers.list fun x hx => recovers_float (h x hx)).map floats
  | texts ss => exact (Recovers.list fun s _ => recovers_string s).map texts

theorem recovers (v : AttributeValue) (h : ∀ x ∈ v.doubles, ReadsBack ofFloat float? x) :
    Recovers UnknownField AttributeValue.ofJson? v.toJson v 2 := by
  have hname : Recovers UnknownField name? (.string v.typeName) v.typeName 1 :=
    recovers_name v.typeName
  have hplain := recovers_plain v h
  refine recovers_object ?_ (by simp) fun stood hstood => ?_
  · simp only [List.forall_mem_cons]
    exact ⟨hname.toShallow, hplain.toShallow, fun e he => absurd he List.not_mem_nil⟩
  · rw [hstood.field?_eq hname List.mem_cons_self, Option.bind_eq_bind, Option.bind_some,
      hstood.field?_eq hplain (by simp)]

end AttributeValue

theorem recovers_confidence {d : Nat} {o : Option Float32}
    (h : ∀ x ∈ o.toList, ReadsBack ofFloat32 float32? x) :
    Recovers UnknownField (optional? float32?) (ofOption ofFloat32 o) o d :=
  Recovers.option rfl fun x hx => recovers_float32 (h x (Option.mem_toList.2 hx))

namespace RatedValue

theorem recovers (v : RatedValue)
    (hs : ∀ x ∈ v.confidence.toList, ReadsBack ofFloat32 float32? x)
    (hd : ∀ x ∈ v.value.doubles, ReadsBack ofFloat float? x) :
    Recovers UnknownField RatedValue.ofJson? v.toJson v 3 := by
  have hvalue := v.value.recovers hd
  have hconfidence : Recovers UnknownField (optional? float32?)
      (ofOption ofFloat32 v.confidence) v.confidence 2 := recovers_confidence hs
  refine recovers_object ?_ (by simp) fun stood hstood => ?_
  · simp only [List.forall_mem_cons]
    exact ⟨hvalue.toShallow, hconfidence.toShallow, fun e he => absurd he List.not_mem_nil⟩
  · rw [hstood.field?_eq hvalue List.mem_cons_self,
      hstood.optionalField?_eq hconfidence (by simp)]
    rfl

end RatedValue

namespace Attribute

theorem recovers (a : Attribute) (hs : ∀ x ∈ a.singles, ReadsBack ofFloat32 float32? x)
    (hd : ∀ x ∈ a.doubles, ReadsBack ofFloat float? x) :
    Recovers UnknownField Attribute.ofJson? a.toJson a 5 := by
  have hscope : Recovers UnknownField string? (.string a.scope) a.scope 4 := recovers_string a.scope
  have hname : Recovers UnknownField string? (.string a.name) a.name 4 := recovers_string a.name
  have hvalues : Recovers UnknownField (list? RatedValue.ofJson?)
      (.ofList RatedValue.toJson a.values) a.values 4 :=
    Recovers.list fun v hv => v.recovers
      (fun x hx => hs x (List.mem_flatMap.2 ⟨v, hv, hx⟩))
      (fun x hx => hd x (List.mem_flatMap.2 ⟨v, hv, hx⟩))
  refine recovers_object ?_ (by simp) fun stood hstood => ?_
  · simp only [List.forall_mem_cons]
    exact ⟨hscope.toShallow, hname.toShallow, hvalues.toShallow,
      fun e he => absurd he List.not_mem_nil⟩
  · rw [hstood.field?_eq hscope (by simp), hstood.field?_eq hname (by simp),
      hstood.field?_eq hvalues (by simp)]
    rfl

end Attribute

namespace Property

theorem recovers (p : Property) (hs : ∀ x ∈ p.confidence.toList, ReadsBack ofFloat32 float32? x)
    (hd : ∀ x ∈ p.value.doubles, ReadsBack ofFloat float? x) :
    Recovers UnknownField Property.ofJson? p.toJson p 3 := by
  have hscope : Recovers UnknownField string? (.string p.scope) p.scope 2 := recovers_string p.scope
  have hname : Recovers UnknownField string? (.string p.name) p.name 2 := recovers_string p.name
  have hvalue := p.value.recovers hd
  have hconfidence : Recovers UnknownField (optional? float32?)
      (ofOption ofFloat32 p.confidence) p.confidence 2 := recovers_confidence hs
  refine recovers_object ?_ (by simp) fun stood hstood => ?_
  · simp only [List.forall_mem_cons]
    exact ⟨hscope.toShallow, hname.toShallow, hvalue.toShallow, hconfidence.toShallow,
      fun e he => absurd he List.not_mem_nil⟩
  · rw [hstood.field?_eq hscope (by simp), hstood.field?_eq hname (by simp),
      hstood.field?_eq hvalue (by simp), hstood.optionalField?_eq hconfidence (by simp)]
    rfl

end Property

/-! ### Objects -/

namespace Observation

theorem recovers (a : Observation Float32)
    (hs : ∀ x ∈ a.singles, ReadsBack ofFloat32 float32? x)
    (hd : ∀ x ∈ a.doubles, ReadsBack ofFloat float? x) :
    Recovers UnknownField Observation.ofJson? a.toJson a 7 := by
  simp only [singles, List.forall_mem_append, List.forall_mem_cons] at hs
  have hid : Recovers UnknownField uint64? (ofNat a.id.toNat) a.id 6 := recovers_uint64 a.id
  have hscope : Recovers UnknownField string? (.string a.scope) a.scope 6 := recovers_string a.scope
  have hlabel : Recovers UnknownField string? (.string a.label) a.label 6 := recovers_string a.label
  have hregion := (a.region.recovers hs.1).mono (show 1 ≤ 6 by decide)
  have hconfidence : Recovers UnknownField float32? (ofFloat32 a.confidence) a.confidence 6 :=
    recovers_float32 hs.2.1
  have htrack : Recovers UnknownField (optional? int64?)
      (.ofOption (fun t => .ofInt t.toInt) a.track) a.track 6 :=
    Recovers.option rfl fun t _ => recovers_int64 t
  have hattributes : Recovers UnknownField (list? Attribute.ofJson?)
      (.ofList Attribute.toJson a.attributes) a.attributes 6 :=
    Recovers.list fun b hb => b.recovers
      (fun x hx => hs.2.2 x (List.mem_flatMap.2 ⟨b, hb, hx⟩))
      (fun x hx => hd x (List.mem_flatMap.2 ⟨b, hb, hx⟩))
  have hparent : Recovers UnknownField (optional? uint64?)
      (.ofOption (fun p => .ofNat p.toNat) a.parent) a.parent 6 :=
    Recovers.option rfl fun p _ => recovers_uint64 p
  refine recovers_object ?_ (by simp) fun stood hstood => ?_
  · simp only [List.forall_mem_cons]
    exact ⟨hid.toShallow, hscope.toShallow, hlabel.toShallow, hregion.toShallow,
      hconfidence.toShallow, htrack.toShallow, hattributes.toShallow, hparent.toShallow,
      fun e he => absurd he List.not_mem_nil⟩
  · rw [hstood.field?_eq hid (by simp), hstood.field?_eq hscope (by simp),
      hstood.field?_eq hlabel (by simp), hstood.field?_eq hregion (by simp),
      hstood.field?_eq hconfidence (by simp), hstood.optionalField?_eq htrack (by simp),
      hstood.field?_eq hattributes (by simp), hstood.optionalField?_eq hparent (by simp)]
    rfl

end Observation

namespace Detection

theorem recovers (a : Detection Float32) (hs : ∀ x ∈ a.singles, ReadsBack ofFloat32 float32? x)
    (hd : ∀ x ∈ a.doubles, ReadsBack ofFloat float? x) :
    Recovers UnknownField Detection.ofJson? a.toJson a 5 := by
  simp only [singles, List.forall_mem_append, List.forall_mem_cons] at hs
  have hkey : Recovers UnknownField string? (.string a.key) a.key 4 := recovers_string a.key
  have hmodel : Recovers UnknownField uint32? (ofNat a.symbol.model.toNat) a.symbol.model 4 :=
    recovers_uint32 a.symbol.model
  have hlabel : Recovers UnknownField uint32? (ofNat a.symbol.label.toNat) a.symbol.label 4 :=
    recovers_uint32 a.symbol.label
  have houtline : Recovers UnknownField Outline.ofJson? a.outline.toJson a.outline 4 :=
    a.outline.recovers
  have hregion := (a.region.recovers hs.1).mono (show 1 ≤ 4 by decide)
  have hconfidence : Recovers UnknownField float32? (ofFloat32 a.confidence) a.confidence 4 :=
    recovers_float32 hs.2.1
  have htrack : Recovers UnknownField int64? (ofInt a.track.toInt) a.track 4 :=
    recovers_int64 a.track
  have hproperties : Recovers UnknownField (list? Property.ofJson?)
      (.ofList Property.toJson a.properties) a.properties 4 :=
    Recovers.list fun p hp => p.recovers
      (fun x hx => hs.2.2 x (List.mem_flatMap.2 ⟨p, hp, hx⟩))
      (fun x hx => hd x (List.mem_flatMap.2 ⟨p, hp, hx⟩))
  have hparent : Recovers UnknownField (optional? uint64?)
      (.ofOption (fun p => .ofNat p.toNat) a.parent) a.parent 4 :=
    Recovers.option rfl fun p _ => recovers_uint64 p
  have horigin : Recovers UnknownField (optional? uint64?)
      (.ofOption (fun o => .ofNat o.toNat) a.origin) a.origin 4 :=
    Recovers.option rfl fun o _ => recovers_uint64 o
  refine recovers_object ?_ (by simp) fun stood hstood => ?_
  · simp only [List.forall_mem_cons]
    exact ⟨hkey.toShallow, hmodel.toShallow, hlabel.toShallow, houtline.toShallow,
      hregion.toShallow, hconfidence.toShallow, htrack.toShallow, hproperties.toShallow,
      hparent.toShallow, horigin.toShallow, fun e he => absurd he List.not_mem_nil⟩
  · rw [hstood.field?_eq hkey (by simp), hstood.field?_eq hmodel (by simp),
      hstood.field?_eq hlabel (by simp), hstood.field?_eq houtline (by simp),
      hstood.field?_eq hregion (by simp), hstood.field?_eq hconfidence (by simp),
      hstood.field?_eq htrack (by simp), hstood.field?_eq hproperties (by simp),
      hstood.optionalField?_eq hparent (by simp), hstood.optionalField?_eq horigin (by simp)]
    rfl

end Detection

/-! ### Frames -/

namespace Frame

theorem recovers (f : Frame Float32) (hs : ∀ x ∈ f.singles, ReadsBack ofFloat32 float32? x)
    (hd : ∀ x ∈ f.doubles, ReadsBack ofFloat float? x) :
    Recovers UnknownField Frame.ofJson? f.toJson f 9 := by
  simp only [singles, doubles, List.forall_mem_append] at hs hd
  have hid : Recovers UnknownField uint64? (ofNat f.id.toNat) f.id 8 := recovers_uint64 f.id
  have hsource : Recovers UnknownField string? (.string f.source) f.source 8 :=
    recovers_string f.source
  have hpts : Recovers UnknownField int64? (ofInt f.pts.toInt) f.pts 8 := recovers_int64 f.pts
  have hdts : Recovers UnknownField (optional? int64?) (.ofOption (fun t => .ofInt t.toInt) f.dts)
      f.dts 8 := Recovers.option rfl fun t _ => recovers_int64 t
  have hwidth : Recovers UnknownField uint32? (ofNat f.width.toNat) f.width 8 :=
    recovers_uint32 f.width
  have hheight : Recovers UnknownField uint32? (ofNat f.height.toNat) f.height 8 :=
    recovers_uint32 f.height
  have hcodec : Recovers UnknownField (optional? string?) (.ofOption Json.string f.codec)
      f.codec 8 := Recovers.option rfl fun s _ => recovers_string s
  have hkeyframe : Recovers UnknownField bool? (.bool f.keyframe) f.keyframe 8 :=
    recovers_bool f.keyframe
  have hcontent := f.content.recovers.mono (show 2 ≤ 8 by decide)
  have htranscoding : Recovers UnknownField Transcoding.ofJson? f.transcoding.toJson
      f.transcoding 8 := f.transcoding.recovers
  have hsteps : Recovers UnknownField (list? SizeStep.ofJson?) (.ofList SizeStep.toJson f.steps)
      f.steps 8 := Recovers.list fun s _ => s.recovers.mono (by decide)
  have hobservations : Recovers UnknownField (list? Observation.ofJson?)
      (.ofList Observation.toJson f.observations) f.observations 8 :=
    Recovers.list fun a ha => a.recovers
      (fun x hx => hs.1 x (List.mem_flatMap.2 ⟨a, ha, hx⟩))
      (fun x hx => hd.1 x (List.mem_flatMap.2 ⟨a, ha, hx⟩))
  have hdetections : Recovers UnknownField (list? Detection.ofJson?)
      (.ofList Detection.toJson f.detections) f.detections 8 :=
    Recovers.list fun a ha => (a.recovers
      (fun x hx => hs.2 x (List.mem_flatMap.2 ⟨a, ha, hx⟩))
      (fun x hx => hd.2 x (List.mem_flatMap.2 ⟨a, ha, hx⟩))).mono (by decide)
  have hlinkage := f.linkage.recovers.mono (show 1 ≤ 8 by decide)
  refine recovers_object ?_ (by simp) fun stood hstood => ?_
  · simp only [List.forall_mem_cons]
    exact ⟨hid.toShallow, hsource.toShallow, hpts.toShallow, hdts.toShallow, hwidth.toShallow,
      hheight.toShallow, hcodec.toShallow, hkeyframe.toShallow, hcontent.toShallow,
      htranscoding.toShallow, hsteps.toShallow, hobservations.toShallow, hdetections.toShallow,
      hlinkage.toShallow, fun e he => absurd he List.not_mem_nil⟩
  · rw [hstood.field?_eq hid (by simp), hstood.field?_eq hsource (by simp),
      hstood.field?_eq hpts (by simp), hstood.optionalField?_eq hdts (by simp),
      hstood.field?_eq hwidth (by simp), hstood.field?_eq hheight (by simp),
      hstood.optionalField?_eq hcodec (by simp), hstood.field?_eq hkeyframe (by simp),
      hstood.field?_eq hcontent (by simp), hstood.field?_eq htranscoding (by simp),
      hstood.field?_eq hsteps (by simp), hstood.field?_eq hobservations (by simp),
      hstood.field?_eq hdetections (by simp), hstood.field?_eq hlinkage (by simp)]
    rfl

/-- **A written frame reads back**: its own text does, and so does every text of the same object
with the fields of the objects in it in any order and with unknown ones among them.  Each float in
the frame has to read back by itself; one that is not finite is written as null and never does. -/
theorem reads_back (f : Frame Float32) (hs : ∀ x ∈ f.singles, ReadsBack ofFloat32 float32? x)
    (hd : ∀ x ∈ f.doubles, ReadsBack ofFloat float? x) :
    ReadsBack Frame.toJson Frame.ofJson? f ∧
      ∀ text v w, parse? f.toJson.render = some v → parse? text = some w →
        Rearranged UnknownField v w → (parse? text).bind Frame.ofJson? = some f := by
  have hf := recovers f hs hd
  have hparse : parse? f.toJson.render = some f.toJson.reread :=
    parse?_render hf.legible (Nat.le_trans hf.depth_le (by decide))
  refine ⟨?_, fun text v w hv htext hw => ?_⟩
  · rw [ReadsBack, hparse, Option.bind_some]
    exact hf.reads (.same _)
  · obtain rfl : f.toJson.reread = v := Option.some.inj (hparse.symm.trans hv)
    rw [htext, Option.bind_some]
    exact hf.reads hw

end Frame

/-- The same object with its fields the other way round, and behind a new one. -/
def Json.backwards : Json → Json
  | .object fields => .object (("note", .string "new") :: fields.reverse)
  | v => v

theorem Json.rearranged_backwards {fields : List (String × Json)}
    (hname : "note" ∉ fields.map Prod.fst) :
    Rearranged UnknownField (Json.object fields).reread (Json.object fields).backwards.reread := by
  have hadded : ∀ e ∈ [("note", Json.string "new")], UnknownField (rereadFields fields) e :=
    List.forall_mem_singleton.2
      ⟨by rwa [map_fst_rereadFields], fun _ => by decide, fun _ => rfl⟩
  refine Rearranged.object rfl (List.forall₂_same.2 fun v _ => .same v) hadded ?_
  rw [rereadFields_eq_map, rereadFields_eq_map, List.map_cons, List.map_reverse]
  exact ((List.reverse_perm _).cons _).trans (List.perm_append_singleton _ _).symm

namespace Frame

/-- A frame with a turned object in it and with floats of both sizes. -/
def turnedWheel : Frame Float32 :=
  { Frame.arriving "north" (-40) 640 480 with
    observations := [{
      id := 1
      scope := "truck"
      label := "wheel"
      region := .turned ⟨⟨320, 0.5, 64, 0.1⟩, some 30⟩
      attributes := [⟨"size", "radius", [⟨.floats [0.25, -0.0], some 0.5⟩]⟩] }]
    linkage := .after 3 }

theorem turnedWheel_reads_back :
    (∀ x ∈ turnedWheel.singles, ReadsBack ofFloat32 float32? x) ∧
      (∀ x ∈ turnedWheel.doubles, ReadsBack ofFloat float? x) ∧
      ReadsBack Frame.toJson Frame.ofJson? turnedWheel ∧
      (parse? turnedWheel.toJson.backwards.render).bind Frame.ofJson? = some turnedWheel := by
  have hs : ∀ x ∈ turnedWheel.singles, ReadsBack ofFloat32 float32? x := by decide +kernel
  have hd : ∀ x ∈ turnedWheel.doubles, ReadsBack ofFloat float? x := by decide +kernel
  obtain ⟨hback, hread⟩ := reads_back turnedWheel hs hd
  have hparse : parse? turnedWheel.toJson.render = some turnedWheel.toJson.reread :=
    parse?_render (by decide +kernel) (by decide +kernel)
  have hbackwards : parse? turnedWheel.toJson.backwards.render =
      some turnedWheel.toJson.backwards.reread :=
    parse?_render (by decide +kernel) (by decide +kernel)
  exact ⟨hs, hd, hback,
    hread _ _ _ hparse hbackwards (Json.rearranged_backwards (by decide +kernel))⟩

end Frame

end VideoRelay
