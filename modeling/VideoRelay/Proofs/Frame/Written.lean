import VideoRelay.Frame.Basic
import VideoRelay.Proofs.Json.Documents

/-!
# Written frames are documents

The written form of every frame is shallow, whatever its texts and floats are: it lies nine levels
deep at most, so its document is read.  Each part of a frame has its lemma `shallow`.
-/

namespace VideoRelay

open Json

theorem Box.shallow_fields (b : Box Float32) {d : Nat} : ∀ e ∈ b.fields, e.2.Shallow d := by
  simp [fields]

theorem Region.shallow (r : Region Float32) : r.toJson.Shallow 1 := by
  cases r with
  | upright b =>
    exact Shallow.object (List.forall_mem_cons.2 ⟨shallow_string _, b.shallow_fields⟩)
  | turned b =>
    refine Shallow.object (List.forall_mem_append.2 ⟨?_, by simp⟩)
    exact List.forall_mem_cons.2 ⟨shallow_string _, b.box.shallow_fields⟩

theorem Content.shallow (c : Content) : c.toJson.Shallow 2 := by
  cases c with
  | none => exact Shallow.object (by simp)
  | carried bytes =>
    have hbytes : (ofList (fun b : UInt8 => ofNat b.toNat) bytes).Shallow 1 :=
      shallow_list fun b _ => shallow_uint8 b
    exact Shallow.object (by simp [hbytes])
  | elsewhere method location => exact Shallow.object (by simp)

theorem SizeStep.shallow (s : SizeStep) : s.toJson.Shallow 1 := by
  cases s <;> exact Shallow.object (by simp)

theorem Linkage.shallow (l : Linkage) : l.toJson.Shallow 1 := by
  cases l <;> exact Shallow.object (by simp)

namespace AttributeValue

theorem shallow_plain (v : AttributeValue) : v.plainJson.Shallow 1 := by
  cases v with
  | integer i => exact shallow_int64 i
  | float x => exact shallow_float x
  | text s => exact shallow_string s
  | truth b => exact shallow_bool b
  | integers is => exact shallow_list fun i _ => shallow_int64 i
  | floats xs => exact shallow_list fun x _ => shallow_float x
  | texts ss => exact shallow_list fun s _ => shallow_string s

theorem shallow (v : AttributeValue) : v.toJson.Shallow 2 :=
  Shallow.object (by simp [v.shallow_plain])

end AttributeValue

theorem RatedValue.shallow (v : RatedValue) : v.toJson.Shallow 3 :=
  Shallow.object (by simp [v.value.shallow])

theorem Attribute.shallow (a : Attribute) : a.toJson.Shallow 5 := by
  have hvalues : (ofList RatedValue.toJson a.values).Shallow 4 := shallow_list fun v _ => v.shallow
  exact Shallow.object (by simp [hvalues])

theorem Property.shallow (p : Property) : p.toJson.Shallow 3 :=
  Shallow.object (by simp [p.value.shallow])

theorem Observation.shallow (a : Observation Float32) : a.toJson.Shallow 7 := by
  have hregion : a.region.toJson.Shallow 6 := a.region.shallow.mono (by decide)
  have hattributes : (ofList Attribute.toJson a.attributes).Shallow 6 :=
    shallow_list fun b _ => b.shallow
  exact Shallow.object (by simp [hregion, hattributes])

theorem Detection.shallow (a : Detection Float32) : a.toJson.Shallow 5 := by
  have houtline : a.outline.toJson.Shallow 4 := shallow_string _
  have hregion : a.region.toJson.Shallow 4 := a.region.shallow.mono (by decide)
  have hproperties : (ofList Property.toJson a.properties).Shallow 4 :=
    shallow_list fun p _ => p.shallow
  exact Shallow.object (by simp [houtline, hregion, hproperties])

theorem Frame.shallow (f : Frame Float32) : f.toJson.Shallow 9 := by
  have hcontent : f.content.toJson.Shallow 8 := f.content.shallow.mono (by decide)
  have htranscoding : f.transcoding.toJson.Shallow 8 := shallow_string _
  have hsteps : (ofList SizeStep.toJson f.steps).Shallow 8 :=
    shallow_list fun s _ => s.shallow.mono (by decide)
  have hobservations : (ofList Observation.toJson f.observations).Shallow 8 :=
    shallow_list fun a _ => a.shallow
  have hdetections : (ofList Detection.toJson f.detections).Shallow 8 :=
    shallow_list fun a _ => a.shallow.mono (by decide)
  have hlinkage : f.linkage.toJson.Shallow 8 := f.linkage.shallow.mono (by decide)
  exact Shallow.object
    (by simp [hcontent, htranscoding, hsteps, hobservations, hdetections, hlinkage])

end VideoRelay
