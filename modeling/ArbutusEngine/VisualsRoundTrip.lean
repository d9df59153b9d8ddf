import ArbutusEngine.Alignment
import ArbutusEngine.Residue

/-!
# Saving and loading the visuals

Each kind of visual has an encoder of its own, while `Visuals::setState` decodes videos and passes
over the entries of cameras and of syphon inputs. A list of visuals therefore comes back exactly if
it consists of videos. Emptying the list before it is filled again advances an iterator that has
been erased, which must work as well.

## Main definitions

* `Visual.IsLoadable`: a video whose file exists, a camera or a syphon input.
* `Visual.description`: the type, the caption and the source of a visual.
* `Visuals.RoundTrips`: loading the saved visuals gives the same ones.

## Main results

* `Visuals.collect_decode_getState`: what is read back from a list of visuals.
* `visuals_roundTrip_iff`: when the list comes back.
-/

open Exec

namespace ArbutusEngine

namespace Visual

/-- A video whose file exists, a camera or a syphon input. -/
def IsLoadable (h : Host) (v : Visual) : Prop :=
  match v.source with
  | .video path => path ≠ "" ∧ h.doesFileExist path false = true
  | _ => True

/-- Whether the visual is a video. -/
def isVideo (v : Visual) : Bool :=
  match v.source with
  | .video _ => true
  | _ => false

/-- The type, the caption and the source: the path of a video, the device, the frame rate and the
size of a camera, the server and the application of a syphon input. -/
def description (v : Visual) : ℤ × String × List (String × Json) :=
  (v.getType, v.caption, sourceState v.source)

/-- The video behind the visual, if it is one. -/
def video? (v : Visual) : Option (String × String) := if v.isVideo then some v.toVideo else none

variable {h : Host} {v : Visual}

theorem IsLoadable.isVideoFile (hv : v.IsLoadable h) (hvideo : v.isVideo = true) :
    v.IsVideoFile h := by
  rw [IsLoadable] at hv
  rw [isVideo] at hvideo
  cases hs : v.source with
  | video path =>
    rw [hs] at hv
    exact ⟨path, hs, hv⟩
  | camera => simp [hs] at hvideo
  | syphon => simp [hs] at hvideo

/-- A visual that is no video is passed over. -/
theorem decode_getState_of_not_isVideo (hvideo : v.isVideo = false) (setPath : String) :
    Visuals.decode h setPath v.getState = (none, none) := by
  have hpassed : Visuals.isVideo v.getState = false := by
    cases hs : v.source with
    | video path => simp [isVideo, hs] at hvideo
    | camera =>
      simp [Visuals.isVideo, getState, getType, sourceState, hs, Json.field_obj, Json.member,
        Json.isNumber, Json.isString]
    | syphon =>
      simp [Visuals.isVideo, getState, getType, sourceState, hs, Json.field_obj, Json.member,
        Json.isNumber, Json.isString]
  simp [Visuals.decode, hpassed, show v.getState.isIndexable = true from rfl]

theorem decode_getState (hv : v.IsLoadable h) (setPath : String) :
    Visuals.decode h setPath v.getState = (v.video?, none) := by
  cases hvideo : v.isVideo with
  | true => simp [video?, hvideo, Visuals.decode_getState (hv.isVideoFile hvideo)]
  | false => simp [video?, hvideo, decode_getState_of_not_isVideo hvideo]

end Visual

/-- Loading the saved visuals returns, and gives as many visuals, of the same types and with the
same captions and sources. -/
def Visuals.RoundTrips (h : Host) (s : EngineState) : Prop :=
  ∃ t, Visuals.setState h (Visuals.getState s) s = .ok () t ∧
    t.visualsList.map Visual.description = s.visualsList.map Visual.description

section lists

variable {h : Host} {s : EngineState}

/-- What is read back from the saved visuals: the videos among them. -/
theorem Visuals.collect_decode_getState (hs : ∀ v ∈ s.visualsList, v.IsLoadable h)
    (setPath : String) :
    Visuals.decodeAll h setPath (s.visualsList.map Visual.getState) =
      (s.visualsList.filterMap Visual.video?, none) :=
  collect_map_of_forall fun v hv => Visual.decode_getState (hs v hv) setPath

/-- The videos that are loaded are described by their captions and paths. -/
theorem Visuals.description_allocate (n : Addr) (videos : List (String × String)) :
    (Visuals.allocate n videos).map Visual.description =
      videos.map fun video => (0, video.1, [("filePath", .str video.2)]) := by
  induction videos generalizing n with
  | nil => rfl
  | cons video rest ih =>
    rw [Visuals.allocate, List.map_cons, List.map_cons, ih]
    rfl

theorem Visual.description_of_isVideo {v : Visual} (hv : v.isVideo = true) :
    v.description = (0, v.toVideo.1, [("filePath", .str v.toVideo.2)]) := by
  cases hs : v.source with
  | video path => simp [description, getType, sourceState, toVideo, hs]
  | camera => simp [isVideo, hs] at hv
  | syphon => simp [isVideo, hs] at hv

/-- The videos of a list, loaded at new addresses, are described as the list was exactly if the list
consists of videos: otherwise there are fewer of them. -/
theorem Visuals.description_eq_iff (n : Addr) (visuals : List Visual) :
    (Visuals.allocate n (visuals.filterMap Visual.video?)).map Visual.description =
      visuals.map Visual.description ↔ ∀ v ∈ visuals, v.isVideo = true := by
  constructor
  · intro h
    have hlen := congrArg List.length h
    rw [List.length_map, Visuals.length_allocate, List.length_map,
      List.filterMap_length_eq_length] at hlen
    intro v hv
    have hsome := hlen v hv
    rw [Visual.video?] at hsome
    split_ifs at hsome with hvideo
    · exact hvideo
    · exact Bool.noConfusion hsome
  · intro hvideos
    have hmap : visuals.filterMap Visual.video? = visuals.map Visual.toVideo := by
      rw [← List.filterMap_eq_map]
      refine List.filterMap_congr fun v hv => ?_
      simp [Visual.video?, hvideos v hv]
    rw [hmap, Visuals.description_allocate, List.map_map]
    refine List.map_congr_left fun v hv => ?_
    exact (Visual.description_of_isVideo (hvideos v hv)).symm

/-- Saving and loading a list of visuals gives the same ones exactly if all of them are videos, and
an erased iterator can be advanced. -/
theorem visuals_roundTrip_iff (hne : s.visualsList ≠ [])
    (hs : ∀ v ∈ s.visualsList, v.IsLoadable h) :
    Visuals.RoundTrips h s ↔
      h.erasedIteratorAdvances = true ∧ ∀ v ∈ s.visualsList, v.isVideo = true := by
  have hstate : Visuals.getState s = .arr (s.visualsList.map Visual.getState) :=
    Json.pushAll_of_ne_nil (mt List.map_eq_nil_iff.mp hne)
  rw [Visuals.RoundTrips, hstate]
  by_cases hadvance : h.erasedIteratorAdvances = true
  · rw [Visuals.setState_arr h _ s (.inr hadvance), Visuals.collect_decode_getState hs]
    simp only [Outcome.raiseIf_none, Outcome.ok.injEq, true_and, exists_eq_left', hadvance,
      EngineState.pushVideos_eq, List.nil_append]
    exact Visuals.description_eq_iff s.nextAddr s.visualsList
  · have hundefined : Visuals.setState h (.arr (s.visualsList.map Visual.getState)) s =
        .undefined .erasedIterator := by
      simp [Visuals.setState, Json.isArray, Visuals.empty_eq, hne, hadvance]
    simp [hundefined, hadvance]

end lists

/-- A state with the given visuals. -/
def EngineState.withVisuals (visuals : List Visual) : EngineState :=
  { EngineState.init with visualsList := visuals, nextAddr := visuals.length }

/-- Two videos come back. -/
theorem two_videos_roundTrip :
    Visuals.RoundTrips .plain
      (.withVisuals [⟨0, "a", .video "a.mov", ""⟩, ⟨1, "b", .video "b.mov", ""⟩]) := by
  refine (visuals_roundTrip_iff (List.cons_ne_nil _ _) ?_).mpr ⟨rfl, by decide⟩
  intro v hv
  simp only [EngineState.withVisuals, List.mem_cons, List.not_mem_nil, or_false] at hv
  rcases hv with rfl | rfl
  · exact ⟨by decide, rfl⟩
  · exact ⟨by decide, rfl⟩

/-- A camera does not come back. -/
theorem camera_not_roundTrips :
    (⟨0, "Camera", .camera 0 25 640 480 false, ""⟩ : Visual).IsLoadable .plain ∧
      ¬Visuals.RoundTrips .plain (.withVisuals [⟨0, "Camera", .camera 0 25 640 480 false, ""⟩]) := by
  refine ⟨trivial, ?_⟩
  rintro ⟨t, ht, hlist⟩
  have hempty : t.visualsList = [] := by
    obtain ⟨-, rfl⟩ := Outcome.ok.inj ht
    rfl
  rw [hempty] at hlist
  cases hlist

end ArbutusEngine
