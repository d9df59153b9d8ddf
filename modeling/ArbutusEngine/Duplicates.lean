import ArbutusEngine.Model.Visuals
import Mathlib.Data.List.Nodup

/-!
# Videos that are listed twice

A video is added to the list of visuals by `Visuals::addVideo`, which never looks whether it is
there already, or by `Set::addVisualVideoToListFromFile`, which looks for the path as it is given,
while the paths in the list have been resolved against the folder of the set. So the list holds each
file once exactly if every call either adds a file that is not listed yet or, in the second case, is
given the very path of a listed one.

`Visuals::addVideo` returns the new video as a `Visual *`. Its `getFilePath` reads a member of `Visual`
that nothing assigns, and not the path of the video.

## Main definitions

* `Visuals.videoPaths`: the files of the listed videos.
* `VideoCall`, `VideoCall.run`: the two functions.
* `VideoCall.Fresh`: the call does not list a file again.

## Main results

* `VideoCall.final?_run`: what one call does.
* `videos_listed_once_iff`: every run.
-/

open Exec

namespace ArbutusEngine

/-- The file of a visual, if it is a video. -/
def Visual.videoPath? (v : Visual) : Option String :=
  match v.source with
  | .video filePath => some filePath
  | _ => none

/-- The files of the videos of a list, by `VisualVideo::getFilePath`, as `Visuals::isFileInList` reads
them. -/
def Visuals.videoPaths (visuals : List Visual) : List String := visuals.filterMap Visual.videoPath?

theorem Visuals.isFileInList_iff {visuals : List Visual} {filePath : String} :
    isFileInList visuals filePath = true ↔ filePath ∈ videoPaths visuals := by
  rw [isFileInList, List.any_eq_true, videoPaths, List.mem_filterMap]
  refine exists_congr fun v => and_congr_right fun _ => ?_
  cases hv : v.source with
  | video path =>
    simp only [Visual.videoPath?, hv, beq_iff_eq, Option.some.injEq]
    exact eq_comm
  | camera => simp [Visual.videoPath?, hv]
  | syphon => simp [Visual.videoPath?, hv]

/-- A call that adds a video. -/
inductive VideoCall where
  | addVideo (path : String)
  | addVisualVideoToListFromFile (filePath : String)
  deriving DecidableEq

namespace VideoCall

def path : VideoCall → String
  | addVideo path => path
  | addVisualVideoToListFromFile filePath => filePath

/-- A call, in the given surroundings. -/
def run (h : Host) : VideoCall → Prog Unit
  | addVideo path => do
    let _ ← Visuals.addVideo h path
  | addVisualVideoToListFromFile filePath => Set.addVisualVideoToListFromFile h filePath

/-- The path under which the call stores its video. -/
def resolved (h : Host) (c : VideoCall) (s : EngineState) : String :=
  VisualVideo.findAbsolutePath h s.filePath c.path

/-- `Visuals::addVideo` returns a visual that is in the list, and whose `getFilePath` is the resolved
path. -/
def ReturnsListed (h : Host) (c : VideoCall) (s t : EngineState) : Prop :=
  ∀ path, c = addVideo path → ∃ v, Visuals.addVideo h path s = .ok v t ∧ v ∈ t.visualsList ∧
    v.getFilePath = VisualVideo.findAbsolutePath h s.filePath path

/-- The call is one of `Visuals::addVideo`. -/
def IsAddVideo (c : VideoCall) : Prop := ∃ path, c = addVideo path

/-- The file is not listed yet, or `Set::addVisualVideoToListFromFile` is given a path that is. -/
def Fresh (h : Host) (c : VideoCall) (s : EngineState) : Prop :=
  c.resolved h s ∉ Visuals.videoPaths s.visualsList ∨
    ∃ filePath ∈ Visuals.videoPaths s.visualsList, c = addVisualVideoToListFromFile filePath

end VideoCall

/-- The state after a call has added its video. -/
def EngineState.addVideo (h : Host) (filePath : String) (s : EngineState) : EngineState :=
  s.pushVideo h (VisualVideo.getCaptionFromPath h filePath, filePath)

theorem EngineState.videoPaths_addVideo (h : Host) (filePath : String) (s : EngineState) :
    Visuals.videoPaths (s.addVideo h filePath).visualsList =
      Visuals.videoPaths s.visualsList ++ [filePath] := by
  simp [Visuals.videoPaths, EngineState.addVideo, EngineState.pushVideo, Visual.videoPath?]

namespace VideoCall

variable {h : Host} {s : EngineState}

/-- The visual that a call adds. -/
def newVideo (h : Host) (filePath : String) (s : EngineState) : Visual :=
  ⟨s.nextAddr, VisualVideo.getCaptionFromPath h filePath, .video filePath, ""⟩

theorem addVideo_eq {path : String} (hpath : VisualVideo.findAbsolutePath h s.filePath path ≠ "") :
    Visuals.addVideo h path s =
      .ok (newVideo h (VisualVideo.findAbsolutePath h s.filePath path) s)
        (s.addVideo h (VisualVideo.findAbsolutePath h s.filePath path)) := by
  rw [Visuals.addVideo, bind_run, VisualVideo.new_eq]
  simp only [if_neg hpath]
  rfl

/-- A call with a path that resolves returns. It adds the video, unless it looks for its path in the
list and finds it. -/
theorem final?_run {c : VideoCall} (hc : c.resolved h s ≠ "") :
    (run h c s).final? = some (if ∃ filePath ∈ Visuals.videoPaths s.visualsList,
        c = addVisualVideoToListFromFile filePath then s else s.addVideo h (c.resolved h s)) := by
  cases c with
  | addVideo path =>
    have hpath : VisualVideo.findAbsolutePath h s.filePath path ≠ "" := hc
    rw [if_neg (by simp), run, bind_run, addVideo_eq hpath]
    rfl
  | addVisualVideoToListFromFile filePath =>
    have hexists : (∃ path ∈ Visuals.videoPaths s.visualsList,
        addVisualVideoToListFromFile filePath = addVisualVideoToListFromFile path) ↔
        Visuals.isFileInList s.visualsList filePath = true := by
      rw [Visuals.isFileInList_iff]
      simp
    simp only [hexists, run, Set.addVisualVideoToListFromFile, bind_run, gets_run, Outcome.bind_ok]
    split_ifs with hfound
    · rfl
    · have hpath : VisualVideo.findAbsolutePath h s.filePath filePath ≠ "" := hc
      rw [bind_run, VisualVideo.new_eq]
      simp only [if_neg hpath]
      rfl

/-- The path of the returned visual is empty, and the resolved one is not. -/
theorem returnsListed_iff {c : VideoCall} (hc : c.resolved h s ≠ "") {t : EngineState} :
    c.ReturnsListed h s t ↔ ¬c.IsAddVideo := by
  constructor
  · rintro hreturns ⟨path, rfl⟩
    have hpath : VisualVideo.findAbsolutePath h s.filePath path ≠ "" := hc
    obtain ⟨v, hv, -, hempty⟩ := hreturns path rfl
    rw [addVideo_eq hpath] at hv
    obtain ⟨rfl, -⟩ := Outcome.ok.inj hv
    exact hpath hempty.symm
  · exact fun hne path heq => absurd ⟨path, heq⟩ hne

/-- From a list without duplicates, a call leads to such a list exactly if it is fresh. -/
theorem nodup_iff_fresh {c : VideoCall} (hc : c.resolved h s ≠ "") {t : EngineState}
    (hs : (Visuals.videoPaths s.visualsList).Nodup) (ht : (run h c s).final? = some t) :
    (Visuals.videoPaths t.visualsList).Nodup ↔ c.Fresh h s := by
  rw [final?_run hc] at ht
  obtain rfl := Option.some.inj ht
  rw [Fresh]
  split_ifs with hlisted
  · simp [hs, hlisted]
  · rw [EngineState.videoPaths_addVideo, ← List.concat_eq_append, List.nodup_concat]
    simp only [hs, hlisted, and_true, or_false]

end VideoCall

/-- Along every run of calls with paths that resolve, each file is listed once and
`Visuals::addVideo` returns its listed video, with its path, exactly if no call is one of
`Visuals::addVideo` and every call is fresh in the state it is made in. The first part alone holds
exactly if every call is fresh. -/
theorem videos_listed_once_iff (h : Host) (cs : List VideoCall) {s : EngineState}
    (hs : (Visuals.videoPaths s.visualsList).Nodup) (hcs : ∀ c ∈ cs, c.resolved h s ≠ "") :
    (Along (VideoCall.run h) (fun c s t =>
        (Visuals.videoPaths t.visualsList).Nodup ∧ c.ReturnsListed h s t) cs s ↔
      Along (VideoCall.run h) (fun c s _ => c.Fresh h s ∧ ¬c.IsAddVideo) cs s) ∧
    (Along (VideoCall.run h) (fun _ _ t => (Visuals.videoPaths t.visualsList).Nodup) cs s ↔
      Along (VideoCall.run h) (fun c s _ => c.Fresh h s) cs s) := by
  -- the paths resolve in every state, since no call changes the folder of the set
  have hresolved : ∀ c ∈ cs, ∀ u : EngineState, u.filePath = s.filePath → c.resolved h u ≠ "" := by
    intro c hc u hpath
    rw [VideoCall.resolved, hpath]
    exact hcs c hc
  have hkept : ∀ c ∈ cs, ∀ u t : EngineState, u.filePath = s.filePath →
      (c.run h u).final? = some t → t.filePath = s.filePath := by
    intro c hc u t hpath ht
    rw [VideoCall.final?_run (hresolved c hc u hpath)] at ht
    obtain rfl := Option.some.inj ht
    split_ifs
    · exact hpath
    · exact hpath
  constructor
  · refine along_congr (I := fun t =>
      (Visuals.videoPaths t.visualsList).Nodup ∧ t.filePath = s.filePath) ?_ ?_ ⟨hs, rfl⟩
    · rintro c hc u t ⟨hu, hpath⟩ ht
      have hresolved := hresolved c hc u hpath
      rw [VideoCall.nodup_iff_fresh hresolved hu ht, VideoCall.returnsListed_iff hresolved]
    · rintro c hc u t ⟨hu, hpath⟩ ht hP
      exact ⟨hP.1, hkept c hc u t hpath ht⟩
  · refine along_congr (I := fun t =>
      (Visuals.videoPaths t.visualsList).Nodup ∧ t.filePath = s.filePath) ?_ ?_ ⟨hs, rfl⟩
    · rintro c hc u t ⟨hu, hpath⟩ ht
      exact VideoCall.nodup_iff_fresh (hresolved c hc u hpath) hu ht
    · rintro c hc u t ⟨hu, hpath⟩ ht hP
      exact ⟨hP, hkept c hc u t hpath ht⟩

/-- Two different files, and the path of the first one once more. -/
theorem videos_listed_once_after_calls :
    Along (VideoCall.run .plain) (fun c s t =>
        (Visuals.videoPaths t.visualsList).Nodup ∧ c.ReturnsListed .plain s t)
      [.addVisualVideoToListFromFile "a.mov", .addVisualVideoToListFromFile "b.mov",
        .addVisualVideoToListFromFile "a.mov"] .init := by
  have hnot : ∀ path, ¬(VideoCall.addVisualVideoToListFromFile path).IsAddVideo := by
    rintro path ⟨_, heq⟩
    cases heq
  refine (videos_listed_once_iff (s := .init) .plain _ .nil ?_).1.mpr ?_
  · decide
  · refine ⟨_, rfl, ⟨.inl (by decide), hnot _⟩, _, rfl, ⟨.inl (by decide), hnot _⟩, _, rfl,
      ⟨.inr ?_, hnot _⟩, trivial⟩
    exact ⟨"a.mov", by decide, rfl⟩

/-- A video that is added twice by `Visuals::addVideo` is listed twice, and the visual returned has no
path. -/
theorem video_listed_twice :
    (Visuals.videoPaths EngineState.init.visualsList).Nodup ∧
      (∀ c ∈ [VideoCall.addVideo "a.mov", .addVideo "a.mov"], c.resolved .plain .init ≠ "") ∧
      (¬Along (VideoCall.run .plain) (fun _ _ t => (Visuals.videoPaths t.visualsList).Nodup)
        [.addVideo "a.mov", .addVideo "a.mov"] .init) ∧
      ¬Along (VideoCall.run .plain) (fun c s t => c.ReturnsListed .plain s t)
        [.addVideo "a.mov"] .init := by
  refine ⟨.nil, by decide, ?_, ?_⟩
  · rintro ⟨t, ht, -, u, hu, hnodup, -⟩
    obtain rfl := Option.some.inj ht
    obtain rfl := Option.some.inj hu
    exact absurd hnodup (by decide)
  · rintro ⟨t, ht, hreturns, -⟩
    obtain ⟨v, hv, -, hpath⟩ := hreturns "a.mov" rfl
    obtain ⟨rfl, -⟩ := Outcome.ok.inj hv
    exact absurd hpath (by decide)

end ArbutusEngine
