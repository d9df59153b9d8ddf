import ArbutusEngine.InstanceWrites
import ArbutusEngine.Model.Commands
import ArbutusEngine.Model.Render

/-!
# The direction and the speed of an instance

While a video plays, `VisualInstance::updateVideo` makes the sign of its speed and the direction of
the instance follow each other, on every frame. The first of the two functions it calls turns the
speed around unless it already runs against the direction, where it should do so unless it already
runs along it. The second one repairs that for the inverse loop mode only, which forces both.

## Main definitions

* `VisualInstance.Coherent`: the speed has the sign that belongs to the direction.
* `VisualInstance.followChanges`: what one frame makes of a playing video.
* `PlaybackCall`: a write to the instance, or a frame.

## Main results

* `VisualInstance.coherent_followChanges_iff`: one frame.
* `playback_coherent_iff`: every run.
-/

open Exec

namespace ArbutusEngine

namespace VisualInstance

/-! ### One frame -/

/-- The speed is positive exactly if the instance plays to the right, and negative exactly if it
plays to the left. -/
structure Coherent (i : VisualInstance) : Prop where
  pos_iff : 0 < i.video.speed ↔ i.properties.direction = directionRight
  neg_iff : i.video.speed < 0 ↔ i.properties.direction = directionLeft

/-- The two instances play at one speed and in one direction. -/
def SamePlayback (i j : VisualInstance) : Prop :=
  i.video.speed = j.video.speed ∧ i.properties.direction = j.properties.direction

/-- What `VisualInstance::updateVideo` makes of a loaded, playing video. -/
def followChanges (i : VisualInstance) : VisualInstance :=
  handleLoopModeChange (handleDirectionChange i)

variable {i : VisualInstance}

theorem Coherent.eq_left (hi : i.Coherent) (hspeed : i.video.speed < 0) :
    i.properties.direction = directionLeft :=
  hi.neg_iff.mp hspeed

theorem absSpeed_pos (hspeed : i.video.speed ≠ 0) : 0 < i.absSpeed := by
  rw [absSpeed]
  split_ifs with hneg
  · exact neg_pos.mpr hneg
  · exact lt_of_le_of_ne (not_lt.mp hneg) hspeed.symm

@[simp] theorem properties_handleDirectionChange (i : VisualInstance) :
    (handleDirectionChange i).properties = i.properties := by
  rw [handleDirectionChange]
  split_ifs <;> rfl

@[simp] theorem loopMode_setLoopMode (mode : UInt32) (i : VisualInstance) :
    (i.setLoopMode mode).properties.loopMode = i.properties.loopMode := by
  rw [setLoopMode]
  split_ifs <;> rfl

@[simp] theorem loopMode_followChanges (i : VisualInstance) :
    i.followChanges.properties.loopMode = i.properties.loopMode := by
  rw [followChanges, handleLoopModeChange]
  split_ifs <;> simp

theorem speed_ne_handleDirectionChange (hspeed : i.video.speed ≠ 0) :
    (handleDirectionChange i).video.speed ≠ 0 := by
  rw [handleDirectionChange]
  split_ifs
  · exact hspeed
  · exact hspeed
  · exact mul_ne_zero hspeed (by norm_num)

/-- The speed runs against the direction once its changes have been followed. -/
theorem handleDirectionChange_against (hspeed : i.video.speed ≠ 0) :
    (i.properties.direction = directionLeft → 0 < (handleDirectionChange i).video.speed) ∧
      (i.properties.direction = directionRight → (handleDirectionChange i).video.speed < 0) := by
  have hne : directionRight ≠ directionLeft := by decide
  rcases lt_or_gt_of_ne hspeed with hneg | hpos
  · constructor
    · intro hleft
      have hright : i.properties.direction ≠ directionRight := fun h => hne (h.symm.trans hleft)
      have hturned : (handleDirectionChange i).video.speed = i.video.speed * -1 := by
        rw [handleDirectionChange, if_neg (fun h => hneg.not_gt h.2), if_neg fun h => hright h.1]
        rfl
      linarith
    · intro hright
      rw [handleDirectionChange, if_neg (fun h => hneg.not_gt h.2), if_pos ⟨hright, hneg⟩]
      exact hneg
  · constructor
    · intro hleft
      rw [handleDirectionChange, if_pos ⟨hleft, hpos⟩]
      exact hpos
    · intro hright
      have hleft : i.properties.direction ≠ directionLeft := fun h => hne (hright.symm.trans h)
      have hturned : (handleDirectionChange i).video.speed = i.video.speed * -1 := by
        rw [handleDirectionChange, if_neg (fun h => hleft h.1), if_neg fun h => hpos.not_gt h.2]
        rfl
      linarith

/-- An instance whose speed runs against its direction is not coherent. -/
theorem not_coherent_of_against (hspeed : i.video.speed ≠ 0)
    (hleft : i.properties.direction = directionLeft → 0 < i.video.speed)
    (hright : i.properties.direction = directionRight → i.video.speed < 0) : ¬i.Coherent := by
  intro hi
  rcases lt_or_gt_of_ne hspeed with hneg | hpos
  · exact hneg.not_gt (hleft (hi.neg_iff.mp hneg))
  · exact hpos.not_gt (hright (hi.pos_iff.mp hpos))

theorem handleLoopModeChange_of_inverse (hmode : i.properties.loopMode = loopModeInverse) :
    handleLoopModeChange i = (i.setSpeed (-1 * i.absSpeed)).setDirection directionLeft := by
  rw [handleLoopModeChange, hmode, if_neg (by decide), setLoopMode, if_neg (by decide),
    if_neg (by decide), if_pos rfl]

/-- In the inverse loop mode, an instance is made to play to the left. -/
theorem followChanges_of_inverse (hmode : i.properties.loopMode = loopModeInverse) :
    i.followChanges.video.speed = -i.absSpeed ∧
      i.followChanges.properties.direction = directionLeft := by
  have habs : (handleDirectionChange i).absSpeed = i.absSpeed := by
    have hother : (i.setSpeed (i.video.speed * -1)).absSpeed = i.absSpeed := by
      simp only [absSpeed, setSpeed, mul_neg, mul_one, neg_neg]
      split_ifs <;> linarith
    rw [handleDirectionChange]
    split_ifs
    · rfl
    · rfl
    · exact hother
  rw [followChanges, handleLoopModeChange_of_inverse (by simpa using hmode), habs]
  exact ⟨by simp [setSpeed, setDirection], rfl⟩

/-- An instance of which a frame makes a coherent one that the next frame leaves alone plays in the
inverse loop mode. -/
theorem inverse_of_coherent_followChanges (hspeed : i.video.speed ≠ 0)
    (hi : i.followChanges.Coherent) (hsame : i.followChanges.followChanges.SamePlayback
      i.followChanges) : i.properties.loopMode = loopModeInverse := by
  obtain ⟨hleft, hright⟩ := handleDirectionChange_against hspeed
  have hagainst : ¬(handleDirectionChange i).Coherent :=
    not_coherent_of_against (speed_ne_handleDirectionChange hspeed) (by simpa using hleft)
      (by simpa using hright)
  by_contra hmode
  by_cases hnormal : i.properties.loopMode = loopModeNormal
  · -- the direction was followed and nothing else was done
    have heq : i.followChanges = handleDirectionChange i := by
      rw [followChanges, handleLoopModeChange, properties_handleDirectionChange, if_pos hnormal]
    exact hagainst (heq ▸ hi)
  by_cases hping : i.properties.loopMode = loopModePingPong
  · have heq : ∀ j : VisualInstance, j.properties.loopMode = loopModePingPong →
        j.followChanges = if (handleDirectionChange j).video.speed > 0 then handleDirectionChange j
          else (handleDirectionChange j).setDirection directionLeft := by
      intro j hj
      rw [followChanges, handleLoopModeChange, properties_handleDirectionChange, hj,
        if_neg (by decide), setLoopMode, if_neg (by decide), if_pos rfl]
    have hone := heq i hping
    by_cases hpos : (handleDirectionChange i).video.speed > 0
    · rw [if_pos hpos] at hone
      exact hagainst (hone ▸ hi)
    · -- playing to the left, and turned around by the next frame
      rw [if_neg hpos] at hone
      have hneg : i.followChanges.video.speed < 0 := by
        rw [hone]
        exact lt_of_le_of_ne (not_lt.mp hpos) (speed_ne_handleDirectionChange hspeed)
      have hturn : 0 < (handleDirectionChange i.followChanges).video.speed :=
        (handleDirectionChange_against hneg.ne).1 (hi.eq_left hneg)
      have htwo : i.followChanges.followChanges = handleDirectionChange i.followChanges := by
        rw [heq _ (by simpa using hping), if_pos hturn]
      rw [htwo] at hsame
      linarith [hsame.1]
  · have heq : i.followChanges = handleDirectionChange i := by
      rw [followChanges, handleLoopModeChange, properties_handleDirectionChange, if_neg hnormal,
        setLoopMode, if_neg hnormal, if_neg hping, if_neg hmode]
    exact hagainst (heq ▸ hi)

/-- A frame makes an instance coherent, and the next one leaves it alone, exactly if it plays in
the inverse loop mode. -/
theorem coherent_followChanges_iff (hspeed : i.video.speed ≠ 0) :
    i.followChanges.Coherent ∧ i.followChanges.followChanges.SamePlayback i.followChanges ↔
      i.properties.loopMode = loopModeInverse := by
  refine ⟨fun h => inverse_of_coherent_followChanges hspeed h.1 h.2, fun hmode => ?_⟩
  have hpos := absSpeed_pos hspeed
  obtain ⟨hone, hleft⟩ := followChanges_of_inverse hmode
  obtain ⟨htwo, hleft'⟩ := followChanges_of_inverse (i := i.followChanges) (by simpa using hmode)
  have habs : i.followChanges.absSpeed = i.absSpeed := by
    rw [absSpeed, hone, if_pos (neg_neg_of_pos hpos), neg_neg]
  refine ⟨⟨?_, ?_⟩, ?_, ?_⟩
  · rw [hone, hleft]
    exact iff_of_false (by linarith) (by decide)
  · rw [hone, hleft]
    exact iff_of_true (by linarith) rfl
  · rw [htwo, hone, habs]
  · rw [hleft, hleft']

@[simp] theorem visual_followChanges (i : VisualInstance) : i.followChanges.visual = i.visual := by
  simp only [followChanges, handleLoopModeChange, handleDirectionChange, setLoopMode]
  split_ifs <;> rfl

@[simp] theorem isLoaded_followChanges (i : VisualInstance) :
    i.followChanges.video.isLoaded = i.video.isLoaded := by
  simp only [followChanges, handleLoopModeChange, handleDirectionChange, setLoopMode]
  split_ifs <;> rfl

@[simp] theorem isPlaying_followChanges (i : VisualInstance) :
    i.followChanges.video.isPlaying = i.video.isPlaying := by
  simp only [followChanges, handleLoopModeChange, handleDirectionChange, setLoopMode]
  split_ifs <;> rfl

theorem speed_ne_followChanges (hspeed : i.video.speed ≠ 0) : i.followChanges.video.speed ≠ 0 := by
  have hne := speed_ne_handleDirectionChange hspeed
  have hpos := absSpeed_pos hne
  rw [followChanges, handleLoopModeChange, setLoopMode]
  split_ifs with hnormal hping hright hinverse
  · exact hne
  · exact hne
  · exact hne
  · exact mul_ne_zero (by norm_num) hpos.ne'
  · exact hne

end VisualInstance

/-! ### Frames and writes -/

/-- The instance at an address shows a video that is loaded and plays. -/
def EngineState.PlaysVideo (a : Addr) (s : EngineState) : Prop :=
  ∃ i ∈ s.instances.get? a,
    (∃ v ∈ s.visualsList.find? fun v => v.addr = i.visual, v.getType = 0) ∧
      i.video.isLoaded = true ∧ i.video.isPlaying = true ∧ i.video.speed ≠ 0

/-- The speed and the direction of the instance at an address belong together, and one more frame
changes neither. -/
def EngineState.PlaysCoherently (a : Addr) (s : EngineState) : Prop :=
  ∃ i, s.instances.get? a = some i ∧ i.Coherent ∧
    ∃ t, (VisualInstance.updateVideo a s).final? = some t ∧
      ∃ j, t.instances.get? a = some j ∧ j.SamePlayback i

/-- A write to the properties of an instance, or a frame of its video. -/
inductive PlaybackCall where
  | write (w : InstanceWrite)
  | updateVideo

/-- A call on the instance at an address. -/
def PlaybackCall.run (a : Addr) : PlaybackCall → Prog Unit
  | write w => w.run a
  | updateVideo => VisualInstance.updateVideo a

/-- What is asked of a call: after a frame the instance plays coherently. -/
def PlaybackCall.KeepsCoherent (a : Addr) : PlaybackCall → EngineState → Prop
  | write _, _ => True
  | updateVideo, t => t.PlaysCoherently a

/-- What decides about a call: a frame finds the instance in the inverse loop mode. -/
def PlaybackCall.FindsInverse (a : Addr) : PlaybackCall → EngineState → Prop
  | write _, _ => True
  | updateVideo, s => s.InstanceHas a fun p => p.loopMode = VisualInstance.loopModeInverse

theorem Visual.exists_video {v : Visual} (hv : v.getType = 0) : ∃ path, v.source = .video path := by
  rw [getType] at hv
  split at hv
  · exact ⟨_, ‹_›⟩
  · exact absurd hv (by decide)
  · exact absurd hv (by decide)

namespace EngineState

variable {a : Addr} {s t : EngineState}

instance (P : VisualInstancesProperties → Prop) [DecidablePred P] : Decidable (s.InstanceHas a P) :=
  inferInstanceAs (Decidable (∃ i ∈ s.instances.get? a, P i.properties))

instance (c : PlaybackCall) : Decidable (c.FindsInverse a s) :=
  match c with
  | .write _ => isTrue trivial
  | .updateVideo => inferInstanceAs (Decidable (s.InstanceHas a fun p => p.loopMode = _))

instance : Decidable (s.PlaysVideo a) :=
  inferInstanceAs (Decidable (∃ i ∈ _, (∃ v ∈ _, _ = _) ∧ _ = _ ∧ _ = _ ∧ _ ≠ _))

/-- A frame of a playing video. -/
theorem PlaysVideo.final?_updateVideo (hs : s.PlaysVideo a) {i : VisualInstance}
    (hi : s.instances.get? a = some i) :
    ∃ t, (VisualInstance.updateVideo a s).final? = some t ∧
      t.instances.get? a = some i.followChanges ∧ t.visualsList = s.visualsList := by
  obtain ⟨j, hj, ⟨v, hv, htype⟩, hloaded, hplaying, -⟩ := hs
  obtain rfl := Option.some.inj (hi.symm.trans hj)
  obtain ⟨path, hsource⟩ := Visual.exists_video htype
  have hv : s.visualsList.find? (fun v => v.addr = i.visual) = some v := hv
  have hturned := s.instances.get?_set hi i.handleDirectionChange a
  rw [if_pos rfl] at hturned
  have hfollowed := (s.instances.set a i.handleDirectionChange).get?_set hturned i.followChanges a
  rw [if_pos rfl] at hfollowed
  refine ⟨{ s with instances :=
    (s.instances.set a i.handleDirectionChange).set a i.followChanges }, ?_, hfollowed, rfl⟩
  have hcond : (i.video.isLoaded && i.video.isPlaying) = true := by rw [hloaded, hplaying]; rfl
  simp only [VisualInstance.updateVideo, bind_run, VisualInstance.read, Visual.read, hi, hv,
    ofOption, pure_run, Outcome.bind_ok, hsource, if_pos hcond, VisualInstance.update_eq hi]
  rw [VisualInstance.update_eq hturned]
  rfl

theorem PlaysVideo.exists (hs : s.PlaysVideo a) :
    ∃ i, s.instances.get? a = some i ∧ i.video.speed ≠ 0 := by
  obtain ⟨i, hi, -, -, -, hspeed⟩ := hs
  exact ⟨i, hi, hspeed⟩

/-- A state in which the instance has another player and other properties, and its video still
plays. -/
theorem PlaysVideo.congr (hs : s.PlaysVideo a) {i j : VisualInstance}
    (hi : s.instances.get? a = some i) (hj : t.instances.get? a = some j)
    (hlist : t.visualsList = s.visualsList) (hvisual : j.visual = i.visual)
    (hloaded : j.video.isLoaded = i.video.isLoaded)
    (hplaying : j.video.isPlaying = i.video.isPlaying) (hspeed : j.video.speed ≠ 0) :
    t.PlaysVideo a := by
  obtain ⟨i', hi', hvideo, hload, hplay, -⟩ := hs
  obtain rfl := Option.some.inj (hi.symm.trans hi')
  refine ⟨j, hj, ?_, hloaded.trans hload, hplaying.trans hplay, hspeed⟩
  rwa [hlist, hvisual]

/-- After a frame of a playing video the instance plays coherently exactly if the frame found it in
the inverse loop mode. -/
theorem PlaysVideo.playsCoherently_iff (hs : s.PlaysVideo a)
    (ht : (VisualInstance.updateVideo a s).final? = some t) :
    t.PlaysVideo a ∧ (t.PlaysCoherently a ↔
      s.InstanceHas a fun p => p.loopMode = VisualInstance.loopModeInverse) := by
  obtain ⟨i, hi, hspeed⟩ := hs.exists
  obtain ⟨t', ht', hget, hlist⟩ := hs.final?_updateVideo hi
  obtain rfl := Option.some.inj (ht.symm.trans ht')
  have hnext : t.PlaysVideo a := hs.congr hi hget hlist (VisualInstance.visual_followChanges i)
    (VisualInstance.isLoaded_followChanges i) (VisualInstance.isPlaying_followChanges i)
    (VisualInstance.speed_ne_followChanges hspeed)
  obtain ⟨u, hu, hgetu, -⟩ := hnext.final?_updateVideo hget
  refine ⟨hnext, ?_⟩
  simp only [PlaysCoherently, InstanceHas, hi, hget, hu, hgetu, Option.some.injEq, exists_eq_left']
  exact VisualInstance.coherent_followChanges_iff hspeed

end EngineState

/-- A write leaves the list of videos alone. -/
theorem InstanceWrite.fixes_visualsList (a : Addr) (w : InstanceWrite) :
    Fixes (fun s => s.visualsList) (w.run a) := by
  have hupdate : ∀ f : VisualInstance → VisualInstance,
      Fixes (fun s : EngineState => s.visualsList) (VisualInstance.update a f) := fun f =>
    .bind (.deref _ _) fun _ => .modify fun _ => rfl
  cases w with
  | handleAction parameter data =>
    refine .bind (.ofExcept _ _) fun value => ?_
    cases hashSwitch (VisualInstance.actionCases (N := ℚ)) parameter with
    | none => exact .pure _
    | some act => exact hupdate _
  | _ => exact hupdate _

/-- A write to the properties of an instance leaves its video playing. -/
theorem InstanceWrite.playsVideo_run {a : Addr} {s t : EngineState} (hs : s.PlaysVideo a)
    (w : InstanceWrite) (ht : (w.run a s).final? = some t) : t.PlaysVideo a := by
  obtain ⟨i, hi, hspeed⟩ := hs.exists
  obtain ⟨t', ht', hget, -⟩ := final?_run hi w
  obtain rfl := Option.some.inj (ht.symm.trans ht')
  have hlist : t.visualsList = s.visualsList :=
    (w.fixes_visualsList a _ s rfl).of_final? ht
  exact hs.congr hi hget hlist rfl rfl rfl hspeed

/-- Along every run of writes and frames of a playing video, the direction and the speed belong
together after every frame, and one more frame changes neither, exactly if every frame finds the
instance in the inverse loop mode. -/
theorem playback_coherent_iff {a : Addr} {s : EngineState} (hs : s.PlaysVideo a)
    (cs : List PlaybackCall) :
    Along (PlaybackCall.run a) (fun c _ t => c.KeepsCoherent a t) cs s ↔
      Along (PlaybackCall.run a) (fun c s _ => c.FindsInverse a s) cs s := by
  refine along_congr (I := EngineState.PlaysVideo a) ?_ ?_ hs
  · rintro c - s t hs ht
    cases c with
    | write w => exact Iff.rfl
    | updateVideo => exact (hs.playsCoherently_iff ht).2
  · rintro c - s t hs ht -
    cases c with
    | write w => exact w.playsVideo_run hs ht
    | updateVideo => exact (hs.playsCoherently_iff ht).1

/-- A video in the first cell, playing. -/
def playedVideo : List Call :=
  [(.plain, .newSet 640 480 1), (.plain, .addVideo "a.mov"), (.plain, .addVisualToScene 0 0 0),
    (.plain, .play (.obj [("layer", .int 0), ("column", .int 0)]))]

/-- The inverse loop mode is chosen, and then the other direction. -/
theorem playback_coherent_inverse : ∃ s : EngineState, s.Reachable ∧
    Along (PlaybackCall.run 0) (fun c _ t => c.KeepsCoherent 0 t)
      [.write (.setMode .loopMode 3), .updateVideo, .write (.setMode .direction 2), .updateVideo]
      s := by
  obtain ⟨s, hs, hplays, hrun⟩ : ∃ s : EngineState, s.Reachable ∧ s.PlaysVideo 0 ∧
      (runAll (PlaybackCall.run 0) (fun c s => c.FindsInverse 0 s) [.write (.setMode .loopMode 3),
        .updateVideo, .write (.setMode .direction 2), .updateVideo] s).isSome = true :=
    exists_reaches playedVideo (by decide +kernel)
  exact ⟨s, hs, (playback_coherent_iff hplays _).mpr (along_of_runAll hrun)⟩

/-- The first frame of a new instance, which plays in the normal loop mode and to the left. -/
theorem playback_against_direction : ∃ s : EngineState, s.Reachable ∧ s.PlaysVideo 0 ∧
    ¬Along (PlaybackCall.run 0) (fun c _ t => c.KeepsCoherent 0 t) [.updateVideo] s := by
  obtain ⟨s, hs, hplays, hmode⟩ : ∃ s : EngineState, s.Reachable ∧ s.PlaysVideo 0 ∧
      ∃ i ∈ s.instances.get? 0, i.properties.loopMode = VisualInstance.loopModeNormal :=
    exists_reaches playedVideo (by decide +kernel)
  refine ⟨s, hs, hplays, ?_⟩
  rintro ⟨t, ht, hcoherent, -⟩
  obtain ⟨i, hi, hinverse⟩ := (hplays.playsCoherently_iff ht).2.mp hcoherent
  obtain ⟨j, hj, hnormal⟩ := hmode
  obtain rfl := Option.some.inj (hi.symm.trans hj)
  exact absurd (hinverse.symm.trans hnormal) (by decide)

end ArbutusEngine
