import ArbutusEngine.PlaybackWindow
import ArbutusEngine.Model.Playhead

/-!
# The playhead in its window

An instance plays the part of its video between two percentages, and after each move of the player
`VisualInstance::calculateCurrentPlayeadPosition` is meant to bring the position back into that
part. Two of the six handlers do not. In the normal loop mode, an instance that plays to the left is
put at the start and made to play to the right, but its speed stays negative, so that the next move
leads out. In the inverse loop mode, an instance that plays to the right is turned around without a
look at its position.

## Main definitions

* `VisualInstance.PlaysWithin`: the position lies within the window.
* `VisualInstance.PlaysRight`, `VisualInstance.PlaysLeft`: the direction, and a speed along it.
* `VisualInstance.KeepsWithin`: what decides about the moves of the player.

## Main results

* `VisualInstance.handleNormalLoopMode_right`, `VisualInstance.handlePingPongLoopMode_right`,
  `VisualInstance.handlePingPongLoopMode_left`, `VisualInstance.handleInverseLoopMode_left`: the
  handlers that bring the position back into the window.
* `VisualInstance.along_drifting_iff`: after the handler that does not turn the speed around.
* `playhead_in_window_iff`: every run.
-/

open Exec

namespace ArbutusEngine

namespace VisualInstance

/-- The position of the player lies in the part of the video that the instance plays. -/
structure PlaysWithin (i : VisualInstance) : Prop where
  start_le : i.properties.startPercentage ≤ i.video.position
  le_end : i.video.position ≤ i.properties.endPercentage

structure PlaysRight (i : VisualInstance) : Prop where
  direction : i.properties.direction = directionRight
  speed : 0 < i.video.speed

structure PlaysLeft (i : VisualInstance) : Prop where
  direction : i.properties.direction = directionLeft
  speed : i.video.speed < 0

/-- The instance has been turned to the right in the normal loop mode, and its player still goes to
the left, from the start of the window. -/
structure Drifts (i : VisualInstance) : Prop where
  loopMode : i.properties.loopMode = loopModeNormal
  direction : i.properties.direction = directionRight
  speed : i.video.speed < 0
  position : i.video.position = i.properties.startPercentage
  start_le : i.properties.startPercentage ≤ i.properties.endPercentage

/-- The moves do not lead out of the window: in the normal loop mode, an instance that plays to the
left is not moved again after the first move; in the inverse loop mode, the first move of an
instance that plays to the right does not lead behind the end. -/
def KeepsWithin (amounts : List ℚ≥0) (i : VisualInstance) : Prop :=
  (i.properties.loopMode = loopModeNormal → i.PlaysLeft → ∀ amount ∈ amounts.tail, amount = 0) ∧
    (i.properties.loopMode = loopModeInverse → i.PlaysRight →
      ∀ amount ∈ amounts.head?, i.video.position + amount ≤ i.properties.endPercentage)

variable {i : VisualInstance} {amount : ℚ≥0}

theorem directionRight_ne_left : directionRight ≠ directionLeft := by decide

theorem PlaysRight.not_playsLeft (hi : i.PlaysRight) : ¬i.PlaysLeft := fun h =>
  hi.speed.not_gt h.speed

theorem PlaysWithin.window (hi : i.PlaysWithin) :
    i.properties.startPercentage ≤ i.properties.endPercentage := hi.start_le.trans hi.le_end

/-! ### The player moves on -/

@[simp] theorem properties_advance : (i.advance amount).properties = i.properties := rfl

@[simp] theorem speed_advance : (i.advance amount).video.speed = i.video.speed := by
  rw [advance, VideoPlayer.advance]
  split_ifs <;> rfl

theorem position_advance_of_pos (hspeed : 0 < i.video.speed) :
    (i.advance amount).video.position = i.video.position + amount := by
  rw [advance, VideoPlayer.advance, if_neg hspeed.not_gt, if_pos hspeed]

theorem position_advance_of_neg (hspeed : i.video.speed < 0) :
    (i.advance amount).video.position = i.video.position - amount := by
  rw [advance, VideoPlayer.advance, if_pos hspeed]

theorem PlaysRight.advance (hi : i.PlaysRight) (amount : ℚ≥0) : (i.advance amount).PlaysRight :=
  ⟨hi.direction, by simpa using hi.speed⟩

theorem PlaysLeft.advance (hi : i.PlaysLeft) (amount : ℚ≥0) : (i.advance amount).PlaysLeft :=
  ⟨hi.direction, by simpa using hi.speed⟩

/-- A move to the right does not lead before the start. -/
theorem PlaysWithin.start_le_advance (hi : i.PlaysWithin) (hright : i.PlaysRight)
    (amount : ℚ≥0) :
    i.properties.startPercentage ≤ (i.advance amount).video.position := by
  rw [position_advance_of_pos hright.speed]
  exact hi.start_le.trans (le_add_of_nonneg_right amount.coe_nonneg)

/-- A move to the left does not lead behind the end. -/
theorem PlaysWithin.advance_le_end (hi : i.PlaysWithin) (hspeed : i.video.speed < 0)
    (amount : ℚ≥0) :
    (i.advance amount).video.position ≤ i.properties.endPercentage := by
  rw [position_advance_of_neg hspeed]
  exact (sub_le_self _ amount.coe_nonneg).trans hi.le_end

/-! ### The handlers -/

theorem playOn_of_normal (hmode : i.properties.loopMode = loopModeNormal) :
    i.playOn amount = (i.advance amount).handleNormalLoopMode (i.advance amount).video.position :=
  if_pos hmode

theorem playOn_of_pingPong (hmode : i.properties.loopMode = loopModePingPong) :
    i.playOn amount =
      (i.advance amount).handlePingPongLoopMode (i.advance amount).video.position := by
  rw [playOn, calculateCurrentPlayeadPosition, properties_advance, hmode, if_neg (by decide),
    if_pos rfl]

theorem playOn_of_inverse (hmode : i.properties.loopMode = loopModeInverse) :
    i.playOn amount =
      (i.advance amount).handleInverseLoopMode (i.advance amount).video.position := by
  rw [playOn, calculateCurrentPlayeadPosition, properties_advance, hmode, if_neg (by decide),
    if_neg (by decide), if_pos rfl]

@[simp] theorem loopMode_playOn :
    (i.playOn amount).properties.loopMode = i.properties.loopMode := by
  simp only [playOn, calculateCurrentPlayeadPosition, handleNormalLoopMode, handlePingPongLoopMode,
    handleInverseLoopMode, turnLeft, turnRight]
  split_ifs <;> rfl

theorem turnLeft_of_pos (hspeed : 0 < i.video.speed) :
    i.turnLeft = i.setSpeed (-1 * i.video.speed) := if_pos hspeed

theorem turnRight_of_neg (hspeed : i.video.speed < 0) :
    i.turnRight = i.setSpeed (-1 * i.video.speed) := if_pos hspeed

/-- The normal loop mode, to the right. -/
theorem handleNormalLoopMode_right (hright : i.PlaysRight)
    (hstart : i.properties.startPercentage ≤ i.video.position)
    (hwindow : i.properties.startPercentage ≤ i.properties.endPercentage) :
    (i.handleNormalLoopMode i.video.position).PlaysRight ∧
      (i.handleNormalLoopMode i.video.position).PlaysWithin := by
  rw [handleNormalLoopMode, if_pos hright.direction]
  by_cases hend : i.video.position > i.properties.endPercentage
  · rw [if_pos hend]
    exact ⟨⟨hright.direction, hright.speed⟩, le_rfl, hwindow⟩
  · rw [if_neg hend]
    exact ⟨hright, hstart, not_lt.mp hend⟩

/-- The ping-pong loop mode, to the right. -/
theorem handlePingPongLoopMode_right (hright : i.PlaysRight)
    (hstart : i.properties.startPercentage ≤ i.video.position)
    (hwindow : i.properties.startPercentage ≤ i.properties.endPercentage) :
    ((i.handlePingPongLoopMode i.video.position).PlaysRight ∨
        (i.handlePingPongLoopMode i.video.position).PlaysLeft) ∧
      (i.handlePingPongLoopMode i.video.position).PlaysWithin := by
  rw [handlePingPongLoopMode, if_pos hright.direction]
  by_cases hend : i.video.position > i.properties.endPercentage
  · have hturn : (i.setDirection directionLeft).turnLeft =
        (i.setDirection directionLeft).setSpeed (-1 * i.video.speed) := turnLeft_of_pos hright.speed
    have hspeed : -1 * i.video.speed < 0 := by linarith [hright.speed]
    rw [if_pos hend, hturn]
    exact ⟨.inr ⟨rfl, hspeed⟩, hwindow, le_rfl⟩
  · rw [if_neg hend]
    exact ⟨.inl hright, hstart, not_lt.mp hend⟩

/-- The ping-pong loop mode, to the left. -/
theorem handlePingPongLoopMode_left (hleft : i.PlaysLeft)
    (hend : i.video.position ≤ i.properties.endPercentage)
    (hwindow : i.properties.startPercentage ≤ i.properties.endPercentage) :
    ((i.handlePingPongLoopMode i.video.position).PlaysRight ∨
        (i.handlePingPongLoopMode i.video.position).PlaysLeft) ∧
      (i.handlePingPongLoopMode i.video.position).PlaysWithin := by
  have hdirection : i.properties.direction ≠ directionRight := fun h =>
    directionRight_ne_left (h.symm.trans hleft.direction)
  rw [handlePingPongLoopMode, if_neg hdirection, if_pos hleft.direction]
  by_cases hstart : i.video.position < i.properties.startPercentage
  · have hturn : (i.setDirection directionRight).turnRight =
        (i.setDirection directionRight).setSpeed (-1 * i.video.speed) :=
      turnRight_of_neg hleft.speed
    have hspeed : 0 < -1 * i.video.speed := by linarith [hleft.speed]
    rw [if_pos hstart, hturn]
    exact ⟨.inl ⟨rfl, hspeed⟩, le_rfl, hwindow⟩
  · rw [if_neg hstart]
    exact ⟨.inr hleft, not_lt.mp hstart, hend⟩

/-- The inverse loop mode, to the left. -/
theorem handleInverseLoopMode_left (hleft : i.PlaysLeft)
    (hend : i.video.position ≤ i.properties.endPercentage)
    (hwindow : i.properties.startPercentage ≤ i.properties.endPercentage) :
    (i.handleInverseLoopMode i.video.position).PlaysLeft ∧
      (i.handleInverseLoopMode i.video.position).PlaysWithin := by
  rw [handleInverseLoopMode, if_pos hleft.direction]
  by_cases hstart : i.video.position < i.properties.startPercentage
  · simp only [if_pos hstart, gt_iff_lt, lt_irrefl, if_false]
    exact ⟨⟨hleft.direction, hleft.speed⟩, hwindow, le_rfl⟩
  · simp only [if_neg hstart, gt_iff_lt, hend.not_gt, if_false]
    exact ⟨hleft, not_lt.mp hstart, hend⟩

/-- The inverse loop mode, to the right: the instance is turned around where it is. -/
theorem handleInverseLoopMode_right (hright : i.PlaysRight) :
    (i.handleInverseLoopMode i.video.position).PlaysLeft ∧
      ((i.handleInverseLoopMode i.video.position).PlaysWithin ↔ i.PlaysWithin) := by
  have hdirection : i.properties.direction ≠ directionLeft := fun h =>
    directionRight_ne_left (hright.direction.symm.trans h)
  have hspeed : -1 * i.video.speed < 0 := by linarith [hright.speed]
  rw [handleInverseLoopMode, if_neg hdirection, if_pos hright.direction,
    turnLeft_of_pos hright.speed]
  exact ⟨⟨rfl, hspeed⟩, fun h => ⟨h.start_le, h.le_end⟩, fun h => ⟨h.start_le, h.le_end⟩⟩

/-- The normal loop mode, to the left: the instance is put at the start, and drifts from there. -/
theorem handleNormalLoopMode_left (hmode : i.properties.loopMode = loopModeNormal)
    (hleft : i.PlaysLeft)
    (hwindow : i.properties.startPercentage ≤ i.properties.endPercentage) :
    (i.handleNormalLoopMode i.video.position).Drifts := by
  have hdirection : i.properties.direction ≠ directionRight := fun h =>
    directionRight_ne_left (h.symm.trans hleft.direction)
  rw [handleNormalLoopMode, if_neg hdirection, if_pos hleft.direction]
  exact ⟨hmode, rfl, hleft.speed, rfl, hwindow⟩

theorem Drifts.playsWithin (hi : i.Drifts) : i.PlaysWithin :=
  ⟨hi.position.ge, hi.position ▸ hi.start_le⟩

/-- A drifting instance leaves the window with the next move. -/
theorem Drifts.playOn (hi : i.Drifts) :
    ((i.playOn amount).PlaysWithin ↔ amount = 0) ∧
      ((i.playOn amount).PlaysWithin → (i.playOn amount).Drifts) := by
  have hmove : i.playOn amount = i.advance amount := by
    have hend := hi.playsWithin.advance_le_end hi.speed amount
    rw [playOn_of_normal hi.loopMode, handleNormalLoopMode, properties_advance,
      if_pos hi.direction, if_neg hend.not_gt]
  have hposition : (i.advance amount).video.position = i.properties.startPercentage - amount := by
    rw [position_advance_of_neg hi.speed, hi.position]
  have hzero : (i.advance amount).PlaysWithin → (amount : ℚ) = 0 := by
    intro h
    have hstart : i.properties.startPercentage ≤ (i.advance amount).video.position := h.start_le
    have hnonneg : (0 : ℚ) ≤ amount := amount.coe_nonneg
    linarith
  have hdrifts : (amount : ℚ) = 0 → (i.advance amount).Drifts := fun h =>
    ⟨hi.loopMode, hi.direction, by simpa using hi.speed, by simp [hposition, h], hi.start_le⟩
  rw [hmove]
  refine ⟨⟨fun h => ?_, fun h => ?_⟩, fun h => hdrifts (hzero h)⟩
  · exact_mod_cast hzero h
  · exact (hdrifts (by exact_mod_cast h)).playsWithin

/-! ### Runs -/

/-- Moves that keep an invariant under which the position lies in the window. -/
theorem along_of_invariant {I : VisualInstance → Prop} (hI : ∀ i, I i → i.PlaysWithin)
    (hstep : ∀ i amount, I i → I (i.playOn amount)) (amounts : List ℚ≥0) (hi : I i) :
    Along frame (fun _ _ t => t.PlaysWithin) amounts i := by
  refine (along_iff_forall (I := I) (C := fun _ => True) ?_ amounts hi).mpr fun _ _ => trivial
  intro amount j hj
  exact ⟨j.playOn amount, rfl, iff_of_true (hI _ (hstep j amount hj)) trivial,
    fun _ => hstep j _ hj⟩

/-- A drifting instance stays in the window exactly if it is not moved any more. -/
theorem along_drifting_iff (hi : i.Drifts) (amounts : List ℚ≥0) :
    Along frame (fun _ _ t => t.PlaysWithin) amounts i ↔ ∀ amount ∈ amounts, amount = 0 :=
  along_iff_forall (I := Drifts)
    (fun amount j hj => ⟨j.playOn amount, rfl, hj.playOn.1, hj.playOn.2⟩) amounts hi

/-- The normal loop mode. -/
theorem along_normal_iff (hmode : i.properties.loopMode = loopModeNormal)
    (hplays : i.PlaysRight ∨ i.PlaysLeft) (hi : i.PlaysWithin) (amounts : List ℚ≥0) :
    Along frame (fun _ _ t => t.PlaysWithin) amounts i ↔
      (i.PlaysLeft → ∀ amount ∈ amounts.tail, amount = 0) := by
  rcases hplays with hright | hleft
  · refine iff_of_true ?_ fun h => absurd h hright.not_playsLeft
    refine along_of_invariant (I := fun j => j.properties.loopMode = loopModeNormal ∧
      j.PlaysRight ∧ j.PlaysWithin) (fun j hj => hj.2.2) ?_ amounts ⟨hmode, hright, hi⟩
    rintro j amount ⟨hmode, hright, hj⟩
    refine ⟨by simpa using hmode, ?_⟩
    rw [playOn_of_normal hmode]
    exact handleNormalLoopMode_right (hright.advance amount) (hj.start_le_advance hright amount)
      hj.window
  · cases amounts with
    | nil => simp
    | cons amount amounts =>
      have hdrifts : (i.playOn amount).Drifts := by
        rw [playOn_of_normal hmode]
        exact handleNormalLoopMode_left hmode (hleft.advance amount) hi.window
      rw [along_cons (t := i.playOn amount) rfl, along_drifting_iff hdrifts]
      exact ⟨fun h _ => h.2, fun h => ⟨hdrifts.playsWithin, h hleft⟩⟩

/-- The ping-pong loop mode. -/
theorem along_pingPong (hmode : i.properties.loopMode = loopModePingPong)
    (hplays : i.PlaysRight ∨ i.PlaysLeft) (hi : i.PlaysWithin) (amounts : List ℚ≥0) :
    Along frame (fun _ _ t => t.PlaysWithin) amounts i := by
  refine along_of_invariant (I := fun j => j.properties.loopMode = loopModePingPong ∧
    (j.PlaysRight ∨ j.PlaysLeft) ∧ j.PlaysWithin) (fun j hj => hj.2.2) ?_ amounts
    ⟨hmode, hplays, hi⟩
  rintro j amount ⟨hmode, hplays, hj⟩
  refine ⟨by simpa using hmode, ?_⟩
  rw [playOn_of_pingPong hmode]
  rcases hplays with hright | hleft
  · exact handlePingPongLoopMode_right (hright.advance amount)
      (hj.start_le_advance hright amount) hj.window
  · exact handlePingPongLoopMode_left (hleft.advance amount)
      (hj.advance_le_end hleft.speed amount) hj.window

/-- The inverse loop mode, to the left. -/
theorem along_inverse (hmode : i.properties.loopMode = loopModeInverse) (hleft : i.PlaysLeft)
    (hi : i.PlaysWithin) (amounts : List ℚ≥0) :
    Along frame (fun _ _ t => t.PlaysWithin) amounts i := by
  refine along_of_invariant (I := fun j => j.properties.loopMode = loopModeInverse ∧
    j.PlaysLeft ∧ j.PlaysWithin) (fun j hj => hj.2.2) ?_ amounts ⟨hmode, hleft, hi⟩
  rintro j amount ⟨hmode, hleft, hj⟩
  refine ⟨by simpa using hmode, ?_⟩
  rw [playOn_of_inverse hmode]
  exact handleInverseLoopMode_left (hleft.advance amount) (hj.advance_le_end hleft.speed amount)
    hj.window

/-- The inverse loop mode. -/
theorem along_inverse_iff (hmode : i.properties.loopMode = loopModeInverse)
    (hplays : i.PlaysRight ∨ i.PlaysLeft) (hi : i.PlaysWithin) (amounts : List ℚ≥0) :
    Along frame (fun _ _ t => t.PlaysWithin) amounts i ↔ (i.PlaysRight →
      ∀ amount ∈ amounts.head?, i.video.position + amount ≤ i.properties.endPercentage) := by
  rcases hplays with hright | hleft
  · cases amounts with
    | nil => simp
    | cons amount amounts =>
      obtain ⟨hleft, hwithin⟩ := handleInverseLoopMode_right (hright.advance amount)
      rw [← playOn_of_inverse hmode] at hleft hwithin
      have hend : (i.playOn amount).PlaysWithin ↔
          i.video.position + amount ≤ i.properties.endPercentage := by
        rw [hwithin, ← position_advance_of_pos hright.speed]
        exact ⟨fun h => h.le_end, fun h => ⟨hi.start_le_advance hright amount, h⟩⟩
      rw [along_cons (t := i.playOn amount) rfl, hend]
      simp only [List.head?_cons, Option.mem_some_iff, forall_eq', hright, true_imp_iff,
        and_iff_left_iff_imp]
      exact fun h => along_inverse (by simpa using hmode) hleft (hend.mpr h) amounts
  · exact iff_of_true (along_inverse hmode hleft hi amounts) fun h => absurd hleft h.not_playsLeft

end VisualInstance

open VisualInstance in
/-- From a position in the window, in each loop mode and direction, the position stays in the window
exactly if the moves do not lead out of it where the handlers do not look. -/
theorem playhead_in_window_iff {i : VisualInstance}
    (hmode : i.properties.loopMode ∈ InstanceMode.loopMode.declared)
    (hplays : i.PlaysRight ∨ i.PlaysLeft) (hi : i.PlaysWithin) (amounts : List ℚ≥0) :
    Along frame (fun _ _ t => t.PlaysWithin) amounts i ↔ i.KeepsWithin amounts := by
  have hne : loopModeNormal ≠ loopModeInverse := by decide
  rw [KeepsWithin]
  simp only [InstanceMode.declared, List.mem_cons, List.not_mem_nil, or_false] at hmode
  rcases hmode with hmode | hmode | hmode
  · rw [along_normal_iff hmode hplays hi]
    exact ⟨fun h => ⟨fun _ => h, fun h' => absurd (hmode.symm.trans h') hne⟩, fun h => h.1 hmode⟩
  · refine iff_of_true (along_pingPong hmode hplays hi amounts) ⟨fun h => ?_, fun h => ?_⟩
    · exact absurd (hmode.symm.trans h) (by decide)
    · exact absurd (hmode.symm.trans h) (by decide)
  · rw [along_inverse_iff hmode hplays hi]
    exact ⟨fun h => ⟨fun h' => absurd (h'.symm.trans hmode) hne, fun _ => h⟩, fun h => h.2 hmode⟩

/-- An instance that plays the second quarter of its video to the right, from its start. -/
def secondQuarter : VisualInstance where
  properties := { VisualInstancesProperties.new (Host.plain.uninitialised 0) 640 480 with
    direction := VisualInstance.directionRight
    startPercentage := 1 / 4
    endPercentage := 1 / 2 }
  visual := 0
  video := ⟨true, true, 1, 1 / 4⟩
  videoX := 0
  videoY := 0
  videoWidth := 640
  videoHeight := 480

/-- In the inverse loop mode, the first move goes to the right, and the others to the left. -/
theorem playhead_in_window_inverse :
    Along VisualInstance.frame (fun _ _ t => t.PlaysWithin) [1 / 8, 1 / 16, 3]
      { secondQuarter with properties :=
        { secondQuarter.properties with loopMode := VisualInstance.loopModeInverse } } := by
  refine (playhead_in_window_iff (by decide) (.inl ⟨rfl, by decide +kernel⟩)
    ⟨by decide +kernel, by decide +kernel⟩ _).mpr ⟨fun h => ?_, fun _ _ amount hamount => ?_⟩
  · exact absurd h (by decide)
  · obtain rfl := Option.some.inj hamount
    decide +kernel

/-- In the normal loop mode and to the left, the second move leads out of the window. -/
theorem playhead_drifts :
    ∃ i : VisualInstance, i.properties.loopMode = VisualInstance.loopModeNormal ∧ i.PlaysLeft ∧
      i.PlaysWithin ∧ i.properties.WindowOpen ∧
      ¬Along VisualInstance.frame (fun _ _ t => t.PlaysWithin) [1 / 8, 1 / 8] i := by
  refine ⟨(secondQuarter.setSpeed (-1)).setDirection VisualInstance.directionLeft, rfl,
    ⟨rfl, by decide +kernel⟩, ⟨by decide +kernel, by decide +kernel⟩,
    ⟨by decide +kernel, by decide +kernel, by decide +kernel⟩, ?_⟩
  rintro ⟨t, ht, -, u, hu, hwithin, -⟩
  obtain rfl := Option.some.inj ht
  obtain rfl := Option.some.inj hu
  exact absurd hwithin.start_le (by decide +kernel)

end ArbutusEngine
