import ArbutusEngine.Model.Render
import Mathlib.Data.NNRat.Defs

/-!
# The playhead

`VisualInstance::calculateCurrentPlayeadPosition` is given the position of the player and brings it
back into the part of the video that the instance plays. Each of the three loop modes has a handler
of its own, which distinguishes the two directions.

Between two calls the player moves on by itself, in the direction of its speed.

## Main definitions

* `VisualInstance.handleNormalLoopMode`, `VisualInstance.handlePingPongLoopMode`,
  `VisualInstance.handleInverseLoopMode`, `VisualInstance.calculateCurrentPlayeadPosition`.
* `VideoPlayer.advance`, `VisualInstance.frame`: the player moves on, and its position is looked at.
-/

open Exec

namespace ArbutusEngine

/-- The player moves on by an amount, in the direction of its speed. -/
def VideoPlayer.advance (amount : ℚ≥0) (video : VideoPlayer) : VideoPlayer :=
  if video.speed < 0 then { video with position := video.position - amount }
  else if 0 < video.speed then { video with position := video.position + amount }
  else video

namespace VisualInstance

/-- `video.setPosition(position)`. -/
def setPosition (position : ℚ) (i : VisualInstance) : VisualInstance :=
  { i with video := i.video.setPosition position }

/-- `if (video.getSpeed() > 0) video.setSpeed(-1.0 * video.getSpeed())`. -/
def turnLeft (i : VisualInstance) : VisualInstance :=
  if i.video.speed > 0 then i.setSpeed (-1 * i.video.speed) else i

/-- `if (video.getSpeed() < 0) video.setSpeed(-1.0 * video.getSpeed())`. -/
def turnRight (i : VisualInstance) : VisualInstance :=
  if i.video.speed < 0 then i.setSpeed (-1 * i.video.speed) else i

/-- `VisualInstance::handleNormalLoopMode`. -/
def handleNormalLoopMode (position : ℚ) (i : VisualInstance) : VisualInstance :=
  if i.properties.direction = directionRight then
    if position > i.properties.endPercentage then i.setPosition i.properties.startPercentage else i
  else if i.properties.direction = directionLeft then
    (i.setDirection directionRight).setPosition i.properties.startPercentage
  else i

/-- `VisualInstance::handlePingPongLoopMode`. -/
def handlePingPongLoopMode (position : ℚ) (i : VisualInstance) : VisualInstance :=
  if i.properties.direction = directionRight then
    if position > i.properties.endPercentage then
      ((i.setDirection directionLeft).turnLeft).setPosition i.properties.endPercentage
    else i
  else if i.properties.direction = directionLeft then
    if position < i.properties.startPercentage then
      ((i.setDirection directionRight).turnRight).setPosition i.properties.startPercentage
    else i
  else i

/-- `VisualInstance::handleInverseLoopMode`. To the right, the position is not looked at. -/
def handleInverseLoopMode (position : ℚ) (i : VisualInstance) : VisualInstance :=
  if i.properties.direction = directionLeft then
    let i' :=
      if position < i.properties.startPercentage then i.setPosition i.properties.endPercentage
      else i
    let position :=
      if position < i.properties.startPercentage then i.properties.endPercentage else position
    if position > i.properties.endPercentage then i'.setPosition i.properties.endPercentage else i'
  else if i.properties.direction = directionRight then (i.turnLeft).setDirection directionLeft
  else i

/-- `VisualInstance::calculateCurrentPlayeadPosition`. -/
def calculateCurrentPlayeadPosition (position : ℚ) (i : VisualInstance) : VisualInstance :=
  if i.properties.loopMode = loopModeNormal then i.handleNormalLoopMode position
  else if i.properties.loopMode = loopModePingPong then i.handlePingPongLoopMode position
  else if i.properties.loopMode = loopModeInverse then i.handleInverseLoopMode position
  else i

/-- The player of the instance moves on by an amount. -/
def advance (amount : ℚ≥0) (i : VisualInstance) : VisualInstance :=
  { i with video := i.video.advance amount }

/-- The player moves on by an amount, and its position is looked at. -/
def playOn (amount : ℚ≥0) (i : VisualInstance) : VisualInstance :=
  (i.advance amount).calculateCurrentPlayeadPosition (i.advance amount).video.position

/-- A step of the player of one instance. -/
def frame (amount : ℚ≥0) : Exec VisualInstance Thrown Undefined Unit := modify (playOn amount)

end VisualInstance

end ArbutusEngine
