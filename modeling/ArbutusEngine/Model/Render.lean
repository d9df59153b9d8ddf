import ArbutusEngine.Model.Engine

/-!
# Beats and rendering

The metronome calls `Engine::beat`, the application `Engine::render` once a frame. A beat counts up
to `32`, and every fourth one raises two flags of the engine properties; `render` looks at one of
them to activate what the layers have scheduled, and then draws the active instance of every layer.

Drawing an instance loads and plays its video if that is not the case yet, follows the changes of
its direction and of its loop mode, and computes where it is drawn. What is drawn, the shaders, the
loop state of the player and the screens published are left out, and so are messages over OSC, which
the source reads and drops, and the callback of the application.

## Main definitions

* `EngineProperties.beat`, `Engine.beat`.
* `VisualInstance.autoLoadAndAutoPlayVideo`, `VisualInstance.updateVideo`, `VisualInstance.draw`,
  `Layer.render`, `Engine.render`.
-/

open Exec

namespace ArbutusEngine

/-! ### Beats -/

/-- Whether the engine is at a beat to snap to: `beatsCounter % beatsToSnap == 0.0`. -/
def EngineProperties.isAtSnap (p : EngineProperties) : Bool := p.beatsCounter % p.beatsToSnap = 0

/-- `EngineProperties::beat`. -/
def EngineProperties.beat (p : EngineProperties) : EngineProperties :=
  let counter := p.beatsCounter + 1
  let p := { p with
    triggeringBeat := false
    beatsCounter := if counter > 32 then 0 else counter }
  if p.isAtSnap then { p with triggeringBeat := true, beatSnapInProgress := true } else p

/-- `Engine::beat`. -/
def Engine.beat (h : Host) : Prog Unit := EngineProperties.update h EngineProperties.beat

/-! ### Drawing an instance -/

namespace VisualInstance

/-- `LoopMode_Normal`. -/
def loopModeNormal : UInt32 := 1

/-- `LoopMode_PingPong`. -/
def loopModePingPong : UInt32 := 2

/-- `LoopMode_Inverse`. -/
def loopModeInverse : UInt32 := 3

/-- `Direction_Left`. -/
def directionLeft : UInt32 := 1

/-- `Direction_Right`. -/
def directionRight : UInt32 := 2

def setDirection (direction : UInt32) (i : VisualInstance) : VisualInstance :=
  { i with properties := { i.properties with direction := direction } }

def setSpeed (speed : ℚ) (i : VisualInstance) : VisualInstance :=
  { i with video := i.video.setSpeed speed }

/-- `abs(video.getSpeed())`. -/
def absSpeed (i : VisualInstance) : ℚ := if i.video.speed < 0 then -i.video.speed else i.video.speed

/-- `VisualInstance::autoLoadAndAutoPlayVideo`. -/
def autoLoadAndAutoPlayVideo (h : Host) (a : Addr) : Prog Unit := do
  let i ← read a
  let visual ← Visual.read i.visual
  match visual.source with
  | .video _ => do
    if i.video.isLoaded then pure () else do let _ ← loadVideo h a
    let i ← read a
    if i.video.isPlaying && i.properties.isPlaying then pure () else play h a false
  | _ => pure ()

/-- `VisualInstance::handleDirectionChange`. -/
def handleDirectionChange (i : VisualInstance) : VisualInstance :=
  if i.properties.direction = directionLeft ∧ i.video.speed > 0 then i
  else if i.properties.direction = directionRight ∧ i.video.speed < 0 then i
  else i.setSpeed (i.video.speed * -1)

/-- `VisualInstance::setLoopMode`. Where the loop mode is the second one and the speed is positive,
the source compares the direction and drops the result. -/
def setLoopMode (loopMode : UInt32) (i : VisualInstance) : VisualInstance :=
  if loopMode = loopModeNormal then (i.setSpeed i.absSpeed).setDirection directionRight
  else if loopMode = loopModePingPong then
    if i.video.speed > 0 then i else i.setDirection directionLeft
  else if loopMode = loopModeInverse then
    (i.setSpeed (-1 * i.absSpeed)).setDirection directionLeft
  else i

/-- `VisualInstance::handleLoopModeChange`. The previous loop mode is a local, and always the normal
one. -/
def handleLoopModeChange (i : VisualInstance) : VisualInstance :=
  if i.properties.loopMode = loopModeNormal then i else i.setLoopMode i.properties.loopMode

/-- `VisualInstance::updateVideo`, without the frame that the player fetches. -/
def updateVideo (a : Addr) : Prog Unit := do
  let i ← read a
  let visual ← Visual.read i.visual
  match visual.source with
  | .video _ =>
    if i.video.isLoaded && i.video.isPlaying then do
      update a handleDirectionChange
      update a handleLoopModeChange
  | _ => pure ()

/-- `VisualInstance::calculateDisplayRect`. -/
def calculateDisplayRect (width height : UInt32) (i : VisualInstance) : VisualInstance :=
  let p := i.properties
  let position := fun (size : UInt32) (length center : ℚ) =>
    ((floatToInt ((floatToInt ((size.toNat : ℚ) / 2 - length / 2)).toInt +
      center * ((size.toNat : ℚ) / 2))).toInt)
  { i with
    videoWidth := (floatToInt (p.width.toNat * p.zoomX)).toInt
    videoHeight := (floatToInt (p.height.toNat * p.zoomY)).toInt
    videoX := position width (p.width.toNat * p.zoomX) p.centerX
    videoY := position height (p.height.toNat * p.zoomY) p.centerY }

/-- `VisualInstance::draw`. -/
def draw (h : Host) (a : Addr) (width height : UInt32) : Prog Unit := do
  autoLoadAndAutoPlayVideo h a
  updateVideo a
  update a (calculateDisplayRect width height)

end VisualInstance

/-! ### Rendering -/

/-- `Layer::render`. -/
def Layer.render (h : Host) (n : ℕ) : Prog Unit := do
  Layer.initBuffer n
  let layer ← Layer.read n
  match layer.activeInstance, layer.buffer with
  | none, _ => pure ()
  | some _, none => pure ()
  | some a, some (width, height) => VisualInstance.draw h a width height

/-- What `Engine::render` does at a snap: the flag is read after it has been reset. -/
def Engine.renderSnap (h : Host) : Prog Unit := do
  let p ← EngineProperties.getInstance h
  if p.beatSnapInProgress then do
    Engine.triggerSchedulledVisualsOnAllLayers h
    EngineProperties.update h fun p => { p with beatSnapInProgress := false }

/-- `Engine::render`. Drawing the layers asks for the size of the mixer. -/
def Engine.render (h : Host) : Prog Unit := do
  let layers ← gets EngineState.layersList
  let buffer ← gets EngineState.buffer
  if layers = [] ∨ buffer = none then pure ()
  else do
    Engine.renderSnap h
    forEach (List.range layers.length) (Layer.render h)
    forEach layers fun _ => do
      let _ ← EngineProperties.getInstance h
      let _ ← EngineProperties.getInstance h

end ArbutusEngine
