import ArbutusEngine.Model.Render

/-!
# Closing idle videos

The thread of `FileManager` calls `Engine::cleanup` once a minute. It goes through the instances of
the current scene and closes the video of those that do not play, and that have neither been opened
nor been played for more than a minute. Timestamps are differences of unsigned numbers of 64 bits,
so a stamp that lies in the future counts as a very old one.

## Main definitions

* `VisualInstance.checkCloseCondition`, `VisualInstance.unloadVideo`, `VisualInstance.unload`.
* `VisualInstances.cleanup`, `Scene.cleanup`, `Set.cleanup`, `Engine.cleanup`, `FileManager.turn`.
-/

open Exec

namespace ArbutusEngine

namespace VisualInstance

/-- `VISUAL_CLOSE_MINUTES_SINCE_OPEN`. -/
def closeMinutesSinceOpen : UInt64 := 1

/-- `VISUAL_CLOSE_MINUTES_SINCE_LAST_PLAY`. -/
def closeMinutesSinceLastPlay : UInt64 := 1

/-- `VisualInstance::checkCloseCondition`. -/
def checkCloseCondition (h : Host) (i : VisualInstance) : Bool :=
  if i.video.isPlaying then false
  else
    let currentTimestamp := h.ofGetElapsedTimeMillis
    currentTimestamp - UInt64.ofNat i.properties.openedTimestamp >
        closeMinutesSinceOpen * 60000 &&
      currentTimestamp - UInt64.ofNat i.properties.lastPlayedTimestamp >
        closeMinutesSinceLastPlay * 60000

/-- `VisualInstance::unloadVideo`. -/
def unloadVideo (a : Addr) : Prog Bool := do
  update a (setIsPlaying false)
  let i ← read a
  if i.video.isLoaded then do
    -- `video.close()`
    update a fun i => { i with video := .new }
    return true
  else return false

/-- `VisualInstance::unload`. -/
def unload (a : Addr) : Prog Unit := do
  let i ← read a
  let visual ← Visual.read i.visual
  match visual.source with
  | .video _ => do let _ ← unloadVideo a
  | _ => pure ()

end VisualInstance

/-- `VisualInstances::cleanup`. -/
def VisualInstances.cleanup (h : Host) (list : List Addr) : Prog Unit :=
  if count list = 0 then pure ()
  else forEach list fun a => do
    let i ← VisualInstance.read a
    if i.checkCloseCondition h then VisualInstance.unload a

/-- `Scene::cleanup`, for the scene at the address `a`. -/
def Scene.cleanup (h : Host) (a : Addr) : Prog Unit := do
  let scene ← Scene.read a
  VisualInstances.cleanup h scene.visualInstances

/-- `Set::cleanup`. -/
def Set.cleanup (h : Host) : Prog Unit := do
  let currentScene ← gets EngineState.currentScene
  match currentScene with
  | none => pure ()
  | some a => Scene.cleanup h a

/-- `Engine::cleanup`. -/
def Engine.cleanup (h : Host) : Prog Unit := Set.cleanup h

/-- One turn of `FileManager::threadedFunction`, between two sleeps; `enginePtr` tells whether the
pointer to the engine has been set. -/
def FileManager.turn (h : Host) (enginePtr : Bool) : Prog Unit :=
  if enginePtr then Engine.cleanup h else pure ()

end ArbutusEngine
