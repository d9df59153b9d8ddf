import ArbutusEngine.Model.Actions
import ArbutusEngine.Model.Cleanup
import ArbutusEngine.Model.Commands
import ArbutusEngine.Model.Controllers
import ArbutusEngine.Model.Devices

/-!
# Sessions

A session is what happens to the engine from its construction on: the calls of the application, the
requests of clients, the keys, the beats of the metronome, the frames, and the turns of the thread
that closes idle videos. They come in any order. Each is taken as one step; what one thread sees of
another in the middle of a call is left out. `Set::removeCurrentScene` is left out too, which deletes
instances and keeps their addresses.

## Main definitions

* `Engine.setActiveVisualIntances`: the trigger of a column.
* `Event`, `Event.run`, `EngineState.InSession`.
-/

open Exec

namespace ArbutusEngine

/-- `Engine::setActiveVisualIntances`. -/
def Engine.setActiveVisualIntances (h : Host) (columnN : UInt32) : Prog Unit := do
  let layers ← gets EngineState.layersList
  forEach (List.range layers.length) fun layer => do
    let _ ← Engine.setActiveVisualInstance h (UInt32.ofNat layer) columnN

/-- What can happen to the engine. -/
inductive Event where
  | command (c : Command)
  | gotoNextScene
  | gotoPreviousScene
  | addVisualVideoToListFromFile (filePath : String)
  | addVisualCameraToList (listDevices : List String) (id rate w h : UInt32)
  | addVisualSyphonToList (serverName appName : String)
  | addVisualToSceneListInCurrentLayer (visual layer column : UInt32)
  | setActiveVisualInstance (layerN column : UInt32)
  | setActiveVisualIntances (columnN : UInt32)
  | playFirstVisualInstanceOnActiveLayer
  | playLastVisualInstanceOnActiveLayer
  | playPreviousVisualInstanceOnActiveLayer
  | playNextVisualInstanceOnActiveLayer
  | addLayer
  | removeLayer (layerN : UInt32)
  | setLayerCount (val : UInt32)
  | activateLayer (activeLayer : UInt32)
  | activateNextLayer
  | activatePreviousLayer
  | activateLastLayer
  | setMixerResolution (width height : UInt32)
  | handleAction (parameter : List UInt8) (data : Json)
  | keyPressed (key : Int32)
  | beat
  | render
  | cleanup

/-- The program of an event. The controllers are those the engine makes, without callbacks. -/
def Event.run (h : Host) : Event → Prog Unit
  | command c => c.run h
  | gotoNextScene => Set.gotoNextScene h
  | gotoPreviousScene => Set.gotoPreviousScene h
  | addVisualVideoToListFromFile filePath => Set.addVisualVideoToListFromFile h filePath
  | addVisualCameraToList listDevices id rate w h' =>
    Set.addVisualCameraToList listDevices id rate w h'
  | addVisualSyphonToList serverName appName => Set.addVisualSyphonToList serverName appName
  | addVisualToSceneListInCurrentLayer visual layer column =>
    Engine.addVisualToSceneListInCurrentLayer h visual layer column
  | setActiveVisualInstance layerN column => do
    let _ ← Engine.setActiveVisualInstance h layerN column
  | setActiveVisualIntances columnN => Engine.setActiveVisualIntances h columnN
  | playFirstVisualInstanceOnActiveLayer => Engine.playFirstVisualInstanceOnActiveLayer h
  | playLastVisualInstanceOnActiveLayer => Engine.playLastVisualInstanceOnActiveLayer h
  | playPreviousVisualInstanceOnActiveLayer => Engine.playPreviousVisualInstanceOnActiveLayer h
  | playNextVisualInstanceOnActiveLayer => Engine.playNextVisualInstanceOnActiveLayer h
  | addLayer => do let _ ← Layers.add h true
  | removeLayer layerN => Layers.remove h layerN
  | setLayerCount val => Layers.setCount h val
  | activateLayer activeLayer => Layers.setActive h activeLayer
  | activateNextLayer => Layers.activateNext h
  | activatePreviousLayer => Layers.activatePrevious h
  | activateLastLayer => Layers.activateLast h
  | setMixerResolution width height => Engine.setMixerResolution h width height
  | handleAction parameter data => Engine.handleAction h parameter data
  | keyPressed key => Engine.keyPressed (κ := Unit) h true (fun _ _ => pure ())
      (ControllerGroup.initDefaultControllers 0 0) key
  | beat => Engine.beat h
  | render => Engine.render h
  | cleanup => FileManager.turn h true

/-- An event with its surroundings. -/
abbrev Happening : Type := Host × Event

/-- The program of an event in its surroundings. -/
def Happening.run (e : Happening) : Prog Unit := e.2.run e.1

/-- The state is reached in some session. -/
def EngineState.InSession (s : EngineState) : Prop :=
  Reaches Happening.run (fun _ _ => True) EngineState.init s

end ArbutusEngine
