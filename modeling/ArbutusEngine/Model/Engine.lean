import ArbutusEngine.Model.Layers

/-!
# The set and the engine

`Set` opens, saves and closes sets and knows the current scene; `Engine` is the facade that the
applications call. The path of the set is kept twice, as `Set::filePath` and in the engine
properties, and so is the fact that a set is open, as `Set::loaded` and `Engine::setOpened`.

`Engine::setState` replaces the visuals, the layers and the scenes, in this order, each only when
the document has an array for it.

## Main definitions

* `JsonLoad.load`, `JsonSave.save`, `Set.newSet`, `Set.openSet`, `Set.saveSetAs`, `Set.closeSet`,
  `Set.setCurrentScene`, `Set.gotoNextScene`, `Set.gotoPreviousScene`, `Set.removeCurrentScene`.
* `Engine.getState`, `Engine.setState`, `Engine.getFullState`, `Engine.newSet`, `Engine.openSet`,
  `Engine.closeSet`, `Engine.saveSet`, `Engine.saveSetAs`.
* `Engine.play`, `Engine.stop`, `Engine.triggerSchedulledVisualsOnAllLayers`,
  `Engine.addVisualToScene`, `Engine.addVisualToSceneListInCurrentLayer`,
  `Engine.removeVisualFromScene`, `Engine.addScene`.
* `Engine.playFirstVisualInstanceOnActiveLayer`, `Engine.playLastVisualInstanceOnActiveLayer`,
  `Engine.playPreviousVisualInstanceOnActiveLayer`, `Engine.playNextVisualInstanceOnActiveLayer`.
-/

open Exec

namespace ArbutusEngine

/-! ### Files -/

/-- `JsonLoad::load`. -/
def JsonLoad.load (h : Host) (path : String) : Prog Json :=
  if h.doesFileExist path true then
    ofExcept (fun what => .exception ((textOf what).getD "")) (h.parse (h.getText path))
  else throw (.literal "File does not exist")

/-- `JsonSave::validateState`. -/
def JsonSave.validateState (state : Json) : Prog Unit :=
  if state.isEmpty then throw (.literal "State is empty")
  else if state.isObject then pure ()
  else throw (.literal "State is not an object")

/-- `JsonSave::save`. -/
def JsonSave.save (h : Host) (path : String) (state : Json) : Prog Unit := do
  JsonSave.validateState state
  if h.doesDirectoryExist (h.getEnclosingDirectory path) then
    let text := h.dump 4 state
    if h.ofBufferToFile path text then
      modify fun s => { s with written := s.written ++ [(path, text)] }
      if h.doesWrittenFileExist path then pure ()
      else throw (.literal "File not saved at the specified path")
    else throw (.literal "Error saving to file")
  else throw (.literal "Path to file doesn't exist")

/-! ### The state of the engine as a document -/

namespace Engine

/-- `Engine::getState`. -/
def getState : Prog Json := do
  let visuals ← gets Visuals.getState
  let layers ← gets Layers.getState
  let scenes ← Set.getScenesState
  return .obj [("visuals", visuals), ("layers", layers), ("scenes", scenes)]

/-- `Engine::setState`. -/
def setState (h : Host) (state : Json) : Prog Unit := do
  let visuals ← Prog.json (state.index "visuals")
  if visuals.isArray then Visuals.setState h visuals
  let layers ← Prog.json (state.index "layers")
  if layers.isArray then Layers.setState h layers
  let scenes ← Prog.json (state.index "scenes")
  if scenes.isArray then Scenes.setState h scenes

end Engine

/-! ### The set -/

/-- `Set::setCurrentScene`. The bound is unsigned: on an empty list it wraps around, and the end of
the list is dereferenced. -/
def Set.setCurrentScene (h : Host) (sceneNumber : UInt32) : Prog Unit := do
  let scenes ← gets EngineState.scenesList
  match scenes, scenes[sceneNumber.toNat]? with
  | [], _ => undefined .pastTheEnd
  | _, none => pure ()
  | _, some scene => do
    modify fun s => { s with
      currentSceneNumber := sceneNumber
      currentScene := some scene.addr }
    VisualInstances.loadAll h scene.visualInstances

/-- `Set::newSet`. -/
def Set.newSet (h : Host) (width height nLayers : UInt32) : Prog Unit := do
  EngineProperties.update h fun p => { p with mixerWidth := width }
  EngineProperties.update h fun p => { p with mixerHeight := height }
  modify fun s => { s with nLayers := nLayers }
  intLoop 0 nLayers.toNat (do let _ ← Layers.add h true)
  let _ ← Scenes.newScene "First Scene"
  modify fun s => { s with currentSceneNumber := 1 }
  Set.setCurrentScene h 0
  modify fun s => { s with loaded := true }

/-- `Set::openSet`. -/
def Set.openSet (h : Host) (filePath : String) : Prog Bool := do
  let state ← JsonLoad.load h filePath
  Engine.setState h state
  return true

/-- `Set::saveSetAs`. The path is stored before anything that can fail. -/
def Set.saveSetAs (h : Host) (filePath : String) : Prog Unit := do
  modify fun s => { s with filePath := filePath }
  let state ← Engine.getState
  JsonSave.save h filePath state

/-- `Set::saveSet`. -/
def Set.saveSet (h : Host) : Prog Unit := do
  let filePath ← gets EngineState.filePath
  Set.saveSetAs h filePath

/-- `Set::closeSet`. The current scene stays what it was. -/
def Set.closeSet (h : Host) : Prog Unit := do
  Visuals.empty h
  Scenes.empty
  modify fun s => { s with loaded := false }

/-- `Set::getVisualInstanceInCorrentSet`. -/
def Set.getVisualInstanceInCorrentSet (layer column : UInt32) : Prog (Option Addr) := do
  let currentScene ← gets EngineState.currentScene
  match currentScene with
  | none => return none
  | some a => do
    let scene ← Scene.read a
    VisualInstances.get layer column scene.visualInstances

/-- `Set::isVisualInstantInColumn`: the column is passed where `VisualInstances::inColumn` expects
the layer. -/
def Set.isVisualInstantInColumn (layerN column : UInt32) : Prog Bool := do
  let currentScene ← gets EngineState.currentScene
  match currentScene with
  | none => return false
  | some a => do
    let scene ← Scene.read a
    VisualInstances.inColumn column layerN scene.visualInstances

/-- `Set::gotoPreviousScene`. -/
def Set.gotoPreviousScene (h : Host) : Prog Unit := do
  let n ← gets EngineState.currentSceneNumber
  if n > 0 then Set.setCurrentScene h (n - 1)

/-- `Set::gotoNextScene`. Without scenes the bound wraps around to the largest `size_t`. -/
def Set.gotoNextScene (h : Host) : Prog Unit := do
  let n ← gets EngineState.currentSceneNumber
  let scenes ← gets EngineState.scenesList
  if scenes = [] ∨ n.toNat < scenes.length - 1 then Set.setCurrentScene h (n + 1)

/-- `Set::removeCurrentScene`. The instances of the scene are deleted; the scene is removed from a
copy of the list, so it stays where it is. -/
def Set.removeCurrentScene (h : Host) : Prog Unit := do
  let n ← gets EngineState.currentSceneNumber
  let nextScene := if n > 0 then n - 1 else n
  let currentScene ← gets EngineState.currentScene
  let a ← ofOption .nullPointer currentScene
  let scene ← Scene.read a
  VisualInstances.empty scene.visualInstances
  Set.setCurrentScene h nextScene

/-- `Set::addScene`, given the name of the new scene. The other two arguments are not used. -/
def Set.addScene (sceneName : String) : Prog Addr := Scenes.newScene sceneName

/-- `Set::newScene`. -/
def Set.newScene : Prog Addr := Scenes.newScene "new Scene"

namespace Engine

/-! ### Opening and closing sets -/

/-- `Engine::initBuffer`. -/
def initBuffer (h : Host) : Prog Unit := do
  let buffer ← gets EngineState.buffer
  match buffer with
  | some _ => pure ()
  | none => do
    let width ← EngineProperties.getInstance h
    let height ← EngineProperties.getInstance h
    modify fun s => { s with buffer := some (width.mixerWidth, height.mixerHeight) }

/-- `Engine::destroyBuffer`. -/
def destroyBuffer : Prog Unit := modify fun s => { s with buffer := none }

/-- `Engine::setMixerResolution`. -/
def setMixerResolution (h : Host) (width height : UInt32) : Prog Unit := do
  destroyBuffer
  EngineProperties.update h fun p => { p with mixerWidth := width }
  EngineProperties.update h fun p => { p with mixerHeight := height }
  initBuffer h
  let layers ← gets EngineState.layersList
  forEach (List.range layers.length) fun n => do
    Layer.updateSize n fun size => size.setWidth width
    Layer.updateSize n fun size => size.setHeight height
    Layer.destroyBuffer n
    Layer.initBuffer n

/-- `Engine::closeSet`. -/
def closeSet (h : Host) : Prog Unit := do
  let loaded ← gets EngineState.loaded
  if loaded then do
    Layers.empty h
    Set.closeSet h
    modify fun s => { s with setOpened := false }
    EngineProperties.update h fun p => { p with currentFilePath := "" }

/-- `Engine::newSet`. -/
def newSet (h : Host) (width height layers : UInt32) : Prog Bool := do
  closeSet h
  if width > 0 then EngineProperties.update h fun p => { p with mixerWidth := width }
  if height > 0 then EngineProperties.update h fun p => { p with mixerHeight := height }
  if layers > 0 then EngineProperties.update h fun p => { p with mixerNLayers := layers }
  Set.newSet h width height layers
  initBuffer h
  Layers.setActive h 1
  EngineProperties.update h fun p => { p with currentFilePath := "" }
  modify fun s => { s with setOpened := true }
  return true

/-- `Engine::openSet`. -/
def openSet (h : Host) (setPath : String) : Prog Bool := do
  destroyBuffer
  closeSet h
  Layers.empty h
  let result ← Set.openSet h setPath
  if result then do
    initBuffer h
    Layers.setActive h 1
    EngineProperties.update h fun p => { p with currentFilePath := setPath }
    modify fun s => { s with setOpened := true }
  return result

/-- `Engine::saveSet`. -/
def saveSet (h : Host) : Prog Bool := do
  Set.saveSet h
  return true

/-- `Engine::saveSetAs`. -/
def saveSetAs (h : Host) (setPath : String) : Prog Bool := do
  Set.saveSetAs h setPath
  EngineProperties.update h fun p => { p with currentFilePath := setPath }
  return true

/-- `Engine::getCurrentFilePath`. -/
def getCurrentFilePath (h : Host) : Prog String := do
  let p ← EngineProperties.getInstance h
  return p.currentFilePath

/-! ### Scenes and visuals -/

/-- `Engine::addScene`. -/
def addScene : Prog Addr := Set.newScene

/-- `Engine::getSelectedLayerNumber`. -/
def getSelectedLayerNumber (h : Host) : Prog UInt32 := do
  let p ← EngineProperties.getInstance h
  return p.selectedLayer.toUInt32

/-- `Engine::getSelectedColumnNumber`. -/
def getSelectedColumnNumber (h : Host) : Prog UInt32 := do
  let p ← EngineProperties.getInstance h
  return p.selectedColumn.toUInt32

/-- Dereference the pointer to the current scene. -/
def derefCurrentScene : Prog Addr := do
  let currentScene ← gets EngineState.currentScene
  ofOption .nullPointer currentScene

/-- `Engine::addVisualToScene`. -/
def addVisualToScene (h : Host) (visual layer column : UInt32) : Prog Unit := do
  let visuals ← gets EngineState.visualsList
  match Visuals.get visuals visual.toInt32 with
  | none => pure ()
  | some visualToAdd => do
    let nLayers ← gets EngineState.nLayers
    if layer > nLayers then
      let layers ← gets EngineState.layersList
      intLoop layers.length (layer.toNat + 1) (do let _ ← Layers.add h true)
    let a ← derefCurrentScene
    let scene ← Scene.read a
    let list ← VisualInstances.add h visualToAdd.addr layer column "" scene.visualInstances
    Scene.update a fun scene => { scene with visualInstances := list }

/-- `Engine::addVisualToSceneListInCurrentLayer`. -/
def addVisualToSceneListInCurrentLayer (h : Host) (visual layer column : UInt32) : Prog Unit := do
  let visuals ← gets EngineState.visualsList
  match Visuals.get visuals visual.toInt32 with
  | none => pure ()
  | some visualToAdd => do
    let layer ← if layer ≤ 0 then getSelectedLayerNumber h else pure layer
    let count ← gets Layers.count
    let layer := if layer > count then count else layer
    let a ← derefCurrentScene
    let scene ← Scene.read a
    let list ← VisualInstances.add h visualToAdd.addr layer column "" scene.visualInstances
    Scene.update a fun scene => { scene with visualInstances := list }

/-- Whether a cell is the selected one. The column is asked for only in the selected layer. -/
def isSelectedCell (h : Host) (layer column : UInt32) : Prog Bool := do
  let selectedLayer ← getSelectedLayerNumber h
  if layer = selectedLayer then
    let selectedColumn ← getSelectedColumnNumber h
    return column = selectedColumn
  else return false

/-- `Engine::removeVisualFromScene`. -/
def removeVisualFromScene (h : Host) (layer column : UInt32) : Prog Unit := do
  let selected ← isSelectedCell h layer column
  if selected then Layers.stopAt layer
  let a ← derefCurrentScene
  let scene ← Scene.read a
  let list ← VisualInstances.remove layer column scene.visualInstances
  Scene.update a fun scene => { scene with visualInstances := list }

/-- `Engine::getVisualAtLayerAndInstanceN`: the column is passed where `VisualInstances::get`
expects the layer. -/
def getVisualAtLayerAndInstanceN (layerN visualInstanceN : UInt32) : Prog (Option Addr) := do
  let currentScene ← gets EngineState.currentScene
  match currentScene with
  | none => return none
  | some a => do
    let scene ← Scene.read a
    VisualInstances.get visualInstanceN layerN scene.visualInstances

/-- `Engine::getCurrentActiveVisualInstance`. -/
def getCurrentActiveVisualInstance (h : Host) : Prog (Option Addr) := do
  let layerN ← getSelectedLayerNumber h
  let visualInstanceN ← getSelectedColumnNumber h
  getVisualAtLayerAndInstanceN layerN visualInstanceN

/-- `Engine::getFullState`. -/
def getFullState (h : Host) : Prog Json := do
  let layers ← gets Layers.getFullState
  let active ← getCurrentActiveVisualInstance h
  let a ← ofOption .nullPointer active
  let i ← VisualInstance.read a
  return .obj [("layers", layers), ("activeVisualInstance", i.properties.getFullState)]

/-! ### Playing -/

/-- `Engine::setActiveVisualInstance`. -/
def setActiveVisualInstance (h : Host) (layerN column : UInt32) : Prog (Option Addr) := do
  let layer ← gets (Layers.get layerN)
  match layer with
  | none => return none
  | some _ => do
    let visualInstance ← Set.getVisualInstanceInCorrentSet layerN column
    match visualInstance with
    | some a => Layer.playVisualInstance h layerN.toNat a
    | none => do
      let stops ← gets EngineState.stopCurrentVisualIfTriggeredInvalid
      if stops then Layers.stopAt layerN
    return visualInstance

/-- `Engine::setActiveVisualIntanceOnActiveLayer`. -/
def setActiveVisualIntanceOnActiveLayer (h : Host) (visualInstanceN : UInt32) : Prog Unit := do
  let layer ← getSelectedLayerNumber h
  let _ ← setActiveVisualInstance h layer visualInstanceN

/-- The number of instances that the current scene has in the selected layer. -/
def countInSelectedLayer (h : Host) : Prog UInt32 := do
  let a ← derefCurrentScene
  let scene ← Scene.read a
  let layer ← getSelectedLayerNumber h
  VisualInstances.countInLayer layer scene.visualInstances

/-- `Engine::playFirstVisualInstanceOnActiveLayer`. -/
def playFirstVisualInstanceOnActiveLayer (h : Host) : Prog Unit :=
  setActiveVisualIntanceOnActiveLayer h 0

/-- `Engine::playLastVisualInstanceOnActiveLayer`. -/
def playLastVisualInstanceOnActiveLayer (h : Host) : Prog Unit := do
  let count ← countInSelectedLayer h
  setActiveVisualIntanceOnActiveLayer h (count - 1)

/-- `Engine::playPreviousVisualInstanceOnActiveLayer`. -/
def playPreviousVisualInstanceOnActiveLayer (h : Host) : Prog Unit := do
  let column ← getSelectedColumnNumber h
  if column ≤ 0 then pure ()
  else do
    let column ← getSelectedColumnNumber h
    setActiveVisualIntanceOnActiveLayer h (column - 1)

/-- `Engine::playNextVisualInstanceOnActiveLayer`. -/
def playNextVisualInstanceOnActiveLayer (h : Host) : Prog Unit := do
  let column ← getSelectedColumnNumber h
  let count ← countInSelectedLayer h
  if column ≥ count - 1 then pure ()
  else do
    let column ← getSelectedColumnNumber h
    setActiveVisualIntanceOnActiveLayer h (column + 1)

/-- A member of a request that must be a number. -/
def numberOr (message : String) (key : String) (data : Json) : Prog UInt32 := do
  let v ← Prog.json (data.index key)
  if v.isNumber then Prog.json v.getUnsigned else throw (.literal message)

/-- `Engine::play`. -/
def play (h : Host) (data : Json) : Prog Unit :=
  if data.isObject then do
    let layer ← numberOr "Layer not set" "layer" data
    let column ← numberOr "column not set" "column" data
    let visualInstance ← setActiveVisualInstance h layer column
    match visualInstance with
    | none => throw (.literal "Invalid visual instance")
    | some a => VisualInstance.play h a false
  else throw (.literal "data must be an object")

/-- `Engine::stop`. -/
def stop (data : Json) : Prog Unit :=
  if data.isObject && (data.field "layer").isNumber then do
    let layer ← Prog.json (data.field "layer").getUnsigned
    Layers.stopAt layer
  else Layers.stopAll

/-- What `Engine::triggerSchedulledVisualsOnAllLayers` does on one layer. -/
def triggerLayer (h : Host) (n : ℕ) : Prog Unit := do
  let layer ← Layer.read n
  match layer.schedulledInstance, layer.activeInstance with
  | some _, _ => Layer.activateSchedulledInstance h n
  | none, none => pure ()
  | none, some a => do
    let i ← VisualInstance.read a
    if i.properties.beatSnap && i.properties.isTriggered then
      if i.video.isPlaying then
        -- `video.firstFrame()`
        VisualInstance.update a fun i => { i with video := i.video.setPosition 0 }
      VisualInstance.play h a true

/-- `Engine::triggerSchedulledVisualsOnAllLayers`. -/
def triggerSchedulledVisualsOnAllLayers (h : Host) : Prog Unit := do
  let layers ← gets EngineState.layersList
  forEach (List.range layers.length) (triggerLayer h)

end Engine

end ArbutusEngine
