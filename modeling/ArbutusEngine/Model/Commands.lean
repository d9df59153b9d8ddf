import ArbutusEngine.Model.Messages

/-!
# Runs of the engine

The calls an application makes on the engine, and the states that sequences of them reach. Every
call of a run has surroundings of its own, so that files may appear and disappear between two calls.

## Main definitions

* `Command`, `Command.run`.
* `EngineState.Reachable`: the states that calls lead to from the initial state.
-/

open Exec

namespace ArbutusEngine

/-- The calls of an application. -/
inductive Command where
  | newSet (width height layers : UInt32)
  | openSet (path : String)
  | closeSet
  | saveSet
  | saveSetAs (path : String)
  | setState (state : Json)
  | addScene
  | setCurrentScene (sceneNumber : UInt32)
  | addVideo (path : String)
  | addVisualToScene (visual layer column : UInt32)
  | removeVisualFromScene (layer column : UInt32)
  | play (data : Json)
  | stop (data : Json)
  | triggerSchedulledVisualsOnAllLayers
  | setMetronomeOn (on : Bool)
  | setBeatSnap (instance' : Addr) (on : Bool)
  | request (r : Json)

/-- The program of a call. -/
def Command.run (h : Host) : Command → Prog Unit
  | newSet width height layers => do let _ ← Engine.newSet h width height layers
  | openSet path => do let _ ← Engine.openSet h path
  | closeSet => Engine.closeSet h
  | saveSet => do let _ ← Engine.saveSet h
  | saveSetAs path => do let _ ← Engine.saveSetAs h path
  | setState state => Engine.setState h state
  | addScene => do let _ ← Engine.addScene
  | setCurrentScene sceneNumber => Set.setCurrentScene h sceneNumber
  | addVideo path => do let _ ← Visuals.addVideo h path
  | addVisualToScene visual layer column => Engine.addVisualToScene h visual layer column
  | removeVisualFromScene layer column => Engine.removeVisualFromScene h layer column
  | play data => Engine.play h data
  | stop data => Engine.stop data
  | triggerSchedulledVisualsOnAllLayers => Engine.triggerSchedulledVisualsOnAllLayers h
  | setMetronomeOn on => EngineProperties.update h fun p => { p with metronomeOn := on }
  | setBeatSnap a on => VisualInstance.update a fun i =>
      { i with properties := { i.properties with beatSnap := on } }
  | request r => do let _ ← handleJSONRequestForClient h r

/-- A call with its surroundings. -/
abbrev Call : Type := Host × Command

/-- The program of a call in its surroundings. -/
def Call.run (c : Call) : Prog Unit := c.2.run c.1

/-- The state is reached from the initial one by calls that return or throw. -/
def EngineState.Reachable (s : EngineState) : Prop :=
  Reaches Call.run (fun _ _ => True) EngineState.init s

end ArbutusEngine
