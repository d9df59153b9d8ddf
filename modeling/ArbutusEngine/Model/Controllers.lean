import ArbutusEngine.Model.Engine

/-!
# Keyboard controllers

A controller has a key or a MIDI control number, and an action or a callback to run when that control
is used. The engine makes one group of controllers and fills it with a controller for every key of
two maps, in the order of the keys. None of these has a callback.

A key is given to the controllers one after the other, until the action of one of them reports that
it has run. The constructor of a controller sets neither its value nor its MIDI status. Actions that
trigger a visual do nothing but report whether there is an engine.

A callback is a pointer to a function; `call` is what the functions do.

## Main definitions

* `Controls.Action`, `Controls.Action.run`, `Controls.Controller`.
* `ControllerGroup.handleKeyboardControllers`, `ControllerGroup.initDefaultControllers`,
  `Engine.keyPressed`.
-/

open Exec

namespace ArbutusEngine

namespace Controls

/-! ### Actions -/

inductive ActionType where
  | triggerVisual
  | changeLayer
  | changeParameter
  deriving DecidableEq

structure TriggerVisualAction where
  layer : Int32
  column : Int32
  deriving DecidableEq

structure ChangeLayerAction where
  layer : Int32
  deriving DecidableEq

structure Action where
  type : ActionType
  triggerVisualAction : Option TriggerVisualAction
  changeLayerAction : Option ChangeLayerAction
  deriving DecidableEq

/-- `TriggerVisualAction::run`. `enginePtr` tells whether the pointer to the engine has been set. -/
def TriggerVisualAction.run (enginePtr : Bool) (_ : TriggerVisualAction) : Prog Bool :=
  return enginePtr

/-- `ChangeLayerAction::run`. The layer is converted to the `unsigned int` that
`Layers::setActive` takes. -/
def ChangeLayerAction.run (h : Host) (enginePtr : Bool) (action : ChangeLayerAction) :
    Prog Bool :=
  if enginePtr then do
    Layers.setActive h action.layer.toUInt32
    return true
  else return false

namespace Action

/-- `Action::Action`. -/
def new (type : ActionType) : Action := ⟨type, none, none⟩

/-- `Action::newTriggerVisualAction`. -/
def newTriggerVisualAction (layer column : Int32) : Action :=
  { new .triggerVisual with triggerVisualAction := some ⟨layer, column⟩ }

/-- `Action::newChangeLayerAction`. -/
def newChangeLayerAction (layer : Int32) : Action :=
  { new .changeLayer with changeLayerAction := some ⟨layer⟩ }

/-- `Action::run`. -/
def run (h : Host) (enginePtr : Bool) (a : Action) : Prog Bool :=
  match a.type with
  | .triggerVisual => do
    let action ← ofOption .nullPointer a.triggerVisualAction
    action.run enginePtr
  | .changeLayer => do
    let action ← ofOption .nullPointer a.changeLayerAction
    action.run h enginePtr
  | .changeParameter => return false

end Action

/-! ### Controllers -/

inductive ControllerType where
  | keyController
  | midiController
  | signalController
  deriving DecidableEq

/-- A controller, its callback being one of the functions `κ`. -/
structure Controller (κ : Type) where
  type : ControllerType
  control : Int32
  value : Int32
  midiStatus : Int32
  action : Option Action
  callback : Option κ

namespace Controller

variable {κ : Type}

/-- `Controller::Controller`. What the members contain that are not set is given. -/
def new (value midiStatus : Int32) (type : ControllerType) (control : Int32) : Controller κ :=
  ⟨type, control, value, midiStatus, none, none⟩

def setAction (action : Action) (c : Controller κ) : Controller κ :=
  { c with action := some action }

/-- `Controller::runAction`. -/
def runAction (h : Host) (enginePtr : Bool) (c : Controller κ) : Prog Bool :=
  match c.action with
  | none => return false
  | some action => action.run h enginePtr

/-- `if (controller->callback!=NULL) controller->callback(controller)`. -/
def runCallback (call : κ → Controller κ → Prog Unit) (c : Controller κ) : Prog Unit :=
  match c.callback with
  | none => pure ()
  | some callback => call callback c

end Controller

end Controls

open Controls

/-! ### The group of controllers -/

namespace ControllerGroup

variable {κ : Type}

/-- The map `triggerKeys` of `ControllerGroup::initDefaultControllers`: keys, each with a layer and a
column, in the order of the map. -/
def triggerKeys : List (Int32 × (Int32 × Int32)) :=
  [(0, 1, 1), (1, 1, 2), (2, 1, 3), (3, 1, 4), (6, 2, 2), (7, 2, 3), (8, 2, 4), (12, 0, 1),
    (13, 0, 2), (14, 0, 3), (15, 0, 4), (50, 2, 1)]

/-- The map `layerKeys`: keys, each with the number of a layer. -/
def layerKeys : List (Int32 × Int32) := [(18, 1), (19, 2), (20, 3), (21, 4)]

/-- `ControllerGroup::addController`. -/
def addController (controller : Controller κ) (controllers : List (Controller κ)) :
    List (Controller κ) := controllers ++ [controller]

/-- `ControllerGroup::initDefaultControllers`, on a new group. -/
def initDefaultControllers (value midiStatus : Int32) : List (Controller κ) :=
  let key := fun (control : Int32) (action : Action) (controllers : List (Controller κ)) =>
    addController ((Controller.new value midiStatus .keyController control).setAction action)
      controllers
  let controllers := triggerKeys.foldl
    (fun controllers k => key k.1 (.newTriggerVisualAction k.2.1 k.2.2) controllers) []
  layerKeys.foldl (fun controllers k => key k.1 (.newChangeLayerAction k.2) controllers) controllers

/-- `ControllerGroup::handleKeyboardControllers`. -/
def handleKeyboardControllers (h : Host) (enginePtr : Bool) (call : κ → Controller κ → Prog Unit)
    (key : Int32) : List (Controller κ) → Prog Unit
  | [] => pure ()
  | controller :: rest =>
    if controller.type = .keyController ∧ key = controller.control then do
      let ran ← controller.runAction h enginePtr
      if ran then pure ()
      else do
        controller.runCallback call
        handleKeyboardControllers h enginePtr call key rest
    else handleKeyboardControllers h enginePtr call key rest

end ControllerGroup

namespace Engine

variable {κ : Type}

/-- `Engine::keyPressed`. -/
def keyPressed (h : Host) (enginePtr : Bool) (call : κ → Controller κ → Prog Unit)
    (controllers : List (Controller κ)) (key : Int32) : Prog Unit :=
  ControllerGroup.handleKeyboardControllers h enginePtr call key controllers

end Engine

end ArbutusEngine
