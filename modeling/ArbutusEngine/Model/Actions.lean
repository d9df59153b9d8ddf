import ArbutusEngine.Model.Engine
import ArbutusEngine.Model.Messages

/-!
# Actions on controls

Controllers and clients name a control by a string, with a value: `Engine::handleAction` hands it on
to a layer or to the active instance of a layer, and the property classes have a `set` of their own.
All of them dispatch on `str2int` of the string. A `switch` is given here by the table of its cases,
in their order; C++ requires that the hashes of the names be different.

Strings are lists of bytes, as in `std::string`.

## Main definitions

* `takenCase`, `hashSwitch`: a `switch` on the hash of a string.
* `Properties.set`, `LayerProperties.set`, `VisualInstancesProperties.set`,
  `VisualInstancesProperties.setUnsigned`.
* `Layer.handleAction`, `VisualInstance.handleAction`, `Engine.handleLayerAction`,
  `Engine.handleVisualAction`, `Engine.handleAction`.
-/

open Exec
open FloatNumber (ofRat)

namespace ArbutusEngine

/-! ### Switches -/

/-- The case that a `switch` on the hash of a string takes, by its position. -/
def takenCase (names : List String) (s : List UInt8) : Option ℕ :=
  names.findIdx? fun name => str2int s = str2int (bytes name)

/-- The branch that a `switch` on the hash of a string takes, if there is one. -/
def hashSwitch {β : Type} (cases : List (String × β)) (s : List UInt8) : Option β := do
  let k ← takenCase (cases.map Prod.fst) s
  let c ← cases[k]?
  return c.2

/-- The branch that is taken is one of the table, under a name with the hash of the string. -/
theorem hashSwitch_mem {β : Type} {cases : List (String × β)} {s : List UInt8} {b : β}
    (h : hashSwitch cases s = some b) :
    ∃ name, (name, b) ∈ cases ∧ str2int s = str2int (bytes name) := by
  simp only [hashSwitch, bind, Option.bind_eq_some_iff] at h
  obtain ⟨k, hk, c, hc, hb⟩ := h
  obtain rfl := Option.some.inj hb
  obtain ⟨hlt, hname, -⟩ := List.findIdx?_eq_some_iff_getElem.mp hk
  obtain ⟨hlt', rfl⟩ := List.getElem?_eq_some_iff.mp hc
  refine ⟨cases[k].1, List.getElem_mem _, ?_⟩
  simpa using hname

/-- A string takes a branch of only one of two tables that have no hashes in common. -/
theorem hashSwitch_eq_none {β γ : Type} {cases : List (String × β)} {cases' : List (String × γ)}
    (hdisjoint : ∀ c ∈ cases, ∀ c' ∈ cases', str2int (bytes c.1) ≠ str2int (bytes c'.1))
    {s : List UInt8} {b : β} (h : hashSwitch cases s = some b) : hashSwitch cases' s = none := by
  obtain ⟨name, hmem, hname⟩ := hashSwitch_mem h
  refine Option.eq_none_iff_forall_not_mem.mpr fun b' hb' => ?_
  obtain ⟨name', hmem', hname'⟩ := hashSwitch_mem hb'
  exact hdisjoint _ hmem _ hmem' (hname.symm.trans hname')

/-- A table whose branches are computed from those of another one. -/
theorem hashSwitch_map {β γ : Type} (f : β → γ) (cases : List (String × β)) (s : List UInt8) :
    hashSwitch (cases.map fun c => (c.1, f c.2)) s = (hashSwitch cases s).map f := by
  have hnames : (cases.map fun c => (c.1, f c.2)).map Prod.fst = cases.map Prod.fst := by
    rw [List.map_map]
    rfl
  simp only [hashSwitch, hnames, bind, pure, List.getElem?_map]
  cases takenCase (cases.map Prod.fst) s with
  | none => rfl
  | some k => cases hc : cases[k]? <;> simp [hc]

/-! ### The property classes -/

section

variable {N : Type} [FloatNumber N]

namespace Properties

/-- The cases of `Properties::set`. -/
def setCases : List (String × (Properties N → N → Properties N)) :=
  [("alpha", setAlpha), ("red", setRed), ("green", setGreen), ("blue", setBlue),
    ("brightness", setBrightness), ("contrast", setContrast), ("saturation", setSaturation)]

/-- `Properties::set`. -/
def set (property : List UInt8) (value : N) (p : Properties N) : Properties N :=
  match hashSwitch setCases property with
  | some setter => setter p value
  | none => p

end Properties

namespace LayerProperties

/-- The cases of `LayerProperties::set`. -/
def setCases : List (String × (LayerProperties N → N → LayerProperties N)) :=
  [("blurH", fun p value => p.setBlurH (floatToUnsigned (FloatNumber.round value))),
    ("blurV", fun p value => p.setBlurV (floatToUnsigned (FloatNumber.round value)))]

/-- `LayerProperties::set`. -/
def set (property : List UInt8) (value : N) (p : LayerProperties N) : LayerProperties N :=
  let p := { p with toProperties := p.toProperties.set property value }
  match hashSwitch setCases property with
  | some setter => setter p value
  | none => p

end LayerProperties

namespace VisualInstancesProperties

section

variable {N : Type} (p : VisualInstancesProperties N)

def setZoomX (val : N) : VisualInstancesProperties N := { p with zoomX := val }

def setZoomY (val : N) : VisualInstancesProperties N := { p with zoomY := val }

def setCenterX (val : N) : VisualInstancesProperties N := { p with centerX := val }

def setCenterY (val : N) : VisualInstancesProperties N := { p with centerY := val }

def setDirection (val : UInt32) : VisualInstancesProperties N := { p with direction := val }

def setLoopMode (val : UInt32) : VisualInstancesProperties N := { p with loopMode := val }

def setTriggerMode (val : UInt32) : VisualInstancesProperties N := { p with triggerMode := val }

/-- The cases of `VisualInstancesProperties::set` on an `unsigned int`. -/
def setUnsignedCases :
    List (String × (VisualInstancesProperties N → UInt32 → VisualInstancesProperties N)) :=
  [("direction", setDirection), ("loopMode", setLoopMode), ("triggerMode", setTriggerMode)]

/-- `VisualInstancesProperties::set` on an `unsigned int`. -/
def setUnsigned (property : List UInt8) (value : UInt32) : VisualInstancesProperties N :=
  match hashSwitch setUnsignedCases property with
  | some setter => setter p value
  | none => p

end

variable (p : VisualInstancesProperties N)

def setPercentagePlayed (val : N) : VisualInstancesProperties N :=
  { p with percentagePlayed := ofClamp val (ofRat 0) (ofRat 1) }

/-- `setStartPercentage`: the value is taken when the old start is not past the end. -/
def setStartPercentage (val : N) : VisualInstancesProperties N :=
  { p with
    startPercentage :=
      if p.startPercentage ≤ p.endPercentage then ofClamp val (ofRat 0) (ofRat 1)
      else p.endPercentage }

def setEndPercentage (val : N) : VisualInstancesProperties N :=
  let endPercentage := ofClamp val (ofRat 0) (ofRat 1)
  { p with
    endPercentage :=
      if endPercentage < p.startPercentage then p.startPercentage else endPercentage }

def setEffectMix (val : N) : VisualInstancesProperties N :=
  let limits := floatPropertiesLimitsVisualInstances "effects_drywet"
  { p with effectsDrywet := ofClamp val (ofRat limits.min) (ofRat limits.max) }

/-- The cases of `VisualInstancesProperties::set` on a float. -/
def setCases : List (String × (VisualInstancesProperties N → N → VisualInstancesProperties N)) :=
  [("zoomX", setZoomX), ("zoomY", setZoomY), ("centerX", setCenterX), ("centerY", setCenterY),
    ("percentagePlayed", setPercentagePlayed), ("startPercentage", setStartPercentage),
    ("endPercentage", setEndPercentage), ("effects_drywet", setEffectMix)]

/-- `VisualInstancesProperties::set` on a float. -/
def set (property : List UInt8) (value : N) : VisualInstancesProperties N :=
  let p := { p with toProperties := p.toProperties.set property value }
  match hashSwitch setCases property with
  | some setter => setter p value
  | none => p

end VisualInstancesProperties

/-! ### Handlers -/

/-- The value of an action. -/
def actionValue (data : Json N) : ProgOver N N :=
  Prog.json ((data.index "value").bind Json.getFloat)

/-- The cases of `Layer::handleAction`. The blurs are converted to the type of their setters. -/
def Layer.actionCases : List (String × (LayerProperties N → N → LayerProperties N)) :=
  let colour := fun (set : Properties N → N → Properties N) (p : LayerProperties N) (value : N) =>
    { p with toProperties := set p.toProperties value }
  [("Alpha", colour Properties.setAlpha), ("Brightness", colour Properties.setBrightness),
    ("Contrast", colour Properties.setContrast), ("Saturation", colour Properties.setSaturation),
    ("Red", colour Properties.setRed), ("Green", colour Properties.setGreen),
    ("Blue", colour Properties.setBlue),
    ("Blur", fun p value =>
      (p.setBlurH (floatToUnsigned value)).setBlurV (floatToUnsigned value)),
    ("Horizontal Blur", fun p value => p.setBlurH (floatToUnsigned value)),
    ("Vertical Blur", fun p value => p.setBlurV (floatToUnsigned value))]

/-- `Layer::handleAction`, for the layer at a position. -/
def Layer.handleAction (n : ℕ) (parameter : List UInt8) (data : Json N) :
    ProgOver N Unit := do
  let value ← actionValue data
  match hashSwitch Layer.actionCases parameter with
  | some setter =>
    Layer.update n fun layer => { layer with properties := setter layer.properties value }
  | none => pure ()

open VisualInstancesProperties in
/-- The cases of `VisualInstance::handleAction`. The enumerations are cast from the rounded
value. -/
def VisualInstance.actionCases :
    List (String × (VisualInstancesProperties N → N → VisualInstancesProperties N)) :=
  let colour := fun (set : Properties N → N → Properties N) (p : VisualInstancesProperties N)
      (value : N) => { p with toProperties := set p.toProperties value }
  [("Alpha", colour Properties.setAlpha), ("Brightness", colour Properties.setBrightness),
    ("Contrast", colour Properties.setContrast), ("Saturation", colour Properties.setSaturation),
    ("Red", colour Properties.setRed), ("Green", colour Properties.setGreen),
    ("Blue", colour Properties.setBlue), ("Zoom X", setZoomX), ("Zoom Y", setZoomY),
    ("Center X", setCenterX), ("Center Y", setCenterY), ("Start", setStartPercentage),
    ("End", setEndPercentage), ("Played", setPercentagePlayed),
    ("Direction", fun p value => p.setDirection (floatToUnsigned (FloatNumber.round value))),
    ("Loop Mode", fun p value => p.setLoopMode (floatToUnsigned (FloatNumber.round value)))]

/-- `VisualInstance::handleAction`. -/
def VisualInstance.handleAction (a : Addr) (parameter : List UInt8) (data : Json N) :
    ProgOver N Unit := do
  let value ← actionValue data
  match hashSwitch VisualInstance.actionCases parameter with
  | some setter =>
    VisualInstance.update a fun i => { i with properties := setter i.properties value }
  | none => pure ()

end

/-- The rest of `ofStringReplace`, after `skip` more bytes of an occurrence. -/
def ofStringReplaceFrom (search replace : List UInt8) : ℕ → List UInt8 → List UInt8
  | _, [] => []
  | skip + 1, _ :: rest => ofStringReplaceFrom search replace skip rest
  | 0, b :: rest =>
    if search.isPrefixOf (b :: rest) then
      replace ++ ofStringReplaceFrom search replace (search.length - 1) rest
    else b :: ofStringReplaceFrom search replace 0 rest

/-- `ofStringReplace`, on a text to search for that is not empty. -/
def ofStringReplace (input search replace : List UInt8) : List UInt8 :=
  ofStringReplaceFrom search replace 0 input

example : ofStringReplace (bytes "Layer Alpha") (bytes "Layer ") [] = bytes "Alpha" := by
  decide +kernel

namespace Engine

/-- `Engine::getLayerForActionHandler`, as the position of the layer. -/
def getLayerForActionHandler (h : Host) (data : Json) : Prog (Option ℕ) := do
  let layer ← Prog.json (data.index "layer")
  let n ← if layer.isNumber then Int32.toUInt32 <$> Prog.json layer.getInt
    else Layers.getCurrentId h
  let layer ← gets (Layers.get n)
  return layer.map fun _ => n.toNat

/-- `Engine::handleLayerAction`. -/
def handleLayerAction (h : Host) (parameter : List UInt8) (data : Json) : Prog Unit := do
  let layer ← getLayerForActionHandler h data
  match layer with
  | some n => Layer.handleAction n parameter data
  | none => pure ()

/-- `Engine::handleVisualAction`. -/
def handleVisualAction (h : Host) (parameter : List UInt8) (data : Json) : Prog Unit := do
  let layer ← getLayerForActionHandler h data
  match layer with
  | none => pure ()
  | some n => do
    let layer ← Layer.read n
    match layer.activeInstance with
    | some visual => VisualInstance.handleAction visual parameter data
    | none => pure ()

/-- What an action of the engine is about. -/
inductive Target where
  | layer
  | visual
  deriving DecidableEq

/-- The cases of `Engine::handleAction`. -/
def actionCases : List (String × Target) :=
  [("Layer Alpha", .layer), ("Layer Brightness", .layer), ("Layer Contrast", .layer),
    ("Layer Saturation", .layer), ("Layer Red", .layer), ("Layer Green", .layer),
    ("Layer Blue", .layer), ("Layer Blur", .layer), ("Layer Horizontal Blur", .layer),
    ("Layer Vertical Blur", .layer),
    ("Visual Alpha", .visual), ("Visual Brightness", .visual), ("Visual Contrast", .visual),
    ("Visual Saturation", .visual), ("Visual Red", .visual), ("Visual Green", .visual),
    ("Visual Blue", .visual), ("Visual Zoom X", .visual), ("Visual Zoom Y", .visual),
    ("Visual Center X", .visual), ("Visual Center Y", .visual), ("Visual Start", .visual),
    ("Visual End", .visual), ("Visual Played", .visual), ("Visual Loop Mode", .visual),
    ("Visual Direction", .visual)]

/-- `Engine::handleAction`. -/
def handleAction (h : Host) (parameter : List UInt8) (data : Json) : Prog Unit :=
  match hashSwitch actionCases parameter with
  | some .layer => handleLayerAction h (ofStringReplace parameter (bytes "Layer ") []) data
  | some .visual => handleVisualAction h (ofStringReplace parameter (bytes "Visual ") []) data
  | none => pure ()

end Engine

end ArbutusEngine
