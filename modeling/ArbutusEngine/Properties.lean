import ArbutusEngine.Host

/-!
# Properties of layers and of visual instances

The property classes of the engine: `Properties`, with the colour controls and the name,
`SizeProperties`, and the two classes that inherit from both, `LayerProperties` and
`VisualInstancesProperties`. Their `getState` writes the values, their `getFullState` the values
with titles, types and limits. `LayerProperties.setState` is the body of `Layer::setState`, which
reads and writes nothing but the properties of the layer.

Floats are of a type that is a parameter, the exact rationals if it is not given. The enumerations
are kept as the numbers they are cast from, because clients can store any number in them.

## Main definitions

* `Properties`, `SizeProperties`, `LayerProperties`, `VisualInstancesProperties`.
* `LayerProperties.getState`, `LayerProperties.setState`, `VisualInstancesProperties.getState`.
* `LayerProperties.getFullState`, `VisualInstancesProperties.getFullState`.

## Main results

* `LayerProperties.setState_eq_ok`, `LayerProperties.setState_eq_error`: a layer entry is decoded
  exactly when it is an object or `null`.
-/

open FloatNumber (ofRat single)

namespace ArbutusEngine

variable {N : Type}

/-- `floatLimits`. -/
structure FloatLimits where
  min : ℚ
  max : ℚ
  deriving DecidableEq

/-! ### Colour controls -/

structure Properties (N : Type := ℚ) where
  name : String
  alpha : N
  red : N
  green : N
  blue : N
  brightness : N
  contrast : N
  saturation : N
  deriving DecidableEq

/-- `StateType`, the kind of control a client shows for a property. -/
inductive StateType where
  | invalid
  | integer
  | float
  | string
  | buttonGroup
  | toggleButtonGroup
  deriving DecidableEq

def StateType.toInt : StateType → ℤ
  | invalid => 0
  | integer => 1
  | float => 2
  | string => 3
  | buttonGroup => 4
  | toggleButtonGroup => 5

/-- The entry of a full state for one property. -/
def fullStateEntry (title : String) (type : StateType) (value : Json N)
    (rest : List (String × Json N)) : Json N :=
  .obj ([("title", .str title), ("type", .int type.toInt), ("value", value)] ++ rest)

def limitMembers [FloatNumber N] (limits : FloatLimits) : List (String × Json N) :=
  [("min", .float (ofRat limits.min)), ("max", .float (ofRat limits.max))]

namespace Properties

/-- `Properties::setLimits`. A key the map does not hold would read as zero limits. -/
def floatPropertiesLimits : String → FloatLimits
  | "alpha" => ⟨0, 1⟩
  | "red" => ⟨-1, 1⟩
  | "green" => ⟨-1, 1⟩
  | "blue" => ⟨-1, 1⟩
  | "brightness" => ⟨0, 2⟩
  | "contrast" => ⟨0, 2⟩
  | "saturation" => ⟨0, 2⟩
  | _ => ⟨0, 0⟩

def setName (p : Properties N) (input : String) : Properties N := { p with name := input }

def getState (p : Properties N) : Json N :=
  .obj [("name", .str p.name), ("alpha", .float p.alpha), ("red", .float p.red),
    ("green", .float p.green), ("blue", .float p.blue), ("brightness", .float p.brightness),
    ("contrast", .float p.contrast), ("saturation", .float p.saturation)]

variable [FloatNumber N]

/-- `Properties::Properties`, with the values of `Properties::reset`. -/
def new : Properties N where
  name := ""
  alpha := ofRat 1
  red := ofRat 0
  green := ofRat 0
  blue := ofRat 0
  brightness := ofRat 1
  contrast := ofRat 1
  saturation := ofRat 1

variable (p : Properties N)

/-- `Properties::reset`. -/
def reset : Properties N :=
  { p with
    alpha := ofRat 1
    red := ofRat 0
    green := ofRat 0
    blue := ofRat 0
    brightness := ofRat 1
    contrast := ofRat 1
    saturation := ofRat 1 }

/-- The clamp every setter of `Properties` applies. -/
def clampTo (key : String) (input : N) : N :=
  ofClamp input (ofRat (floatPropertiesLimits key).min) (ofRat (floatPropertiesLimits key).max)

def setAlpha (input : N) : Properties N := { p with alpha := clampTo "alpha" input }

def setRed (input : N) : Properties N := { p with red := clampTo "red" input }

def setGreen (input : N) : Properties N := { p with green := clampTo "green" input }

def setBlue (input : N) : Properties N := { p with blue := clampTo "blue" input }

def setBrightness (input : N) : Properties N := { p with brightness := clampTo "brightness" input }

def setContrast (input : N) : Properties N := { p with contrast := clampTo "contrast" input }

def setSaturation (input : N) : Properties N := { p with saturation := clampTo "saturation" input }

def getFullState : Json N :=
  let limits := fun key => limitMembers (floatPropertiesLimits key)
  let default := fun key => [("defaultValue", Json.float (ofRat (floatPropertiesLimits key).max : N))]
  .obj [("name", fullStateEntry "Name" .string (.str p.name) []),
    ("alpha", fullStateEntry "Alpha" .float (.float p.alpha) (limits "alpha" ++ default "alpha")),
    ("red", fullStateEntry "Red" .float (.float p.red) (limits "red" ++ default "red")),
    ("green", fullStateEntry "Green" .float (.float p.green) (limits "green" ++ default "green")),
    ("blue", fullStateEntry "Blue" .float (.float p.blue) (limits "blue" ++ default "blue")),
    ("brightness",
      fullStateEntry "Brightness" .float (.float p.brightness) (limits "brightness")),
    ("saturation",
      fullStateEntry "Saturation" .float (.float p.saturation) (limits "saturation")),
    ("contrast", fullStateEntry "Contrast" .float (.float p.contrast) (limits "contrast"))]

end Properties

/-! ### Sizes -/

structure SizeProperties where
  width : UInt32
  height : UInt32
  deriving DecidableEq

namespace SizeProperties

/-- `PROPERTY_MAX_WIDTH`. -/
def maxWidth : ℚ := 1920

/-- `PROPERTY_MAX_HEIGHT`. -/
def maxHeight : ℚ := 1080

def widthLimits : FloatLimits := ⟨0, maxWidth⟩

def heightLimits : FloatLimits := ⟨0, maxHeight⟩

variable (p : SizeProperties)

/-- A size as it is clamped: it is converted to `float`, like the limits, and back. -/
def clampTo (limits : FloatLimits) (size : UInt32) (N : Type := ℚ) [FloatNumber N] : UInt32 :=
  floatToUnsigned
    (ofClamp (single (ofRat size.toNat)) (ofRat limits.min) (ofRat limits.max) : N)

def setWidth (width : UInt32) (N : Type := ℚ) [FloatNumber N] : SizeProperties :=
  { p with width := clampTo widthLimits width N }

def setHeight (height : UInt32) (N : Type := ℚ) [FloatNumber N] : SizeProperties :=
  { p with height := clampTo heightLimits height N }

def getState (state : Json N) : Json N :=
  (state.insert "width" (.int p.width.toNat)).insert "height" (.int p.height.toNat)

def getFullState (fullState : Json N) : Json N :=
  (fullState.insert "width" (fullStateEntry "Width" .integer (.int p.width.toNat)
    [("min", .int 0), ("max", .int 1920)])).insert "height"
    (fullStateEntry "Height" .integer (.int p.height.toNat) [("min", .int 0), ("max", .int 1080)])

end SizeProperties

/-! ### Layers -/

structure LayerProperties (N : Type := ℚ) extends Properties N, SizeProperties where
  blendMode : UInt32
  blurH : N
  blurV : N
  deriving DecidableEq

namespace LayerProperties

/-- `BLEND_ALPHA`. -/
def blendAlpha : UInt32 := 1

/-- `BLEND_ADD`. -/
def blendAdd : UInt32 := 2

/-- `BLEND_SCREEN`. -/
def blendScreen : UInt32 := 5

/-- The limits of both blurs. -/
def blurLimits : FloatLimits := ⟨0, 10⟩

variable [FloatNumber N]

/-- `LayerProperties::LayerProperties`, the size being that of the mixer. -/
def new (width height : UInt32) : LayerProperties N where
  toProperties := Properties.new
  width := width
  height := height
  blendMode := blendAdd
  blurH := ofRat 0
  blurV := ofRat 0

variable (p : LayerProperties N)

/-- `LayerProperties::setBlendMode`. An enumeration that is compared is promoted to `int`. The first
comparison is with the smallest blend mode of openFrameworks, `0`. -/
def setBlendMode (mode : UInt32) : LayerProperties N :=
  let mode := if mode.toInt32 < 0 then blendAlpha else mode
  let mode := if mode > blendScreen then blendScreen else mode
  { p with blendMode := mode }

/-- The clamp of both blurs: the number is converted to `float`. -/
def clampBlur (blur : UInt32) : N :=
  ofClamp (single (ofRat blur.toNat)) (ofRat blurLimits.min) (ofRat blurLimits.max)

def setBlurH (blur : UInt32) : LayerProperties N :=
  { p with blurH := clampBlur blur }

def setBlurV (blur : UInt32) : LayerProperties N :=
  { p with blurV := clampBlur blur }

/-- `LayerProperties::reset`, which leaves the name, the size and the blend mode alone. -/
def reset : LayerProperties N :=
  let p := { p with toProperties := p.toProperties.reset }
  let p := (p.setBlurH 0).setBlurV 0
  let p := { p with toProperties := p.toProperties.setAlpha (ofRat 1) }
  (p.setBlurH 0).setBlurV 0

def getBlurH : UInt32 := floatToUnsigned p.blurH

def getBlurV : UInt32 := floatToUnsigned p.blurV

def getState : Json N :=
  (((p.toSizeProperties.getState p.toProperties.getState).insert "blendMode"
    (.int p.blendMode.toNat)).insert "blurH" (.int p.getBlurH.toNat)).insert "blurV"
    (.int p.getBlurV.toNat)

def getFullState : Json N :=
  let blur := limitMembers blurLimits ++ [("defaultValue", Json.int 0)]
  (((p.toSizeProperties.getFullState p.toProperties.getFullState).insert "blurH"
    (fullStateEntry "Horizontal Blur" .float (.int p.getBlurH.toNat) blur)).insert "blurV"
    (fullStateEntry "Vertical Blur" .float (.int p.getBlurV.toNat) blur)).insert "blendMode"
    (fullStateEntry "Blend Mode" .integer (.int p.blendMode.toNat)
      [("min", .int blendAlpha.toNat), ("max", .int blendScreen.toNat),
        ("defaultValue", .int blendAlpha.toNat)])

omit [FloatNumber N] in
/-- One guarded assignment of `Layer::setState`: `if (state[key].is_..()) properties.set..(..)`. -/
def assignWhen (test : Json N → Bool) (key : String)
    (set : LayerProperties N → Json N → Except String (LayerProperties N)) (state : Json N)
    (p : LayerProperties N) : Except String (LayerProperties N) :=
  (state.index key).bind fun v => if test v then set p v else .ok p

/-- The guarded assignments of `Layer::setState`, in its order. Red and green are rounded to two
decimals, blue and the others are not. -/
def assignments : List (Json N → LayerProperties N → Except String (LayerProperties N)) :=
  [assignWhen Json.isNumber "width" fun p v =>
      v.getInt.map fun n => { p with toSizeProperties := p.toSizeProperties.setWidth n.toUInt32 N },
    assignWhen Json.isNumber "height" fun p v =>
      v.getInt.map fun n => { p with toSizeProperties := p.toSizeProperties.setHeight n.toUInt32 N },
    assignWhen Json.isNumber "blendMode" fun p v => v.getInt.map fun n => p.setBlendMode n.toUInt32,
    assignWhen Json.isNumber "blurH" fun p v => v.getInt.map fun n => p.setBlurH n.toUInt32,
    assignWhen Json.isNumber "blurV" fun p v => v.getInt.map fun n => p.setBlurV n.toUInt32,
    assignWhen Json.isNumber "red" fun p v =>
      v.getFloat.map fun q =>
        { p with toProperties := p.toProperties.setRed (roundWithPrecision q 2) },
    assignWhen Json.isNumber "green" fun p v =>
      v.getFloat.map fun q =>
        { p with toProperties := p.toProperties.setGreen (roundWithPrecision q 2) },
    assignWhen Json.isNumber "blue" fun p v =>
      v.getFloat.map fun q => { p with toProperties := p.toProperties.setBlue q },
    assignWhen Json.isNumber "alpha" fun p v =>
      v.getFloat.map fun q => { p with toProperties := p.toProperties.setAlpha q },
    assignWhen Json.isNumber "brightness" fun p v =>
      v.getFloat.map fun q => { p with toProperties := p.toProperties.setBrightness q },
    assignWhen Json.isNumber "contrast" fun p v =>
      v.getFloat.map fun q => { p with toProperties := p.toProperties.setContrast q },
    assignWhen Json.isNumber "saturation" fun p v =>
      v.getFloat.map fun q => { p with toProperties := p.toProperties.setSaturation q },
    assignWhen Json.isString "name" fun p v =>
      v.getString.map fun s => { p with toProperties := p.toProperties.setName s }]

/-- `Layer::setState`. -/
def setState (state : Json N) (p : LayerProperties N) : Except String (LayerProperties N) :=
  assignments.foldlM (fun p assign => assign state p) p

variable {p}

theorem isIndexable_getState (p : LayerProperties N) : p.getState.isIndexable = true := by
  rw [getState]
  exact Json.isIndexable_insert _ _ _

/-- The fields of the state of a layer. -/
theorem field_getState (p : LayerProperties N) (key : String) : p.getState.field key =
    if key = "blurV" then .int p.getBlurV.toNat else if key = "blurH" then .int p.getBlurH.toNat
    else if key = "blendMode" then .int p.blendMode.toNat
    else if key = "height" then .int p.height.toNat else if key = "width" then .int p.width.toNat
    else p.toProperties.getState.field key := by
  simp only [getState, SizeProperties.getState, Json.field_insert]

omit [FloatNumber N] in
/-- A guarded assignment returns when the entry can be indexed and the setter accepts what the
test lets through. -/
private theorem exists_assignWhen_eq_ok {test : Json N → Bool} {key : String}
    {set : LayerProperties N → Json N → Except String (LayerProperties N)} {state : Json N}
    (hset : ∀ p v, test v = true → ∃ p', set p v = .ok p') (hs : state.isIndexable = true)
    (p : LayerProperties N) : ∃ p', assignWhen test key set state p = .ok p' := by
  rw [assignWhen, Json.index_of_isIndexable hs, Except.bind]
  by_cases ht : test (state.field key) = true
  · simp only [ht, ↓reduceIte]
    exact hset p _ ht
  · simp only [ht]
    exact ⟨p, rfl⟩

omit [FloatNumber N] in
private theorem exists_map_eq_ok {α : Type} {r : Except String α} (hr : ∃ a, r = .ok a)
    (f : α → LayerProperties N) : ∃ p', r.map f = .ok p' := by
  obtain ⟨a, rfl⟩ := hr
  exact ⟨f a, rfl⟩

private theorem exists_assignments_eq_ok {state : Json N} (hs : state.isIndexable = true)
    {assign : Json N → LayerProperties N → Except String (LayerProperties N)}
    (ha : assign ∈ assignments) (p : LayerProperties N) : ∃ p', assign state p = .ok p' := by
  simp only [assignments, List.mem_cons, List.not_mem_nil, or_false] at ha
  rcases ha with rfl | rfl | rfl | rfl | rfl | rfl | rfl | rfl | rfl | rfl | rfl | rfl | rfl
  all_goals refine exists_assignWhen_eq_ok ?_ hs p
  all_goals intro p v hv
  iterate 5 exact exists_map_eq_ok (Json.exists_getInt (Json.isNumeric_of_isNumber hv)) _
  iterate 7 exact exists_map_eq_ok (Json.exists_getFloat (Json.isNumeric_of_isNumber hv)) _
  obtain ⟨name, rfl⟩ := Json.exists_getString hv
  exact ⟨_, rfl⟩

/-- A layer entry that is an object or `null` is decoded. -/
theorem setState_eq_ok {state : Json N} (hs : state.isIndexable = true) (p : LayerProperties N) :
    ∃ p', setState state p = .ok p' := by
  have key : ∀ (l : List (Json N → LayerProperties N → Except String (LayerProperties N))),
      (∀ a ∈ l, a ∈ assignments) → ∀ p, ∃ p', l.foldlM (fun p assign => assign state p) p =
        (.ok p' : Except String (LayerProperties N)) := by
    intro l
    induction l with
    | nil => exact fun _ p => ⟨p, rfl⟩
    | cons a l ih =>
      intro hl p
      obtain ⟨p₁, h₁⟩ := exists_assignments_eq_ok hs (hl a List.mem_cons_self) p
      obtain ⟨p₂, h₂⟩ := ih (fun b hb => hl b (List.mem_cons_of_mem a hb)) p₁
      exact ⟨p₂, by rw [List.foldlM_cons, h₁]; exact h₂⟩
  exact key assignments (fun _ ha => ha) p

/-- Any other layer entry throws at the first key that is looked up. -/
theorem setState_eq_error {state : Json N} (hs : state.isIndexable = false) (p : LayerProperties N) :
    setState state p = .error state.indexError := by
  rw [setState, assignments, List.foldlM_cons, assignWhen, Json.index_of_not_isIndexable hs]
  rfl

end LayerProperties

/-! ### Visual instances -/

structure VisualInstancesProperties (N : Type := ℚ) extends Properties N, SizeProperties where
  zoomX : N
  zoomY : N
  centerX : N
  centerY : N
  x : ℤ
  y : ℤ
  layer : Int32
  column : Int32
  retrigger : Bool
  isPlaying : Bool
  percentagePlayed : N
  startPercentage : N
  endPercentage : N
  effectsDrywet : N
  loopMode : UInt32
  direction : UInt32
  triggerMode : UInt32
  beatSnap : Bool
  isTriggered : Bool
  openedTimestamp : ℕ
  lastPlayedTimestamp : ℕ
  deriving DecidableEq

namespace VisualInstancesProperties

/-- `VisualInstancesProperties::setLimits`. -/
def floatPropertiesLimitsVisualInstances : String → FloatLimits
  | "zoomX" => ⟨0, 8⟩
  | "zoomY" => ⟨0, 8⟩
  | "centerX" => ⟨-2, 2⟩
  | "centerY" => ⟨-2, 2⟩
  | "startPercentage" => ⟨0, 1⟩
  | "endPercentage" => ⟨0, 1⟩
  | "percentagePlayed" => ⟨0, 1⟩
  | "effects_drywet" => ⟨0, 1⟩
  | _ => ⟨0, 0⟩

/-- A `Boolean` is an `unsigned char`, which JSON stores as a number. -/
def booleanState (b : Bool) : Json N := .int (if b then 1 else 0)

/-- The members `getState` adds to those of the inherited classes. -/
def ownState (p : VisualInstancesProperties N) : List (String × Json N) :=
  [("zoomX", .float p.zoomX), ("zoomY", .float p.zoomY), ("centerX", .float p.centerX),
    ("centerY", .float p.centerY), ("x", .int p.x), ("y", .int p.y),
    ("layer", .int p.layer.toInt), ("column", .int p.column.toInt),
    ("retrigger", booleanState p.retrigger), ("isPlaying", booleanState p.isPlaying),
    ("percentagePlayed", .float p.percentagePlayed),
    ("startPercentage", .float p.startPercentage), ("endPercentage", .float p.endPercentage),
    ("effects_drywet", .float p.effectsDrywet), ("loopMode", .int p.loopMode.toNat),
    ("direction", .int p.direction.toNat), ("beatSnap", booleanState p.beatSnap),
    ("isTriggered", booleanState p.isTriggered), ("openedTimestamp", .int p.openedTimestamp),
    ("lastPlayedTimestamp", .int p.lastPlayedTimestamp), ("triggerMode", .int p.triggerMode.toNat)]

def getState (p : VisualInstancesProperties N) : Json N :=
  p.ownState.foldl (fun state m => state.insert m.1 m.2)
    (p.toSizeProperties.getState p.toProperties.getState)

/-- The options of a toggle button group. -/
def optionMembers (options : List (String × ℤ)) : List (String × Json N) :=
  [("options", .arr (options.map fun o => .obj [("title", .str o.1), ("value", .int o.2)]))]

variable [FloatNumber N]

/-- `VisualInstancesProperties::VisualInstancesProperties`, with the values of `reset`. No
constructor sets the two timestamps. -/
def new (u : Uninitialised) (width height : UInt32) : VisualInstancesProperties N where
  toProperties := Properties.new
  width := width
  height := height
  zoomX := ofRat 1
  zoomY := ofRat 1
  centerX := ofRat 0
  centerY := ofRat 0
  x := 0
  y := 0
  layer := 0
  column := 0
  retrigger := true
  isPlaying := false
  percentagePlayed := ofRat 0
  startPercentage := ofRat 0
  endPercentage := ofRat 1
  effectsDrywet := ofRat (1 / 2)
  loopMode := 1
  direction := 1
  triggerMode := 1
  beatSnap := false
  isTriggered := false
  openedTimestamp := u.openedTimestamp
  lastPlayedTimestamp := u.lastPlayedTimestamp

variable (p : VisualInstancesProperties N)

/-- `VisualInstancesProperties::reset`, which leaves the inherited members alone. -/
def reset : VisualInstancesProperties N :=
  { p with
    zoomX := ofRat 1
    zoomY := ofRat 1
    centerX := ofRat 0
    centerY := ofRat 0
    x := 0
    y := 0
    retrigger := true
    effectsDrywet := ofRat (1 / 2)
    isPlaying := false
    startPercentage := ofRat 0
    endPercentage := ofRat 1
    percentagePlayed := ofRat 0
    loopMode := 1
    direction := 1
    beatSnap := false
    isTriggered := false
    triggerMode := 1
    column := 0
    layer := 0 }

/-- The members `getFullState` adds to those of the inherited classes. -/
def ownFullState : List (String × Json N) :=
  let limits := fun key => limitMembers (floatPropertiesLimitsVisualInstances key)
  [("zoomX", fullStateEntry "Zoom X" .float (.float p.zoomX) (limits "zoomX")),
    ("zoomY", fullStateEntry "Zoom Y" .float (.float p.zoomY) (limits "zoomY")),
    ("centerX", fullStateEntry "Center X" .float (.float p.centerX) (limits "centerX")),
    ("centerY", fullStateEntry "Center Y" .float (.float p.centerY) (limits "centerY")),
    ("startPercentage",
      fullStateEntry "Start" .float (.float p.startPercentage) (limits "startPercentage")),
    ("endPercentage",
      fullStateEntry "End" .float (.float p.endPercentage) (limits "endPercentage")),
    ("percentagePlayed", fullStateEntry "Percentage Played" .float (.float p.percentagePlayed)
      (limits "percentagePlayed")),
    ("effects_drywet",
      fullStateEntry "Dry/Wet" .float (.float p.effectsDrywet) (limits "effects_drywet")),
    ("loopMode", fullStateEntry "Loop Mode" .toggleButtonGroup (.int p.loopMode.toNat)
      (optionMembers [("Normal", 1), ("Ping Pong", 2), ("Inverse", 3)])),
    ("direction", fullStateEntry "Direction" .toggleButtonGroup (.int p.direction.toNat)
      (optionMembers [("Left", 1), ("Right", 2)])),
    ("triggerMode", fullStateEntry "Trigger Mode" .toggleButtonGroup (.int p.triggerMode.toNat)
      (optionMembers [("Mouse Down", 1), ("Mouse Up", 2), ("Piano", 3)]))]

def getFullState : Json N :=
  p.ownFullState.foldl (fun state m => state.insert m.1 m.2)
    (p.toSizeProperties.getFullState p.toProperties.getFullState)

end VisualInstancesProperties

end ArbutusEngine
