import ArbutusEngine.LayerWrites

/-!
# Writing the properties of an instance

Clients write the numbers and the modes of an instance through `VisualInstance::handleAction`, which
dispatches on the title of a control, through the two functions `VisualInstancesProperties::set`,
which dispatch on a name, or through the setters. The setters of the zoom and of the centre store
what they are given, without the clamp that the others apply, and the clamp stores what is no number
as it is. A run of writes therefore stays within the published limits exactly if none of them gives
one of these four numbers a value outside, or another one no number; only the start of the window
ignores its value while it lies behind the end. The setters of the modes do not check their value
either; a run keeps to the declared modes exactly if it writes no other one.

## Main definitions

* `InstanceNumber`, `InstanceMode`: the numbers and the modes of an instance, with their setters.
* `InstanceWrite`, `InstanceWrite.run`: everything that writes to the properties of an instance.
* `InstanceWrite.NumberAccepted`, `InstanceWrite.ModeAccepted`.

## Main results

* `InstanceNumber.inLimits_set_iff`, `InstanceMode.modesDeclared_set_iff`: one setter.
* `InstanceWrite.inLimits_apply_iff`, `InstanceWrite.modesDeclared_apply_iff`: one write.
* `instance_numbers_in_limits_iff`: every run.
-/

open Exec
open FloatNumber (ofRat single IsNumber)

namespace ArbutusEngine

/-! ### Numbers and modes -/

/-- A number among the properties of an instance that has published limits. -/
inductive InstanceNumber where
  | alpha
  | red
  | green
  | blue
  | brightness
  | contrast
  | saturation
  | zoomX
  | zoomY
  | centerX
  | centerY
  | percentagePlayed
  | startPercentage
  | endPercentage
  | effectsDrywet
  deriving DecidableEq

section

variable {N : Type}

namespace InstanceNumber

def name : InstanceNumber → String
  | alpha => "alpha"
  | red => "red"
  | green => "green"
  | blue => "blue"
  | brightness => "brightness"
  | contrast => "contrast"
  | saturation => "saturation"
  | zoomX => "zoomX"
  | zoomY => "zoomY"
  | centerX => "centerX"
  | centerY => "centerY"
  | percentagePlayed => "percentagePlayed"
  | startPercentage => "startPercentage"
  | endPercentage => "endPercentage"
  | effectsDrywet => "effects_drywet"

def get : InstanceNumber → VisualInstancesProperties N → N
  | alpha, p => p.alpha
  | red, p => p.red
  | green, p => p.green
  | blue, p => p.blue
  | brightness, p => p.brightness
  | contrast, p => p.contrast
  | saturation, p => p.saturation
  | zoomX, p => p.zoomX
  | zoomY, p => p.zoomY
  | centerX, p => p.centerX
  | centerY, p => p.centerY
  | percentagePlayed, p => p.percentagePlayed
  | startPercentage, p => p.startPercentage
  | endPercentage, p => p.endPercentage
  | effectsDrywet, p => p.effectsDrywet

/-- The setter of the number. -/
def set [FloatNumber N] :
    InstanceNumber → VisualInstancesProperties N → N → VisualInstancesProperties N
  | alpha, p, v => { p with toProperties := p.toProperties.setAlpha v }
  | red, p, v => { p with toProperties := p.toProperties.setRed v }
  | green, p, v => { p with toProperties := p.toProperties.setGreen v }
  | blue, p, v => { p with toProperties := p.toProperties.setBlue v }
  | brightness, p, v => { p with toProperties := p.toProperties.setBrightness v }
  | contrast, p, v => { p with toProperties := p.toProperties.setContrast v }
  | saturation, p, v => { p with toProperties := p.toProperties.setSaturation v }
  | zoomX, p, v => p.setZoomX v
  | zoomY, p, v => p.setZoomY v
  | centerX, p, v => p.setCenterX v
  | centerY, p, v => p.setCenterY v
  | percentagePlayed, p, v => p.setPercentagePlayed v
  | startPercentage, p, v => p.setStartPercentage v
  | endPercentage, p, v => p.setEndPercentage v
  | effectsDrywet, p, v => p.setEffectMix v

/-- The limits that `getFullState` reports. -/
def limits : InstanceNumber → FloatLimits
  | alpha => Properties.floatPropertiesLimits "alpha"
  | red => Properties.floatPropertiesLimits "red"
  | green => Properties.floatPropertiesLimits "green"
  | blue => Properties.floatPropertiesLimits "blue"
  | brightness => Properties.floatPropertiesLimits "brightness"
  | contrast => Properties.floatPropertiesLimits "contrast"
  | saturation => Properties.floatPropertiesLimits "saturation"
  | x => VisualInstancesProperties.floatPropertiesLimitsVisualInstances x.name

/-- The number of a new instance. -/
def default : InstanceNumber → ℚ
  | alpha | brightness | contrast | saturation | zoomX | zoomY | endPercentage => 1
  | red | green | blue | centerX | centerY | percentagePlayed | startPercentage => 0
  | effectsDrywet => 1 / 2

theorem default_mem (x : InstanceNumber) : x.limits.min ≤ x.default ∧ x.default ≤ x.limits.max := by
  cases x <;> exact ⟨by decide +kernel, by decide +kernel⟩

/-- Whether the setter of the number keeps it within its limits by itself. -/
def isClamped : InstanceNumber → Bool
  | zoomX | zoomY | centerX | centerY => false
  | _ => true

/-- The setter can be given the value without leading out of the limits. That of the start does not
look at its value while the start lies behind the end. -/
def Accepts [FloatNumber N] : InstanceNumber → VisualInstancesProperties N → N → Prop
  | startPercentage, p, v => IsNumber v ∨ p.endPercentage < p.startPercentage
  | x, _, v => if x.isClamped then IsNumber v else ofRat x.limits.min ≤ v ∧ v ≤ ofRat x.limits.max

/-- The number lies within its limits. -/
def Within [FloatNumber N] (x : InstanceNumber) (p : VisualInstancesProperties N) : Prop :=
  ofRat x.limits.min ≤ x.get p ∧ x.get p ≤ ofRat x.limits.max

end InstanceNumber

variable [FloatNumber N]

/-- Every number of an instance lies within its limits. -/
def VisualInstancesProperties.InLimits (p : VisualInstancesProperties N) : Prop :=
  ∀ x : InstanceNumber, x.Within p

namespace InstanceNumber

variable {x y : InstanceNumber} {p : VisualInstancesProperties N} {v : N}

theorem get_set_of_ne (hne : y ≠ x) (p : VisualInstancesProperties N) (v : N) :
    y.get (x.set p v) = y.get p := by
  cases x <;> cases y <;> first | rfl | exact absurd rfl hne

variable [LawfulFloatNumber N]

theorem within_default (hx : x.get p = ofRat x.default) : x.Within p := by
  rw [Within, hx, LawfulFloatNumber.ofRat_le_ofRat, LawfulFloatNumber.ofRat_le_ofRat]
  exact x.default_mem

/-- The setters keep their number within the limits exactly if they accept the value. The
percentages are clamped to each other as well, which are within the same limits. -/
theorem within_set_iff (hp : p.InLimits) : x.Within (x.set p v) ↔ x.Accepts p v := by
  cases x with
  | startPercentage =>
    obtain ⟨⟨hs, -⟩, he, -⟩ := And.intro (hp startPercentage) (hp endPercentage)
    have hlt := LawfulFloatNumber.not_lt (LawfulFloatNumber.isNumber_of_le he).2
      (LawfulFloatNumber.isNumber_of_le hs).2
    simp only [Within, set, get, VisualInstancesProperties.setStartPercentage, Accepts]
    split_ifs with hle
    · exact (ofClamp_mem_iff zero_le_one).trans (or_iff_left (hlt.mpr hle)).symm
    · exact iff_of_true (hp endPercentage) (.inr (not_not.mp (mt hlt.mp hle)))
  | endPercentage =>
    have hmem : ofRat 0 ≤ ofClamp v (ofRat 0) (ofRat 1) ∧ ofClamp v (ofRat 0) (ofRat 1) ≤ ofRat 1 ↔
      IsNumber v := ofClamp_mem_iff zero_le_one
    simp only [Within, set, get, VisualInstancesProperties.setEndPercentage]
    change _ ↔ IsNumber v
    split_ifs with hlt
    · refine iff_of_true (hp startPercentage) ?_
      exact isNumber_ofClamp_iff.mp (LawfulFloatNumber.isNumber_of_lt hlt).1
    · exact hmem
  | percentagePlayed => exact ofClamp_mem_iff zero_le_one
  | zoomX | zoomY | centerX | centerY => exact Iff.rfl
  | _ => exact ofClamp_mem_iff (by decide +kernel)

/-- From within the limits, a setter leads to within the limits exactly if it accepts its value. -/
theorem inLimits_set_iff (hp : p.InLimits) : (x.set p v).InLimits ↔ x.Accepts p v := by
  refine ⟨fun h => (within_set_iff hp).mp (h x), fun h y => ?_⟩
  by_cases hyx : y = x
  · subst hyx
    exact (within_set_iff hp).mpr h
  · rw [Within, get_set_of_ne hyx]
    exact hp y

end InstanceNumber

/-- A mode among the properties of an instance. -/
inductive InstanceMode where
  | direction
  | loopMode
  | triggerMode
  deriving DecidableEq

namespace InstanceMode

def get : InstanceMode → VisualInstancesProperties N → UInt32
  | direction, p => p.direction
  | loopMode, p => p.loopMode
  | triggerMode, p => p.triggerMode

/-- The setter of the mode, given a number that has been cast to the enumeration. -/
def set : InstanceMode → VisualInstancesProperties N → UInt32 → VisualInstancesProperties N
  | direction, p, v => p.setDirection v
  | loopMode, p, v => p.setLoopMode v
  | triggerMode, p, v => p.setTriggerMode v

/-- The enumerators of `PlayheadDirection`, `LoopMode` and `TriggerMode`. -/
def declared : InstanceMode → List UInt32
  | direction => [1, 2]
  | loopMode => [1, 2, 3]
  | triggerMode => [1, 2, 3]

end InstanceMode

/-- Every mode of an instance is one that its enumeration declares. -/
def VisualInstancesProperties.ModesDeclared (p : VisualInstancesProperties N) : Prop :=
  ∀ m : InstanceMode, m.get p ∈ m.declared

namespace InstanceMode

variable {m : InstanceMode} {p : VisualInstancesProperties N} {v : UInt32}

omit [FloatNumber N] in
/-- From declared modes, a setter leads to declared modes exactly if it is given one. -/
theorem modesDeclared_set_iff (hp : p.ModesDeclared) :
    (m.set p v).ModesDeclared ↔ v ∈ m.declared := by
  have hself : m.get (m.set p v) = v := by cases m <;> rfl
  refine ⟨fun h => hself ▸ h m, fun h m' => ?_⟩
  by_cases hm : m' = m
  · subst hm
    rwa [hself]
  · have hother : m'.get (m.set p v) = m'.get p := by
      cases m <;> cases m' <;> first | rfl | exact absurd rfl hm
    rw [hother]
    exact hp m'

/-- The modes are not among the numbers. -/
theorem inLimits_set (hp : p.InLimits) (m : InstanceMode) (v : UInt32) : (m.set p v).InLimits := by
  intro x
  cases m <;> cases x <;> exact hp _

end InstanceMode

theorem InstanceNumber.modesDeclared_set {p : VisualInstancesProperties N} (hp : p.ModesDeclared)
    (x : InstanceNumber) (v : N) : (x.set p v).ModesDeclared := by
  intro m
  cases x <;> cases m <;> exact hp _

/-! ### Everything that writes to an instance -/

/-- What a control of an instance is about. -/
inductive InstanceControl where
  | number (x : InstanceNumber)
  | mode (m : InstanceMode)
  deriving DecidableEq

/-- What `VisualInstance::handleAction` does with its value: a mode is cast from the rounded
value. -/
def InstanceControl.act :
    InstanceControl → VisualInstancesProperties N → N → VisualInstancesProperties N
  | number x, p, value => x.set p value
  | mode m, p, value => m.set p (floatToUnsigned (FloatNumber.round value))

/-- The controls that `VisualInstance::handleAction` knows, by their titles. -/
def VisualInstance.actionControls : List (String × InstanceControl) :=
  [("Alpha", .number .alpha), ("Brightness", .number .brightness),
    ("Contrast", .number .contrast), ("Saturation", .number .saturation), ("Red", .number .red),
    ("Green", .number .green), ("Blue", .number .blue), ("Zoom X", .number .zoomX),
    ("Zoom Y", .number .zoomY), ("Center X", .number .centerX), ("Center Y", .number .centerY),
    ("Start", .number .startPercentage), ("End", .number .endPercentage),
    ("Played", .number .percentagePlayed), ("Direction", .mode .direction),
    ("Loop Mode", .mode .loopMode)]

/-- The numbers that `Properties::set` knows. -/
def VisualInstancesProperties.colourNumbers : List (String × InstanceNumber) :=
  [("alpha", .alpha), ("red", .red), ("green", .green), ("blue", .blue),
    ("brightness", .brightness), ("contrast", .contrast), ("saturation", .saturation)]

/-- The numbers that `VisualInstancesProperties::set` knows beside them. -/
def VisualInstancesProperties.ownNumbers : List (String × InstanceNumber) :=
  [("zoomX", .zoomX), ("zoomY", .zoomY), ("centerX", .centerX), ("centerY", .centerY),
    ("percentagePlayed", .percentagePlayed), ("startPercentage", .startPercentage),
    ("endPercentage", .endPercentage), ("effects_drywet", .effectsDrywet)]

/-- The modes that `VisualInstancesProperties::set` knows. -/
def VisualInstancesProperties.modes : List (String × InstanceMode) :=
  [("direction", .direction), ("loopMode", .loopMode), ("triggerMode", .triggerMode)]

theorem VisualInstance.hashSwitch_actionCases (parameter : List UInt8) :
    hashSwitch (actionCases (N := N)) parameter =
      (hashSwitch actionControls parameter).map InstanceControl.act :=
  hashSwitch_map InstanceControl.act actionControls parameter

/-- What `Properties::set` does to the properties of an instance. -/
theorem VisualInstancesProperties.set_colour (p : VisualInstancesProperties N)
    (property : List UInt8) (value : N) :
    { p with toProperties := p.toProperties.set property value } =
      (hashSwitch colourNumbers property).elim p fun x => x.set p value := by
  let lift : (Properties N → N → Properties N) →
      VisualInstancesProperties N → N → VisualInstancesProperties N :=
    fun set p value => { p with toProperties := set p.toProperties value }
  have hmap : (hashSwitch Properties.setCases property).map lift =
      (hashSwitch colourNumbers property).map InstanceNumber.set :=
    (hashSwitch_map lift Properties.setCases property).symm.trans
      (hashSwitch_map InstanceNumber.set colourNumbers property)
  have hlift : { p with toProperties := p.toProperties.set property value } =
      ((hashSwitch Properties.setCases property).map lift).elim p fun f => f p value := by
    rw [Properties.set]
    cases hashSwitch (Properties.setCases (N := N)) property <;> rfl
  rw [hlift, hmap]
  exact Option.elim_map _

theorem VisualInstancesProperties.set_eq (p : VisualInstancesProperties N) (property : List UInt8)
    (value : N) :
    p.set property value =
      (hashSwitch ownNumbers property).elim id (fun x p => x.set p value)
        ((hashSwitch colourNumbers property).elim p fun x => x.set p value) := by
  have hcases : hashSwitch (setCases (N := N)) property =
      (hashSwitch ownNumbers property).map InstanceNumber.set :=
    hashSwitch_map InstanceNumber.set ownNumbers property
  rw [set, hcases, set_colour]
  cases hashSwitch ownNumbers property <;> rfl

omit [FloatNumber N] in
theorem VisualInstancesProperties.setUnsigned_eq (p : VisualInstancesProperties N)
    (property : List UInt8) (value : UInt32) :
    p.setUnsigned property value = (hashSwitch modes property).elim p fun m => m.set p value := by
  have hcases : hashSwitch (setUnsignedCases (N := N)) property =
      (hashSwitch modes property).map InstanceMode.set :=
    hashSwitch_map InstanceMode.set modes property
  rw [setUnsigned, hcases]
  cases hashSwitch modes property <;> rfl

namespace VisualInstance

variable {a : Addr} {s : EngineState N} {i : VisualInstance N}

/-- A call on the properties of the instance at an address. -/
def updateProperties (a : Addr) (f : VisualInstancesProperties N → VisualInstancesProperties N) :
    ProgOver N Unit :=
  update a fun i => { i with properties := f i.properties }

omit [FloatNumber N] in
theorem final?_updateProperties (hi : s.instances.get? a = some i)
    (f : VisualInstancesProperties N → VisualInstancesProperties N) :
    ∃ t, (updateProperties a f s).final? = some t ∧
      t.instances.get? a = some { i with properties := f i.properties } ∧
      t.layersList = s.layersList := by
  refine ⟨{ s with instances := s.instances.set a { i with properties := f i.properties } },
    ?_, ?_, rfl⟩
  · rw [updateProperties, update_eq hi]
    rfl
  · simp [s.instances.get?_set hi]

theorem handleAction_eq {parameter : List UInt8} {data : Json N} {value : N}
    (hvalue : (data.index "value").bind Json.getFloat = .ok value) {c : InstanceControl}
    (hc : hashSwitch actionControls parameter = some c) :
    handleAction a parameter data = updateProperties a fun p => c.act p value := by
  simp only [handleAction, actionValue, hvalue, hashSwitch_actionCases, hc]
  rfl

end VisualInstance

/-- A call that writes to the properties of an instance. -/
inductive InstanceWrite (N : Type := ℚ) where
  | setNumber (x : InstanceNumber) (val : N)
  | setMode (m : InstanceMode) (val : UInt32)
  | setName (input : String)
  | setWidth (width : UInt32)
  | setHeight (height : UInt32)
  | setLayer (layer : Int32)
  | setColumn (column : Int32)
  | setRetrigger (val : Bool)
  | setIsPlaying (val : Bool)
  | setBeatSnap (val : Bool)
  | setIsTriggered (val : Bool)
  | setOpenedTimestampToNow (h : Host)
  | setLastPlayedTimestampToNow (h : Host)
  | reset
  | set (property : List UInt8) (value : N)
  | setUnsigned (property : List UInt8) (value : UInt32)
  | handleAction (parameter : List UInt8) (data : Json N)

namespace InstanceWrite

/-- What a write makes of the properties. The arguments of the setters are converted to `float`. An
action that throws leaves the properties alone. -/
def apply : InstanceWrite N → VisualInstancesProperties N → VisualInstancesProperties N
  | setNumber x val, p => x.set p (single val)
  | setMode m val, p => m.set p val
  | setName input, p => { p with toProperties := p.toProperties.setName input }
  | setWidth width, p => { p with toSizeProperties := p.toSizeProperties.setWidth width N }
  | setHeight height, p => { p with toSizeProperties := p.toSizeProperties.setHeight height N }
  | setLayer layer, p => { p with layer := layer }
  | setColumn column, p => { p with column := column }
  | setRetrigger val, p => { p with retrigger := val }
  | setIsPlaying val, p => { p with isPlaying := val }
  | setBeatSnap val, p => { p with beatSnap := val }
  | setIsTriggered val, p => { p with isTriggered := val }
  | setOpenedTimestampToNow h, p => { p with openedTimestamp := h.ofGetElapsedTimeMillis.toNat }
  | setLastPlayedTimestampToNow h, p =>
    { p with lastPlayedTimestamp := h.ofGetElapsedTimeMillis.toNat }
  | reset, p => p.reset
  | set property value, p => p.set property (single value)
  | setUnsigned property value, p => p.setUnsigned property value
  | handleAction parameter data, p =>
    match (data.index "value").bind Json.getFloat with
    | .ok value =>
      (hashSwitch VisualInstance.actionControls parameter).elim p fun c => c.act p value
    | .error _ => p

/-- A write to the instance at an address. -/
def run (a : Addr) : InstanceWrite N → ProgOver N Unit
  | handleAction parameter data => VisualInstance.handleAction a parameter data
  | w => VisualInstance.updateProperties a w.apply

variable {a : Addr} {s : EngineState N} {i : VisualInstance N} {p : VisualInstancesProperties N}

/-- A write to a live instance returns or throws; it changes the properties of the instance and
leaves the layers alone. -/
theorem final?_run (hi : s.instances.get? a = some i) (w : InstanceWrite N) :
    ∃ t, (w.run a s).final? = some t ∧
      t.instances.get? a = some { i with properties := w.apply i.properties } ∧
      t.layersList = s.layersList := by
  cases w with
  | handleAction parameter data =>
    cases hvalue : (data.index "value").bind Json.getFloat with
    | error e =>
      refine ⟨s, ?_, ?_, rfl⟩
      · simp [run, VisualInstance.handleAction, actionValue, hvalue]
      · simpa only [apply, hvalue] using hi
    | ok value =>
      simp only [run, apply, hvalue]
      cases hcontrol : hashSwitch VisualInstance.actionControls parameter with
      | none =>
        refine ⟨s, ?_, hi, rfl⟩
        simp [VisualInstance.handleAction, actionValue, hvalue,
          VisualInstance.hashSwitch_actionCases, hcontrol]
      | some c =>
        rw [VisualInstance.handleAction_eq hvalue hcontrol]
        exact VisualInstance.final?_updateProperties hi fun p => c.act p value
  | _ => exact VisualInstance.final?_updateProperties hi _

/-- The write gives no number a value that its setter does not accept. -/
def NumberAccepted (p : VisualInstancesProperties N) : InstanceWrite N → Prop
  | setNumber x val => x.Accepts p (single val)
  | set property value =>
    (∀ x, hashSwitch VisualInstancesProperties.colourNumbers property = some x → IsNumber value) ∧
      ∀ x, hashSwitch VisualInstancesProperties.ownNumbers property = some x →
        x.Accepts p (single value)
  | handleAction parameter data =>
    ∀ value x, (data.index "value").bind Json.getFloat = .ok value →
      hashSwitch VisualInstance.actionControls parameter = some (.number x) → x.Accepts p value
  | _ => True

/-- The write stores no number in a mode that its enumeration does not declare. -/
def ModeAccepted : InstanceWrite N → Prop
  | setMode m val => val ∈ m.declared
  | setUnsigned property value =>
    ∀ m, hashSwitch VisualInstancesProperties.modes property = some m → value ∈ m.declared
  | handleAction parameter data =>
    ∀ value m, (data.index "value").bind Json.getFloat = .ok value →
      hashSwitch VisualInstance.actionControls parameter = some (.mode m) →
        floatToUnsigned (FloatNumber.round value) ∈ m.declared
  | _ => True

/-- What holds after the modes have been written by name. -/
theorem apply_setUnsigned_iff {P : VisualInstancesProperties N → Prop}
    {M : InstanceMode → UInt32 → Prop} (hp : P p) (hmode : ∀ m v, P (m.set p v) ↔ M m v)
    (property : List UInt8) (value : UInt32) : P ((setUnsigned property value).apply p) ↔
      ∀ m, hashSwitch VisualInstancesProperties.modes property = some m → M m value := by
  rw [apply, VisualInstancesProperties.setUnsigned_eq]
  cases hashSwitch VisualInstancesProperties.modes property with
  | none => simpa using hp
  | some m => simpa using hmode m value

/-- What holds after an action, which writes a number or a mode, or nothing at all. -/
theorem apply_handleAction_iff {P : VisualInstancesProperties N → Prop}
    {A : InstanceNumber → N → Prop} {M : InstanceMode → UInt32 → Prop} (hp : P p)
    (hnumber : ∀ x v, P (x.set p v) ↔ A x v) (hmode : ∀ m v, P (m.set p v) ↔ M m v)
    (parameter : List UInt8) (data : Json N) : P ((handleAction parameter data).apply p) ↔
      (∀ value x, (data.index "value").bind Json.getFloat = .ok value →
        hashSwitch VisualInstance.actionControls parameter = some (.number x) → A x value) ∧
      ∀ value m, (data.index "value").bind Json.getFloat = .ok value →
        hashSwitch VisualInstance.actionControls parameter = some (.mode m) →
          M m (floatToUnsigned (FloatNumber.round value)) := by
  rw [apply]
  cases (data.index "value").bind Json.getFloat with
  | error e => simpa using hp
  | ok value =>
    cases hashSwitch VisualInstance.actionControls parameter with
    | none => simpa using hp
    | some c =>
      cases c with
      | number x => simpa [InstanceControl.act] using hnumber x value
      | mode m => simpa [InstanceControl.act] using hmode m _

/-- From declared modes, a write leads to declared modes exactly if its mode is accepted. -/
theorem modesDeclared_apply_iff (hp : p.ModesDeclared) (w : InstanceWrite N) :
    (w.apply p).ModesDeclared ↔ w.ModeAccepted := by
  have hnumber : ∀ (x : InstanceNumber) (v : N), (x.set p v).ModesDeclared ↔ True :=
    fun x v => iff_of_true (x.modesDeclared_set hp v) trivial
  have hmode : ∀ (m : InstanceMode) (v : UInt32), (m.set p v).ModesDeclared ↔ v ∈ m.declared :=
    fun m v => m.modesDeclared_set_iff hp
  cases w with
  | setMode m val => exact hmode m val
  | setUnsigned property value => exact apply_setUnsigned_iff hp hmode property value
  | handleAction parameter data =>
    have haction := apply_handleAction_iff hp hnumber hmode parameter data
    exact haction.trans (and_iff_right fun _ _ _ _ => trivial)
  | setNumber x val => exact hnumber x _
  | set property value =>
    refine iff_of_true ?_ trivial
    rw [apply, VisualInstancesProperties.set_eq]
    cases hashSwitch VisualInstancesProperties.ownNumbers property <;>
      cases hashSwitch VisualInstancesProperties.colourNumbers property <;>
      simp [InstanceNumber.modesDeclared_set, hp]
  | reset =>
    refine iff_of_true (fun m => ?_) trivial
    cases m <;> exact List.mem_cons_self
  | _ =>
    refine iff_of_true (fun m => ?_) trivial
    cases m <;> exact hp _

variable [LawfulFloatNumber N]

/-- From within the limits, a write leads to within the limits exactly if its number is accepted. -/
theorem inLimits_apply_iff (hp : p.InLimits) (w : InstanceWrite N) :
    (w.apply p).InLimits ↔ w.NumberAccepted p := by
  have hmode : ∀ (m : InstanceMode) (v : UInt32), (m.set p v).InLimits ↔ True :=
    fun m v => iff_of_true (m.inLimits_set hp v) trivial
  cases w with
  | setNumber x val => exact x.inLimits_set_iff hp
  | set property value =>
    rw [apply, VisualInstancesProperties.set_eq, NumberAccepted]
    cases hown : hashSwitch VisualInstancesProperties.ownNumbers property with
    | none =>
      cases hx : hashSwitch VisualInstancesProperties.colourNumbers property with
      | none => simpa using hp
      | some x =>
        obtain ⟨name, hmem, -⟩ := hashSwitch_mem hx
        have haccepts : x.Accepts p (single value) ↔ IsNumber value := by
          refine Iff.trans ?_ LawfulFloatNumber.isNumber_single
          simp only [VisualInstancesProperties.colourNumbers, List.mem_cons, List.not_mem_nil,
            or_false, Prod.mk.injEq] at hmem
          rcases hmem with ⟨-, rfl⟩ | ⟨-, rfl⟩ | ⟨-, rfl⟩ | ⟨-, rfl⟩ | ⟨-, rfl⟩ | ⟨-, rfl⟩ |
            ⟨-, rfl⟩
          all_goals exact Iff.rfl
        simpa using (x.inLimits_set_iff hp).trans haccepts
    | some y =>
      have hcolour : hashSwitch VisualInstancesProperties.colourNumbers property = none :=
        hashSwitch_eq_none (by decide +kernel) hown
      simpa [hcolour] using y.inLimits_set_iff hp
  | handleAction parameter data =>
    have haction := apply_handleAction_iff hp (fun x v => x.inLimits_set_iff (v := v) hp) hmode
      parameter data
    exact haction.trans (and_iff_left fun _ _ _ _ => trivial)
  | reset =>
    refine iff_of_true (fun x => ?_) trivial
    cases x with
    | alpha | red | green | blue | brightness | contrast | saturation => exact hp _
    | _ => exact InstanceNumber.within_default rfl
  | setMode m val => exact hmode m val
  | setUnsigned property value =>
    exact iff_of_true ((apply_setUnsigned_iff hp hmode property value).mpr fun _ _ => trivial)
      trivial
  | _ =>
    refine iff_of_true (fun x => ?_) trivial
    cases x <;> exact hp _

end InstanceWrite

/-! ### Runs of writes -/

/-- The number lies between the minimum and the maximum that `getFullState` reports for it. -/
def InstanceNumber.WithinPublished (x : InstanceNumber) (p : VisualInstancesProperties N) : Prop :=
  ∃ lo hi, ((p.getFullState.field x.name).field "min").number? = some lo ∧
    ((p.getFullState.field x.name).field "max").number? = some hi ∧ lo ≤ x.get p ∧ x.get p ≤ hi

theorem InstanceNumber.published (x : InstanceNumber) (p : VisualInstancesProperties N) :
    ((p.getFullState.field x.name).field "min").number? = some (ofRat x.limits.min) ∧
      ((p.getFullState.field x.name).field "max").number? = some (ofRat x.limits.max) := by
  cases x <;>
    simp [name, VisualInstancesProperties.getFullState, VisualInstancesProperties.ownFullState,
      SizeProperties.getFullState, Properties.getFullState, Json.field_insert, Json.field_obj,
      Json.member, fullStateEntry, limitMembers, limits, Json.number?]

theorem InstanceNumber.withinPublished_iff {x : InstanceNumber} {p : VisualInstancesProperties N} :
    x.WithinPublished p ↔ x.Within p := by
  simp [WithinPublished, Within, x.published p]

/-- The instance at an address is there, and its properties satisfy the predicate. -/
def EngineState.InstanceHas {N : Type} (a : Addr) (P : VisualInstancesProperties N → Prop)
    (s : EngineState N) : Prop :=
  ∃ i, s.instances.get? a = some i ∧ P i.properties

/-- A new instance starts with default numbers and modes. -/
theorem VisualInstance.instanceHas_new [LawfulFloatNumber N] {h : Host N} {visual : Addr}
    {layer column : UInt32} {s₀ s : EngineState N} {a : Addr}
    (hnew : new h visual layer column s₀ = .ok a s) :
    s.InstanceHas a fun p => p.InLimits ∧ p.ModesDeclared := by
  simp only [new, bind_run, EngineProperties.getInstance, Outcome.bind_ok, gets_run, modify_run,
    pure_run, Outcome.ok.injEq] at hnew
  obtain ⟨rfl, rfl⟩ := hnew
  refine ⟨_, Heap.get?_alloc_next _ _, fun x => ?_, fun m => ?_⟩
  · cases x <;> exact InstanceNumber.within_default rfl
  · cases m <;> exact List.mem_cons_self

end

/-- Along every run of writes to a new instance, its numbers lie between the limits that the engine
publishes, exactly if every write is accepted by the properties that it finds. -/
theorem instance_numbers_in_limits_iff {h : Host Machine} {visual : Addr} {layer column : UInt32}
    {s₀ s : EngineState Machine} {a : Addr}
    (hnew : VisualInstance.new h visual layer column s₀ = .ok a s)
    (ws : List (InstanceWrite Machine)) :
    Along (InstanceWrite.run a)
        (fun _ _ t => t.InstanceHas a fun p => ∀ x : InstanceNumber, x.WithinPublished p) ws s ↔
      Along (InstanceWrite.run a)
        (fun w s _ => s.InstanceHas a fun p => w.NumberAccepted p) ws s := by
  simp only [InstanceNumber.withinPublished_iff]
  have hlimits : s.InstanceHas a VisualInstancesProperties.InLimits := by
    obtain ⟨i, hi, hlimits, -⟩ := VisualInstance.instanceHas_new hnew
    exact ⟨i, hi, hlimits⟩
  refine along_congr (I := EngineState.InstanceHas a VisualInstancesProperties.InLimits) ?_
    (fun _ _ _ _ _ _ ht => ht) hlimits
  rintro w - s t ⟨i, hi, hp⟩ ht
  obtain ⟨u, hu, hget, -⟩ := InstanceWrite.final?_run hi w
  obtain rfl := Option.some.inj (ht.symm.trans hu)
  simp only [EngineState.InstanceHas, hget, hi, Option.some.injEq, exists_eq_left']
  exact w.inLimits_apply_iff hp

/-- Accepted numbers, and numbers that are clamped. -/
theorem instance_numbers_in_limits_after_writes :
    ∃ a s, VisualInstance.new (.plain Machine) 0 0 0 (.init Machine) = .ok a s ∧
      Along (InstanceWrite.run a)
        (fun _ _ t => t.InstanceHas a fun p => ∀ x : InstanceNumber, x.WithinPublished p)
        [.setNumber .zoomX (.finite (8 + 1 / 10 ^ 10)), .set (bytes "alpha") (.infinite false),
          .handleAction (bytes "Center X") (.obj [("value", .int (-1))])] s := by
  refine ⟨_, _, rfl, (instance_numbers_in_limits_iff rfl _).mpr ?_⟩
  refine ⟨_, rfl, ⟨_, rfl, ?_⟩, _, rfl, ⟨_, rfl, ?_, ?_⟩, _, rfl, ⟨_, rfl, ?_⟩, trivial⟩
  · exact ⟨by decide +kernel, by decide +kernel⟩
  · exact fun _ _ => by decide +kernel
  · intro x hx
    cases hx
  · intro value x hvalue hx
    obtain rfl := Except.ok.inj hvalue
    obtain rfl : InstanceNumber.centerX = x :=
      InstanceControl.number.inj (Option.some.inj hx)
    exact ⟨by decide +kernel, by decide +kernel⟩

/-- A client sets the zoom of a new instance to nine, while the published maximum is eight. -/
theorem zoom_outside_published_limits :
    ∃ a s, VisualInstance.new (.plain Machine) 0 0 0 (.init Machine) = .ok a s ∧
      ¬Along (InstanceWrite.run a)
        (fun _ _ t => t.InstanceHas a fun p => ∀ x : InstanceNumber, x.WithinPublished p)
        [.handleAction (bytes "Zoom X") (.obj [("value", .int 9)])] s := by
  refine ⟨_, _, rfl, ?_⟩
  rintro ⟨t, ht, ⟨i, hi, hp⟩, -⟩
  obtain rfl := Option.some.inj ht
  obtain rfl := Option.some.inj hi
  have hzoom := (InstanceNumber.withinPublished_iff.mp (hp .zoomX)).2
  exact absurd hzoom (by decide +kernel)

end ArbutusEngine
