import ArbutusEngine.LayerUpdates
import ArbutusEngine.Lib.Binary32

/-!
# Sequences of writes to a layer

`LayerWrite` collects everything that writes to the properties of a layer: the setters, the three
writers that dispatch on a name, and `reset`. They are composed of the setters, of which those of
the numbers clamp. The clamp compares its argument with the limits; what is no number is neither
smaller nor larger, and is stored. The limits that the engine publishes therefore hold along a run
of writes exactly if none of them gives such a value to a colour, other than to red and green in a
document, which are rounded before.

## Main definitions

* `LayerWrite`, `LayerWrite.run`, and `LayerWrite.apply`, its effect on the properties.
* `LayerNumber`, `LayerNumber.WithinPublished`: the numbers that have published limits.
* `LayerWrite.NumberAccepted`: the write gives a number to every colour that it writes.

## Main results

* `LayerWrite.final?_run`: a write changes nothing but the properties of its layer.
* `LayerWrite.blendMode_apply`: the blend mode after a write.
* `LayerWrite.inLimits_apply_iff`: one write.
* `layer_numbers_in_limits_iff`: every run.
-/

open Exec
open FloatNumber (ofRat single IsNumber)

namespace ArbutusEngine

/-! ### Everything that writes to a layer -/

/-- A call that writes to the properties of a layer. -/
inductive LayerWrite (N : Type := ℚ) where
  | setName (input : String)
  | setAlpha (input : N)
  | setRed (input : N)
  | setGreen (input : N)
  | setBlue (input : N)
  | setBrightness (input : N)
  | setContrast (input : N)
  | setSaturation (input : N)
  | setWidth (width : UInt32)
  | setHeight (height : UInt32)
  | setBlendMode (mode : UInt32)
  | setBlurH (blur : UInt32)
  | setBlurV (blur : UInt32)
  | set (property : List UInt8) (value : N)
  | handleAction (parameter : List UInt8) (data : Json N)
  | setState (state : Json N)
  | reset

section writes

variable {N : Type} [FloatNumber N]

namespace LayerWrite

/-- A write to the layer at a position. The arguments of the setters are converted to `float`. -/
def run (n : ℕ) : LayerWrite N → ProgOver N Unit
  | setName input => Layer.updateProperties n fun p =>
      { p with toProperties := p.toProperties.setName input }
  | setAlpha input => Layer.updateProperties n fun p =>
      { p with toProperties := p.toProperties.setAlpha (single input) }
  | setRed input => Layer.updateProperties n fun p =>
      { p with toProperties := p.toProperties.setRed (single input) }
  | setGreen input => Layer.updateProperties n fun p =>
      { p with toProperties := p.toProperties.setGreen (single input) }
  | setBlue input => Layer.updateProperties n fun p =>
      { p with toProperties := p.toProperties.setBlue (single input) }
  | setBrightness input => Layer.updateProperties n fun p =>
      { p with toProperties := p.toProperties.setBrightness (single input) }
  | setContrast input => Layer.updateProperties n fun p =>
      { p with toProperties := p.toProperties.setContrast (single input) }
  | setSaturation input => Layer.updateProperties n fun p =>
      { p with toProperties := p.toProperties.setSaturation (single input) }
  | setWidth width => Layer.updateProperties n fun p =>
      { p with toSizeProperties := p.toSizeProperties.setWidth width N }
  | setHeight height => Layer.updateProperties n fun p =>
      { p with toSizeProperties := p.toSizeProperties.setHeight height N }
  | setBlendMode mode => Layer.updateProperties n fun p => p.setBlendMode mode
  | setBlurH blur => Layer.updateProperties n fun p => p.setBlurH blur
  | setBlurV blur => Layer.updateProperties n fun p => p.setBlurV blur
  | set property value => Layer.updateProperties n fun p => p.set property (single value)
  | handleAction parameter data => Layer.handleAction n parameter data
  | setState state => Layer.setState n state
  | reset => Layer.updateProperties n LayerProperties.reset

/-- What a write makes of the properties. A call that throws leaves them alone. -/
def apply : LayerWrite N → LayerProperties N → LayerProperties N
  | setName input, p => { p with toProperties := p.toProperties.setName input }
  | setAlpha input, p => LayerControl.alpha.write (single input) p
  | setRed input, p => LayerControl.red.write (single input) p
  | setGreen input, p => LayerControl.green.write (single input) p
  | setBlue input, p => LayerControl.blue.write (single input) p
  | setBrightness input, p => LayerControl.brightness.write (single input) p
  | setContrast input, p => LayerControl.contrast.write (single input) p
  | setSaturation input, p => LayerControl.saturation.write (single input) p
  | setWidth width, p => { p with toSizeProperties := p.toSizeProperties.setWidth width N }
  | setHeight height, p => { p with toSizeProperties := p.toSizeProperties.setHeight height N }
  | setBlendMode mode, p => p.setBlendMode mode
  | setBlurH blur, p => LayerControl.blurH.write (single (ofRat blur.toNat)) p
  | setBlurV blur, p => LayerControl.blurV.write (single (ofRat blur.toNat)) p
  | set property value, p => p.set property (single value)
  | handleAction parameter data, p =>
    match (data.index "value").bind Json.getFloat, hashSwitch Layer.actionCases parameter with
    | .ok value, some setter => setter p value
    | _, _ => p
  | setState state, p =>
    match p.setState state with
    | .ok p' => p'
    | .error _ => p
  | reset, p => p.reset

variable {n : ℕ} {s : EngineState N} {layer : Layer N}

/-- A write returns or throws, and changes nothing but the properties of its layer. -/
theorem final?_run (hlayer : s.layersList[n]? = some layer) (w : LayerWrite N) :
    (w.run n s).final? = some (s.mapProperties n w.apply) := by
  cases w with
  | handleAction parameter data =>
    cases hvalue : (data.index "value").bind Json.getFloat with
    | error e =>
      have hrun : run n (handleAction parameter data) s = .threw (.exception e) s := by
        simp [run, Layer.handleAction, actionValue, hvalue]
      have happly : apply (handleAction parameter data) layer.properties = layer.properties := by
        simp only [apply, hvalue]
      rw [hrun, s.mapProperties_of_eq hlayer happly]
      rfl
    | ok value =>
      cases hsetter : hashSwitch (Layer.actionCases (N := N)) parameter with
      | none =>
        have hrun : run n (handleAction parameter data) s = .ok () s := by
          simp [run, Layer.handleAction, actionValue, hvalue, hsetter]
        have happly : apply (handleAction parameter data) layer.properties = layer.properties := by
          simp only [apply, hvalue, hsetter]
        rw [hrun, s.mapProperties_of_eq hlayer happly]
        rfl
      | some setter =>
        rw [run, Layer.handleAction_eq hlayer hvalue hsetter]
        exact congrArg some (s.mapProperties_congr hlayer (by simp only [apply, hvalue, hsetter]))
  | setState state =>
    cases hstate : layer.properties.setState state with
    | error e =>
      have hrun : run n (setState state) s = .threw (.exception e) s := by
        simp [run, Layer.setState, Layer.read, hlayer, hstate]
      have happly : apply (setState state) layer.properties = layer.properties := by
        simp only [apply, hstate]
      rw [hrun, s.mapProperties_of_eq hlayer happly]
      rfl
    | ok p =>
      rw [run, Layer.setState_of_eq_ok hlayer hstate]
      exact congrArg some (s.mapProperties_congr hlayer (by simp only [apply, hstate]))
  | _ =>
    rw [run, Layer.updateProperties_eq hlayer]
    rfl

end LayerWrite

/-! ### Names and titles -/

/-- The controls that `Properties::set` knows. -/
def LayerProperties.colourControls : List (String × LayerControl) :=
  [("alpha", .alpha), ("red", .red), ("green", .green), ("blue", .blue),
    ("brightness", .brightness), ("contrast", .contrast), ("saturation", .saturation)]

/-- The controls that `LayerProperties::set` knows beside them. -/
def LayerProperties.blurControls : List (String × LayerControl) :=
  [("blurH", .blurH), ("blurV", .blurV)]

/-- The controls that `Layer::handleAction` knows, by their titles. -/
def Layer.actionControls : List (String × List LayerControl) :=
  [("Alpha", [.alpha]), ("Brightness", [.brightness]), ("Contrast", [.contrast]),
    ("Saturation", [.saturation]), ("Red", [.red]), ("Green", [.green]), ("Blue", [.blue]),
    ("Blur", [.blurH, .blurV]), ("Horizontal Blur", [.blurH]), ("Vertical Blur", [.blurV])]

/-- What `Layer::handleAction` does to controls with its value. -/
def LayerControl.act (controls : List LayerControl) (p : LayerProperties N) (value : N) :
    LayerProperties N :=
  controls.foldl (fun p x => x.write (x.fromAction value) p) p

theorem Layer.hashSwitch_actionCases (parameter : List UInt8) :
    hashSwitch (actionCases (N := N)) parameter =
      (hashSwitch actionControls parameter).map LayerControl.act :=
  hashSwitch_map LayerControl.act actionControls parameter

/-- What `Properties::set` does to the properties of a layer. -/
theorem LayerProperties.set_colour (p : LayerProperties N) (property : List UInt8) (value : N) :
    { p with toProperties := p.toProperties.set property value } =
      (hashSwitch colourControls property).elim p fun x => x.write value p := by
  let lift : (Properties N → N → Properties N) → LayerProperties N → N → LayerProperties N :=
    fun set p value => { p with toProperties := set p.toProperties value }
  let write : LayerControl → LayerProperties N → N → LayerProperties N :=
    fun x p value => x.write value p
  have hmap : (hashSwitch Properties.setCases property).map lift =
      (hashSwitch colourControls property).map write :=
    (hashSwitch_map lift Properties.setCases property).symm.trans
      (hashSwitch_map write colourControls property)
  have hlift : { p with toProperties := p.toProperties.set property value } =
      ((hashSwitch Properties.setCases property).map lift).elim p fun f => f p value := by
    rw [Properties.set]
    cases hashSwitch (Properties.setCases (N := N)) property <;> rfl
  rw [hlift, hmap]
  exact Option.elim_map _

theorem LayerProperties.set_eq (p : LayerProperties N) (property : List UInt8) (value : N) :
    p.set property value =
      (hashSwitch blurControls property).elim id (fun x p => x.write (x.fromSet value) p)
        ((hashSwitch colourControls property).elim p fun x => x.write value p) := by
  have hcases : hashSwitch (setCases (N := N)) property =
      (hashSwitch blurControls property).map fun x p value => x.write (x.fromSet value) p :=
    hashSwitch_map (fun (x : LayerControl) (p : LayerProperties N) value =>
      x.write (x.fromSet value) p) blurControls property
  rw [set, hcases, set_colour]
  cases hashSwitch blurControls property <;> rfl

/-! ### The blend mode -/

/-- The blend mode that `Layer::setState` gives to the setter, if it does. -/
def LayerProperties.modeOf (state : Json N) : Option UInt32 :=
  if (state.field "blendMode").isNumber then
    some (LayerControl.intOf (state.field "blendMode")).toUInt32
  else none

/-- The blend mode that a write gives to the setter, if it does. -/
def LayerWrite.mode? : LayerWrite N → Option UInt32
  | setBlendMode mode => some mode
  | setState state => LayerProperties.modeOf state
  | _ => none

theorem LayerControl.blendMode_write (x : LayerControl) (v : N) (p : LayerProperties N) :
    (x.write v p).blendMode = p.blendMode := by
  cases x <;> rfl

theorem LayerControl.blendMode_act (controls : List LayerControl) (p : LayerProperties N)
    (value : N) : (act controls p value).blendMode = p.blendMode := by
  induction controls generalizing p with
  | nil => rfl
  | cons x rest ih => exact (ih _).trans (x.blendMode_write _ p)

theorem LayerProperties.blendMode_set (p : LayerProperties N) (property : List UInt8) (value : N) :
    (p.set property value).blendMode = p.blendMode := by
  rw [set_eq]
  cases hashSwitch blurControls property <;> cases hashSwitch colourControls property <;>
    simp [LayerControl.blendMode_write]

/-- What a document says about a property. -/
theorem LayerProperties.get_setState {state : Json N} {p p' : LayerProperties N}
    (hp : p.setState state = .ok p') (k : LayerKey) : LayerKey.get p' k =
      if k.admits (state.field k.key) then k.stored (state.field k.key) else LayerKey.get p k := by
  have hs : state.isIndexable = true := by
    by_contra hs
    rw [setState_eq_error (Bool.eq_false_iff.mpr hs)] at hp
    cases hp
  rw [setState_eq hs] at hp
  have hfields := congrFun (LayerKey.record.fields_update LayerKey.mem_all
    (LayerKey.patch state) p) k
  rw [Except.ok.inj hp, Patch.apply, LayerKey.patch] at hfields
  refine Eq.trans hfields ?_
  split_ifs <;> rfl

/-- A document that is not decoded has no members. -/
theorem LayerProperties.field_of_setState_error {state : Json N} {p : LayerProperties N}
    {e : String} (hstate : p.setState state = .error e) (key : String) :
    state.field key = .null := by
  have hs : state.isIndexable = false := by
    by_contra hs
    obtain ⟨p', hp'⟩ := setState_eq_ok (Bool.not_eq_false _ ▸ hs) p
    rw [hp'] at hstate
    cases hstate
  cases state <;> first | rfl | exact Bool.noConfusion hs

/-- A write leaves the blend mode alone, or stores what its setter makes of the mode. -/
theorem LayerWrite.blendMode_apply (w : LayerWrite N) (p : LayerProperties N) :
    (w.apply p).blendMode = w.mode?.elim p.blendMode LayerKey.storedBlendMode := by
  cases w with
  | set property value => exact p.blendMode_set property _
  | handleAction parameter data =>
    rw [apply, Layer.hashSwitch_actionCases]
    cases (data.index "value").bind Json.getFloat with
    | error e => rfl
    | ok value =>
      cases hashSwitch Layer.actionControls parameter with
      | none => rfl
      | some controls => exact LayerControl.blendMode_act controls p value
  | setState state =>
    rw [apply, mode?, LayerProperties.modeOf]
    cases hstate : p.setState state with
    | error e =>
      rw [LayerProperties.field_of_setState_error hstate]
      rfl
    | ok p' =>
      have hget := LayerProperties.get_setState hstate .blendMode
      by_cases hnumber : (state.field "blendMode").isNumber = true
      · rw [if_pos hnumber]
        exact hget.trans (if_pos hnumber)
      · rw [if_neg hnumber]
        exact hget.trans (if_neg hnumber)
  | reset => rfl
  | _ => rfl

/-- The blend mode that its setter stores of a mode. -/
def LayerProperties.clampedMode (mode : UInt32) : ℕ :=
  if mode.toInt32 < 0 then 1 else min mode.toNat 5

theorem LayerProperties.toNat_storedBlendMode (mode : UInt32) :
    (LayerKey.storedBlendMode mode).toNat = clampedMode mode := by
  simp only [LayerKey.storedBlendMode, clampedMode]
  by_cases hneg : mode.toInt32 < 0
  · rw [if_pos hneg, if_pos hneg]
    rfl
  · rw [if_neg hneg, if_neg hneg]
    split_ifs with hgt
    · have hgt : 5 < mode.toNat := UInt32.lt_iff_toNat_lt.mp hgt
      exact (min_eq_right hgt.le).symm
    · have hle : mode.toNat ≤ 5 := not_lt.mp fun h => hgt (UInt32.lt_iff_toNat_lt.mpr h)
      exact (min_eq_left hle).symm

theorem LayerProperties.clampedMode_le (mode : UInt32) : clampedMode mode ≤ 5 := by
  rw [clampedMode]
  split_ifs
  · decide
  · exact min_le_right _ _

/-- The setter of the blend mode lets every mode through that is not above the largest one. -/
theorem LayerProperties.clampedMode_of_le {mode : UInt32} (hle : mode.toNat ≤ 5) :
    clampedMode mode = mode.toNat := by
  have hint : mode.toInt32.toInt = mode.toNat :=
    BitVec.toInt_eq_toNat_of_lt (by rw [UInt32.toBitVec_toInt32, UInt32.toNat_toBitVec]; omega)
  have hnonneg : ¬mode.toInt32 < 0 := by
    rw [Int32.lt_iff_toInt_lt, hint]
    exact not_lt.mpr (Int.natCast_nonneg _)
  rw [clampedMode, if_neg hnonneg, min_eq_left hle]

theorem LayerProperties.clampedMode_eq_zero_iff {mode : UInt32} :
    clampedMode mode = 0 ↔ mode = 0 := by
  constructor
  · intro hzero
    rw [clampedMode] at hzero
    split_ifs at hzero
    exact UInt32.toNat_inj.mp ((Nat.min_eq_zero_iff.mp hzero).resolve_right (by decide))
  · rintro rfl
    exact clampedMode_of_le (by decide)

theorem LayerProperties.blendMode_apply_le (w : LayerWrite N) {p : LayerProperties N}
    (hp : p.blendMode.toNat ≤ 5) : (w.apply p).blendMode.toNat ≤ 5 := by
  rw [w.blendMode_apply]
  cases w.mode? with
  | none => exact hp
  | some mode => exact (toNat_storedBlendMode mode).trans_le (clampedMode_le mode)

/-! ### The published limits -/

/-- A number among the properties of a layer that has published limits. -/
inductive LayerNumber where
  | control (x : LayerControl)
  | width
  | height
  deriving DecidableEq

namespace LayerNumber

def name : LayerNumber → String
  | control x => x.name
  | width => "width"
  | height => "height"

def get : LayerNumber → LayerProperties N → N
  | control x, p => x.get p
  | width, p => ofRat p.width.toNat
  | height, p => ofRat p.height.toNat

/-- The number lies between the minimum and the maximum that `getFullState` reports for it. -/
def WithinPublished (x : LayerNumber) (p : LayerProperties N) : Prop :=
  ∃ lo hi, ((p.getFullState.field x.name).field "min").number? = some lo ∧
    ((p.getFullState.field x.name).field "max").number? = some hi ∧ lo ≤ x.get p ∧ x.get p ≤ hi

/-- The limits that are published. -/
def limits : LayerNumber → FloatLimits
  | control x => x.limits
  | width => SizeProperties.widthLimits
  | height => SizeProperties.heightLimits

/-- The number lies within its limits. -/
def Within (x : LayerNumber) (p : LayerProperties N) : Prop :=
  ofRat x.limits.min ≤ x.get p ∧ x.get p ≤ ofRat x.limits.max

theorem published (x : LayerNumber) (p : LayerProperties N) :
    ((p.getFullState.field x.name).field "min").number? = some (ofRat x.limits.min) ∧
      ((p.getFullState.field x.name).field "max").number? = some (ofRat x.limits.max) := by
  cases x with
  | control x =>
    cases x <;>
      simp [name, LayerControl.name, LayerProperties.getFullState, SizeProperties.getFullState,
        Properties.getFullState, Json.field_insert, Json.field_obj, Json.member, fullStateEntry,
        limitMembers, limits, LayerControl.limits, Json.number?]
  | width =>
    simp [name, LayerProperties.getFullState, SizeProperties.getFullState, Json.field_insert,
      Json.field_obj, Json.member, fullStateEntry, limits, SizeProperties.widthLimits,
      SizeProperties.maxWidth, Json.number?]
  | height =>
    simp [name, LayerProperties.getFullState, SizeProperties.getFullState, Json.field_insert,
      Json.field_obj, Json.member, fullStateEntry, limits, SizeProperties.heightLimits,
      SizeProperties.maxHeight, Json.number?]

theorem withinPublished_iff {x : LayerNumber} {p : LayerProperties N} :
    x.WithinPublished p ↔ x.Within p := by
  simp [WithinPublished, Within, x.published p]

end LayerNumber

/-- Every number of a layer lies within its limits. -/
def LayerProperties.InLimits (p : LayerProperties N) : Prop := ∀ x : LayerNumber, x.Within p

theorem LayerControl.limits_le (x : LayerControl) : x.limits.min ≤ x.limits.max := by
  cases x <;> decide +kernel

variable [LawfulFloatNumber N]

/-- What is converted to an integer and back is a number. -/
theorem isNumber_single_ofRat (q : ℚ) : IsNumber (single (ofRat q) : N) :=
  LawfulFloatNumber.isNumber_single.mpr (isNumber_ofRat q)

/-- A control is within its limits after it has been written exactly if it has been given a number.
The write leaves the other numbers alone. -/
theorem LayerNumber.within_write_iff (y : LayerNumber) (x : LayerControl) (v : N)
    (p : LayerProperties N) :
    y.Within (x.write v p) ↔ if y = .control x then IsNumber v else y.Within p := by
  split_ifs with hy
  · rw [hy, Within, get, LayerControl.write, LayerControl.get_put]
    exact ofClamp_mem_iff x.limits_le
  · cases y with
    | control y =>
      have hne : y ≠ x := fun h => hy (congrArg LayerNumber.control h)
      rw [Within, get, LayerControl.write, LayerControl.get_put_of_ne hne]
      rfl
    | width => cases x <;> exact Iff.rfl
    | height => cases x <;> exact Iff.rfl

theorem LayerControl.inLimits_write_iff {p : LayerProperties N} (hp : p.InLimits)
    (x : LayerControl) (v : N) : (x.write v p).InLimits ↔ IsNumber v := by
  refine ⟨fun h => ?_, fun hv y => ?_⟩
  · simpa using (LayerNumber.within_write_iff (.control x) x v p).mp (h _)
  · rw [LayerNumber.within_write_iff]
    split_ifs
    · exact hv
    · exact hp y

/-- A size is clamped to an integer. -/
theorem SizeProperties.toNat_clampTo_le (size : UInt32) {limit : ℕ} (hlimit : limit < 2 ^ 32) :
    (clampTo ⟨0, limit⟩ size N).toNat ≤ limit := by
  have hlimits : (0 : ℚ) ≤ limit := Nat.cast_nonneg limit
  obtain ⟨hlo, hhi⟩ := (ofClamp_mem_iff hlimits).mpr (isNumber_single_ofRat (N := N) size.toNat)
  obtain ⟨r, hr⟩ := LawfulFloatNumber.exists_ofRat hlo hhi
  rw [hr, LawfulFloatNumber.ofRat_le_ofRat] at hlo hhi
  rw [clampTo, hr, floatToUnsigned_ofRat]
  exact toNat_floatToUnsigned_le hlo hhi hlimit

/-- A size that is not above its limit is left alone, if the limit is small. -/
theorem SizeProperties.clampTo_of_le {size : UInt32} {limit : ℕ} (hlimit : limit ≤ 2 ^ 24)
    (hsize : size.toNat ≤ limit) : clampTo ⟨0, limit⟩ size N = size := by
  have hsmall : |(size.toNat : ℤ)| ≤ 2 ^ 24 := by
    rw [abs_of_nonneg (Int.natCast_nonneg _)]
    exact_mod_cast hsize.trans hlimit
  have hsingle : single (ofRat size.toNat : N) = ofRat size.toNat := by
    exact_mod_cast LawfulFloatNumber.single_ofRat hsmall
  have hlo : (ofRat 0 : N) ≤ ofRat size.toNat :=
    LawfulFloatNumber.ofRat_le_ofRat.mpr (Nat.cast_nonneg _)
  have hhi : (ofRat size.toNat : N) ≤ ofRat limit :=
    LawfulFloatNumber.ofRat_le_ofRat.mpr (Nat.cast_le.mpr hsize)
  rw [clampTo, hsingle, ofClamp_of_between hlo hhi, floatToUnsigned_ofRat, floatToUnsigned_toNat]

/-- A size stays below its limit, whether a document changes it or not. -/
theorem SizeProperties.toNat_ite_clampTo_le {size old new : UInt32} {limit : ℕ} {c : Prop}
    [Decidable c] (hlimit : limit < 2 ^ 32)
    (hnew : new = if c then clampTo ⟨0, limit⟩ size N else old) (hold : old.toNat ≤ limit) :
    new.toNat ≤ limit := by
  rw [hnew]
  split_ifs
  · exact toNat_clampTo_le size hlimit
  · exact hold

theorem ofRat_natCast_mem_iff {n limit : ℕ} :
    (ofRat (0 : ℚ) : N) ≤ ofRat n ∧ (ofRat n : N) ≤ ofRat limit ↔ n ≤ limit := by
  rw [LawfulFloatNumber.ofRat_le_ofRat, LawfulFloatNumber.ofRat_le_ofRat, Nat.cast_le]
  exact and_iff_right (Nat.cast_nonneg n)

theorem LayerNumber.within_width_iff {p : LayerProperties N} :
    LayerNumber.width.Within p ↔ p.width.toNat ≤ 1920 :=
  ofRat_natCast_mem_iff

theorem LayerNumber.within_height_iff {p : LayerProperties N} :
    LayerNumber.height.Within p ↔ p.height.toNat ≤ 1080 :=
  ofRat_natCast_mem_iff

/-- The setters of the sizes clamp, and leave the other numbers alone. -/
theorem LayerProperties.InLimits.setWidth {p : LayerProperties N} (hp : p.InLimits)
    (width : UInt32) :
    InLimits { p with toSizeProperties := p.toSizeProperties.setWidth width N } := by
  intro x
  cases x with
  | control x => cases x <;> exact hp (.control _)
  | width =>
    rw [LayerNumber.within_width_iff]
    exact SizeProperties.toNat_clampTo_le width (by decide : 1920 < 2 ^ 32)
  | height => exact hp .height

theorem LayerProperties.InLimits.setHeight {p : LayerProperties N} (hp : p.InLimits)
    (height : UInt32) :
    InLimits { p with toSizeProperties := p.toSizeProperties.setHeight height N } := by
  intro x
  cases x with
  | control x => cases x <;> exact hp (.control _)
  | width => exact hp .width
  | height =>
    rw [LayerNumber.within_height_iff]
    exact SizeProperties.toNat_clampTo_le height (by decide : 1080 < 2 ^ 32)

/-! ### Numbers that are accepted -/

/-- The control is a blur, of which the numbers are converted to integers. -/
def LayerControl.isBlur : LayerControl → Bool
  | blurH | blurV => true
  | _ => false

/-- The colours that a document writes without rounding them. -/
def LayerControl.unrounded : List LayerControl := [blue, alpha, brightness, contrast, saturation]

/-- The write gives a number to every colour that it writes, other than to red and green in a
document. -/
def LayerWrite.NumberAccepted : LayerWrite N → Prop
  | setAlpha input => IsNumber input
  | setRed input => IsNumber input
  | setGreen input => IsNumber input
  | setBlue input => IsNumber input
  | setBrightness input => IsNumber input
  | setContrast input => IsNumber input
  | setSaturation input => IsNumber input
  | set property value =>
    ∀ x, hashSwitch LayerProperties.colourControls property = some x → IsNumber value
  | handleAction parameter data =>
    ∀ value controls, (data.index "value").bind Json.getFloat = .ok value →
      hashSwitch Layer.actionControls parameter = some controls →
        ∀ x ∈ controls, x.isBlur = true ∨ IsNumber value
  | setState state =>
    ∀ x ∈ LayerControl.unrounded, ∀ v, (state.field x.name).number? = some v → IsNumber v
  | _ => True

omit [LawfulFloatNumber N] in
/-- Where everything is a number, everything is accepted. -/
theorem LayerWrite.numberAccepted_of_forall (h : ∀ v : N, IsNumber v) (w : LayerWrite N) :
    w.NumberAccepted := by
  cases w <;> simp [NumberAccepted, h]

section accepted

variable {p : LayerProperties N}

theorem LayerControl.isNumber_fromAction_iff (x : LayerControl) (v : N) :
    IsNumber (x.fromAction v) ↔ x.isBlur = true ∨ IsNumber v := by
  cases x with
  | blurH | blurV => exact iff_of_true (isNumber_single_ofRat _) (.inl rfl)
  | _ => exact (or_iff_right Bool.false_ne_true).symm

/-- After an action a control is within its limits if it was, or has been given a number. -/
theorem LayerControl.within_act_iff (y : LayerNumber) (controls : List LayerControl) (value : N) :
    ∀ p : LayerProperties N, y.Within (act controls p value) ↔
      if ∃ x ∈ controls, y = .control x then
        ∀ x ∈ controls, y = .control x → IsNumber (x.fromAction value)
      else y.Within p := by
  induction controls with
  | nil => exact fun p => by simp [act]
  | cons x rest ih =>
    intro p
    have hcons : act (x :: rest) p value = act rest (x.write (x.fromAction value) p) value := rfl
    rw [hcons, ih, LayerNumber.within_write_iff]
    by_cases hx : y = .control x
    · subst hx
      by_cases hmem : x ∈ rest
      · simp_all
      · have hrest : ∀ z ∈ rest, x ≠ z := fun z hz h => hmem (h ▸ hz)
        simp_all
    · simp [hx]

theorem LayerControl.inLimits_act_iff (hp : p.InLimits) (controls : List LayerControl) (value : N) :
    (act controls p value).InLimits ↔ ∀ x ∈ controls, x.isBlur = true ∨ IsNumber value := by
  simp only [← isNumber_fromAction_iff]
  constructor
  · intro h x hx
    have hwithin := (within_act_iff (.control x) controls value p).mp (h _)
    rw [if_pos ⟨x, hx, rfl⟩] at hwithin
    exact hwithin x hx rfl
  · intro h y
    rw [within_act_iff]
    split_ifs
    · exact fun x hx _ => h x hx
    · exact hp y

/-- No string is dispatched to a colour and to a blur, which is always given a number. -/
theorem LayerProperties.inLimits_set_iff (hp : p.InLimits) (property : List UInt8) (value : N) :
    (p.set property value).InLimits ↔
      ∀ x, hashSwitch colourControls property = some x → IsNumber value := by
  rw [set_eq]
  cases hblur : hashSwitch blurControls property with
  | none =>
    cases hashSwitch colourControls property with
    | none => simpa using hp
    | some x => simpa using LayerControl.inLimits_write_iff hp x value
  | some y =>
    have hcolour : hashSwitch colourControls property = none :=
      hashSwitch_eq_none (by decide +kernel) hblur
    obtain ⟨name, hmem, -⟩ := hashSwitch_mem hblur
    have hnumber : IsNumber (y.fromSet value) := by
      have htable : ∀ c ∈ blurControls, c.2.isBlur = true := by decide
      have hy := htable _ hmem
      cases y <;> first | exact isNumber_single_ofRat _ | exact Bool.noConfusion hy
    simpa [hcolour] using (LayerControl.inLimits_write_iff hp y _).mpr hnumber

/-- Resetting clamps the alpha and the blurs, and gives the other colours their defaults. -/
theorem LayerProperties.InLimits.reset (hp : p.InLimits) : p.reset.InLimits := by
  intro y
  cases y with
  | width => exact hp .width
  | height => exact hp .height
  | control y =>
    cases y with
    | alpha => exact (ofClamp_mem_iff zero_le_one).mpr (isNumber_ofRat 1)
    | blurH => exact (ofClamp_mem_iff LayerControl.blurH.limits_le).mpr (isNumber_single_ofRat 0)
    | blurV => exact (ofClamp_mem_iff LayerControl.blurV.limits_le).mpr (isNumber_single_ofRat 0)
    | red | green | blue | brightness | contrast | saturation =>
      exact ⟨LawfulFloatNumber.ofRat_le_ofRat.mpr (by decide +kernel),
        LawfulFloatNumber.ofRat_le_ofRat.mpr (by decide +kernel)⟩

omit [LawfulFloatNumber N] in
/-- What a document makes of a control. -/
theorem LayerControl.get_setState {state : Json N} {p' : LayerProperties N}
    (hp' : p.setState state = .ok p') (x : LayerControl) : x.get p' =
      if (state.field x.name).isNumber then
        ofClamp (x.fromState (state.field x.name)) (ofRat x.limits.min) (ofRat x.limits.max)
      else x.get p := by
  cases x with
  | alpha => exact LayerProperties.get_setState hp' .alpha
  | red => exact LayerProperties.get_setState hp' .red
  | green => exact LayerProperties.get_setState hp' .green
  | blue => exact LayerProperties.get_setState hp' .blue
  | brightness => exact LayerProperties.get_setState hp' .brightness
  | contrast => exact LayerProperties.get_setState hp' .contrast
  | saturation => exact LayerProperties.get_setState hp' .saturation
  | blurH => exact LayerProperties.get_setState hp' .blurH
  | blurV => exact LayerProperties.get_setState hp' .blurV

/-- What is read from a document is a number, unless it is none and is not rounded. -/
theorem LayerControl.isNumber_fromState_iff (x : LayerControl) {v : Json N} {y : N}
    (hy : v.number? = some y) : IsNumber (x.fromState v) ↔ (x ∈ unrounded → IsNumber y) := by
  have hfloat : IsNumber (floatOf v) ↔ IsNumber y := by
    rw [floatOf, Json.getFloat_of_number? hy]
    exact LawfulFloatNumber.isNumber_single
  cases x with
  | blurH | blurV =>
    exact iff_of_true (isNumber_single_ofRat _) fun h => absurd h (by decide)
  | red | green =>
    exact iff_of_true (isNumber_roundWithPrecision _ 2) fun h => absurd h (by decide)
  | _ => exact hfloat.trans ⟨fun h _ => h, fun h => h (by decide)⟩

theorem LayerProperties.inLimits_setState_iff (hp : p.InLimits) {state : Json N}
    {p' : LayerProperties N} (hp' : p.setState state = .ok p') :
    p'.InLimits ↔ ∀ x ∈ LayerControl.unrounded, ∀ v,
      (state.field x.name).number? = some v → IsNumber v := by
  have hcontrol : ∀ x : LayerControl, LayerNumber.Within (.control x) p' ↔
      (x ∈ LayerControl.unrounded → ∀ v, (state.field x.name).number? = some v → IsNumber v) := by
    intro x
    rw [LayerNumber.Within, LayerNumber.get, LayerControl.get_setState hp']
    split_ifs with hnumber
    · obtain ⟨y, hy⟩ := Json.isNumber_iff_number?.mp hnumber
      refine (ofClamp_mem_iff x.limits_le).trans ((x.isNumber_fromState_iff hy).trans ?_)
      simp [hy]
    · refine iff_of_true (hp (.control x)) fun _ v hv => ?_
      exact absurd (Json.isNumber_iff_number?.mpr ⟨v, hv⟩) hnumber
  have hwidth : LayerNumber.width.Within p' :=
    LayerNumber.within_width_iff.mpr (SizeProperties.toNat_ite_clampTo_le (by decide)
      (LayerProperties.get_setState hp' .width) (LayerNumber.within_width_iff.mp (hp .width)))
  have hheight : LayerNumber.height.Within p' :=
    LayerNumber.within_height_iff.mpr (SizeProperties.toNat_ite_clampTo_le (by decide)
      (LayerProperties.get_setState hp' .height) (LayerNumber.within_height_iff.mp (hp .height)))
  constructor
  · exact fun h x hx => (hcontrol x).mp (h _) hx
  · intro h y
    cases y with
    | control x => exact (hcontrol x).mpr (h x)
    | width => exact hwidth
    | height => exact hheight

/-- From within the limits, a write leads to within the limits exactly if its number is accepted. -/
theorem LayerWrite.inLimits_apply_iff (hp : p.InLimits) (w : LayerWrite N) :
    (w.apply p).InLimits ↔ w.NumberAccepted := by
  have hwrite : ∀ (x : LayerControl) (v : N), (x.write (single v) p).InLimits ↔ IsNumber v :=
    fun x v => (x.inLimits_write_iff hp _).trans LawfulFloatNumber.isNumber_single
  cases w with
  | setName input | setBlendMode mode =>
    refine iff_of_true (fun y => ?_) trivial
    cases y with
    | control y => cases y <;> exact hp (.control _)
    | width => exact hp .width
    | height => exact hp .height
  | setWidth width => exact iff_of_true (hp.setWidth width) trivial
  | setHeight height => exact iff_of_true (hp.setHeight height) trivial
  | setBlurH blur | setBlurV blur =>
    exact iff_of_true ((hwrite _ _).mpr (isNumber_ofRat _)) trivial
  | set property value =>
    refine (p.inLimits_set_iff hp property _).trans ?_
    simp only [LawfulFloatNumber.isNumber_single, NumberAccepted]
  | handleAction parameter data =>
    rw [apply, Layer.hashSwitch_actionCases, NumberAccepted]
    cases (data.index "value").bind Json.getFloat with
    | error e => simpa using hp
    | ok value =>
      cases hashSwitch Layer.actionControls parameter with
      | none => simpa using hp
      | some controls => simpa using LayerControl.inLimits_act_iff hp controls value
  | setState state =>
    rw [apply]
    cases hstate : p.setState state with
    | error e =>
      refine iff_of_true hp fun x _ v hv => ?_
      rw [LayerProperties.field_of_setState_error hstate] at hv
      cases hv
    | ok p' => exact LayerProperties.inLimits_setState_iff hp hstate
  | reset => exact iff_of_true hp.reset trivial
  | _ => exact hwrite _ _

/-- The properties of a layer that has just been constructed: its size is that of the mixer, which
`EngineProperties::getInstance` has just reset, or the largest one, if there is no engine. -/
def LayerProperties.Constructed (p : LayerProperties N) : Prop :=
  (∃ (h : Host) (e : EngineProperties),
    p = .new (e.setDefaults h).mixerWidth (e.setDefaults h).mixerHeight) ∨ p = .new 1920 1080

omit [LawfulFloatNumber N] in
theorem LayerProperties.Constructed.blendMode (hp : p.Constructed) : p.blendMode = blendAdd := by
  obtain ⟨_, _, rfl⟩ | rfl := hp <;> rfl

theorem LayerProperties.inLimits_new {width height : UInt32} (hwidth : width.toNat ≤ 1920)
    (hheight : height.toNat ≤ 1080) : (new width height : LayerProperties N).InLimits := by
  intro y
  cases y with
  | width => exact LayerNumber.within_width_iff.mpr hwidth
  | height => exact LayerNumber.within_height_iff.mpr hheight
  | control y =>
    cases y <;> exact ⟨LawfulFloatNumber.ofRat_le_ofRat.mpr (by decide +kernel),
      LawfulFloatNumber.ofRat_le_ofRat.mpr (by decide +kernel)⟩

theorem LayerProperties.Constructed.inLimits (hp : p.Constructed) : p.InLimits := by
  obtain ⟨h, e, rfl⟩ | rfl := hp
  · exact inLimits_new (by decide : (640 : UInt32).toNat ≤ 1920)
      (by decide : (480 : UInt32).toNat ≤ 1080)
  · exact inLimits_new (by decide) (by decide)

end accepted

end writes

/-! ### Runs of writes -/

/-- There is a layer at a position, and its properties satisfy the predicate. -/
def EngineState.LayerHas {N : Type} (n : ℕ) (P : LayerProperties N → Prop) (s : EngineState N) :
    Prop :=
  ∃ layer, s.layersList[n]? = some layer ∧ P layer.properties

/-- Along every run of writes to a new layer, its numbers lie between the limits that the engine
publishes, exactly if every write is accepted. -/
theorem layer_numbers_in_limits_iff {n : ℕ} {s : EngineState Machine} {layer : Layer Machine}
    (hlayer : s.layersList[n]? = some layer) (hnew : layer.properties.Constructed)
    (ws : List (LayerWrite Machine)) :
    Along (LayerWrite.run n)
        (fun _ _ t => t.LayerHas n fun p => ∀ x : LayerNumber, x.WithinPublished p) ws s ↔
      ∀ w ∈ ws, w.NumberAccepted := by
  simp only [LayerNumber.withinPublished_iff]
  refine along_iff_forall (I := EngineState.LayerHas n LayerProperties.InLimits) ?_ ws
    ⟨layer, hlayer, hnew.inLimits⟩
  rintro w s ⟨layer, hlayer, hp⟩
  have hafter : ∀ P : LayerProperties Machine → Prop,
      (s.mapProperties n w.apply).LayerHas n P ↔ P (w.apply layer.properties) := by
    intro P
    simp [EngineState.LayerHas, s.getElem?_mapProperties hlayer]
  exact ⟨_, LayerWrite.final?_run hlayer w, (hafter _).trans (w.inLimits_apply_iff hp), id⟩

/-- Numbers outside the limits, written in three ways to a new layer, and a red that is none in a
document. -/
theorem layer_numbers_in_limits_after_writes :
    Along (LayerWrite.run 0)
      (fun _ _ t => t.LayerHas 0 fun p => ∀ x : LayerNumber, x.WithinPublished p)
      [.setAlpha (.finite 7), .set (bytes "blurH") .nan,
        .handleAction (bytes "Contrast") (.obj [("value", .float (.infinite true))]),
        .setState (.obj [("width", .int 9999), ("red", .float .nan)])]
      ((EngineState.init Machine).pushLayer (.plain Machine) (.new 640 480)) := by
  refine (layer_numbers_in_limits_iff rfl (.inl ⟨.plain, .zero, rfl⟩) _).mpr ?_
  simp only [List.forall_mem_cons, List.not_mem_nil, false_imp_iff, implies_true, and_true]
  refine ⟨(by decide +kernel : IsNumber (Machine.finite 7)), ?_, ?_, ?_⟩
  · intro x hx
    cases hx
  · intro value controls hvalue hcontrols x hx
    obtain rfl := Except.ok.inj hvalue
    exact .inr (by decide +kernel)
  · intro x hx v hv
    simp only [LayerControl.unrounded, List.mem_cons, List.not_mem_nil, or_false] at hx
    rcases hx with rfl | rfl | rfl | rfl | rfl <;> cases hv

/-- A client stores what is no number in the alpha of a new layer. -/
theorem alpha_outside_published_limits :
    ¬Along (LayerWrite.run 0)
      (fun _ _ t => t.LayerHas 0 fun p => ∀ x : LayerNumber, x.WithinPublished p)
      [.setAlpha .nan]
      ((EngineState.init Machine).pushLayer (.plain Machine) (.new 640 480)) := by
  rintro ⟨t, ht, ⟨layer, hlayer, hp⟩, -⟩
  obtain rfl := Option.some.inj ht
  obtain rfl := Option.some.inj hlayer
  have halpha := (LayerNumber.withinPublished_iff.mp (hp (.control .alpha))).1
  exact absurd halpha (by decide +kernel)

end ArbutusEngine
