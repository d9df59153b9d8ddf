import ArbutusEngine.Model.Actions
import ArbutusEngine.Rounding

/-!
# Three writers of the properties of a layer

A layer property is written by name in three places: `Layer::handleAction` dispatches on the title
of its control, `LayerProperties::set` on its name, and `Layer::setState` looks the name up in a
JSON object. All of them end in the setter of the property, which clamps, but they convert the
number in different ways before. `LayerControl` lists the properties that all three write, and says
for each what its setter is given; the three agree exactly where these numbers agree after the
clamp.

## Main definitions

* `LayerControl`, with what each of the three writers hands to the setter.
* `LayerControl.ConversionsDefined`: C++ defines the conversions that the writers make.
* `LayerControl.Agree`, `LayerControl.Agreeable`: the writers agree, and when they do.

## Main results

* `LayerControl.agree_iff_clamped`: agreement is a matter of the clamped numbers.
* `layer_writers_agree_iff`: when the three writers agree.
-/

open Exec
open FloatNumber (ofRat single)

namespace ArbutusEngine

/-! ### Three writers -/

/-- A property of a layer that an action, a name and a document can write. -/
inductive LayerControl where
  | alpha
  | red
  | green
  | blue
  | brightness
  | contrast
  | saturation
  | blurH
  | blurV
  deriving DecidableEq

namespace LayerControl

variable {N : Type}

/-- The name of the property, in `LayerProperties::set` and in documents. -/
def name : LayerControl → String
  | alpha => "alpha"
  | red => "red"
  | green => "green"
  | blue => "blue"
  | brightness => "brightness"
  | contrast => "contrast"
  | saturation => "saturation"
  | blurH => "blurH"
  | blurV => "blurV"

/-- The title of the property, in `Layer::handleAction` and in `getFullState`. -/
def title : LayerControl → String
  | alpha => "Alpha"
  | red => "Red"
  | green => "Green"
  | blue => "Blue"
  | brightness => "Brightness"
  | contrast => "Contrast"
  | saturation => "Saturation"
  | blurH => "Horizontal Blur"
  | blurV => "Vertical Blur"

/-- The limits that the setter clamps to. -/
def limits : LayerControl → FloatLimits
  | blurH | blurV => LayerProperties.blurLimits
  | x => Properties.floatPropertiesLimits x.name

def get : LayerControl → LayerProperties N → N
  | alpha, p => p.alpha
  | red, p => p.red
  | green, p => p.green
  | blue, p => p.blue
  | brightness, p => p.brightness
  | contrast, p => p.contrast
  | saturation, p => p.saturation
  | blurH, p => p.blurH
  | blurV, p => p.blurV

/-- The properties with one of them replaced. -/
def put : LayerControl → N → LayerProperties N → LayerProperties N
  | alpha, v, p => { p with alpha := v }
  | red, v, p => { p with red := v }
  | green, v, p => { p with green := v }
  | blue, v, p => { p with blue := v }
  | brightness, v, p => { p with brightness := v }
  | contrast, v, p => { p with contrast := v }
  | saturation, v, p => { p with saturation := v }
  | blurH, v, p => { p with blurH := v }
  | blurV, v, p => { p with blurV := v }

/-- What the setter of the property does with the number it is given. -/
def write [FloatNumber N] (x : LayerControl) (v : N) (p : LayerProperties N) :
    LayerProperties N :=
  x.put (ofClamp v (ofRat x.limits.min) (ofRat x.limits.max)) p

@[simp] theorem get_put (x : LayerControl) (v : N) (p : LayerProperties N) :
    x.get (x.put v p) = v := by
  cases x <;> rfl

theorem get_put_of_ne {x y : LayerControl} (hne : y ≠ x) (v : N) (p : LayerProperties N) :
    y.get (x.put v p) = y.get p := by
  cases x <;> cases y <;> first | rfl | exact absurd rfl hne

theorem write_eq_write_iff {x : LayerControl} {v w : ℚ} {p : LayerProperties} :
    x.write v p = x.write w p ↔
      ofClamp v x.limits.min x.limits.max = ofClamp w x.limits.min x.limits.max := by
  constructor
  · intro h
    simpa [write] using congrArg x.get h
  · exact fun h => congrArg (fun v => x.put v p) h

section

variable [FloatNumber N]

/-- What `Layer::handleAction` gives to the setter: a blur is converted to `unsigned int`. -/
def fromAction : LayerControl → N → N
  | blurH, v | blurV, v => single (ofRat (floatToUnsigned v).toNat)
  | _, v => v

/-- What `LayerProperties::set` gives to the setter: a blur is rounded. -/
def fromSet : LayerControl → N → N
  | blurH, v | blurV, v => single (ofRat (floatToUnsigned (FloatNumber.round v)).toNat)
  | _, v => v

/-- `get<int>` of a number. -/
def intOf (v : Json N) : Int32 := v.getInt.toOption.getD 0

/-- `get<float>` of a number. -/
def floatOf (v : Json N) : N := v.getFloat.toOption.getD (ofRat 0)

/-- What `Layer::setState` gives to the setter: a blur is read as an `int` and converted to
`unsigned int`, red and green are rounded to two decimals. -/
def fromState : LayerControl → Json N → N
  | blurH, v | blurV, v => single (ofRat (intOf v).toUInt32.toNat)
  | red, v | green, v => roundWithPrecision (floatOf v) 2
  | _, v => floatOf v

end

end LayerControl

section

variable {N : Type}

/-- The state with the properties of the layer at a position changed. -/
def EngineState.mapProperties (n : ℕ) (f : LayerProperties N → LayerProperties N)
    (s : EngineState N) : EngineState N :=
  { s with layersList := s.layersList.modify n fun layer =>
      { layer with properties := f layer.properties } }

theorem EngineState.getElem?_mapProperties {n : ℕ} {s : EngineState N} {layer : Layer N}
    (hlayer : s.layersList[n]? = some layer) (f : LayerProperties N → LayerProperties N) :
    (s.mapProperties n f).layersList[n]? =
      some { layer with properties := f layer.properties } := by
  simp [mapProperties, hlayer]

/-- Only what is made of the properties of that layer matters. -/
theorem EngineState.mapProperties_congr {n : ℕ} {s : EngineState N} {layer : Layer N}
    (hlayer : s.layersList[n]? = some layer)
    {f g : LayerProperties N → LayerProperties N}
    (hfg : f layer.properties = g layer.properties) :
    s.mapProperties n f = s.mapProperties n g := by
  have hlist :
      s.layersList.modify n (fun layer => { layer with properties := f layer.properties }) =
        s.layersList.modify n (fun layer => { layer with properties := g layer.properties }) := by
    apply List.ext_getElem?
    intro k
    rw [List.getElem?_modify, List.getElem?_modify]
    split_ifs with hk
    · subst hk
      simp [hlayer, hfg]
    · rfl
  rw [EngineState.mapProperties, hlist]
  rfl

theorem EngineState.mapProperties_of_eq {n : ℕ} {s : EngineState N} {layer : Layer N}
    (hlayer : s.layersList[n]? = some layer)
    {f : LayerProperties N → LayerProperties N}
    (hf : f layer.properties = layer.properties) : s.mapProperties n f = s := by
  rw [EngineState.mapProperties_congr hlayer (g := id) hf]
  exact congrArg (fun l => { s with layersList := l }) (List.modify_id n s.layersList)

namespace Layer

variable {n : ℕ} {s : EngineState N} {layer : Layer N}

/-- A call on the properties of the layer at a position. -/
def updateProperties (n : ℕ) (f : LayerProperties N → LayerProperties N) : ProgOver N Unit :=
  update n fun layer => { layer with properties := f layer.properties }

theorem updateProperties_eq (hlayer : s.layersList[n]? = some layer)
    (f : LayerProperties N → LayerProperties N) :
    updateProperties n f s = .ok () (s.mapProperties n f) :=
  update_eq hlayer fun layer => { layer with properties := f layer.properties }

theorem handleAction_eq [FloatNumber N] (hlayer : s.layersList[n]? = some layer)
    {parameter : List UInt8} {data : Json N} {value : N}
    (hvalue : (data.index "value").bind Json.getFloat = .ok value)
    {setter : LayerProperties N → N → LayerProperties N}
    (hsetter : hashSwitch actionCases parameter = some setter) :
    handleAction n parameter data s = .ok () (s.mapProperties n fun p => setter p value) := by
  simp only [handleAction, actionValue, hvalue, hsetter, bind_run, ofExcept_ok, pure_run,
    Outcome.bind_ok]
  exact updateProperties_eq hlayer fun p => setter p value

theorem setState_of_eq_ok [FloatNumber N] (hlayer : s.layersList[n]? = some layer)
    {state : Json N} {p : LayerProperties N}
    (hp : layer.properties.setState state = .ok p) :
    setState n state s = .ok () (s.mapProperties n fun _ => p) := by
  simp only [setState, read, hlayer, hp, bind_run, ofOption_some, ofExcept_ok, pure_run,
    Outcome.bind_ok]
  exact updateProperties_eq hlayer fun _ => p

/-- The properties of the layer at a position after a call, if that has returned. -/
def propertiesAfter (n : ℕ) :
    Outcome (EngineState N) Thrown Undefined Unit → Option (LayerProperties N)
  | .ok _ t => t.layersList[n]?.map Layer.properties
  | _ => none

theorem propertiesAfter_mapProperties (hlayer : s.layersList[n]? = some layer)
    (f : LayerProperties N → LayerProperties N) :
    propertiesAfter n (.ok () (s.mapProperties n f)) = some (f layer.properties) := by
  rw [propertiesAfter, s.getElem?_mapProperties hlayer]
  rfl

end Layer

end

namespace LayerControl

variable {x : LayerControl} {j : Json} {v : ℚ} {n : ℕ} {s : EngineState} {layer : Layer}

theorem hashSwitch_title (x : LayerControl) :
    hashSwitch Layer.actionCases (bytes x.title) =
      some fun (p : LayerProperties) v => x.write (x.fromAction v) p := by
  cases x <;> rfl

theorem set_name (x : LayerControl) (v : ℚ) (p : LayerProperties) :
    p.set (bytes x.name) v = x.write (x.fromSet v) p := by
  cases x <;> rfl

theorem floatOf_eq (hv : j.getFloat = .ok v) : floatOf j = v := by
  rw [floatOf, hv]
  rfl

theorem setState_name (x : LayerControl) (hj : j.isNumber = true)
    (p : LayerProperties) :
    p.setState (.obj [(x.name, j)]) = .ok (x.write (x.fromState j) p) := by
  cases j with
  | int n => cases x <;> rfl
  | float q => cases x <;> rfl
  | null | bool | str | arr | obj => exact Bool.noConfusion hj

/-- `Layer::handleAction`, `LayerProperties::set` and `Layer::setState` all return, and leave the
layer with the same properties. -/
def Agree (x : LayerControl) (j : Json) (v : ℚ) (n : ℕ) (s : EngineState) : Prop :=
  ∃ p, Layer.propertiesAfter n
      (Layer.handleAction n (bytes x.title) (.obj [("value", j)]) s) = some p ∧
    Layer.propertiesAfter n
      (Layer.updateProperties n (fun p => p.set (bytes x.name) v) s) = some p ∧
    Layer.propertiesAfter n (Layer.setState n (.obj [(x.name, j)]) s) = some p

/-- C++ defines the conversions of a number `v`, stored as `j`, to a blur: to `unsigned int`, both
truncated and rounded, and from a float to `int`. -/
structure BlurDefined (j : Json) (v : ℚ) : Prop where
  truncate_nonneg : 0 ≤ truncate v
  truncate_lt : truncate v < 2 ^ 32
  round_nonneg : 0 ≤ roundHalfAway v
  round_lt : roundHalfAway v < 2 ^ 32
  float_lt : ∀ q, j = .float q → truncate q < 2 ^ 31

/-- C++ defines every conversion that the three writers make of a number `v` that is stored as
`j`. -/
def ConversionsDefined : LayerControl → Json → ℚ → Prop
  | red, _, v | green, _, v =>
    -2 ^ 31 ≤ roundHalfAway (v * 100) ∧ roundHalfAway (v * 100) < 2 ^ 31
  | blurH, j, v | blurV, j, v => BlurDefined j v
  | _, _, _ => True

/-- The number is written alike by the three writers: red and green have at most two decimals or
are clamped, a blur is not rounded up below its maximum. -/
def Agreeable : LayerControl → ℚ → Prop
  | red, v | green, v => 1 ≤ |v| ∨ ∃ n : ℤ, v * 100 = n
  | blurH, v | blurV, v => v < 0 ∨ 10 ≤ v ∨ Int.fract v < 1 / 2
  | _, _ => True

/-- The number as the setter of the property stores it. -/
def clamped (x : LayerControl) (v : ℚ) : ℚ := ofClamp v x.limits.min x.limits.max

theorem agree_iff_clamped (hj : j.isNumber = true) (hv : j.getFloat = .ok v)
    (hlayer : s.layersList[n]? = some layer) :
    x.Agree j v n s ↔ x.clamped (x.fromAction v) = x.clamped (x.fromSet v) ∧
      x.clamped (x.fromSet v) = x.clamped (x.fromState j) := by
  have hvalue : ((Json.obj [("value", j)]).index "value").bind Json.getFloat = .ok v := hv
  rw [Agree, Layer.handleAction_eq hlayer hvalue x.hashSwitch_title,
    Layer.updateProperties_eq hlayer,
    Layer.setState_of_eq_ok hlayer (x.setState_name hj layer.properties)]
  simp only [Layer.propertiesAfter_mapProperties hlayer, set_name, Option.some.injEq]
  rw [clamped, clamped, clamped, ← write_eq_write_iff (p := layer.properties),
    ← write_eq_write_iff (p := layer.properties)]
  constructor
  · rintro ⟨p, haction, hset, hstate⟩
    exact ⟨haction.trans hset.symm, hset.trans hstate.symm⟩
  · rintro ⟨hset, hstate⟩
    exact ⟨_, rfl, hset.symm, (hset.trans hstate).symm⟩

/-- An action and a document give the truncated number to the setter of a blur, `set` the rounded
one. -/
theorem BlurDefined.conversions (hdefined : BlurDefined j v) (hj : j.isNumber = true)
    (hv : j.getFloat = .ok v) :
    ((floatToUnsigned v).toNat : ℚ) = truncate v ∧
      ((floatToUnsigned (roundHalfAway v : ℚ)).toNat : ℚ) = roundHalfAway v ∧
      ((intOf j).toUInt32.toNat : ℚ) = truncate v := by
  obtain ⟨ht0, htlt, hr0, hrlt, hfloat⟩ := hdefined
  have haction : ((floatToUnsigned v).toNat : ℚ) = truncate v := by
    exact_mod_cast toNat_floatToUnsigned ht0 htlt
  have hset : ((floatToUnsigned (roundHalfAway v : ℚ)).toNat : ℚ) = roundHalfAway v := by
    have h := toNat_floatToUnsigned (q := roundHalfAway v) (by simpa using hr0)
      (by simpa using hrlt)
    rw [truncate_intCast] at h
    exact_mod_cast h
  refine ⟨haction, hset, ?_⟩
  cases j with
  | int n =>
    obtain rfl : (n : ℚ) = v := Except.ok.inj hv
    rw [truncate_intCast] at ht0 htlt ⊢
    have hint : intOf (.int n : Json) = Int32.ofInt n := rfl
    rw [hint]
    exact_mod_cast toNat_toUInt32_ofInt ht0 htlt
  | float q =>
    obtain rfl : q = v := Except.ok.inj hv
    have hint : intOf (.float q : Json) = Int32.ofInt (truncate q) :=
      if_pos ⟨by omega, hfloat q rfl⟩
    rw [hint]
    exact_mod_cast toNat_toUInt32_ofInt ht0 htlt
  | null | bool | str | arr | obj => exact Bool.noConfusion hj

end LayerControl

/-- The three writers of a layer property agree on a number, of which the conversions are defined,
exactly if it is agreeable. -/
theorem layer_writers_agree_iff (x : LayerControl) {j : Json} {v : ℚ} (hj : j.isNumber = true)
    (hv : j.getFloat = .ok v) (hdefined : x.ConversionsDefined j v) {n : ℕ} {s : EngineState}
    {layer : Layer} (hlayer : s.layersList[n]? = some layer) :
    x.Agree j v n s ↔ x.Agreeable v := by
  rw [LayerControl.agree_iff_clamped hj hv hlayer]
  cases x with
  | alpha | blue | brightness | contrast | saturation =>
    simp [LayerControl.fromAction, LayerControl.fromSet, LayerControl.fromState,
      LayerControl.floatOf_eq hv, LayerControl.Agreeable]
  | red | green =>
    rw [LayerControl.Agreeable, ← ofClamp_roundWithPrecision_eq_iff hdefined.1 hdefined.2,
      LayerControl.fromState, LayerControl.floatOf_eq hv]
    exact ⟨fun h => h.2.symm, fun h => ⟨rfl, h.symm⟩⟩
  | blurH | blurV =>
    obtain ⟨haction, hset, hstate⟩ := LayerControl.BlurDefined.conversions hdefined hj hv
    have hiff := ofClamp_truncate_eq_ofClamp_round_iff (n := 10) hdefined.round_nonneg
    simp only [LayerControl.fromAction, LayerControl.fromSet, LayerControl.fromState,
      FloatNumber.single_rat, FloatNumber.ofRat_rat, FloatNumber.round_rat, haction, hset, hstate,
      LayerControl.Agreeable]
    exact ⟨fun h => hiff.mp h.1, fun h => ⟨hiff.mpr h, (hiff.mpr h).symm⟩⟩

/-- A red of one quarter is written alike by the three writers. -/
theorem layer_writers_agree_on_quarter :
    LayerControl.red.Agree (.float (1 / 4)) (1 / 4) 0
      (EngineState.init.pushLayer .plain Layers.newProperties) := by
  refine (layer_writers_agree_iff .red rfl rfl ?_ rfl).mpr (.inr ⟨25, by norm_num⟩)
  exact ⟨by decide +kernel, by decide +kernel⟩

/-- A red of one eighth is stored by an action and rounded by a document. -/
theorem layer_writers_disagree_on_eighth :
    LayerControl.red.ConversionsDefined (.float (1 / 8)) (1 / 8) ∧
      ¬LayerControl.red.Agree (.float (1 / 8)) (1 / 8) 0
        (EngineState.init.pushLayer .plain Layers.newProperties) := by
  refine ⟨⟨by decide +kernel, by decide +kernel⟩, ?_⟩
  rintro ⟨p, haction, -, hstate⟩
  exact absurd (haction.trans hstate.symm) (by decide +kernel)

end ArbutusEngine
