import ArbutusEngine.LayerWrites
import ArbutusEngine.Requests

/-!
# Acknowledgements

Two requests set properties of layers by name, `setLayerControl` one property and `updateState` any
number, and both are answered with a `result`. Whether a layer then reports the value it was given
depends on the property: sizes, the blend mode and blurs are natural numbers below a maximum, the
others are floats, red and green the floats next to hundredths, and everything is clamped. The
answers do not look at that: `setLayerControl` compares the value with the alpha of the layer,
whatever the property is, and `updateState` answers `true`.

The number of a document is a `double`, so that even an alpha between zero and one is reported
changed unless it is a `float`. That of `setLayerControl` is a `float`, read from a string.

## Main definitions

* `hundredths`: the float next to a number of hundredths.
* `LayerKey.Exact`, `ExactName`: the property can be set to the number exactly.
* `ControlTruthful`, `UpdateTruthful`: the answer says whether the layers report what was asked for.

## Main results

* `exists_hundredths`, `roundWithPrecision_hundredths`: what rounding to two decimals leads to.
* `LayerKey.report_stored_iff`: what a setter stores is reported unchanged if it is exact.
* `LayerProperties.holdsNumber_update_iff`: the same for the document of a layer.
* `acknowledgements_truthful_iff`: when the answers are truthful.
-/

open Exec

namespace ArbutusEngine

open Machine (finite single)
open LayerControl (intOf floatOf)

/-! ### Hundredths -/

/-- The float next to a number of hundredths. -/
def hundredths (n : ℤ) : Machine := single (finite (n / 100))

/-- The check of all hundredths between `-1` and `1`. -/
theorem all_roundWithPrecision_hundredths : (List.range 201).all (fun k : ℕ =>
    decide (roundWithPrecision (hundredths (k - 100)) 2 = hundredths (k - 100))) = true := by
  decide +kernel

/-- Rounding to two decimals leaves the floats next to hundredths alone. -/
theorem roundWithPrecision_hundredths {n : ℤ} (hlo : -100 ≤ n) (hhi : n ≤ 100) :
    roundWithPrecision (hundredths n) 2 = hundredths n := by
  have hcheck := List.all_eq_true.mp all_roundWithPrecision_hundredths (n + 100).toNat
    (List.mem_range.mpr (by omega))
  have hn : (((n + 100).toNat : ℕ) : ℤ) - 100 = n := by omega
  rw [hn] at hcheck
  exact of_decide_eq_true hcheck

theorem hundredths_mem {n : ℤ} (hlo : -100 ≤ n) (hhi : n ≤ 100) :
    finite (-1) ≤ hundredths n ∧ hundredths n ≤ finite 1 := by
  have hlo : (-100 : ℚ) ≤ n := by exact_mod_cast hlo
  have hhi : (n : ℚ) ≤ 100 := by exact_mod_cast hhi
  have hone : binary32.Represents 1 ∧ binary32.Represents (-1) :=
    ⟨⟨1, 0, by norm_num, by decide, by decide⟩, ⟨-1, 0, by norm_num, by decide, by decide⟩⟩
  exact ⟨Machine.finite_le_single hone.2 (by norm_num [binary32])
      (Machine.finite_le_finite.mpr (by linarith)),
    Machine.single_le_finite hone.1 (by norm_num [binary32])
      (Machine.finite_le_finite.mpr (by linarith))⟩

/-- Between `-1` and `1`, what a number is rounded to is the float next to hundredths. A quotient
by one hundred from 101 on is above a float that is above one. -/
theorem exists_hundredths {x : Machine} (hlo : finite (-1) ≤ roundWithPrecision x 2)
    (hhi : roundWithPrecision x 2 ≤ finite 1) :
    ∃ n : ℤ, -100 ≤ n ∧ n ≤ 100 ∧ roundWithPrecision x 2 = hundredths n := by
  obtain ⟨n, hn⟩ : ∃ n : ℤ, roundWithPrecision x 2 =
      single (Machine.div (single (finite n)) (finite 100)) := by
    refine ⟨(floatToInt (FloatNumber.round (single (Machine.mul x (finite 100))))).toInt, ?_⟩
    have hfactor : ((10 : ℚ) ^ 2) = 100 := by norm_num
    simp only [roundWithPrecision, hfactor]
    rfl
  rw [hn] at hlo hhi ⊢
  have hupper : n ≤ 100 := by
    by_contra hlarge
    have hn : finite 101 ≤ finite n :=
      Machine.finite_le_finite.mpr (by exact_mod_cast (by omega : 101 ≤ n))
    have hsingle : finite 101 ≤ single (finite n) := Machine.finite_le_single
      ⟨101, 0, by norm_num, by decide, by decide⟩ (by norm_num [binary32]) hn
    have hdiv : finite (129 / 128) ≤ Machine.div (single (finite n)) (finite 100) :=
      Machine.le_trans (Machine.finite_le_finite.mpr (by norm_num))
        (Machine.finite_div_le (by norm_num) hsingle)
    have hgt := Machine.finite_le_single ⟨129, -7, by norm_num, by decide, by decide⟩
      (by norm_num [binary32, abs_lt]) hdiv
    have hle := Machine.finite_le_finite.mp (Machine.le_trans hgt hhi)
    norm_num at hle
  have hlower : -100 ≤ n := by
    by_contra hsmall
    have hn : finite n ≤ finite (-101) :=
      Machine.finite_le_finite.mpr (by exact_mod_cast (by omega : n ≤ -101))
    have hsingle : single (finite n) ≤ finite (-101) := Machine.single_le_finite
      ⟨-101, 0, by norm_num, by decide, by decide⟩ (by norm_num [binary32]) hn
    have hdiv : Machine.div (single (finite n)) (finite 100) ≤ finite (-129 / 128) :=
      Machine.le_trans (Machine.div_le_finite (by norm_num) hsingle)
        (Machine.finite_le_finite.mpr (by norm_num))
    have hlt := Machine.single_le_finite ⟨-129, -7, by norm_num, by decide, by decide⟩
      (by norm_num [binary32, abs_lt]) hdiv
    have hle := Machine.finite_le_finite.mp (Machine.le_trans hlo hlt)
    norm_num at hle
  refine ⟨n, hlower, hupper, ?_⟩
  obtain ⟨hrep, hlt⟩ := Machine.represents_small (n := n) (abs_le.mpr ⟨by omega, by omega⟩)
  rw [Machine.single_of_represents hrep hlt, Machine.div, if_neg (by norm_num), hundredths]

/-! ### Numbers that a property can take -/

namespace LayerKey

/-- The number is a natural one, up to the given one. -/
def NatUpTo (limit : ℕ) (y : Machine) : Prop := ∃ n : ℕ, n ≤ limit ∧ y = finite n

/-- The number is a float between two others. -/
def FloatWithin (limits : FloatLimits) (y : Machine) : Prop :=
  single y = y ∧ finite limits.min ≤ y ∧ y ≤ finite limits.max

/-- The property can take the number as it is. -/
def Exact : LayerKey → Machine → Prop
  | width, y => NatUpTo 1920 y
  | height, y => NatUpTo 1080 y
  | blendMode, y => NatUpTo 5 y
  | blurH, y | blurV, y => NatUpTo 10 y
  | red, y | green, y => ∃ n : ℤ, -100 ≤ n ∧ n ≤ 100 ∧ y = hundredths n
  | blue, y => FloatWithin ⟨-1, 1⟩ y
  | alpha, y => FloatWithin ⟨0, 1⟩ y
  | brightness, y | contrast, y | saturation, y => FloatWithin ⟨0, 2⟩ y
  | name, _ => False

/-- The number that `getState` reports for a value of the property, if that is a number. -/
def report : (k : LayerKey) → Value Machine k → Option Machine
  | width, v | height, v | blendMode, v => some (finite (UInt32.toNat v))
  | blurH, v | blurV, v => some (finite (floatToUnsigned (N := Machine) v).toNat)
  | name, _ => none
  | red, v | green, v | blue, v | alpha, v | brightness, v | contrast, v | saturation, v => some v

variable {v : Json Machine} {y : Machine}

/-- A natural number that is read as an `int`. -/
theorem toNat_intOf {n : ℕ} (hn : n < 2 ^ 31) (hv : v.number? = some (finite n)) :
    (intOf v).toUInt32.toNat = n := by
  have hint : intOf v = Int32.ofInt n := by
    cases v with
    | int z =>
      have hz : z = n := by exact_mod_cast Machine.finite.inj (Option.some.inj hv)
      rw [hz]
      rfl
    | float x =>
      obtain rfl := Option.some.inj hv
      have hread : ∀ x : Machine, intOf (.float x) = floatToInt x := fun _ => rfl
      have hcast : ((n : ℕ) : ℚ) = ((n : ℤ) : ℚ) := by push_cast; rfl
      rw [hread, ← Machine.ofRat_eq, floatToInt_ofRat, floatToInt_rat, hcast, truncate_intCast,
        if_pos ⟨by omega, by omega⟩]
    | null | bool | str | arr | obj => cases hv
  have h := toNat_toUInt32_ofInt (n := n) (by omega) (by omega)
  rw [hint]
  omega

theorem floatOf_eq (hv : v.number? = some y) : floatOf v = single y := by
  rw [floatOf, Json.getFloat_of_number? hv]
  rfl

/-- A number read as an `int` and clamped is the number itself exactly if that is a natural number
up to the limit. -/
theorem clampTo_intOf_iff {limit : ℕ} (hlimit : limit ≤ 2 ^ 24) (hv : v.number? = some y) :
    some (finite (SizeProperties.clampTo ⟨0, limit⟩ (intOf v).toUInt32 Machine).toNat) = some y ∧
      y ≠ .nan ↔ NatUpTo limit y := by
  constructor
  · rintro ⟨heq, -⟩
    exact ⟨_, SizeProperties.toNat_clampTo_le _ (by omega), (Option.some.inj heq).symm⟩
  · rintro ⟨n, hn, rfl⟩
    have hread := toNat_intOf (by omega) hv
    rw [SizeProperties.clampTo_of_le hlimit (hread.trans_le hn), hread]
    exact ⟨rfl, Machine.noConfusion⟩

/-- A number read as an `int` and stored as a blend mode is the number itself exactly if that is a
natural number up to the largest mode. -/
theorem storedBlendMode_intOf_iff (hv : v.number? = some y) :
    some (finite (storedBlendMode (intOf v).toUInt32).toNat) = some y ∧ y ≠ .nan ↔
      NatUpTo 5 y := by
  rw [LayerProperties.toNat_storedBlendMode]
  constructor
  · rintro ⟨heq, -⟩
    exact ⟨_, LayerProperties.clampedMode_le _, (Option.some.inj heq).symm⟩
  · rintro ⟨n, hn, rfl⟩
    have hread := toNat_intOf (by omega) hv
    rw [LayerProperties.clampedMode_of_le (by omega), hread]
    exact ⟨rfl, Machine.noConfusion⟩

/-- A number read as a `float` and clamped is the number itself exactly if that is a `float` within
the limits, which are floats. -/
theorem ofClamp_floatOf_iff {limits : FloatLimits} (hle : limits.min ≤ limits.max)
    (hmin : single (finite limits.min) = finite limits.min)
    (hmax : single (finite limits.max) = finite limits.max) (hv : v.number? = some y) :
    some (ofClamp (floatOf v) (finite limits.min) (finite limits.max)) = some y ∧ y ≠ .nan ↔
      FloatWithin limits y := by
  rw [Option.some.injEq, floatOf_eq hv]
  constructor
  · rintro ⟨heq, hy⟩
    have hnumber : FloatNumber.IsNumber (single y) :=
      LawfulFloatNumber.isNumber_single.mpr (Machine.isNumber_iff.mpr hy)
    have hmem : finite limits.min ≤ y ∧ y ≤ finite limits.max :=
      heq ▸ (ofClamp_mem_iff hle).mpr hnumber
    refine ⟨?_, hmem⟩
    rw [ofClamp] at heq
    split_ifs at heq
    · rw [← heq, hmin]
    · rw [← heq, hmax]
    · exact heq
  · rintro ⟨hsingle, hlo, hhi⟩
    rw [hsingle]
    exact ⟨ofClamp_of_between hlo hhi,
      Machine.isNumber_iff.mp (LawfulFloatNumber.isNumber_of_le hhi).1⟩

/-- Red and green are rounded to two decimals before. -/
theorem ofClamp_roundWithPrecision_iff (hv : v.number? = some y) :
    some (ofClamp (roundWithPrecision (floatOf v) 2) (finite (-1)) (finite 1)) = some y ∧
      y ≠ .nan ↔ ∃ n : ℤ, -100 ≤ n ∧ n ≤ 100 ∧ y = hundredths n := by
  rw [Option.some.injEq, floatOf_eq hv]
  constructor
  · rintro ⟨heq, -⟩
    have hnumber : FloatNumber.IsNumber (roundWithPrecision (single y) 2) :=
      isNumber_roundWithPrecision _ 2
    rw [ofClamp] at heq
    split_ifs at heq with hlt hgt
    · exact ⟨-100, by decide, by decide, heq.symm.trans (by decide +kernel)⟩
    · exact ⟨100, by decide, by decide, heq.symm.trans (by decide +kernel)⟩
    · rw [← heq]
      exact exists_hundredths ((LawfulFloatNumber.not_lt hnumber (isNumber_ofRat (-1))).mp hlt)
        ((LawfulFloatNumber.not_lt (isNumber_ofRat 1) hnumber).mp hgt)
  · rintro ⟨n, hlo, hhi, rfl⟩
    have hsingle : single (hundredths n) = hundredths n := Machine.single_single _
    rw [hsingle, roundWithPrecision_hundredths hlo hhi]
    obtain ⟨hmin, hmax⟩ := hundredths_mem hlo hhi
    exact ⟨ofClamp_of_between hmin hmax,
      Machine.isNumber_iff.mp (LawfulFloatNumber.isNumber_of_le hmax).1⟩

/-- What is stored of a number is reported as that number exactly if the property can take it. -/
theorem report_stored_iff (k : LayerKey) (hv : v.number? = some y) :
    k.report (k.stored v) = some y ∧ y ≠ .nan ↔ k.Exact y := by
  cases k with
  | width => exact clampTo_intOf_iff (by decide) hv
  | height => exact clampTo_intOf_iff (by decide) hv
  | blendMode => exact storedBlendMode_intOf_iff hv
  | blurH | blurV => exact clampTo_intOf_iff (by decide) hv
  | red | green => exact ofClamp_roundWithPrecision_iff hv
  | blue =>
    exact ofClamp_floatOf_iff (by decide +kernel) (by decide +kernel) (by decide +kernel) hv
  | alpha =>
    exact ofClamp_floatOf_iff (by decide +kernel) (by decide +kernel) (by decide +kernel) hv
  | brightness | contrast | saturation =>
    exact ofClamp_floatOf_iff (by decide +kernel) (by decide +kernel) (by decide +kernel) hv
  | name => exact iff_of_false (fun h => by cases h.1) id

end LayerKey

/-! ### Documents -/

/-- A property of the given name can take the number as it is. -/
def ExactName (name : String) (y : Machine) : Prop := ∃ k : LayerKey, k.key = name ∧ k.Exact y

namespace LayerProperties

variable {p : LayerProperties Machine} {state : Json Machine} {name : String} {y : Machine}

/-- The state of a layer has no other members than its properties. -/
theorem field_getState_of_ne (hne : ∀ k : LayerKey, k.key ≠ name) :
    p.getState.field name = .null := by
  have hkeys : ∀ k ∈ LayerKey.all, k.key ≠ name := fun k _ => hne k
  simp only [LayerKey.all, List.forall_mem_cons, LayerKey.key] at hkeys
  obtain ⟨hwidth, hheight, hblendMode, hblurH, hblurV, hred, hgreen, hblue, halpha, hbrightness,
    hcontrast, hsaturation, hname, -⟩ := hkeys
  rw [field_getState, if_neg hblurV.symm, if_neg hblurH.symm, if_neg hblendMode.symm,
    if_neg hheight.symm, if_neg hwidth.symm]
  simp only [Properties.getState, Json.field_obj, Json.member, hred, hgreen, hblue, halpha,
    hbrightness, hcontrast, hsaturation, hname, if_false]

/-- The state of a layer has the numbers of its properties under their names. -/
theorem number?_field_getState (p : LayerProperties Machine) (k : LayerKey) :
    (p.getState.field k.key).number? = k.report (LayerKey.get p k) := by
  rw [field_getState]
  cases k <;> rfl

/-- A layer that is given a document reports a number of it unchanged exactly if the property can
take it. -/
theorem holdsNumber_update_iff (p : LayerProperties Machine)
    (hy : (state.field name).number? = some y) :
    ((LayerKey.record.update (LayerKey.patch state) LayerKey.all p).getState.field
      name).HoldsNumber y ↔ ExactName name y := by
  set p' := LayerKey.record.update (LayerKey.patch state) LayerKey.all p with hp'
  have hkey : ∀ k : LayerKey, k.key = name →
      ((p'.getState.field name).HoldsNumber y ↔ k.Exact y) := by
    rintro k rfl
    have hadmits : k.admits (state.field k.key) = true ∨ k = .name := by
      cases k <;> first | exact .inl (Json.isNumber_iff_number?.mpr ⟨y, hy⟩) | exact .inr rfl
    rw [Json.HoldsNumber, number?_field_getState]
    rcases hadmits with hadmits | rfl
    · have hpatch : LayerKey.patch state k = some (k.stored (state.field k.key)) := if_pos hadmits
      have hfield := congrFun (LayerKey.record.fields_update LayerKey.mem_all
        (LayerKey.patch state) p) k
      rw [Patch.apply, hpatch, Option.getD_some] at hfield
      have hget : LayerKey.get p' k = k.stored (state.field k.key) := hfield
      rw [hget, ← k.report_stored_iff hy]
      constructor
      · rintro ⟨z, hz, hzy⟩
        obtain ⟨rfl, hnan⟩ := Machine.le_and_le_iff.mp hzy
        exact ⟨hz, hnan⟩
      · rintro ⟨hreport, hnan⟩
        exact ⟨y, hreport, Machine.le_and_le_iff.mpr ⟨rfl, hnan⟩⟩
    · refine iff_of_false ?_ id
      rintro ⟨z, hz, -⟩
      cases hz
  constructor
  · intro h
    by_contra hnone
    have hne : ∀ k : LayerKey, k.key ≠ name := fun k hk => hnone ⟨k, hk, (hkey k hk).mp h⟩
    exact Json.not_holdsNumber (by rw [field_getState_of_ne hne]; rfl) y h
  · rintro ⟨k, hk, hexact⟩
    exact (hkey k hk).mpr hexact

end LayerProperties

/-! ### Controlling a layer -/

/-- The data asks for the property `name` of the layer at position `n` to be set to `value`, which
is read as a `float`. -/
structure AsksControl (h : Host Machine) (data : Json Machine) (n : ℕ) (name : String)
    (value : Machine) : Prop where
  name_eq : (data.index "name").bind Json.getString = .ok name
  value_eq : ∃ text, (data.index "value").bind Json.getString = .ok text ∧
    single (h.ofToFloat text) = value
  layer_eq : ∃ layer, (data.index "layer").bind Json.getInt = .ok layer ∧
    layer.toUInt32.toNat = n

/-- The answer to `setLayerControl` is whether the layer then reports the value. -/
def ControlTruthful (h : Host Machine) (s : EngineState Machine) (data : Json Machine) (n : ℕ)
    (name : String) (value : Machine) : Prop :=
  ∃ answer t layer, setLayerControl h data s = .ok (.obj [("result", .bool answer)]) t ∧
    t.layersList[n]? = some layer ∧
    (answer = true ↔ (layer.properties.getState.field name).HoldsNumber value)

section control

variable {h : Host Machine} {s : EngineState Machine} {data : Json Machine} {n : ℕ} {name : String}
  {value : Machine} {layer : Layer Machine}

theorem setLayerControl_eq (hdata : AsksControl h data n name value)
    (hlayer : s.layersList[n]? = some layer) : setLayerControl h data s =
      .ok (.obj [("result", .bool
          (value ≤ single (Layer.updateBy [(name, .float value)] layer.properties).alpha ∧
            single (Layer.updateBy [(name, .float value)] layer.properties).alpha ≤ value))])
        (s.mapProperties n (Layer.updateBy [(name, .float value)])) := by
  obtain ⟨hname, ⟨text, htext, rfl⟩, ⟨position, hposition, rfl⟩⟩ := hdata
  have hget := s.getElem?_mapProperties hlayer
    (Layer.updateBy [(name, .float (FloatNumber.single (h.ofToFloat text)))])
  rw [setLayerControl, hname, htext, hposition]
  simp only [bind_run, ofExcept_ok, pure_run, Outcome.bind_ok, Layer.setState_obj hlayer,
    Layer.read, hget, ofOption_some, LayerProperties.getFloat_alpha_getState]
  rfl

/-- What the update of one property leaves of the alpha, or stores there. -/
theorem alpha_updateBy (name : String) (value : Machine) (p : LayerProperties Machine) :
    (Layer.updateBy [(name, .float value)] p).alpha =
      if name = "alpha" then ofClamp (single value) (finite 0) (finite 1) else p.alpha := by
  have hfield := congrFun (LayerKey.record.fields_update LayerKey.mem_all
    (LayerKey.patch (.obj [(name, .float value)])) p) .alpha
  rw [Patch.apply] at hfield
  split_ifs with hname
  · subst hname
    exact hfield
  · have hpatch : LayerKey.patch (.obj [(name, .float value)]) .alpha = none :=
      LayerKey.patch_obj_of_notMem fun hmem => hname (List.mem_singleton.mp hmem).symm
    rw [hpatch, Option.getD_none] at hfield
    exact hfield

/-- The alpha of a layer is a `float` after it has been set. -/
theorem single_ofClamp_single (x : Machine) :
    single (ofClamp (single x) (finite 0) (finite 1)) =
      ofClamp (single x) (finite 0) (finite 1) := by
  rw [ofClamp]
  split_ifs
  · decide +kernel
  · decide +kernel
  · exact Machine.single_single x

/-- The answer is about the alpha. It is right for the alpha itself, and for another property if the
value is equal to the alpha exactly when the property can take it. -/
theorem controlTruthful_iff (hdata : AsksControl h data n name value)
    (hlayer : s.layersList[n]? = some layer) : ControlTruthful h s data n name value ↔
      name = "alpha" ∨ ((value ≤ single layer.properties.alpha ∧
        single layer.properties.alpha ≤ value) ↔ ExactName name value) := by
  have hrun := setLayerControl_eq hdata hlayer
  have hget := s.getElem?_mapProperties hlayer (Layer.updateBy [(name, .float value)])
  have hfield : ((Json.obj [(name, Json.float value)]).field name).number? = some value := by
    rw [Json.field_obj, Json.member, if_pos rfl]
    rfl
  set p' := Layer.updateBy [(name, .float value)] layer.properties with hp'
  have hiff : ControlTruthful h s data n name value ↔
      ((value ≤ single p'.alpha ∧ single p'.alpha ≤ value) ↔
        (p'.getState.field name).HoldsNumber value) := by
    constructor
    · rintro ⟨answer, t, layer', hrun', hget', hanswer⟩
      rw [hrun] at hrun'
      cases hrun'
      rw [hget] at hget'
      cases hget'
      exact decide_eq_true_iff.symm.trans hanswer
    · exact fun h => ⟨_, _, _, hrun, hget, decide_eq_true_iff.trans h⟩
  rw [hiff]
  by_cases hname : name = "alpha"
  · subst hname
    have halpha : (p'.getState.field "alpha").HoldsNumber value ↔
        p'.alpha ≤ value ∧ value ≤ p'.alpha := by
      rw [LayerProperties.field_getState]
      exact Json.holdsNumber_float
    have hsingle : single p'.alpha = p'.alpha := by
      rw [hp', alpha_updateBy, if_pos rfl, single_ofClamp_single]
    rw [halpha, hsingle]
    exact iff_of_true and_comm (.inl rfl)
  · rw [hp', alpha_updateBy, if_neg hname, or_iff_right hname]
    exact iff_congr Iff.rfl (LayerProperties.holdsNumber_update_iff layer.properties hfield)

end control

/-! ### Updating layers -/

/-- The data lists an object for each of the first layers. -/
structure AsksUpdate (s : EngineState Machine) (data : Json Machine)
    (entries : List (Json Machine)) : Prop where
  index_eq : ∃ layers, data.index "layers" = .ok layers ∧ layers.elements = entries
  isIndexable : ∀ e ∈ entries, e.isIndexable = true
  length_le : entries.length ≤ s.layersList.length

/-- The layer reports the numbers that the entry lists. -/
def Layer.Reports (layer : Layer Machine) (entry : Json Machine) : Prop :=
  ∀ name y, (entry.field name).number? = some y →
    (layer.properties.getState.field name).HoldsNumber y

/-- The answer to `updateState` is whether every layer then reports the numbers listed for it. -/
def UpdateTruthful (s : EngineState Machine) (data : Json Machine)
    (entries : List (Json Machine)) : Prop :=
  ∃ answer t, updateState data s = .ok (.obj [("result", .bool answer)]) t ∧
    (answer = true ↔ ∀ (i : ℕ) entry, entries[i]? = some entry →
      ∃ layer : Layer Machine, t.layersList[i]? = some layer ∧ layer.Reports entry)

section update

variable {s : EngineState Machine} {data : Json Machine} {entries : List (Json Machine)}

/-- The loop updates the layers from position `n` on, each by its entry, and no layer before. -/
theorem updateFrom_eq (entries : List (Json Machine)) : ∀ (n : ℕ) (s : EngineState Machine),
    n + entries.length ≤ s.layersList.length → (∀ e ∈ entries, e.isIndexable = true) →
    ∃ t, updateFrom n entries s = .ok () t ∧
      (∀ j, j < n → t.layersList[j]? = s.layersList[j]?) ∧
      ∀ i e, entries[i]? = some e → ∃ layer p, t.layersList[n + i]? = some layer ∧
        layer.properties = LayerKey.record.update (LayerKey.patch e) LayerKey.all p := by
  induction entries with
  | nil => exact fun n s _ _ => ⟨s, rfl, fun _ _ => rfl, fun i e he => by simp at he⟩
  | cons entry rest ih =>
    intro n s hlen hentries
    rw [List.length_cons] at hlen
    obtain ⟨hentry, hrest⟩ := List.forall_mem_cons.mp hentries
    obtain ⟨layer, hlayer⟩ : ∃ layer, s.layersList[n]? = some layer :=
      ⟨_, List.getElem?_eq_getElem (by omega)⟩
    have hset := Layer.setState_of_eq_ok hlayer
      (LayerProperties.setState_eq hentry layer.properties)
    obtain ⟨t, hrun, hbefore, hafter⟩ := ih (n + 1) (s.mapProperties n fun _ =>
      LayerKey.record.update (LayerKey.patch entry) LayerKey.all layer.properties)
      (by rw [EngineState.mapProperties, List.length_modify]; omega) hrest
    have hcons : updateFrom n (entry :: rest) s =
        (Layer.setState n entry s).bind fun _ t => updateFrom (n + 1) rest t := rfl
    refine ⟨t, by rw [hcons, hset, Outcome.bind_ok, hrun], fun j hj => ?_, fun i e he => ?_⟩
    · rw [hbefore j (by omega)]
      exact List.getElem?_modify_ne _ _ (by omega)
    · cases i with
      | zero =>
        cases he
        have hupdated := s.getElem?_mapProperties hlayer fun _ =>
          LayerKey.record.update (LayerKey.patch entry) LayerKey.all layer.properties
        exact ⟨_, layer.properties, (hbefore n (by omega)).trans hupdated, rfl⟩
      | succ i =>
        obtain ⟨layer', p, hlayer', hp⟩ := hafter i e he
        exact ⟨layer', p, by rwa [Nat.add_right_comm] at hlayer', hp⟩

/-- The answer is always `true`. It is right if every property listed can take its number. -/
theorem updateTruthful_iff (hdata : AsksUpdate s data entries) : UpdateTruthful s data entries ↔
    ∀ e ∈ entries, ∀ name y, (e.field name).number? = some y → ExactName name y := by
  obtain ⟨⟨layers, hlayers, rfl⟩, hentries, hlen⟩ := hdata
  obtain ⟨t, hrun, -, hafter⟩ := updateFrom_eq layers.elements 0 s (by omega) hentries
  have hanswer : updateState data s = .ok (.obj [("result", .bool true)]) t := by
    have hunfold : updateState data s = (updateFrom 0 layers.elements s).bind
        fun _ t => .ok (.obj [("result", .bool true)]) t := by
      rw [updateState, hlayers]
      rfl
    rw [hunfold, hrun, Outcome.bind_ok]
  have hiff : UpdateTruthful s data layers.elements ↔
      ∀ (i : ℕ) entry, layers.elements[i]? = some entry →
        ∃ layer : Layer Machine, t.layersList[i]? = some layer ∧ layer.Reports entry := by
    constructor
    · rintro ⟨answer, t', hrun', h⟩
      rw [hanswer] at hrun'
      cases hrun'
      exact h.mp rfl
    · exact fun h => ⟨true, t, hanswer, iff_of_true rfl h⟩
  rw [hiff]
  constructor
  · intro h e he name y hy
    obtain ⟨i, hi⟩ := List.mem_iff_getElem?.mp he
    obtain ⟨layer, hlayer, hreports⟩ := h i e hi
    obtain ⟨layer', p, hlayer', hp⟩ := hafter i e hi
    rw [Nat.zero_add, hlayer] at hlayer'
    cases hlayer'
    have hnumber := hreports name y hy
    rw [hp] at hnumber
    exact (LayerProperties.holdsNumber_update_iff p hy).mp hnumber
  · intro h i e hi
    obtain ⟨layer, p, hlayer, hp⟩ := hafter i e hi
    rw [Nat.zero_add] at hlayer
    refine ⟨layer, hlayer, fun name y hy => ?_⟩
    rw [hp]
    exact (LayerProperties.holdsNumber_update_iff p hy).mpr
      (h e (List.mem_of_getElem? hi) name y hy)

end update

/-- `setLayerControl` answers truthfully exactly if the property is the alpha, or the value is equal
to the alpha of the layer exactly when the property can take it. `updateState` answers truthfully
exactly if every property listed with a number can take that number. -/
theorem acknowledgements_truthful_iff (h : Host Machine) (s : EngineState Machine) :
    (∀ data n name value layer, AsksControl h data n name value →
      s.layersList[n]? = some layer → (ControlTruthful h s data n name value ↔
        name = "alpha" ∨ ((value ≤ single layer.properties.alpha ∧
          single layer.properties.alpha ≤ value) ↔ ExactName name value))) ∧
    ∀ data entries, AsksUpdate s data entries → (UpdateTruthful s data entries ↔
      ∀ entry ∈ entries, ∀ name y, (entry.field name).number? = some y → ExactName name y) :=
  ⟨fun _ _ _ _ _ => controlTruthful_iff, fun _ _ => updateTruthful_iff⟩

/-- A client whose strings are all read as the given number. -/
def Host.reading (value : Machine) : Host Machine :=
  { Host.plain Machine with ofToFloat := fun _ => value }

/-- The initial state with a layer. -/
def EngineState.oneLayer : EngineState Machine :=
  (init Machine).pushLayer (.plain Machine) (.new 640 480)

/-- A request for the red of the first layer. -/
def controlRed : Json Machine :=
  .obj [("name", .str "red"), ("value", .str ""), ("layer", .int 0)]

theorem asksControl_controlRed (value : Machine) :
    AsksControl (Host.reading value) controlRed 0 "red" (single value) :=
  ⟨rfl, ⟨"", rfl, rfl⟩, ⟨0, rfl, rfl⟩⟩

/-- An update of the alpha of the first layer. -/
def updateAlpha (alpha : Machine) : Json Machine :=
  .obj [("layers", .arr [.obj [("alpha", .float alpha)]])]

theorem asksUpdate_updateAlpha (alpha : Machine) :
    AsksUpdate .oneLayer (updateAlpha alpha) [.obj [("alpha", .float alpha)]] :=
  ⟨⟨_, rfl, rfl⟩, fun e he => by rw [List.mem_singleton.mp he]; rfl, le_rfl⟩

/-- Red can be 1 and so can alpha, so the requests for that are answered truthfully. -/
theorem acknowledgements_truthful_one :
    ControlTruthful (Host.reading (finite 1)) .oneLayer controlRed 0 "red" (single (finite 1)) ∧
      UpdateTruthful .oneLayer (updateAlpha (finite 1)) [.obj [("alpha", .float (finite 1))]] := by
  have hmain := acknowledgements_truthful_iff (Host.reading (finite 1)) .oneLayer
  constructor
  · refine (hmain.1 _ _ _ _ _ (asksControl_controlRed (finite 1)) rfl).mpr (.inr ?_)
    exact iff_of_true (by decide +kernel) ⟨.red, rfl, 100, by decide, by decide, by decide +kernel⟩
  · refine (hmain.2 _ _ (asksUpdate_updateAlpha (finite 1))).mpr fun entry hentry name y hy => ?_
    rw [List.mem_singleton.mp hentry, Json.field_obj, Json.member] at hy
    split_ifs at hy with hname
    · obtain rfl := Option.some.inj hy
      exact ⟨.alpha, hname, by decide +kernel, by decide +kernel, by decide +kernel⟩
    · cases hy

/-- The red of a layer is set to a half, and the answer is `false` because its alpha is 1; its alpha
is then asked to be 2, and the answer is `true` while it stays 1. -/
theorem acknowledgements_untruthful :
    ¬ControlTruthful (Host.reading (finite (1 / 2))) .oneLayer controlRed 0 "red"
        (single (finite (1 / 2))) ∧
      ¬UpdateTruthful .oneLayer (updateAlpha (finite 2)) [.obj [("alpha", .float (finite 2))]] := by
  constructor
  · rw [controlTruthful_iff (asksControl_controlRed (finite (1 / 2))) rfl]
    rintro (hname | halpha)
    · exact absurd hname (by decide)
    · have hred : ExactName "red" (single (finite (1 / 2))) :=
        ⟨.red, rfl, 50, by decide, by decide, by decide +kernel⟩
      exact absurd (halpha.mpr hred) (by decide +kernel)
  · rw [updateTruthful_iff (asksUpdate_updateAlpha (finite 2))]
    intro hexact
    obtain ⟨k, hk, htwo⟩ := hexact _ List.mem_cons_self "alpha" (finite 2) rfl
    cases k with
    | alpha => exact absurd htwo.2.2 (by decide +kernel)
    | _ => exact absurd hk (by decide)

end ArbutusEngine
