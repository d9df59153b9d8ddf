import ArbutusEngine.LayerWrites

/-!
# Saving and loading the layers

`Layers::getState` writes thirteen fields for each layer, and `Layers::setState` makes a new layer
for each entry and reads the same fields. Sizes, modes and blurs come back because every write has
clamped them, so that the setters that read them change nothing. Red and green are rounded to two
decimals on the way; a list of layers therefore comes back as it was exactly if these have no more.

## Main definitions

* `LayerProperties.Written`: the properties that writes lead to.
* `LayerProperties.restored`: what is read back from the state of a layer.
* `Layers.RoundTrips`: loading the saved layers gives the same ones.

## Main results

* `LayerProperties.setState_getState`: reading back one layer.
* `layers_roundTrip_iff`: reading back the list.
-/

open Exec

namespace ArbutusEngine

/-- The number has at most two decimals. -/
def TwoDecimals (q : ℚ) : Prop := ∃ n : ℤ, q * 100 = n

namespace LayerProperties

/-- The properties come from a new layer by writes. -/
def Written (p : LayerProperties) : Prop :=
  ∃ p₀ : LayerProperties, p₀.Constructed ∧
    ∃ ws : List LayerWrite, ws.foldl (fun p w => w.apply p) p₀ = p

/-- What every write keeps, as far as reading back is concerned. -/
structure Storable (p : LayerProperties) : Prop where
  inLimits : p.InLimits
  blendMode_le : p.blendMode.toNat ≤ 5

theorem Written.storable {p : LayerProperties} (hp : p.Written) : p.Storable := by
  obtain ⟨p₀, hp₀, ws, rfl⟩ := hp
  have hstart : p₀.InLimits ∧ p₀.blendMode.toNat ≤ 5 := by
    refine ⟨hp₀.inLimits, ?_⟩
    rw [hp₀.blendMode]
    decide
  obtain ⟨hlimits, hmode⟩ := foldl_push (fun p w => LayerWrite.apply w p)
    (fun p => p.InLimits ∧ p.blendMode.toNat ≤ 5)
    (fun p w hp => ⟨(w.inLimits_apply_iff hp.1).mpr (w.numberAccepted_of_forall le_refl),
      blendMode_apply_le w hp.2⟩) ws hstart
  exact ⟨hlimits, hmode⟩

/-- What is read back from the state of a layer. -/
def restored (p : LayerProperties) : LayerProperties :=
  { p with
    red := Properties.clampTo "red" (roundWithPrecision p.red 2)
    green := Properties.clampTo "green" (roundWithPrecision p.green 2)
    blurH := p.getBlurH.toNat
    blurV := p.getBlurV.toNat }

variable {p : LayerProperties}

/-- A number of a layer that is given to its setter once more. -/
theorem Storable.clamped (hp : p.Storable) (x : LayerControl) :
    ofClamp (x.get p) x.limits.min x.limits.max = x.get p :=
  ofClamp_of_mem (hp.inLimits (.control x)).1 (hp.inLimits (.control x)).2

/-- What `Layer::setState` does with the state of a layer. -/
theorem setState_getState_eq (p q : LayerProperties) :
    q.setState p.getState = .ok
      { name := p.name
        alpha := Properties.clampTo "alpha" p.alpha
        red := Properties.clampTo "red" (roundWithPrecision p.red 2)
        green := Properties.clampTo "green" (roundWithPrecision p.green 2)
        blue := Properties.clampTo "blue" p.blue
        brightness := Properties.clampTo "brightness" p.brightness
        contrast := Properties.clampTo "contrast" p.contrast
        saturation := Properties.clampTo "saturation" p.saturation
        width := SizeProperties.clampTo ⟨0, 1920⟩ p.width
        height := SizeProperties.clampTo ⟨0, 1080⟩ p.height
        blendMode := LayerKey.storedBlendMode p.blendMode
        blurH := ofClamp p.getBlurH.toNat blurLimits.min blurLimits.max
        blurV := ofClamp p.getBlurV.toNat blurLimits.min blurLimits.max } := by
  have hindex : ∀ key, p.getState.index key = .ok (p.getState.field key) :=
    Json.index_of_isIndexable p.isIndexable_getState
  simp only [setState, assignments, List.foldlM_cons, List.foldlM_nil, assignWhen, hindex,
    Except.bind]
  simp [field_getState, Properties.getState, Json.field_obj, Json.member, Json.isNumber,
    Json.isString, Json.getInt, Json.getFloat, Json.getString, Except.map, toUInt32_ofInt_toNat]
  rfl

/-- Reading back the state of a layer. -/
theorem setState_getState (hp : p.Storable) (q : LayerProperties) :
    q.setState p.getState = .ok p.restored := by
  have hwidth : SizeProperties.clampTo ⟨0, 1920⟩ p.width = p.width :=
    SizeProperties.clampTo_of_le (by decide : 1920 ≤ 2 ^ 24)
      (LayerNumber.within_width_iff.mp (hp.inLimits .width))
  have hheight : SizeProperties.clampTo ⟨0, 1080⟩ p.height = p.height :=
    SizeProperties.clampTo_of_le (by decide : 1080 ≤ 2 ^ 24)
      (LayerNumber.within_height_iff.mp (hp.inLimits .height))
  have hmode : LayerKey.storedBlendMode p.blendMode = p.blendMode := by
    apply UInt32.toNat_inj.mp
    rw [toNat_storedBlendMode, clampedMode_of_le hp.blendMode_le]
  have hblur : ∀ blur : ℚ, 0 ≤ blur → blur ≤ (10 : ℕ) →
      ofClamp ((floatToUnsigned blur).toNat : ℚ) blurLimits.min blurLimits.max =
        (floatToUnsigned blur).toNat := fun blur h0 hle =>
    ofClamp_of_mem (Nat.cast_nonneg _)
      (Nat.cast_le.mpr (toNat_floatToUnsigned_le h0 hle (by decide)))
  have hblurH := hblur p.blurH (hp.inLimits (.control .blurH)).1 (hp.inLimits (.control .blurH)).2
  have hblurV := hblur p.blurV (hp.inLimits (.control .blurV)).1 (hp.inLimits (.control .blurV)).2
  have halpha : Properties.clampTo "alpha" p.alpha = p.alpha := hp.clamped .alpha
  have hblue : Properties.clampTo "blue" p.blue = p.blue := hp.clamped .blue
  have hbrightness : Properties.clampTo "brightness" p.brightness = p.brightness :=
    hp.clamped .brightness
  have hcontrast : Properties.clampTo "contrast" p.contrast = p.contrast := hp.clamped .contrast
  have hsaturation : Properties.clampTo "saturation" p.saturation = p.saturation :=
    hp.clamped .saturation
  rw [setState_getState_eq, hwidth, hheight, hmode, halpha, hblue, hbrightness, hcontrast,
    hsaturation]
  simp only [getBlurH, getBlurV, hblurH, hblurV]
  rfl

/-- A colour comes back exactly if it has at most two decimals. -/
theorem clampTo_roundWithPrecision_eq_iff {q : ℚ} (hlo : -1 ≤ q) (hhi : q ≤ 1) :
    ofClamp (roundWithPrecision q 2) (-1) 1 = q ↔ TwoDecimals q := by
  obtain ⟨hge, hle⟩ := roundHalfAway_mem (q * 100)
  have hlower : -2 ^ 31 ≤ roundHalfAway (q * 100) := by
    have h : ((-101 : ℤ) : ℚ) ≤ roundHalfAway (q * 100) := by push_cast; linarith
    have h := Int.cast_le.mp h
    omega
  have hupper : roundHalfAway (q * 100) < 2 ^ 31 := by
    have h : (roundHalfAway (q * 100) : ℚ) ≤ ((101 : ℤ) : ℚ) := by push_cast; linarith
    have h := Int.cast_le.mp h
    omega
  have hiff := ofClamp_roundWithPrecision_eq_iff hlower hupper
  rw [ofClamp_of_mem hlo hhi] at hiff
  rw [hiff, TwoDecimals]
  refine or_iff_right_of_imp fun habs => ?_
  rcases le_abs'.mp habs with h | h
  · exact ⟨-100, by push_cast; linarith⟩
  · exact ⟨100, by push_cast; linarith⟩

/-- Reading back gives a layer with the same state exactly if its red and its green have at most
two decimals. -/
theorem getState_restored_iff (hp : p.Storable) :
    p.restored.getState = p.getState ↔ TwoDecimals p.red ∧ TwoDecimals p.green := by
  have hred : -1 ≤ p.red ∧ p.red ≤ 1 := hp.inLimits (.control .red)
  have hgreen : -1 ≤ p.green ∧ p.green ≤ 1 := hp.inLimits (.control .green)
  rw [← clampTo_roundWithPrecision_eq_iff hred.1 hred.2,
    ← clampTo_roundWithPrecision_eq_iff hgreen.1 hgreen.2]
  have hfield : ∀ q : LayerProperties, q.getState.field "red" = .float q.red ∧
      q.getState.field "green" = .float q.green := by
    intro q
    simp [field_getState, Properties.getState, Json.field_obj, Json.member]
  constructor
  · intro h
    have hr := (hfield p.restored).1
    have hg := (hfield p.restored).2
    rw [h, (hfield p).1] at hr
    rw [h, (hfield p).2] at hg
    exact ⟨(Json.float.inj hr).symm, (Json.float.inj hg).symm⟩
  · rintro ⟨hr, hg⟩
    have hblurH : p.restored.getBlurH = p.getBlurH := floatToUnsigned_toNat p.getBlurH
    have hblurV : p.restored.getBlurV = p.getBlurV := floatToUnsigned_toNat p.getBlurV
    have hcolours : p.restored.toProperties = p.toProperties := by
      have hr : p.restored.red = p.red := hr
      have hg : p.restored.green = p.green := hg
      simp only [restored] at hr hg ⊢
      rw [hr, hg]
    rw [getState, getState, hblurH, hblurV, hcolours]
    rfl

end LayerProperties

/-- Loading the saved layers returns, and gives as many layers, with the same states. -/
def Layers.RoundTrips (h : Host) (s : EngineState) : Prop :=
  ∃ t, Layers.setState h (Layers.getState s) s = .ok () t ∧
    t.layersList.map (fun l => l.properties.getState) =
      s.layersList.map fun l => l.properties.getState

section lists

variable {h : Host} {s : EngineState}

/-- Reading back the saved layers, when the shaders are there. -/
theorem Layers.collect_decode_getState (hshaders : h.shaderError = none)
    (hs : ∀ l ∈ s.layersList, l.properties.Storable) :
    collect (decode h) (s.layersList.map fun l => l.properties.getState) =
      (s.layersList.map fun l => l.properties.restored, none) := by
  refine collect_map_of_forall_some fun l hl => ?_
  rw [decode, hshaders]
  simp only [LayerProperties.setState_getState (hs l hl)]

/-- Without the shaders no layer is read. -/
theorem Layers.collect_decode_of_shaderError {what : String} (hsh : h.shaderError = some what)
    {entries : List Json} (hne : entries ≠ []) :
    (collect (decode h) entries).2 = some (.exceptionPointer what) := by
  obtain ⟨e, rest, rfl⟩ := List.exists_cons_of_ne_nil hne
  simp [collect, decode, hsh]

theorem Layers.roundTrips_iff_of_storable (hne : s.layersList ≠ [])
    (hmax : s.layersList.length ≤ maximumNumberOfLayers)
    (hstorable : ∀ l ∈ s.layersList, l.properties.Storable) :
    Layers.RoundTrips h s ↔ h.shaderError = none ∧
      ∀ l ∈ s.layersList, TwoDecimals l.properties.red ∧ TwoDecimals l.properties.green := by
  have hentries : s.layersList.map (fun l => l.properties.getState) ≠ [] :=
    mt List.map_eq_nil_iff.mp hne
  have hstate : Layers.getState s = .arr (s.layersList.map fun l => l.properties.getState) :=
    Json.pushAll_of_ne_nil hentries
  have hlen : (s.layersList.map fun l => l.properties.getState).length ≤ maximumNumberOfLayers := by
    rwa [List.length_map]
  rw [Layers.RoundTrips, hstate, Layers.setState_arr, List.take_of_length_le hlen]
  simp only [not_lt.mpr hlen, and_false, if_false]
  cases hsh : h.shaderError with
  | some what =>
    rw [Layers.collect_decode_of_shaderError hsh hentries]
    simp
  | none =>
    rw [Layers.collect_decode_getState hsh hstorable]
    have hafter : ∀ ps : List LayerProperties,
        ((s.clearLayers h).pushLayers h ps).layersList.map (fun l => l.properties.getState) =
          ps.map LayerProperties.getState := by
      intro ps
      have hps : ((s.clearLayers h).pushLayers h ps).layersList.map Layer.properties = ps :=
        EngineState.properties_pushLayers h (s.clearLayers h) ps
      have hmap := congrArg (List.map LayerProperties.getState) hps
      rwa [List.map_map] at hmap
    simp only [Outcome.raiseIf_none, Outcome.ok.injEq, true_and, exists_eq_left', hafter,
      List.map_map, List.map_inj_left, Function.comp_apply]
    exact forall₂_congr fun l hl => LayerProperties.getState_restored_iff (hstorable l hl)

/-- Saving and loading a list of one to six layers, of which the properties come from writes, gives
the same layers exactly if the shaders are there and every red and green has at most two
decimals. -/
theorem layers_roundTrip_iff (hne : s.layersList ≠ [])
    (hmax : s.layersList.length ≤ maximumNumberOfLayers)
    (hwritten : ∀ l ∈ s.layersList, l.properties.Written) :
    Layers.RoundTrips h s ↔ h.shaderError = none ∧
      ∀ l ∈ s.layersList, TwoDecimals l.properties.red ∧ TwoDecimals l.properties.green :=
  Layers.roundTrips_iff_of_storable hne hmax fun l hl => (hwritten l hl).storable

end lists

/-- The properties of a new layer after a red has been written. -/
def LayerProperties.withRed (red : ℚ) : LayerProperties :=
  LayerControl.red.write red Layers.newProperties

theorem LayerProperties.written_withRed (red : ℚ) : (withRed red).Written :=
  ⟨Layers.newProperties, .inl ⟨.plain, .zero, rfl⟩, [.setRed red], rfl⟩

/-- A layer with a red of one quarter comes back. -/
theorem layer_with_quarter_roundTrips :
    Layers.RoundTrips .plain (EngineState.init.pushLayer .plain (.withRed (1 / 4))) := by
  refine (layers_roundTrip_iff (List.cons_ne_nil _ _) (by decide) ?_).mpr ⟨rfl, ?_⟩
  · intro l hl
    obtain rfl := List.mem_singleton.mp hl
    exact LayerProperties.written_withRed (1 / 4)
  · intro l hl
    obtain rfl := List.mem_singleton.mp hl
    exact ⟨⟨25, by decide +kernel⟩, ⟨0, by decide +kernel⟩⟩

/-- A layer with a red of one eighth comes back with another one. -/
theorem layer_with_eighth_not_roundTrips :
    (LayerProperties.withRed (1 / 8)).Written ∧
      ¬Layers.RoundTrips .plain (EngineState.init.pushLayer .plain (.withRed (1 / 8))) := by
  have hwritten := LayerProperties.written_withRed (1 / 8)
  let s := EngineState.init.pushLayer .plain (.withRed (1 / 8))
  have hstorable : ∀ l ∈ s.layersList, l.properties.Storable := by
    intro l hl
    obtain rfl := List.mem_singleton.mp hl
    exact hwritten.storable
  refine ⟨hwritten, fun h => ?_⟩
  have hcolours := ((Layers.roundTrips_iff_of_storable (s := s) (List.cons_ne_nil _ _) (by decide)
    hstorable).mp h).2
  obtain ⟨n, hn⟩ := (hcolours _ List.mem_cons_self).1
  have hred : (LayerProperties.withRed (1 / 8)).red * 100 = 25 / 2 := by decide +kernel
  have htwice : (25 : ℚ) = 2 * n := by linarith [hred.symm.trans hn]
  have hint : (25 : ℤ) = 2 * n := by exact_mod_cast htwice
  omega

end ArbutusEngine
