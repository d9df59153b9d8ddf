import ArbutusEngine.Navigation
import ArbutusEngine.Writes
import Mathlib.Data.List.Nodup

/-!
# Removing layers

`Layers::remove` lets the position one past the last layer through, where there is no layer to
remove. After a removal it moves the selection back when it is past the end, but not when a layer
before the selected one is gone: the selected number then is that of the next layer.

`Layers::setCount` removes layers from the position before the requested count on, while the list
gets shorter. The first layer it removes is one that was to stay.

## Main definitions

* `Layers.getSelected`.
* `EngineState.LayersDistinct`: the layers are different objects.
* `Layers.RemovesOnly`, `Layers.ReachesCount`: the two contracts.

## Main results

* `Layers.remove_selects`: what `Layers::remove` does at the position of a layer.
* `removes_only_iff`, `reaches_count_iff`.
-/

open Exec

namespace ArbutusEngine

/-- The layers of the list are different objects. -/
def EngineState.LayersDistinct (s : EngineState) : Prop := (s.layersList.map Layer.addr).Nodup

instance (s : EngineState) : Decidable s.LayersDistinct :=
  inferInstanceAs (Decidable (List.Nodup _))

theorem EngineState.LayersDistinct.nodup {s : EngineState} (hs : s.LayersDistinct) :
    s.layersList.Nodup := List.Nodup.of_map _ hs

namespace Layers

/-! ### One layer -/

/-- `Layers::getSelected`. -/
def getSelected (h : Host) : Prog (Option Layer) := do
  let p ← EngineProperties.getInstance h
  gets (get p.selectedLayer.toUInt32)

variable {s : EngineState} {i : ℕ}

theorem getSelected_eq (hs : s.Selects i) (h : Host) :
    getSelected h s = .ok s.layersList[i]? (s.resetProperties h) := hs.getCurrent_eq h

theorem remove_of_length_lt {n : UInt32} (hn : s.layersList.length < n.toNat) (h : Host) :
    remove h n s = .ok () s := by
  rw [remove, bind_run, gets_run, Outcome.bind_ok, if_pos hn]
  rfl

/-- At the position one past the last layer the end of the list is erased. -/
theorem remove_of_eq_length {n : UInt32} (hn : n.toNat = s.layersList.length) (h : Host) :
    remove h n s = .undefined .pastTheEnd := by
  rw [remove, bind_run, gets_run, Outcome.bind_ok, if_neg (by omega), if_pos hn]
  rfl

/-- At the position of a layer, that layer is removed, and the selection moved back if it is past
the end. -/
theorem remove_selects (hs : s.Selects i) (hfit : s.SelectionFits) {n : UInt32}
    (hn : n.toNat < s.layersList.length) (h : Host) :
    ∃ t, remove h n s = .ok () t ∧ t.layersList = s.layersList.eraseIdx n.toNat ∧
      (2 ≤ s.layersList.length → t.Selects (min i (s.layersList.length - 2))) := by
  have hlen : s.layersList.length ≤ 2 ^ 31 := hfit
  have hlt := hs.lt
  let t : EngineState :=
    { s with layersList := s.layersList.eraseIdx n.toNat }.resetProperties h
  have htlen : t.layersList.length = s.layersList.length - 1 := List.length_eraseIdx_of_lt hn
  have hcount : (count t).toNat = s.layersList.length - 1 := by
    rw [count, htlen]
    exact UInt32.toNat_ofNat_of_lt' (by change s.layersList.length - 1 < 2 ^ 32; omega)
  have hrun : remove h n s =
      (if UInt32.ofNat i ≥ count t then setActive h (count t) else pure ()) t := by
    rw [remove, bind_run, gets_run, Outcome.bind_ok, if_neg (by omega), if_neg (by omega)]
    rw [← hs.toNat_eq, UInt32.ofNat_toNat]
    rfl
  have hid : (UInt32.ofNat i).toNat = i :=
    UInt32.toNat_ofNat_of_lt' (by change i < 2 ^ 32; omega)
  rw [hrun]
  split_ifs with hge
  · have hge : s.layersList.length - 1 ≤ i := by
      rw [ge_iff_le, UInt32.le_iff_toNat_le, hcount, hid] at hge
      exact hge
    by_cases hone : s.layersList.length = 1
    · have hzero : count t = 0 := UInt32.toNat_inj.mp <| hcount.trans <| by
        rw [UInt32.toNat_zero]
        omega
      refine ⟨t, ?_, rfl, fun htwo => absurd htwo (by omega)⟩
      rw [hzero, setActive, if_pos rfl]
      rfl
    · have htfit : t.SelectionFits := by
        rw [EngineState.SelectionFits]
        omega
      have hzero : count t ≠ 0 := fun hzero => by
        rw [hzero, UInt32.toNat_zero] at hcount
        omega
      refine ⟨_, setActive_eq htfit (List.ne_nil_of_length_pos (by omega)) h hzero, rfl,
        fun _ => ?_⟩
      have hlast : min (count t).toNat t.layersList.length - 1 =
          min i (s.layersList.length - 2) := by omega
      rw [hlast]
      exact EngineState.selects_select (by omega) htfit h
  · have hlt' : i < s.layersList.length - 1 := by
      rw [ge_iff_le, UInt32.not_le, UInt32.lt_iff_toNat_lt, hcount, hid] at hge
      exact hge
    refine ⟨t, rfl, rfl, fun _ => ?_⟩
    rw [min_eq_left (by omega)]
    exact ⟨by omega, hs.eq⟩

/-- The contract of `Layers::remove`: the layer at the position, if there is one, is removed, and
the selected layer, if it is another one, stays selected. -/
def RemovesOnly (h : Host) (n : UInt32) (s : EngineState) : Prop :=
  if n.toNat < s.layersList.length then
    ∃ t, remove h n s = .ok () t ∧ t.layersList = s.layersList.eraseIdx n.toNat ∧
      (¬s.Selects n.toNat → ∀ layer u, getSelected h s = .ok (some layer) u →
        ∃ v, getSelected h t = .ok (some layer) v)
  else remove h n s = .ok () s

/-- The layer at position `j` after the `n`th one has been removed is the one that was at position
`i`. -/
theorem getSelected_of_selects {t : EngineState} {j : ℕ} (hs : s.Selects i) (ht : t.Selects j)
    (h : Host) :
    (∀ layer u, getSelected h s = .ok (some layer) u → ∃ v, getSelected h t = .ok (some layer) v) ↔
      t.layersList[j]? = s.layersList[i]? := by
  obtain ⟨layer, hlayer⟩ : ∃ layer, s.layersList[i]? = some layer :=
    ⟨_, List.getElem?_eq_getElem hs.lt⟩
  rw [getSelected_eq hs, getSelected_eq ht, hlayer]
  constructor
  · intro hsame
    obtain ⟨v, hv⟩ := hsame layer _ rfl
    exact (Outcome.ok.inj hv).1
  · rintro heq layer' u hu
    obtain rfl := Option.some.inj (Outcome.ok.inj hu).1
    exact ⟨_, congrArg (fun o => Outcome.ok o _) heq⟩

end Layers

/-- On a list of different layers with a valid selection, `Layers::remove` meets its contract
exactly if the position is not the one past the last layer, and it is not before the selected layer
with another layer after that. -/
theorem removes_only_iff {s : EngineState} {i : ℕ} (hs : s.layersList ≠ [] → s.Selects i)
    (hfit : s.SelectionFits) (hdistinct : s.LayersDistinct) (h : Host) (n : UInt32) :
    Layers.RemovesOnly h n s ↔
      n.toNat ≠ s.layersList.length ∧ ¬(n.toNat < i ∧ i + 1 < s.layersList.length) := by
  rw [Layers.RemovesOnly]
  split_ifs with hn
  · have hs := hs (List.ne_nil_of_length_pos (by omega))
    have hlt := hs.lt
    obtain ⟨t, hrun, hlist, hsel⟩ := Layers.remove_selects hs hfit hn h
    by_cases hni : n.toNat = i
    · refine iff_of_true ⟨t, hrun, hlist, fun hother => ?_⟩ ⟨by omega, by omega⟩
      exact absurd (hni ▸ hs) hother
    have ht := hsel (by omega)
    have hother : ¬s.Selects n.toNat := fun hself => by
      have heq := hs.eq.symm.trans hself.eq
      omega
    have hsame : (t.layersList[min i (s.layersList.length - 2)]? = s.layersList[i]?) ↔
        ¬(n.toNat < i ∧ i + 1 < s.layersList.length) := by
      have hinj : ∀ k, s.layersList[k]? = s.layersList[i]? ↔ k = i := fun k => by
        rw [eq_comm, List.getElem?_inj hlt hdistinct.nodup, eq_comm]
      rw [hlist, List.getElem?_eraseIdx]
      split_ifs <;> rw [hinj] <;> omega
    rw [and_iff_right (by omega), ← hsame, ← Layers.getSelected_of_selects hs ht h]
    constructor
    · rintro ⟨t', hrun', -, hkeeps⟩
      obtain rfl := (Outcome.ok.inj (hrun.symm.trans hrun')).2
      exact hkeeps hother
    · exact fun hkeeps => ⟨t, hrun, hlist, fun _ => hkeeps⟩
  · have hle : ¬(n.toNat < i ∧ i + 1 < s.layersList.length) := by omega
    rw [and_iff_left hle]
    constructor
    · intro hrun heq
      rw [Layers.remove_of_eq_length heq] at hrun
      cases hrun
    · exact fun hne => Layers.remove_of_length_lt (by omega) h

/-- The last of three layers stays selected when the first one is removed. -/
theorem removes_only_before_last :
    Layers.RemovesOnly .plain 0
      ((EngineState.init.pushLayers .plain (List.replicate 3 Layers.newProperties)).select
        .plain 2) :=
  (removes_only_iff (i := 2) (fun _ => ⟨by decide, by decide⟩)
    (EngineState.selectionFits_of_le (by decide)) (by decide) .plain 0).mpr (by decide)

/-- With three layers, removing the first one moves the selection from the second to the third; and
the position one past the last layer is not rejected. -/
theorem removes_before_selected : ∃ s : EngineState, s.Selects 1 ∧ s.SelectionFits ∧
    s.LayersDistinct ∧ ¬Layers.RemovesOnly .plain 0 s ∧ ¬Layers.RemovesOnly .plain 3 s := by
  let s := (EngineState.init.pushLayers .plain (List.replicate 3 Layers.newProperties)).select
    .plain 1
  have hs : s.Selects 1 := ⟨by decide, by decide⟩
  have hfit : s.SelectionFits := EngineState.selectionFits_of_le (by decide)
  refine ⟨s, hs, hfit, by decide, ?_, ?_⟩
  · rintro ⟨t, hrun, -, hkeeps⟩
    obtain ⟨t', hrun', hlist, hsel⟩ := Layers.remove_selects hs hfit (n := 0) (by decide) .plain
    obtain rfl := (Outcome.ok.inj (hrun.symm.trans hrun')).2
    have hother : ¬s.Selects 0 := fun hself => absurd (hs.eq.symm.trans hself.eq) (by decide)
    have hsame := (Layers.getSelected_of_selects hs (hsel (by decide)) .plain).mp (hkeeps hother)
    rw [hlist] at hsame
    exact absurd hsame (by decide)
  · intro hrun
    have hundefined : Layers.remove .plain 3 s = .undefined .pastTheEnd :=
      Layers.remove_of_eq_length (by decide) .plain
    exact absurd (hundefined.symm.trans hrun) (by nofun)

/-! ### The number of layers -/

/-- Layers are added at the end. -/
theorem EngineState.prefix_pushLayers (h : Host) (s : EngineState) (layers : List LayerProperties) :
    s.layersList <+: (s.pushLayers h layers).layersList := by
  induction layers generalizing s with
  | nil => exact List.prefix_rfl
  | cons p rest ih => exact (List.prefix_append _ _).trans (ih (s.pushLayer h p))

namespace Layers

variable {s : EngineState}

/-- The layers that `Layers::remove` leaves. -/
theorem remove_post_layersList (h : Host) (n : UInt32) (s : EngineState) :
    (remove h n s).Post (fun _ t => t.layersList = s.layersList.eraseIdx n.toNat)
      fun _ t => t.layersList = s.layersList.eraseIdx n.toNat := by
  have hreselect : Fixes EngineState.layersList (do
      let layerSize ← gets count
      let selected ← getCurrentId h
      if selected ≥ layerSize then setActive h layerSize) :=
    .bind (.gets _) fun _ => .bind (.bind (fun _ _ hs => hs) fun _ => .pure _) fun _ =>
      .ite (fixes_setActive (fun _ _ _ => rfl) h _) (.pure _)
  rw [remove, bind_run, gets_run, Outcome.bind_ok]
  split_ifs with hgt
  · exact (List.eraseIdx_of_length_le (Nat.le_of_lt hgt)).symm
  · trivial
  · exact hreselect _ _ rfl

/-- A layer that is not in the list is not in it after a removal. -/
theorem keeps_notMem_remove (layer : Layer) (h : Host) (n : UInt32) :
    Keeps (fun s : EngineState => layer ∉ s.layersList) (remove h n) := by
  intro s hs
  have hgone : ∀ t : EngineState, t.layersList = s.layersList.eraseIdx n.toNat →
      layer ∉ t.layersList := fun t ht hmem => hs (List.mem_of_mem_eraseIdx (ht ▸ hmem))
  exact (remove_post_layersList h n s).mono (fun _ => hgone) fun _ => hgone

/-- A layer that has been removed from a list of different layers is not in it any more. -/
theorem remove_post_notMem (hdistinct : s.LayersDistinct) {n : UInt32} {layer : Layer}
    (hlayer : s.layersList[n.toNat]? = some layer) (h : Host) :
    (remove h n s).Post (fun _ t => layer ∉ t.layersList) fun _ t => layer ∉ t.layersList := by
  have hgone : ∀ t : EngineState, t.layersList = s.layersList.eraseIdx n.toNat →
      layer ∉ t.layersList := by
    intro t ht hmem
    obtain ⟨hn, -⟩ := List.getElem?_eq_some_iff.mp hlayer
    obtain ⟨k, hk, hkl⟩ := List.mem_eraseIdx_iff_getElem?.mp (ht ▸ hmem)
    exact hk ((List.getElem?_inj hn hdistinct.nodup).mp (hlayer.trans hkl.symm)).symm
  exact (remove_post_layersList h n s).mono (fun _ => hgone) fun _ => hgone

theorem toNat_count (hle : s.layersList.length ≤ maximumNumberOfLayers) :
    (count s).toNat = s.layersList.length :=
  UInt32.toNat_ofNat_of_lt' (lt_of_le_of_lt hle (by decide))

/-- Reaching a count that is not smaller adds layers. -/
theorem setCount_of_le (hle : s.layersList.length ≤ maximumNumberOfLayers) {val : UInt32}
    (hval : s.layersList.length ≤ val.toNat) (h : Host) :
    setCount h val s = iterate (val.toNat - s.layersList.length) (do let _ ← add h true) s := by
  have hcount := toNat_count hle
  rw [setCount, bind_run, gets_run, Outcome.bind_ok]
  split_ifs with heq hgt
  · rw [← hcount, heq, Nat.sub_self]
    rfl
  · rw [UInt32.toNat_sub_of_le _ _ (UInt32.le_of_lt hgt), hcount]
  · refine absurd (UInt32.toNat_inj.mp ?_) heq
    rw [UInt32.not_lt, UInt32.le_iff_toNat_le] at hgt
    omega

/-- Reaching a smaller count starts with the removal of the last layer that was to stay. For the
count `0` there is none, and nothing is removed. -/
theorem setCount_of_lt (hle : s.layersList.length ≤ maximumNumberOfLayers) {val : UInt32}
    (hval : val.toNat < s.layersList.length) (h : Host) :
    setCount h val s =
      if val = 0 then .ok () s
      else (remove h (val - 1) s).bind fun _ =>
        forEach (List.range' val.toNat (s.layersList.length - val.toNat)) fun i =>
          remove h (UInt32.ofNat i) := by
  have hcount := toNat_count hle
  rw [setCount, bind_run, gets_run, Outcome.bind_ok, if_neg (fun heq => by rw [heq] at hval; omega),
    if_neg (fun hgt => by rw [gt_iff_lt, UInt32.lt_iff_toNat_lt] at hgt; omega), hcount]
  split_ifs with hzero
  · have hfirst : s.layersList.length - (val - 1).toNat = 0 := by
      rw [hzero]
      exact Nat.sub_eq_zero_of_le (hle.trans (by decide))
    rw [hfirst]
    rfl
  · have hpos : 0 < val.toNat := Nat.pos_of_ne_zero fun h0 => hzero (UInt32.toNat_inj.mp h0)
    have hpred : (val - 1).toNat = val.toNat - 1 :=
      UInt32.toNat_sub_of_le _ _ (UInt32.le_iff_toNat_le.mpr hpos)
    have hturns : s.layersList.length - (val - 1).toNat =
        s.layersList.length - val.toNat + 1 := by omega
    have hnext : (val - 1).toNat + 1 = val.toNat := by omega
    rw [hturns, List.range'_succ, hnext, forEach_cons, bind_run, UInt32.ofNat_toNat]

/-- The contract of `Layers::setCount`: the number of layers is the one asked for, as far as there
is room, and the layers of the old list that fit are the first ones of the new list. -/
def ReachesCount (h : Host) (val : UInt32) (s : EngineState) : Prop :=
  ∃ t, setCount h val s = .ok () t ∧
    t.layersList.length = min val.toNat maximumNumberOfLayers ∧
    t.layersList.take (min s.layersList.length val.toNat) =
      s.layersList.take (min s.layersList.length val.toNat)

/-- Reaching a smaller count removes nothing or a layer that was to stay. -/
theorem not_reachesCount_of_lt (hle : s.layersList.length ≤ maximumNumberOfLayers)
    (hdistinct : s.LayersDistinct) {val : UInt32} (hval : val.toNat < s.layersList.length)
    (h : Host) : ¬ReachesCount h val s := by
  rintro ⟨t, hrun, hlength, htake⟩
  rw [setCount_of_lt hle hval] at hrun
  split_ifs at hrun with hzero
  · obtain rfl := (Outcome.ok.inj hrun).2
    rw [hzero, UInt32.toNat_zero] at hlength
    omega
  -- the last layer that was to stay is removed first, and no layer is added
  have hpos : 0 < val.toNat := Nat.pos_of_ne_zero fun h0 => hzero (UInt32.toNat_inj.mp h0)
  have hpred : (val - 1).toNat = val.toNat - 1 :=
    UInt32.toNat_sub_of_le _ _ (UInt32.le_iff_toNat_le.mpr hpos)
  obtain ⟨layer, hlayer⟩ : ∃ layer, s.layersList[(val - 1).toNat]? = some layer :=
    ⟨_, List.getElem?_eq_getElem (by omega)⟩
  have hgone := (remove_post_notMem hdistinct hlayer h).bind fun _ u hu =>
    Keeps.forEach (l := List.range' val.toNat (s.layersList.length - val.toNat))
      (fun i _ => keeps_notMem_remove layer h (UInt32.ofNat i)) u hu
  rw [hrun, Outcome.post_ok] at hgone
  refine hgone (List.mem_of_mem_take (i := min s.layersList.length val.toNat) ?_)
  rw [htake]
  refine List.mem_of_getElem? (i := (val - 1).toNat) ?_
  rw [List.getElem?_take_of_lt (by omega), hlayer]

/-- A count that is not smaller is reached, unless a layer has to be added without the shaders. -/
theorem reachesCount_iff_of_le (hle : s.layersList.length ≤ maximumNumberOfLayers) {val : UInt32}
    (hval : s.layersList.length ≤ val.toNat) (h : Host) :
    ReachesCount h val s ↔
      (s.layersList.length < min val.toNat maximumNumberOfLayers → h.shaderError = none) := by
  rw [ReachesCount, setCount_of_le hle hval, min_eq_left hval]
  cases hsh : h.shaderError with
  | none =>
    refine iff_of_true ⟨_, iterate_add h hsh _ s hle, ?_, ?_⟩ fun _ => rfl
    · rw [EngineState.length_pushLayers, List.length_replicate]
      omega
    · rw [List.take_length]
      exact (List.prefix_iff_eq_take.mp (s.prefix_pushLayers h _)).symm
  | some what =>
    have hsome : ¬some what = none := fun hnone => Option.some_ne_none what hnone
    rw [imp_iff_not hsome]
    constructor
    · rintro ⟨t, hrun, -⟩ hroom
      have hturns : val.toNat - s.layersList.length ≠ 0 := by omega
      have hfull : s.layersList.length ≠ maximumNumberOfLayers := by omega
      rw [iterate_add_of_shaderError hsh hturns hfull] at hrun
      cases hrun
    · intro hroom
      refine ⟨s, ?_, by omega, rfl⟩
      rcases Nat.lt_or_ge s.layersList.length val.toNat with hlt | hge
      · have hfull : s.layersList.length = maximumNumberOfLayers := by omega
        exact iterate_add_of_full hfull _
      · rw [Nat.sub_eq_zero_of_le hge]
        rfl

end Layers

/-- On a list of different layers `Layers::setCount` meets its contract exactly if there are not
more layers than asked for, and none has to be added without the shaders. -/
theorem reaches_count_iff {s : EngineState} (hle : s.layersList.length ≤ maximumNumberOfLayers)
    (hdistinct : s.LayersDistinct) (h : Host) (val : UInt32) :
    Layers.ReachesCount h val s ↔ s.layersList.length ≤ val.toNat ∧
      (s.layersList.length < min val.toNat maximumNumberOfLayers → h.shaderError = none) := by
  rcases Nat.lt_or_ge val.toNat s.layersList.length with hlt | hge
  · have hshrinks := Layers.not_reachesCount_of_lt hle hdistinct hlt h
    exact iff_of_false hshrinks fun hcond => absurd hcond.1 (by omega)
  · rw [and_iff_right hge]
    exact Layers.reachesCount_iff_of_le hle hge h

/-- From two layers to five. -/
theorem reaches_count_growing :
    Layers.ReachesCount .plain 5
      (EngineState.init.pushLayers .plain (List.replicate 2 Layers.newProperties)) :=
  (reaches_count_iff (by decide) (by decide) .plain 5).mpr ⟨by decide, fun _ => rfl⟩

/-- From three layers to one: the count is reached, by the layer that was the second. -/
theorem reaches_count_by_other_layer : ∃ s : EngineState,
    s.layersList.length ≤ maximumNumberOfLayers ∧ s.LayersDistinct ∧
      ¬Layers.ReachesCount .plain 1 s := by
  refine ⟨EngineState.init.pushLayers .plain (List.replicate 3 Layers.newProperties), by decide,
    by decide, ?_⟩
  rintro ⟨t, hrun, -, htake⟩
  have hfirst : (Layers.setCount .plain 1 (EngineState.init.pushLayers .plain
      (List.replicate 3 Layers.newProperties))).returns (fun _ t =>
        (t.layersList.map Layer.addr).take 1 = [1]) = true := by decide +kernel
  rw [hrun] at hfirst
  have haddr := congrArg (List.map Layer.addr) htake
  rw [List.map_take] at haddr
  exact absurd ((of_decide_eq_true hfirst).symm.trans haddr) (by decide)

end ArbutusEngine
