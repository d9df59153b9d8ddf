import ArbutusEngine.Paths
import ArbutusEngine.Writes

/-!
# The selected layer

The number of the selected layer is kept in the engine properties, as a signed number that counts
from zero; `Layers::setActive` sets it from an unsigned number that counts from one, clamped to the
number of layers. On an empty list the clamped number is `0`, and the layer before it is selected.
Once a layer is added the selection is out of range.

As long as no call selects a layer of an empty list, the selected number is that of a layer whenever
there are layers, and `0` otherwise.

## Main definitions

* `LayersCall`, `LayersCall.run`: the calls that change the list of layers or the selection.
* `LayersCall.SelectsSome`: the call does not select a layer of an empty list.
* `EngineState.Selected`: the invariant.

## Main results

* `LayersCall.run_post_selected`: one call.
* `selection_valid`: every run.
-/

open Exec

namespace ArbutusEngine

/-- The calls that change the list of layers or the selection. -/
inductive LayersCall where
  | add
  | remove (layerN : UInt32)
  | empty
  | setActive (activeLayer : UInt32)
  | setCount (val : UInt32)
  | setState (state : Json)
  | activateFirst
  | activatePrevious
  | activateNext
  | activateLast
  | newSet (width height layers : UInt32)
  | openSet (path : String)

/-- The program of a call. -/
def LayersCall.run (c : Host × LayersCall) : Prog Unit :=
  match c with
  | (h, .add) => do let _ ← Layers.add h true
  | (h, .remove layerN) => Layers.remove h layerN
  | (h, .empty) => Layers.empty h
  | (h, .setActive activeLayer) => Layers.setActive h activeLayer
  | (h, .setCount val) => Layers.setCount h val
  | (h, .setState state) => Layers.setState h state
  | (h, .activateFirst) => Layers.activateFirst h
  | (h, .activatePrevious) => Layers.activatePrevious h
  | (h, .activateNext) => Layers.activateNext h
  | (h, .activateLast) => Layers.activateLast h
  | (h, .newSet width height layers) => do let _ ← Engine.newSet h width height layers
  | (h, .openSet path) => do let _ ← Engine.openSet h path

/-! ### The invariant -/

/-- There are at most six layers, and the selected one is among them, the first one if there are
none. -/
def EngineState.Selected (s : EngineState) : Prop :=
  s.layersList.length ≤ maximumNumberOfLayers ∧
    s.properties.selectedLayer.toUInt32.toNat < max 1 s.layersList.length

/-- What the invariant depends on. -/
def EngineState.selection (s : EngineState) : ℕ × Int32 :=
  (s.layersList.length, s.properties.selectedLayer)

theorem EngineState.Selected.of_selection {s t : EngineState} (h : s.selection = t.selection)
    (hs : s.Selected) : t.Selected := by
  obtain ⟨hlength, hselected⟩ := Prod.mk.inj h
  rw [EngineState.Selected, ← hlength, ← hselected]
  exact hs

/-- The program leaves the selection and the number of layers alone. -/
abbrev KeepsSelection {α : Type} (x : Prog α) : Prop := Fixes EngineState.selection x

theorem KeepsSelection.selected {α : Type} {x : Prog α} (hx : KeepsSelection x) :
    Keeps EngineState.Selected x :=
  hx.keeps fun _ _ => EngineState.Selected.of_selection

namespace Layers

theorem keeps_selected_add (h : Host) : Keeps EngineState.Selected (add h true) := by
  intro s hs
  rw [add_eq]
  split_ifs with hfull
  · exact hs
  · cases h.shaderError with
    | some what => exact hs
    | none =>
      obtain ⟨hle, hlt⟩ := hs
      have hlength := EngineState.length_pushLayer h s newProperties
      refine ⟨?_, lt_of_lt_of_le hlt ?_⟩ <;> rw [hlength] <;> omega

theorem keeps_selected_empty (h : Host) : Keeps EngineState.Selected (empty h) :=
  fun _ _ => ⟨Nat.zero_le _, Nat.zero_lt_one⟩

/-- Selecting a layer of a list that is not empty. -/
theorem setActive_post_selected {s : EngineState} (h : Host) {n : UInt32}
    (hle : s.layersList.length ≤ maximumNumberOfLayers) (hne : s.layersList ≠ []) (hn : n ≠ 0) :
    (setActive h n s).Post (fun _ => EngineState.Selected) fun _ => EngineState.Selected := by
  have hpos := List.length_pos_iff.mpr hne
  have hsize : (UInt32.ofNat s.layersList.length).toNat = s.layersList.length :=
    UInt32.toNat_ofNat_of_lt' (lt_of_le_of_lt hle (by decide))
  rw [setActive, if_neg hn]
  refine ⟨hle, ?_⟩
  set m := if n > UInt32.ofNat s.layersList.length then UInt32.ofNat s.layersList.length else n
    with hm
  have hmle : m.toNat ≤ s.layersList.length := by
    rw [hm]
    split_ifs with hgt
    · exact hsize.le
    · exact hsize ▸ UInt32.le_iff_toNat_le.mp (UInt32.not_lt.mp hgt)
  have hmpos : 0 < m.toNat := by
    rw [hm]
    split_ifs
    · rw [hsize]
      exact hpos
    · exact Nat.pos_of_ne_zero fun h0 => hn (UInt32.toNat_inj.mp h0)
  have hpred : (m - 1).toNat = m.toNat - 1 :=
    UInt32.toNat_sub_of_le _ _ (UInt32.le_iff_toNat_le.mpr hmpos)
  change (m - 1).toInt32.toUInt32.toNat < max 1 s.layersList.length
  rw [UInt32.toUInt32_toInt32, hpred]
  omega

/-- Selecting a layer keeps the invariant, unless the list is empty. -/
theorem setActive_post_selected_of {s : EngineState} (hs : s.Selected) (h : Host) {n : UInt32}
    (hn : n = 0 ∨ s.layersList ≠ []) :
    (setActive h n s).Post (fun _ => EngineState.Selected) fun _ => EngineState.Selected := by
  by_cases h0 : n = 0
  · rw [setActive, if_pos h0]
    exact hs
  · exact setActive_post_selected h hs.1 (hn.resolve_left h0) h0

/-- Removing a layer moves the selection back when it is past the end. -/
theorem keeps_selected_remove (h : Host) (layerN : UInt32) :
    Keeps EngineState.Selected (remove h layerN) := by
  intro s hs
  rw [remove, bind_run, gets_run, Outcome.bind_ok]
  split_ifs with hgt heq
  · exact hs
  · trivial
  set t : EngineState := { s with layersList := s.layersList.eraseIdx layerN.toNat }
  have hlength : t.layersList.length = s.layersList.length - 1 :=
    List.length_eraseIdx_of_lt (by omega)
  obtain ⟨hle, hsel⟩ := hs
  have htle : t.layersList.length ≤ maximumNumberOfLayers := by omega
  have hsize : (count t).toNat = t.layersList.length :=
    UInt32.toNat_ofNat_of_lt' (lt_of_le_of_lt htle (by decide))
  change ((if s.properties.selectedLayer.toUInt32 ≥ count t then setActive h (count t) else pure ())
    (t.resetProperties h)).Post _ _
  split_ifs with hge
  · by_cases hnil : t.layersList = []
    · have hcount : count t = 0 := by rw [count, hnil]; rfl
      rw [hcount, setActive, if_pos rfl]
      rw [hnil, List.length_nil] at hlength
      refine ⟨htle, ?_⟩
      change s.properties.selectedLayer.toUInt32.toNat < max 1 t.layersList.length
      omega
    · refine setActive_post_selected h htle hnil fun hcount => hnil ?_
      rw [hcount] at hsize
      exact List.length_eq_zero_iff.mp hsize.symm
  · refine ⟨htle, ?_⟩
    have hlt := UInt32.lt_iff_toNat_lt.mp (UInt32.not_le.mp hge)
    change s.properties.selectedLayer.toUInt32.toNat < max 1 t.layersList.length
    omega

theorem keeps_selected_setCount (h : Host) (val : UInt32) :
    Keeps EngineState.Selected (setCount h val) := by
  refine .bind (.gets _) fun _ => .ite (.pure _) (.ite (.iterate ?_) ?_)
  · exact .bind (keeps_selected_add h) fun _ => .pure _
  · exact .forEach fun i _ => keeps_selected_remove h _

/-- Reading the properties of a layer changes neither the number of layers nor the selection. -/
theorem keepsSelection_setState (n : ℕ) (state : Json) :
    KeepsSelection (Layer.setState n state) := by
  refine .bind (.deref _ _) fun _ => .bind (.ofExcept _ _) fun _ => ?_
  refine .bind (.deref _ _) fun _ => .modify fun s => ?_
  exact Prod.ext (List.length_modify _ _ _) rfl

theorem keeps_selected_addState (h : Host) (entry : Json) :
    Keeps EngineState.Selected (addState h entry) := by
  refine .bind (keeps_selected_add h) fun newLayer => ?_
  cases newLayer with
  | none => exact .undefined _
  | some n => exact (keepsSelection_setState n entry).selected

theorem keeps_selected_setState (h : Host) (state : Json) :
    Keeps EngineState.Selected (setState h state) :=
  .bind (keeps_selected_empty h) fun _ => .forEach fun entry _ => keeps_selected_addState h entry

end Layers

/-! ### The set and the engine -/

/-- The document has an array of layers, which is not empty. -/
def HasLayers (document : Json) : Prop :=
  (document.field "layers").isArray = true ∧ (document.field "layers").elements ≠ []

instance (document : Json) : Decidable (HasLayers document) :=
  inferInstanceAs (Decidable (_ ∧ _))

namespace Set

theorem keepsSelection_setCurrentScene (h : Host) (n : UInt32) :
    KeepsSelection (setCurrentScene h n) :=
  Set.fixes_setCurrentScene (fun _ _ _ => rfl) (fun _ _ => rfl) h n

theorem keeps_selected_newSet (h : Host) (width height nLayers : UInt32) :
    Keeps EngineState.Selected (newSet h width height nLayers) := by
  have hset : ∀ f : EngineProperties → EngineProperties,
      (∀ p, (f p).selectedLayer = p.selectedLayer) →
        Keeps EngineState.Selected (EngineProperties.update h f) := fun f hf =>
    KeepsSelection.selected (EngineProperties.fixes_update fun s => Prod.ext rfl (hf _))
  have hmodify : ∀ f : EngineState → EngineState, (∀ s, (f s).selection = s.selection) →
      Keeps EngineState.Selected (modify f : Prog Unit) := fun f hf =>
    KeepsSelection.selected (.modify hf)
  refine .bind (hset _ fun _ => rfl) fun _ => .bind (hset _ fun _ => rfl) fun _ => ?_
  refine .bind (hmodify _ fun _ => rfl) fun _ => ?_
  refine .bind (keeps_intLoop (.bind (Layers.keeps_selected_add h) fun _ => .pure _) _ _)
    fun _ => ?_
  refine .bind (KeepsSelection.selected (Scenes.fixes_newScene (fun _ _ _ _ => rfl) _)) fun _ => ?_
  refine .bind (hmodify _ fun _ => rfl) fun _ => ?_
  exact .bind (keepsSelection_setCurrentScene h 0).selected fun _ => hmodify _ fun _ => rfl

end Set

namespace Engine

/-- The last steps select the first layer, if there is one. -/
theorem finishSet_post_selected {s : EngineState} (h : Host) (path : String)
    (hle : s.layersList.length ≤ maximumNumberOfLayers) (hne : s.layersList ≠ []) :
    (finishSet h path s).Post (fun _ => EngineState.Selected) fun _ => EngineState.Selected := by
  obtain ⟨b, p, hinit⟩ := exists_initBuffer h s
  rw [finishSet, bind_run, hinit, Outcome.bind_ok]
  refine (Layers.setActive_post_selected (s := { s with buffer := some b, properties := p }) h hle
    hne (by decide)).bind fun _ t ht => ?_
  exact ht

theorem createSet_post_selected {s : EngineState} (hwf : s.WellFormed) (hs : s.Selected) (h : Host)
    (width height : UInt32) {n : UInt32} (hn : n ≠ 0 ∨ s.layersList ≠ []) :
    (createSet h width height n s).Post (fun _ => EngineState.Selected)
      fun _ => EngineState.Selected := by
  obtain ⟨p, hp, hrun⟩ := exists_createSet_eq h width height n s
  have hs' : ({ s with properties := p } : EngineState).Selected :=
    .of_selection (s := s) (Prod.ext rfl hp.symm) hs
  have hset := (Set.newSet_post (s := { s with properties := p }) { hwf with } h width height n).and
    (Set.keeps_selected_newSet h width height n _ hs')
  rw [hrun]
  refine (hset.mono (fun _ _ ht => ht) fun _ _ ht => ht.2).bind fun _ t ⟨hext, ht⟩ => ?_
  have hlength := hext.2.1
  refine finishSet_post_selected h "" ht.1 fun hnil => ?_
  have hmin : min (s.layersList.length + n.toNat) maximumNumberOfLayers = 0 := by
    rw [← hlength, hnil, List.length_nil]
  have hmax : maximumNumberOfLayers = 6 := rfl
  rcases hn with hn | hn
  · exact hn (UInt32.toNat_inj.mp (by rw [UInt32.toNat_zero]; omega))
  · have hpos := List.length_pos_iff.mpr hn
    omega

theorem newSet_post_selected {s : EngineState} (hwf : s.WellFormed) (hs : s.Selected) (h : Host)
    (width height : UInt32) {n : UInt32}
    (hn : n ≠ 0 ∨ (s.loaded = false ∧ s.layersList ≠ [])) :
    (newSet h width height n s).Post (fun _ => EngineState.Selected)
      fun _ => EngineState.Selected := by
  rw [newSet_eq, bind_run, closeSet_eq hwf]
  by_cases hl : s.loaded = true
  · rw [if_pos hl]
    split_ifs
    · have hn : n ≠ 0 := hn.resolve_right fun hne => Bool.noConfusion (hne.1.symm.trans hl)
      exact createSet_post_selected (hwf.close h) ⟨Nat.zero_le _, Nat.zero_lt_one⟩ h width height
        (.inl hn)
    · trivial
  · rw [if_neg hl]
    exact createSet_post_selected hwf hs h width height (hn.imp_right And.right)

/-- The layers are those that have been read, if the document has an array for them. -/
theorem setState_post_selected {s : EngineState} (hs : s.Selected) (h : Host) (document : Json) :
    (setState h document s).Post (fun _ => EngineState.Selected) fun _ => EngineState.Selected := by
  have hvisuals : ∀ visuals, Keeps EngineState.Selected (Visuals.setState h visuals) :=
    fun visuals =>
    KeepsSelection.selected (Visuals.fixes_setState (fun _ _ _ => rfl) (fun _ _ => rfl) h visuals)
  have hscenes : ∀ scenes, Keeps EngineState.Selected (Scenes.setState h scenes) := fun scenes =>
    KeepsSelection.selected (Scenes.fixes_setState (fun _ _ _ _ => rfl) (fun _ _ => rfl) h scenes)
  exact keeps_setState hvisuals (Layers.keeps_selected_setState h) hscenes document s hs

/-- Reading an array of layers that is not empty leaves a layer. -/
theorem length_of_setState {s t : EngineState} (hwf : s.WellFormed) {h : Host} {document : Json}
    (hset : setState h document s = .ok () t) (hlayers : HasLayers document) :
    0 < t.layersList.length := by
  obtain ⟨-, -, -, -, hle, -, rfl⟩ := (setState_eq_ok_iff hwf h document).mp hset
  set u := s.afterVisuals h (document.field "visuals")
  obtain ⟨_, _, _, _, hscenes⟩ :=
    (u.afterLayers h (document.field "layers")).exists_afterScenes h (document.field "scenes")
  rw [hscenes]
  refine List.length_pos_iff.mpr fun hnil => ?_
  have hnone := EngineState.decodedLayers_eq_nil hnil
  obtain ⟨harr, hne⟩ := hlayers
  obtain ⟨entry, rest, hcons⟩ := List.exists_cons_of_ne_nil hne
  rw [layersError, if_pos harr, hcons] at hle
  rw [decodedLayers, if_pos harr, hcons] at hnone
  have hfirst : (Layers.decode h entry).2 = none :=
    collect_snd_eq_none.mp hle entry List.mem_cons_self
  obtain ⟨p, hp⟩ := Layers.decode_of_snd_eq_none hfirst
  simp [maximumNumberOfLayers, collect, hfirst, hp] at hnone

/-- Opening a file selects the first layer of the document, which must have one. -/
theorem openSet_post_selected {s : EngineState} (hwf : s.WellFormed) (h : Host) {path : String}
    (hlayers : Opens h path s → HasLayers (JsonLoad.document h path)) :
    (openSet h path s).Post (fun _ => EngineState.Selected) fun _ => EngineState.Selected := by
  have hbefore : (s.beforeLoad h).Selected := ⟨Nat.zero_le _, Nat.zero_lt_one⟩
  have hread := setState_post_selected hbefore h (JsonLoad.document h path)
  have hopens := openSet_post hwf h path
  cases hrun : openSet h path s with
  | undefined u => trivial
  | threw e t =>
    rcases openSet_eq_threw hwf hrun with ⟨-, rfl⟩ | hset
    · exact hbefore
    · rw [hset] at hread
      exact hread
  | ok b t =>
    rw [hrun] at hopens
    obtain ⟨-, u, hset, hfinish⟩ := openSet_eq_ok hwf hrun
    rw [hset] at hread
    have hlength := length_of_setState (hwf.beforeLoad h) hset (hlayers hopens.1)
    have hfinal := finishSet_post_selected h path hread.1 (List.ne_nil_of_length_pos hlength)
    rw [hfinish] at hfinal
    exact hfinal

end Engine

/-! ### Runs -/

namespace Layers

theorem keeps_wellFormed_remove (h : Host) (layerN : UInt32) :
    Keeps EngineState.WellFormed (remove h layerN) := by
  refine .bind (.gets _) fun layers => .ite (.pure _) (.ite (.undefined _) ?_)
  refine .bind (.modify fun s hs => ?_) fun _ => .bind (.gets _) fun layerSize => ?_
  · exact { hs with
      layers_lt := fun layer hlayer => hs.layers_lt layer (List.mem_of_mem_eraseIdx hlayer)
      layers_le := (List.length_eraseIdx_le _ _).trans hs.layers_le }
  · refine .bind (Keeps.bind (Fixes.getInstance h).wellFormed fun _ => .pure _) fun selected => ?_
    exact .ite (keeps_wellFormed_setActive h _) (.pure _)

theorem keeps_wellFormed_setCount (h : Host) (val : UInt32) :
    Keeps EngineState.WellFormed (setCount h val) := by
  refine .bind (.gets _) fun _ => .ite (.pure _) (.ite (.iterate ?_) ?_)
  · exact .bind (keeps_wellFormed_add h) fun _ => .pure _
  · exact .forEach fun i _ => keeps_wellFormed_remove h _

end Layers

namespace LayersCall

/-- The call does not select a layer of an empty list. Only the calls that select a layer after
others, by a number that the caller gives, or after a set has been created or read, can do so. -/
def SelectsSome (c : Host × LayersCall) (s : EngineState) : Prop :=
  match c with
  | (_, setActive activeLayer) => activeLayer = 0 ∨ s.layersList ≠ []
  | (_, activateFirst) => s.layersList ≠ []
  | (_, activateNext) => s.layersList ≠ []
  | (_, newSet _ _ layers) => layers ≠ 0 ∨ (s.loaded = false ∧ s.layersList ≠ [])
  | (h, openSet path) => Opens h path s → HasLayers (JsonLoad.document h path)
  | _ => True

instance : ∀ (c : Host × LayersCall) (s : EngineState), Decidable (SelectsSome c s)
  | (_, setActive _), _ => inferInstanceAs (Decidable (_ ∨ _))
  | (_, activateFirst), _ => inferInstanceAs (Decidable (_ ≠ _))
  | (_, activateNext), _ => inferInstanceAs (Decidable (_ ≠ _))
  | (_, newSet _ _ _), _ => inferInstanceAs (Decidable (_ ∨ _ ∧ _))
  | (_, openSet _), _ => inferInstanceAs (Decidable (_ → _))
  | (_, add), _ => .isTrue trivial
  | (_, remove _), _ => .isTrue trivial
  | (_, empty), _ => .isTrue trivial
  | (_, setCount _), _ => .isTrue trivial
  | (_, setState _), _ => .isTrue trivial
  | (_, activatePrevious), _ => .isTrue trivial
  | (_, activateLast), _ => .isTrue trivial

theorem keeps_wellFormed_run (c : Host × LayersCall) : Keeps EngineState.WellFormed (run c) := by
  have hid : ∀ h, Keeps EngineState.WellFormed (Layers.getCurrentId h) := fun h =>
    .bind (Fixes.getInstance h).wellFormed fun _ => .pure _
  match c with
  | (h, add) => exact .bind (Layers.keeps_wellFormed_add h) fun _ => .pure _
  | (h, remove layerN) => exact Layers.keeps_wellFormed_remove h layerN
  | (h, empty) => exact Layers.keeps_wellFormed_empty h
  | (h, setActive activeLayer) => exact Layers.keeps_wellFormed_setActive h activeLayer
  | (h, setCount val) => exact Layers.keeps_wellFormed_setCount h val
  | (h, setState state) => exact Layers.keeps_wellFormed_setState h state
  | (h, activateFirst) => exact Layers.keeps_wellFormed_setActive h 1
  | (h, activatePrevious) => exact .bind (hid h) fun _ => Layers.keeps_wellFormed_setActive h _
  | (h, activateNext) => exact .bind (hid h) fun _ => Layers.keeps_wellFormed_setActive h _
  | (h, activateLast) => exact .bind (.gets _) fun _ => Layers.keeps_wellFormed_setActive h _
  | (h, newSet width height layers) =>
    exact .bind (Engine.keeps_wellFormed_newSet h width height layers) fun _ => .pure _
  | (h, openSet path) => exact .bind (Engine.keeps_wellFormed_openSet h path) fun _ => .pure _

/-- What a call that does not select a layer of an empty list leaves. -/
theorem run_post_selected (c : Host × LayersCall) {s : EngineState} (hwf : s.WellFormed)
    (hs : s.Selected) (hc : SelectsSome c s) :
    (run c s).Post (fun _ => EngineState.Selected) fun _ => EngineState.Selected := by
  match c, hc with
  | (h, add), _ => exact Keeps.bind (Layers.keeps_selected_add h) (fun _ => .pure _) s hs
  | (h, remove layerN), _ => exact Layers.keeps_selected_remove h layerN s hs
  | (h, empty), _ => exact Layers.keeps_selected_empty h s hs
  | (h, setActive activeLayer), hc => exact Layers.setActive_post_selected_of hs h hc
  | (h, setCount val), _ => exact Layers.keeps_selected_setCount h val s hs
  | (h, setState state), _ => exact Layers.keeps_selected_setState h state s hs
  | (h, activateFirst), hc => exact Layers.setActive_post_selected_of (n := 1) hs h (.inr hc)
  | (h, activatePrevious), _ =>
    -- the number of the selected layer is the number, counted from one, of the layer before it
    refine Layers.setActive_post_selected_of (s := s.resetProperties h) hs h ?_
    by_cases hnil : s.layersList = []
    · refine .inl (UInt32.toNat_inj.mp ?_)
      have hlt := hs.2
      rw [hnil] at hlt
      exact Nat.lt_one_iff.mp hlt
    · exact .inr hnil
  | (h, activateNext), hc =>
    exact Layers.setActive_post_selected_of (s := s.resetProperties h) hs h (.inr hc)
  | (h, activateLast), _ =>
    refine Layers.setActive_post_selected_of hs h ?_
    by_cases hnil : s.layersList = []
    · exact .inl (by rw [Layers.count, hnil]; rfl)
    · exact .inr hnil
  | (h, newSet width height layers), hc =>
    exact (Engine.newSet_post_selected hwf hs h width height hc).bind fun _ _ ht => ht
  | (h, openSet path), hc => exact (Engine.openSet_post_selected hwf h hc).bind fun _ _ ht => ht

end LayersCall

/-- The selected number is that of a layer, when there are layers. -/
theorem EngineState.Selected.getCurrent {s : EngineState} (hs : s.Selected)
    (hne : s.layersList ≠ []) :
    0 ≤ s.properties.selectedLayer.toInt ∧
      s.properties.selectedLayer.toInt < s.layersList.length ∧
      ∀ h, ∃ layer t, Layers.getCurrent h s = .ok (some layer) t := by
  obtain ⟨hle, hlt⟩ := hs
  have hpos := List.length_pos_iff.mpr hne
  rw [max_eq_right hpos] at hlt
  have hmax : maximumNumberOfLayers = 6 := rfl
  have hint : s.properties.selectedLayer.toInt = s.properties.selectedLayer.toUInt32.toNat :=
    BitVec.toInt_eq_toNat_of_lt (by change 2 * s.properties.selectedLayer.toUInt32.toNat < _; omega)
  refine ⟨by omega, by omega, fun h => ?_⟩
  exact ⟨_, _, congrArg (fun layer => Outcome.ok layer _) (List.getElem?_eq_getElem hlt)⟩

/-- In every run in which no call selects a layer of an empty list there are at most six layers, and
whenever there are layers the selected number is that of one of them. -/
theorem selection_valid {s : EngineState}
    (hs : Reaches LayersCall.run LayersCall.SelectsSome EngineState.init s) :
    s.layersList.length ≤ maximumNumberOfLayers ∧
      (s.layersList ≠ [] →
        0 ≤ s.properties.selectedLayer.toInt ∧
          s.properties.selectedLayer.toInt < s.layersList.length ∧
          ∀ h, ∃ layer t, Layers.getCurrent h s = .ok (some layer) t) := by
  have hinv : s.WellFormed ∧ s.Selected := by
    refine hs.invariant (I := fun s => s.WellFormed ∧ s.Selected) (fun c t hc ht => ?_) ?_
    · exact (LayersCall.keeps_wellFormed_run c t ht.1).and
        (LayersCall.run_post_selected c ht.1 ht.2 hc)
    · exact ⟨EngineState.wellFormed_init, Nat.zero_le _, Nat.zero_lt_one⟩
  exact ⟨hinv.2.1, hinv.2.getCurrent⟩

/-- A set with two layers, the last of which is selected and removed. -/
theorem selection_valid_remove : ∃ s : EngineState,
    Reaches LayersCall.run LayersCall.SelectsSome EngineState.init s ∧ s.layersList ≠ [] ∧
      0 ≤ s.properties.selectedLayer.toInt ∧
      s.properties.selectedLayer.toInt < s.layersList.length := by
  have hrun : ∃ s, Reaches LayersCall.run LayersCall.SelectsSome EngineState.init s ∧
      s.layersList ≠ [] :=
    exists_reaches [(Host.plain, .newSet 640 480 2), (Host.plain, .activateLast),
      (Host.plain, .remove 1)] (by decide +kernel)
  obtain ⟨s, hs, hne⟩ := hrun
  obtain ⟨hlow, hhigh, -⟩ := (selection_valid hs).2 hne
  exact ⟨s, hs, hne, hlow, hhigh⟩

/-- After a set without layers has been created, the first layer that is added is not selected. -/
theorem selection_invalid_empty : ∃ s : EngineState,
    Reaches LayersCall.run (fun _ _ => True) EngineState.init s ∧ s.layersList ≠ [] ∧
      s.properties.selectedLayer.toInt = -1 ∧
      ∃ t, Layers.getCurrent Host.plain s = .ok none t := by
  have hrun : ∃ s, Reaches LayersCall.run (fun _ _ => True) EngineState.init s ∧
      s.layersList ≠ [] ∧ s.properties.selectedLayer.toInt = -1 ∧
        (Layers.getCurrent Host.plain s).returns (fun layer _ => layer.isNone) = true :=
    exists_reaches [(Host.plain, .newSet 640 480 0), (Host.plain, .add)] (by decide +kernel)
  obtain ⟨s, hs, hne, hselected, hcurrent⟩ := hrun
  obtain ⟨layer, t, hget, hnone⟩ := Outcome.exists_of_returns hcurrent
  exact ⟨s, hs, hne, hselected, t, by rw [hget, Option.isNone_iff_eq_none.mp hnone]⟩

end ArbutusEngine
