import ArbutusEngine.Cells
import ArbutusEngine.Intact
import ArbutusEngine.Opening
import ArbutusEngine.Requests

/-!
# Calls that can leave a pointer behind

Two kinds of calls can break an intact state. A document that replaces the visuals leaves the
instances of the old scenes behind unless reading it gets to its scenes; one that replaces the
scenes leaves the layers behind unless it has layers too. And an instance that leaves its cell,
because another one is added there or because it is removed, may still be held by a layer: only the
layer of the selected cell is stopped before. `Call.KeepsReferences` excludes exactly these cases,
and every run without them stays intact.

## Main definitions

* `EngineState.instanceInCell`: the instance that leaves a cell.
* `EngineState.MayRead`, `EngineState.MayReplace`, `EngineState.MayRemove`, `Call.KeepsReferences`.

## Main results

* `Engine.play_post_intact`, `Engine.addVisualToScene_post_intact`,
  `Engine.removeVisualFromScene_post_intact`, `Engine.setState_post_intact`,
  `Engine.openSet_post_intact`.
* `references_intact`: runs of calls that keep the references.
-/

open Exec

namespace ArbutusEngine

/-! ### The instance in a cell -/

/-- The first instance in a cell of the current scene. -/
def EngineState.instanceInCell (s : EngineState) (cell : UInt32 × UInt32) : Option Addr :=
  s.currentScene.bind fun a => (s.scenesList.find? fun scene => scene.addr = a).bind fun scene =>
    scene.visualInstances.find? (VisualInstances.inCell s.instances cell)

theorem EngineState.mem_placed_of_instanceInCell {s : EngineState} {cell : UInt32 × UInt32}
    {a : Addr} (ha : s.instanceInCell cell = some a) : a ∈ s.placed := by
  obtain ⟨b, -, hb⟩ := Option.bind_eq_some_iff.mp ha
  obtain ⟨scene, hscene, hfind⟩ := Option.bind_eq_some_iff.mp hb
  exact mem_placed.mpr ⟨scene, List.mem_of_find?_eq_some hscene, List.mem_of_find?_eq_some hfind⟩

/-- What a lookup finds is the first instance in the cell. -/
theorem EngineState.instanceInCell_of_foundInCell {s : EngineState} {cell : UInt32 × UInt32}
    {a : Addr} (ha : s.foundInCell cell = some a) : s.instanceInCell cell = some a := by
  obtain ⟨b, hb, hscene⟩ := Option.bind_eq_some_iff.mp ha
  obtain ⟨scene, hfind, hfound⟩ := Option.bind_eq_some_iff.mp hscene
  rw [instanceInCell, hb, Option.bind_some, hfind, Option.bind_some]
  exact VisualInstances.find?_of_found hfound

/-- Playing what is found in the current scene keeps the state intact. -/
theorem Engine.setActiveVisualInstance_post_intact {s : EngineState} (hi : s.Intact) (h : Host)
    (layerN column : UInt32) :
    (Engine.setActiveVisualInstance h layerN column s).Post (fun _ t => t.Intact)
      fun _ t => t.Intact := by
  refine Engine.setActiveVisualInstance_post_of (fun _ => hi) (fun a _ hfound => ?_) fun _ _ => ?_
  · have hplaced := EngineState.mem_placed_of_instanceInCell
      (EngineState.instanceInCell_of_foundInCell hfound)
    exact (Layer.keeps_intact_playVisualInstance h _ a s ⟨hi, hplaced⟩).mono (fun _ _ ht => ht.1)
      fun _ _ ht => ht.1
  · exact Keeps.ite (Layers.keeps_intact_stopAt layerN) (.pure _) s hi

theorem Engine.play_post_intact {s : EngineState} (hi : s.Intact) (h : Host) (data : Json) :
    (Engine.play h data s).Post (fun _ t => t.Intact) fun _ t => t.Intact := by
  have hnumber : ∀ message key, (Engine.numberOr message key data s).Post (fun _ t => t = s)
      fun _ t => t = s := by
    intro message key
    have hkeeps : Keeps (fun t => t = s) (Engine.numberOr message key data) :=
      .bind (.ofExcept _ _) fun _ => .ite (.ofExcept _ _) (.throw _)
    exact hkeeps s rfl
  rw [Engine.play]
  split_ifs
  swap
  · exact hi
  refine ((hnumber _ _).mono (fun _ _ ht => ht) fun _ _ ht => ht ▸ hi).bind fun layer t ht => ?_
  subst ht
  refine ((hnumber _ _).mono (fun _ _ ht => ht) fun _ _ ht => ht ▸ hi).bind fun column t ht => ?_
  subst ht
  refine (Engine.setActiveVisualInstance_post_intact hi h layer column).bind fun found u hu => ?_
  cases found with
  | none => exact hu
  | some a => exact (VisualInstance.keepsOutline_play h a false).intact u hu

/-! ### Instances that leave their cell -/

/-- The layers that `Engine::addVisualToScene` asks for are there or can be made. -/
def EngineState.MakesLayers (h : Host) (layer : UInt32) (s : EngineState) : Prop :=
  s.nLayers < layer → layer.toNat + 1 < 2 ^ 31 ∧ (h.shaderError = none ∨
    layer.toNat < s.layersList.length ∨ s.layersList.length = maximumNumberOfLayers)

/-- An instance may be added in the cell: adding fails before it gets there, or no layer holds the
instance that is replaced. -/
def EngineState.MayReplace (h : Host) (visual layer column : UInt32) (s : EngineState) : Prop :=
  Visuals.get s.visualsList visual.toInt32 ≠ none → s.MakesLayers h layer →
    ∀ a, s.instanceInCell (layer, column) = some a → a ∉ s.held

/-- The instance in the cell may be removed: only a layer that is stopped holds it, the layer of the
selected cell, as long as it plays something. -/
def EngineState.MayRemove (layer column : UInt32) (s : EngineState) : Prop :=
  ∀ a, s.instanceInCell (layer, column) = some a →
    ∀ n l, s.layersList[n]? = some l → a ∈ l.held →
      n = layer.toNat ∧ l.activeInstance ≠ none ∧ layer = s.properties.selectedLayer.toUInt32 ∧
        column = s.properties.selectedColumn.toUInt32

section cells

variable {s t : EngineState}

/-- An instance that is listed stays listed when the first instance in a cell of the current scene
is erased, unless it is that instance. -/
theorem EngineState.exists_mem_replace (hs : s.WellFormed) {a : Addr}
    (hcurrent : s.currentScene = some a) (cell : UInt32 × UInt32) {f : Scene → Scene}
    (hf : ∀ scene ∈ s.scenesList, scene.addr = a →
      ∀ b ∈ scene.visualInstances.eraseP (VisualInstances.inCell s.instances cell),
        b ∈ (f scene).visualInstances)
    {b : Addr} (hb : b ∈ s.placed) (hne : s.instanceInCell cell ≠ some b) :
    ∃ scene ∈ Scene.replace a f s.scenesList, b ∈ scene.visualInstances := by
  obtain ⟨scene, hscene, hb⟩ := mem_placed.mp hb
  refine ⟨_, List.mem_map_of_mem hscene, ?_⟩
  split_ifs with ha
  swap
  · exact hb
  refine hf scene hscene ha b ?_
  have hfind : s.instanceInCell cell =
      scene.visualInstances.find? (VisualInstances.inCell s.instances cell) := by
    rw [instanceInCell, hcurrent, Option.bind_some, ← ha, hs.find?_scene hscene, Option.bind_some]
  rw [hfind] at hne
  -- the list is that before the first instance in the cell, that instance, and the rest
  cases hc : scene.visualInstances.find? (VisualInstances.inCell s.instances cell) with
  | none =>
    rw [List.eraseP_of_forall_not (List.find?_eq_none.mp hc)]
    exact hb
  | some c =>
    obtain ⟨hcell, front, back, hsplit, hfront⟩ := List.find?_eq_some_iff_append.mp hc
    have hfront' : ∀ d ∈ front, ¬ VisualInstances.inCell s.instances cell d = true := fun d hd => by
      simpa using hfront d hd
    rw [hsplit, List.eraseP_append_right _ hfront', List.eraseP_cons_of_pos hcell]
    rw [hsplit] at hb
    rcases List.mem_append.mp hb with hb | hb
    · exact List.mem_append_left _ hb
    · rcases List.mem_cons.mp hb with rfl | hb
      · exact absurd hc hne
      · exact List.mem_append_right _ hb

/-- Adding an instance of a visual of the list, in the place of one that no layer holds. -/
theorem EngineState.Intact.place (hi : s.Intact) (hs : s.WellFormed) (h : Host) {a : Addr}
    (hcurrent : s.currentScene = some a) {p : Placement}
    (hv : ∃ v ∈ s.visualsList, v.addr = p.visual)
    (hfree : ∀ b, s.instanceInCell (p.layer, p.column) = some b → b ∉ s.held) :
    (s.place h a p).Intact where
  held_placed b hb := by
    refine mem_placed.mpr (exists_mem_replace hs hcurrent (p.layer, p.column)
      (fun _ _ _ c hc => List.mem_append_left _ hc) (hi.held_placed b hb) fun hcell => ?_)
    exact hfree b hcell hb
  connected := by
    refine connected_iff_known.mpr fun b hb i hbi => ?_
    rw [EngineState.place, Heap.get?_alloc] at hbi
    split_ifs at hbi with hnext
    · obtain rfl := Option.some.inj hbi
      exact hv
    · obtain ⟨scene, hscene, hb⟩ := mem_placed.mp hb
      obtain ⟨old, hold, rfl⟩ := Scene.mem_replace hscene
      refine connected_iff_known.mp hi.connected b (mem_placed.mpr ⟨old, hold, ?_⟩) i hbi
      split_ifs at hb
      · rcases List.mem_append.mp hb with hb | hb
        · exact List.mem_of_mem_eraseP hb
        · exact absurd (List.mem_singleton.mp hb) hnext
      · exact hb

/-- Without the shaders, or with a counter that overflows, adding layers does not return. -/
theorem intLoop_add_of_not_makesLayers {h : Host} {layer : UInt32} (hm : ¬ s.MakesLayers h layer) :
    (intLoop s.layersList.length (layer.toNat + 1) (do let _ ← Layers.add h true) s).Post
      (fun _ _ => False) fun _ t => s.Grows t := by
  rw [EngineState.MakesLayers, Classical.not_imp] at hm
  obtain ⟨-, hm⟩ := hm
  have hgrows := Layers.keeps_grows_intLoop s h s.layersList.length (layer.toNat + 1) s (.refl s)
  rw [intLoop] at hgrows ⊢
  by_cases hn : layer.toNat + 1 < 2 ^ 31
  · rw [if_pos hn] at hgrows ⊢
    have hroom : ¬ layer.toNat < s.layersList.length := fun hlt => hm ⟨hn, .inr (.inl hlt)⟩
    have hfull : s.layersList.length ≠ maximumNumberOfLayers := fun he => hm ⟨hn, .inr (.inr he)⟩
    cases hsh : h.shaderError with
    | none => exact absurd ⟨hn, .inl hsh⟩ hm
    | some what =>
      have hpos : layer.toNat + 1 - s.layersList.length ≠ 0 := by omega
      rw [Layers.iterate_add_of_shaderError hsh hpos hfull] at hgrows ⊢
      exact hgrows
  · rw [if_neg hn] at hgrows ⊢
    rw [bind_run] at hgrows ⊢
    cases hrun : iterate (2 ^ 31 - s.layersList.length) (do let _ ← Layers.add h true) s with
    | ok _ t => trivial
    | threw e t =>
      rw [hrun] at hgrows
      exact hgrows
    | undefined u => trivial

/-- Adding an instance to the current scene, once the layers are there. -/
theorem Engine.placeInCurrentScene_post_intact (hs : s.WellFormed) (hi : s.Intact) (h : Host)
    {v : Visual} (hv : v ∈ s.visualsList) {layer column : UInt32}
    (hfree : ∀ a, s.instanceInCell (layer, column) = some a → a ∉ s.held) :
    (Engine.placeInCurrentScene h ⟨v.addr, layer, column, ""⟩ s).Post (fun _ t => t.Intact)
      fun _ t => t.Intact := by
  rw [Engine.placeInCurrentScene, bind_run, Engine.derefCurrentScene, bind_run, gets_run,
    Outcome.bind_ok]
  cases hcurrent : s.currentScene with
  | none => trivial
  | some a =>
    rw [ofOption_some, pure_run, Outcome.bind_ok]
    exact Scene.add_post hs h a _ (hi.place hs h hcurrent ⟨v, hv, rfl⟩ hfree)

theorem Engine.addVisualToScene_post_intact (hs : s.WellFormed) (hi : s.Intact) (h : Host)
    {visual layer column : UInt32} (hg : s.MayReplace h visual layer column) :
    (Engine.addVisualToScene h visual layer column s).Post (fun _ t => t.Intact)
      fun _ t => t.Intact := by
  rw [Engine.addVisualToScene, bind_run, gets_run, Outcome.bind_ok]
  cases hv : Visuals.get s.visualsList visual.toInt32 with
  | none => exact hi
  | some v =>
    have hfree := hg (by rw [hv]; exact Option.some_ne_none v)
    have hv := Visuals.mem_of_get hv
    dsimp only
    rw [bind_run, gets_run, Outcome.bind_ok]
    split_ifs with hlayers
    swap
    · exact Engine.placeInCurrentScene_post_intact hs hi h hv
        (hfree fun hlt => absurd hlt hlayers)
    rw [bind_run, gets_run, Outcome.bind_ok, bind_run]
    by_cases hm : s.MakesLayers h layer
    · have hgrows := (Layers.keeps_grows_intLoop s h s.layersList.length (layer.toNat + 1) s
        (.refl s)).and (Layers.keeps_wellFormed_intLoop h s.layersList.length (layer.toNat + 1) s hs)
      refine (hgrows.mono (fun _ _ ht => ht) fun _ _ ht => ht.1.intact hi).bind
        fun _ t ⟨ht, htwf⟩ => ?_
      have hheld := ht.held_eq
      have htin := ht.intact hi
      obtain ⟨l, n, p, rfl, -⟩ := ht
      exact Engine.placeInCurrentScene_post_intact htwf htin h hv fun a ha => hheld ▸ hfree hm a ha
    · refine Outcome.Post.bind (Q := fun _ _ => False) ?_ fun _ _ => False.elim
      exact (intLoop_add_of_not_makesLayers hm).mono (fun _ _ => id) fun _ _ ht => ht.intact hi

/-- Removing the instance in a cell of the current scene, which no layer holds. -/
theorem Engine.removeFromCurrentScene_post_intact (hs : s.WellFormed) (hi : s.Intact)
    {layer column : UInt32} (hfree : ∀ a, s.instanceInCell (layer, column) = some a → a ∉ s.held) :
    (Engine.removeFromCurrentScene layer column s).Post (fun _ t => t.Intact)
      fun _ t => t.Intact := by
  rw [Engine.removeFromCurrentScene, bind_run, Engine.derefCurrentScene, bind_run, gets_run,
    Outcome.bind_ok]
  cases hcurrent : s.currentScene with
  | none => trivial
  | some a =>
    rw [ofOption_some, pure_run, Outcome.bind_ok]
    cases hfind : s.scenesList.find? (fun scene => scene.addr = a) with
    | none => simp [Engine.removeFromScene, Scene.read, hfind]
    | some scene =>
      have hscene := List.mem_of_find?_eq_some hfind
      obtain rfl : scene.addr = a := by simpa using List.find?_some hfind
      have hlist : ∀ old ∈ s.scenesList, old.addr = scene.addr → old = scene :=
        fun old hold holda => hs.scene_eq hold hscene holda
      rw [Engine.removeFromScene_eq hs hscene, Outcome.post_ok]
      refine ⟨fun b hb => ?_, hi.connected.mono (fun b hb => ?_) (fun _ => rfl) fun v hv =>
        ⟨v, hv, rfl⟩⟩
      · refine EngineState.mem_placed.mpr (EngineState.exists_mem_replace hs hcurrent
          (layer, column) (fun old hold holda c hc => ?_) (hi.held_placed b hb) fun hcell => ?_)
        · exact hlist old hold holda ▸ hc
        · exact hfree b hcell hb
      · obtain ⟨new, hnew, hb⟩ := EngineState.mem_placed.mp hb
        obtain ⟨old, hold, rfl⟩ := Scene.mem_replace hnew
        refine EngineState.mem_placed.mpr ⟨old, hold, ?_⟩
        split_ifs at hb with holda
        · exact hlist old hold holda ▸ List.mem_of_mem_eraseP hb
        · exact hb

/-- What stopping a layer changes of the outline. -/
theorem Layer.stop_post (n : ℕ) {layer : Layer} (hl : s.layersList[n]? = some layer) :
    (Layer.stop n s).Post
      (fun _ t => t.outline = ({ s with
        layersList := if layer.activeInstance = none then s.layersList
          else s.layersList.modify n fun layer =>
            { layer with activeInstance := none, schedulledInstance := none } } :
              EngineState).outline)
      fun _ t => t.outline = s.outline := by
  rw [Layer.stop, bind_run]
  simp only [Layer.read, hl, ofOption_some, pure_run, Outcome.bind_ok]
  cases layer.activeInstance with
  | none => rfl
  | some a =>
    refine (VisualInstance.keepsOutline_stop a s.outline s rfl).bind fun _ t ht => ?_
    have hlayers : t.layersList = s.layersList := congrArg (fun o => o.layersList) ht
    have hl : t.layersList[n]? = some layer := by rwa [hlayers]
    simp only [Layer.update_eq hl, Outcome.post_ok, hlayers, reduceCtorEq, ↓reduceIte]
    exact congrArg (fun o : Outline => { o with layersList := s.layersList.modify n fun layer =>
      { layer with activeInstance := none, schedulledInstance := none } }) ht

theorem Engine.isSelectedCell_eq (h : Host) (layer column : UInt32) (s : EngineState) :
    Engine.isSelectedCell h layer column s =
      .ok (decide (layer = s.properties.selectedLayer.toUInt32 ∧
        column = s.properties.selectedColumn.toUInt32)) (s.resetProperties h) := by
  rw [Engine.isSelectedCell, bind_run, Engine.getSelectedLayerNumber_eq, Outcome.bind_ok]
  split_ifs with hl
  · simp only [hl, true_and]
    rfl
  · simp only [hl, false_and, decide_false]
    rfl

theorem EngineState.instanceInCell_of_outline (h : s.outline = t.outline)
    (cell : UInt32 × UInt32) : s.instanceInCell cell = t.instanceInCell cell := by
  have hcell : VisualInstances.inCell s.instances cell =
      VisualInstances.inCell t.instances cell := by
    funext a
    have ha := congrArg (Option.map Prod.snd) (congrFun (congrArg (fun o => o.instanceAt) h) a)
    simp only [outline, Option.map_map, Function.comp_def] at ha
    rw [VisualInstances.inCell, VisualInstances.inCell, show (s.instances.get? a).map _ = _ from ha]
  rw [instanceInCell, instanceInCell, hcell,
    show s.currentScene = t.currentScene from congrArg Outline.currentScene h,
    show s.scenesList = t.scenesList from congrArg (fun o => o.scenesList) h]

/-- A layer that has been stopped holds nothing, if it played something. -/
theorem EngineState.notMem_held_of_stop {n : ℕ} {layer : Layer} (hl : s.layersList[n]? = some layer)
    {a : Addr} (ha : ∀ m l, s.layersList[m]? = some l → a ∈ l.held →
      m = n ∧ l.activeInstance ≠ none) :
    a ∉ ({ s with
      layersList := if layer.activeInstance = none then s.layersList
        else s.layersList.modify n fun layer =>
          { layer with activeInstance := none, schedulledInstance := none } } :
            EngineState).held := by
  intro hheld
  obtain ⟨l, hmem, hal⟩ := mem_held.mp hheld
  obtain ⟨m, hm⟩ := List.getElem?_of_mem hmem
  dsimp only at hm
  split_ifs at hm with hactive
  · obtain ⟨rfl, hne⟩ := ha m l hm hal
    rw [hl] at hm
    exact hne (Option.some.inj hm ▸ hactive)
  · by_cases hmn : n = m
    · subst hmn
      rw [List.getElem?_modify_eq, hl] at hm
      rw [← Option.some.inj hm] at hal
      exact absurd hal List.not_mem_nil
    · rw [List.getElem?_modify_ne _ _ hmn] at hm
      exact hmn (ha m l hm hal).1.symm

theorem Engine.removeVisualFromScene_post_intact (hs : s.WellFormed) (hi : s.Intact) (h : Host)
    {layer column : UInt32} (hg : s.MayRemove layer column) :
    (Engine.removeVisualFromScene h layer column s).Post (fun _ t => t.Intact)
      fun _ t => t.Intact := by
  rw [Engine.removeVisualFromScene, bind_run, Engine.isSelectedCell_eq, Outcome.bind_ok]
  have hreset : (s.resetProperties h).WellFormed := hs.resetProperties h
  have hireset : (s.resetProperties h).Intact := ⟨hi.held_placed, hi.connected⟩
  -- an instance that no layer could be stopped for is held by none
  have hfree : ¬ (layer = s.properties.selectedLayer.toUInt32 ∧
      column = s.properties.selectedColumn.toUInt32 ∧ ∃ l, s.layersList[layer.toNat]? = some l) →
      ∀ a, (s.resetProperties h).instanceInCell (layer, column) = some a →
        a ∉ (s.resetProperties h).held := by
    intro hne a ha hheld
    obtain ⟨l, hmem, hal⟩ := EngineState.mem_held.mp hheld
    obtain ⟨m, hm⟩ := List.getElem?_of_mem hmem
    obtain ⟨rfl, -, hlayer, hcolumn⟩ := hg a ha m l hm hal
    exact hne ⟨hlayer, hcolumn, l, hm⟩
  split_ifs with hsel
  swap
  · refine Engine.removeFromCurrentScene_post_intact hreset hireset (hfree fun hsel' => ?_)
    exact hsel (decide_eq_true ⟨hsel'.1, hsel'.2.1⟩)
  rw [bind_run, Layers.stopAt, bind_run, gets_run, Outcome.bind_ok]
  cases hl : Layers.get layer (s.resetProperties h) with
  | none =>
    refine Engine.removeFromCurrentScene_post_intact hreset hireset (hfree fun hsel' => ?_)
    obtain ⟨l, hl'⟩ := hsel'.2.2
    exact Option.some_ne_none l (hl'.symm.trans hl)
  | some l =>
    have hpost := ((Layer.stop_post layer.toNat hl).and
      ((Layer.keepsSkeleton_stop layer.toNat).wellFormed _ hreset)).and
        (Layer.keeps_intact_stop layer.toNat _ hireset)
    refine (hpost.mono (fun _ _ ht => ht) fun _ _ ht => ht.2).bind fun _ t hstopped => ?_
    obtain ⟨⟨ht, htwf⟩, htin⟩ := hstopped
    refine Engine.removeFromCurrentScene_post_intact htwf htin fun a ha => ?_
    rw [EngineState.instanceInCell_of_outline ht] at ha
    rw [EngineState.held_of_graph (congrArg Outline.toGraph ht)]
    exact EngineState.notMem_held_of_stop hl fun m k hm hk => ⟨(hg a ha m k hm hk).1,
      (hg a ha m k hm hk).2.1⟩

end cells

/-! ### Documents -/

/-- Reading the document keeps the references: when the visuals are replaced, the scenes are rebuilt
too or have no instances, and when the scenes are rebuilt, the layers are replaced too or hold no
instance. -/
def EngineState.MayRead (h : Host) (document : Json) (s : EngineState) : Prop :=
  ((document.field "visuals").isArray = true → s.placed = [] ∨ ReachesScenes h s document) ∧
    (ReachesScenes h s document → s.held = [] ∨ (document.field "layers").isArray = true)

section documents

variable {s : EngineState}

theorem EngineState.held_pushLayers (h : Host) (s : EngineState) (layers : List LayerProperties) :
    (s.pushLayers h layers).held = s.held :=
  foldl_push (EngineState.pushLayer h) (fun t => t.held = s.held)
    (fun t _ ht => by simpa [held, EngineState.pushLayer, Layer.held] using ht) layers rfl

theorem EngineState.held_afterLayers (h : Host) (layers : Json) (s : EngineState) :
    (s.afterLayers h layers).held = if layers.isArray then [] else s.held := by
  rw [afterLayers]
  split_ifs
  · exact held_pushLayers h _ _
  · rfl

theorem EngineState.placed_afterLayers (h : Host) (layers : Json) (s : EngineState) :
    (s.afterLayers h layers).placed = s.placed := by
  obtain ⟨l, n, p, hl⟩ := s.exists_afterLayers h layers
  rw [hl]
  rfl

theorem EngineState.held_afterScenes (h : Host) (scenes : Json) (s : EngineState) :
    (s.afterScenes h scenes).held = s.held := by
  obtain ⟨l, i, n, p, hl⟩ := s.exists_afterScenes h scenes
  rw [hl]
  rfl

/-- Replacing the visuals keeps the state intact as long as there are no instances. -/
theorem EngineState.Intact.afterVisuals (hi : s.Intact) (h : Host) {visuals : Json}
    (hv : visuals.isArray = true → s.placed = []) : (s.afterVisuals h visuals).Intact := by
  by_cases ha : visuals.isArray = true
  · obtain ⟨v, n, p, hafter⟩ := s.exists_afterVisuals h visuals
    rw [hafter]
    refine ⟨hi.held_placed, connected_iff_known.mpr fun a hmem => ?_⟩
    have hplaced : s.placed = [] := hv ha
    exact absurd (show a ∈ s.placed from hmem) (hplaced ▸ List.not_mem_nil)
  · rw [EngineState.afterVisuals, if_neg ha]
    exact hi

theorem EngineState.Intact.afterLayers (hi : s.Intact) (h : Host) (layers : Json) :
    (s.afterLayers h layers).Intact where
  held_placed a ha := by
    rw [held_afterLayers] at ha
    rw [placed_afterLayers]
    split_ifs at ha
    · exact absurd ha List.not_mem_nil
    · exact hi.held_placed a ha
  connected := by
    obtain ⟨l, n, p, hl⟩ := s.exists_afterLayers h layers
    rw [hl]
    exact hi.connected

theorem Engine.setState_post_intact (hs : s.WellFormed) (hi : s.Intact) (h : Host) {document : Json}
    (hg : s.MayRead h document) :
    (Engine.setState h document s).Post (fun _ t => t.Intact) fun _ t => t.Intact := by
  have hs₁ := (hs.afterVisuals h (document.field "visuals")).afterLayers h (document.field "layers")
  -- reading that gets to the scenes leaves the layers without an instance
  have hscenes : ReachesScenes h s document →
      (((s.afterVisuals h (document.field "visuals")).afterLayers h
        (document.field "layers")).afterScenes h (document.field "scenes")).Intact := by
    intro hr
    refine ⟨?_, EngineState.connected_afterScenes h hs₁ hr.1⟩
    obtain ⟨v, n, p, hafter⟩ := s.exists_afterVisuals h (document.field "visuals")
    have hheld : (s.afterVisuals h (document.field "visuals")).held = s.held := by
      rw [hafter]
      rfl
    have hnil : (if (document.field "layers").isArray then [] else s.held) = [] := by
      rcases hg.2 hr with hnil | hl
      · rw [hnil, ite_self]
      · rw [if_pos hl]
    rw [EngineState.held_afterScenes, EngineState.held_afterLayers, hheld, hnil]
    exact fun _ ha => absurd ha List.not_mem_nil
  -- otherwise the visuals have been replaced only if there are no instances
  have hlists : ¬ ReachesScenes h s document →
      (s.afterVisuals h (document.field "visuals")).Intact := fun hr =>
    hi.afterVisuals h fun hv => (hg.1 hv).resolve_right hr
  cases hrun : Engine.setState h document s with
  | undefined u => trivial
  | ok _ t =>
    obtain ⟨-, -, hve, -, hle, -, rfl⟩ := (Engine.setState_eq_ok_iff hs h document).mp hrun
    by_cases hsc : (document.field "scenes").isArray = true
    · exact hscenes ⟨hsc, hve, hle⟩
    · rw [Outcome.post_ok, EngineState.afterScenes, if_neg hsc]
      exact (hlists fun hr => hsc hr.1).afterLayers h _
  | threw e t =>
    rcases Engine.setState_eq_threw hs hrun with ⟨-, rfl⟩ | ⟨hve, rfl⟩ | ⟨-, hle, rfl⟩ |
      ⟨hve, hle, hse, rfl⟩
    · exact hi
    · exact hlists fun hr => Option.some_ne_none e (hve.symm.trans hr.2.1)
    · exact (hlists fun hr => Option.some_ne_none e (hle.symm.trans hr.2.2)).afterLayers h _
    · refine hscenes ⟨?_, hve, hle⟩
      by_contra hsc
      rw [scenesError, if_neg hsc] at hse
      exact Option.some_ne_none e hse.symm

theorem EngineState.Intact.beforeLoad (hi : s.Intact) (h : Host) : (s.beforeLoad h).Intact := by
  rw [EngineState.beforeLoad]
  split_ifs
  · exact .of_isEmpty ⟨rfl, rfl, rfl⟩
  · exact ⟨fun _ ha => absurd ha List.not_mem_nil, hi.connected⟩

theorem Engine.openSet_post_intact (hs : s.WellFormed) (hi : s.Intact) (h : Host) {path : String}
    (hg : (s.beforeLoad h).MayRead h (JsonLoad.document h path)) :
    (Engine.openSet h path s).Post (fun _ t => t.Intact) fun _ t => t.Intact := by
  rw [Engine.openSet_run hs]
  split_ifs
  · trivial
  rw [bind_run]
  rcases JsonLoad.load_cases h path (s.beforeLoad h) with hload | ⟨-, e, hload⟩
  · rw [hload, Outcome.bind_ok]
    exact (Engine.setState_post_intact (hs.beforeLoad h) (hi.beforeLoad h) h hg).bind
      fun _ t ht => (Engine.keepsGraph_finishSet h path).intact t ht
  · rw [hload]
    exact hi.beforeLoad h

end documents

/-! ### Requests -/

theorem keeps_intact_handleAction (h : Host) (request : Json) {action : Action}
    (ha : action ≠ .setState) : Keeps EngineState.Intact (handleAction h request action) := by
  cases action with
  | ping => exact .pure _
  | getState => exact .bind Engine.keepsOutline_getState.intact fun _ => .pure _
  | setState => exact absurd rfl ha
  | getFullState => exact .bind (Engine.keepsOutline_getFullState h).intact fun _ => .pure _
  | setLayerControl =>
    exact .bind (.ofExcept _ _) fun data => .bind (.ofExcept _ _) fun name =>
      .bind (.ofExcept _ _) fun value => .bind (.ofExcept _ _) fun n =>
        .bind (Layer.keeps_intact_setState _ _) fun _ =>
          .bind (Fixes.readLayer _).intact fun _ => .bind (.ofExcept _ _) fun _ => .pure _
  | updateState =>
    refine .bind (.ofExcept _ _) fun data => .bind (.bind (.ofExcept _ _) fun layers => ?_)
      fun _ => .pure _
    exact .bind (.forEach fun entry _ => Layer.keeps_intact_setState _ _) fun _ => .pure _

theorem handle_post_intact {s : EngineState} (hs : s.WellFormed) (hi : s.Intact) (h : Host)
    {request : Json} (hg : requestAction request = some .setState →
      s.MayRead h (request.field "data")) :
    (handleJSONRequestForClient h request s).Post (fun _ t => t.Intact) fun _ t => t.Intact := by
  cases ha : requestAction request with
  | none =>
    obtain ⟨e, he, -⟩ := handle_of_no_action (h := h) (s := s) ha
    rw [he]
    exact hi
  | some action =>
    by_cases hset : action = .setState
    swap
    · rw [handle_of_action ha]
      exact keeps_intact_handleAction h request hset s hi
    subst hset
    by_cases ho : (request.field "data").isObject = true
    · rw [handle_setState ha ho]
      exact (Engine.setState_post_intact hs hi h (hg ha)).bind fun _ _ ht => ht
    · rw [handle_setState_of_not_isObject ha (by simpa using ho)]
      exact hi

/-! ### Runs -/

/-- The call keeps the references of the state. Calls other than those that read a document and
those that take an instance out of its cell always do. -/
def Call.KeepsReferences (c : Call) (s : EngineState) : Prop :=
  match c.2 with
  | .setState document => s.MayRead c.1 document
  | .openSet path => (s.beforeLoad c.1).MayRead c.1 (JsonLoad.document c.1 path)
  | .addVisualToScene visual layer column => s.MayReplace c.1 visual layer column
  | .removeVisualFromScene layer column => s.MayRemove layer column
  | .request request => requestAction request = some .setState →
      s.MayRead c.1 (request.field "data")
  | _ => True

theorem Call.run_post_intact (c : Call) {s : EngineState} (hs : s.WellFormed) (hi : s.Intact)
    (hg : c.KeepsReferences s) : (c.run s).Post (fun _ t => t.Intact) fun _ t => t.Intact := by
  obtain ⟨h, c⟩ := c
  cases c with
  | newSet width height layers =>
    refine ((Engine.closeSet_post_intact hs hi h).bind fun _ t ht => ?_).bind fun _ _ ht => ht
    exact Engine.keeps_intact_createSet h width height layers t ht
  | openSet path => exact (Engine.openSet_post_intact hs hi h hg).bind fun _ _ ht => ht
  | closeSet => exact Engine.closeSet_post_intact hs hi h
  | saveSet =>
    exact Keeps.bind (.bind (.bind (.gets _) fun _ => (Set.keepsGraph_saveSetAs h _).intact)
      fun _ => .pure _) (fun _ => .pure _) s hi
  | saveSetAs path =>
    exact Keeps.bind (.bind (Set.keepsGraph_saveSetAs h path).intact fun _ =>
      .bind (Fixes.updateProperties h _).intact fun _ => .pure _) (fun _ => .pure _) s hi
  | setState document => exact Engine.setState_post_intact hs hi h hg
  | addScene => exact hi.pushScene "new Scene"
  | setCurrentScene n => exact (Set.keepsGraph_setCurrentScene h n).intact s hi
  | addVideo path =>
    exact Keeps.bind (Visuals.keeps_intact_addVideo h path) (fun _ => .pure _) s hi
  | addVisualToScene visual layer column => exact Engine.addVisualToScene_post_intact hs hi h hg
  | removeVisualFromScene layer column => exact Engine.removeVisualFromScene_post_intact hs hi h hg
  | play data => exact Engine.play_post_intact hi h data
  | stop data => exact Engine.keeps_intact_stop data s hi
  | triggerSchedulledVisualsOnAllLayers => exact Engine.keeps_intact_trigger h s hi
  | setMetronomeOn on =>
    exact (Fixes.updateProperties h fun p => { p with metronomeOn := on }).intact s hi
  | setBeatSnap a on =>
    exact (VisualInstance.keepsOutline_setBeatSnap a on).intact s hi
  | request request => exact (handle_post_intact hs hi h hg).bind fun _ _ ht => ht

/-- Every run of calls that keep the references stays intact: what the layers play or have scheduled
is listed by a scene, and every listed instance has its visual. -/
theorem references_intact {s : EngineState}
    (hs : Reaches Call.run Call.KeepsReferences EngineState.init s) : s.Intact := by
  refine (Reaches.invariant (I := fun t => t.WellFormed ∧ t.Intact) (fun c t hc ⟨htwf, hti⟩ => ?_)
    ⟨EngineState.wellFormed_init, .of_isEmpty ⟨rfl, rfl, rfl⟩⟩ hs).2
  exact (c.2.keeps_wellFormed c.1 t htwf).and (c.run_post_intact htwf hti hc)

instance (h : Host) (document : Json) (s : EngineState) : Decidable (s.MayRead h document) :=
  inferInstanceAs (Decidable (_ ∧ _))

/-- A document with one video. -/
def oneVideo : Json :=
  .obj [("visuals", .arr [.obj [("type", .int 0), ("filePath", .str "a.mov")]])]

/-- The request to play the first cell. -/
def firstCell : Json := .obj [("layer", .int 0), ("column", .int 0)]

/-- The calls that open and close sets, read documents, edit scenes and play. -/
def Command.editsGraph : Command → Bool
  | .newSet .. | .openSet _ | .closeSet | .setState _ | .addVisualToScene .. => true
  | .removeVisualFromScene .. | .play _ | .stop _ | .triggerSchedulledVisualsOnAllLayers => true
  | _ => false

/-- A video that is read, placed in the first cell of a new set and played. -/
theorem references_intact_play : ∃ s : EngineState,
    Reaches Call.run Call.KeepsReferences EngineState.init s ∧ s.held = [0] ∧ s.Intact := by
  -- a guard that can be computed: an instance is added only while nothing is held
  let guard : Call → EngineState → Bool := fun c s =>
    match c.2 with
    | .newSet .. | .play _ => true
    | .setState document => decide (s.MayRead c.1 document)
    | .addVisualToScene .. => decide (s.held = [])
    | _ => false
  obtain ⟨s, hs, hheld⟩ : ∃ s : EngineState,
      Reaches Call.run (fun c s => guard c s = true) EngineState.init s ∧ s.held = [0] :=
    exists_reaches [(Host.plain, .newSet 640 480 1), (Host.plain, .setState oneVideo),
      (Host.plain, .addVisualToScene 0 0 0), (Host.plain, .play firstCell)] (by decide +kernel)
  have hs' : Reaches Call.run Call.KeepsReferences EngineState.init s := by
    refine hs.mono fun c t hc => ?_
    obtain ⟨h, c⟩ := c
    cases c with
    | newSet => trivial
    | play => trivial
    | setState document =>
      have hread : t.MayRead h document := of_decide_eq_true hc
      exact hread
    | addVisualToScene =>
      have hnil : t.held = [] := of_decide_eq_true hc
      exact fun _ _ a _ => hnil ▸ List.not_mem_nil
    | _ => exact absurd hc Bool.false_ne_true
  exact ⟨s, hs', hheld, references_intact hs'⟩

/-- A document that has scenes only leaves the instance a layer plays behind, and one that has
visuals only leaves the instances of the scenes behind. -/
theorem references_intact_partial :
    (∃ s : EngineState, Reaches Call.run (fun c _ => c.2.editsGraph = true) EngineState.init s ∧
      ∃ a ∈ s.held, a ∉ s.placed) ∧
    ∃ s : EngineState, Reaches Call.run (fun c _ => c.2.editsGraph = true) EngineState.init s ∧
      ¬ s.Connected := by
  constructor
  · exact exists_reaches [(Host.plain, .newSet 640 480 1), (Host.plain, .setState oneVideo),
      (Host.plain, .addVisualToScene 0 0 0), (Host.plain, .play firstCell),
      (Host.plain, .setState (.obj [("scenes", .arr [])]))] (by decide +kernel)
  · exact exists_reaches [(Host.plain, .newSet 640 480 1), (Host.plain, .setState oneVideo),
      (Host.plain, .addVisualToScene 0 0 0), (Host.plain, .setState (.obj [("visuals", .arr [])]))]
      (by decide +kernel)

end ArbutusEngine
