import ArbutusEngine.Cells
import ArbutusEngine.Intact

/-!
# The layer of an added visual

Two calls add an instance of a visual to a cell of the current scene. `Engine::addVisualToScene`
creates the layers that are missing, and asks for that with the number of layers of the set, which
the layers of the list do not follow. `Engine::addVisualToSceneListInCurrentLayer` clamps the
layer, and its bound is one past the last layer. `Engine::setActiveVisualInstance` refuses a layer
that does not exist, and then the instance cannot be played.

## Main definitions

* `EngineState.Lands`: an instance has been added in a layer that exists, where it is found.
* `Scene.Finds`: an instance added to the cell will be the one that is found there.

## Main results

* `EngineState.lands_place_iff`: when the instance that is placed has landed.
* `added_visual_lands_iff`: when the two calls land an instance.
-/

open Exec

namespace ArbutusEngine

/-! ### The instance that is added -/

/-- The state `t` has a new instance of the visual in the current scene, in the column of a layer
that exists. The instance of its cell is the new one, which `Engine::setActiveVisualInstance` plays
and returns. The layers of the state `s` are where they were. -/
structure EngineState.Lands (s t : EngineState) (visual : Addr) (column : UInt32) (a : Addr)
    (layer : UInt32) : Prop where
  fresh : s.instances.get? a = none
  instance_eq : ∃ i, t.instances.get? a = some i ∧ i.visual = visual ∧ i.cell = (layer, column)
  listed : ∃ scene ∈ t.scenesList, t.currentScene = some scene.addr ∧ a ∈ scene.visualInstances
  layer_ne : Layers.get layer t ≠ none
  found : Set.getVisualInstanceInCorrentSet layer column t = .ok (some a) t
  returned : ∀ h : Host, Engine.setActiveVisualInstance h layer column t =
    (Layer.playVisualInstance h layer.toNat a t).bind fun _ u => .ok (some a) u
  layers_prefix : s.layersList <+: t.layersList

/-- The run adds an instance of the visual that lands in a layer. -/
def AddsToLayer (run : Prog Unit) (visual : Addr) (column : UInt32) (s : EngineState) : Prop :=
  ∃ t a layer, run s = .ok () t ∧ s.Lands t visual column a layer

/-- An instance added to the cell is found there: it replaces the only one in the cell, if any, and
the number of instances is not taken for zero. -/
def Scene.Finds (scene : Scene) (s : EngineState) (cell : UInt32 × UInt32) : Prop :=
  scene.visualInstances.countP (VisualInstances.inCell s.instances cell) ≤ 1 ∧
    VisualInstances.count (scene.visualInstances.eraseP (VisualInstances.inCell s.instances cell) ++
      [s.instances.next]) ≠ 0

instance (scene : Scene) (s : EngineState) (cell : UInt32 × UInt32) :
    Decidable (scene.Finds s cell) :=
  inferInstanceAs (Decidable (_ ∧ _))

/-- Nothing is left exactly if there was at most one. -/
theorem forall_mem_eraseP_not_iff {α : Type} {p : α → Bool} {l : List α} :
    (∀ a ∈ l.eraseP p, ¬p a = true) ↔ l.countP p ≤ 1 := by
  induction l with
  | nil => simp
  | cons a l ih =>
    by_cases ha : p a = true
    · rw [List.eraseP_cons_of_pos ha, List.countP_cons_of_pos ha, ← List.countP_eq_zero]
      omega
    · rw [List.eraseP_cons_of_neg ha, List.countP_cons_of_neg ha, List.forall_mem_cons, ih,
        and_iff_right ha]

theorem VisualInstances.found_append_next_iff {instances : Heap VisualInstance} {list : List Addr}
    (hl : instances.Live list) (i : VisualInstance) :
    found (instances.alloc i) i.cell (list.eraseP (inCell instances i.cell) ++ [instances.next]) =
        some instances.next ↔
      list.countP (inCell instances i.cell) ≤ 1 ∧
        count (list.eraseP (inCell instances i.cell) ++ [instances.next]) ≠ 0 := by
  have hold : ∀ b ∈ list.eraseP (inCell instances i.cell),
      inCell (instances.alloc i) i.cell b = inCell instances i.cell b := by
    intro b hb
    obtain ⟨j, hj⟩ := hl b (List.mem_of_mem_eraseP hb)
    rw [inCell, inCell, Heap.get?_alloc_of_some _ hj, hj]
  have hnew : inCell (instances.alloc i) i.cell instances.next = true := by
    rw [inCell, Heap.get?_alloc_next]
    exact decide_eq_true rfl
  by_cases hcount : count (list.eraseP (inCell instances i.cell) ++ [instances.next]) = 0
  · rw [found, if_pos hcount]
    exact iff_of_false (Option.some_ne_none _).symm fun h => h.2 hcount
  rw [found, if_neg hcount, and_iff_left hcount, ← forall_mem_eraseP_not_iff, List.find?_append,
    List.find?_congr hold]
  constructor
  · intro hfind
    cases hrest : (list.eraseP (inCell instances i.cell)).find? (inCell instances i.cell) with
    | none => exact List.find?_eq_none.mp hrest
    | some b =>
      rw [hrest, Option.some_or] at hfind
      have hb := List.mem_of_mem_eraseP (List.mem_of_find?_eq_some hrest)
      exact absurd (Option.some.inj hfind ▸ hb) hl.next_notMem
  · intro hnone
    rw [List.find?_eq_none.mpr hnone, Option.none_or, List.find?_cons_of_pos hnew]

/-! ### Placing an instance -/

theorem EngineState.grows_resetProperties (h : Host) (s : EngineState) :
    s.Grows (s.resetProperties h) :=
  ⟨[], s.nextAddr, s.properties.setDefaults h, by rw [List.append_nil]; rfl,
    fun _ hl => absurd hl List.not_mem_nil⟩

section place

variable {s t : EngineState} {scene : Scene} {visual : Addr} {layer column : UInt32}

/-- The scene at an address after an instance has been placed in it. -/
def Scene.placed (scene : Scene) (s : EngineState) (cell : UInt32 × UInt32) : Scene :=
  { scene with
    visualInstances := scene.visualInstances.eraseP (VisualInstances.inCell s.instances cell) ++
      [s.instances.next] }

theorem EngineState.placed_mem_place (hscene : scene ∈ s.scenesList) (h : Host) (p : Placement) :
    scene.placed s (p.layer, p.column) ∈ (s.place h scene.addr p).scenesList :=
  List.mem_map.mpr ⟨scene, hscene, if_pos rfl⟩

/-- Placing an instance in the current scene, after layers may have been added. -/
theorem Engine.placeInCurrentScene_eq (hscene : scene ∈ s.scenesList)
    (hcurrent : s.currentScene = some scene.addr) (hgrows : s.Grows t) (ht : t.WellFormed)
    (h : Host) (p : Placement) :
    Engine.placeInCurrentScene h p t = .ok () (t.place h scene.addr p) := by
  have hscenes : t.HasScene scene.addr ∧ t.currentScene = some scene.addr := by
    obtain ⟨added, n, properties, rfl, -⟩ := hgrows
    exact ⟨⟨scene, hscene, rfl⟩, hcurrent⟩
  rw [Engine.placeInCurrentScene, bind_run, Engine.derefCurrentScene, bind_run, gets_run,
    Outcome.bind_ok, hscenes.2, ofOption_some, pure_run, Outcome.bind_ok]
  exact Scene.add_eq ht hscenes.1 h p

variable (hs : s.WellFormed) (hscene : scene ∈ s.scenesList)
  (hcurrent : s.currentScene = some scene.addr) (hgrows : s.Grows t) (ht : t.WellFormed)

include hs hscene hcurrent hgrows ht

/-- An instance placed in the current scene, after layers may have been added, lands exactly if its
layer is there then and it will be found. -/
theorem EngineState.lands_place_iff (h : Host) :
    (∃ a l, s.Lands (t.place h scene.addr ⟨visual, layer, column, ""⟩) visual column a l) ↔
      layer.toNat < t.layersList.length ∧ scene.Finds s (layer, column) := by
  have hwf := ht.place h scene.addr ⟨visual, layer, column, ""⟩
  obtain ⟨added, n, p, rfl, -⟩ := hgrows
  have hlive := hs.instances_live scene hscene
  have hmem := EngineState.placed_mem_place
    (s := { s with layersList := s.layersList ++ added, nextAddr := n, properties := p })
    hscene h ⟨visual, layer, column, ""⟩
  have hfound := EngineState.foundInCell_current hwf hmem hcurrent (layer, column)
  have hlookup := Set.getVisualInstanceInCorrentSet_eq hwf hmem hcurrent layer column
  have hnext := VisualInstances.found_append_next_iff hlive
    (VisualInstance.fresh h s.instances.next visual layer column "")
  rw [VisualInstance.cell_fresh] at hnext
  have hget := s.instances.get?_alloc_next (VisualInstance.fresh h s.instances.next visual layer column "")
  constructor
  · rintro ⟨a, l, hlands⟩
    obtain ⟨scene', hscene', hcurrent', ha⟩ := hlands.listed
    have haddr : scene'.addr = scene.addr :=
      Option.some.inj (hcurrent'.symm.trans hcurrent)
    have hsame : scene' = scene.placed s (layer, column) := hwf.scene_eq hscene' hmem haddr
    have hnew : a = s.instances.next := by
      rw [hsame] at ha
      refine (List.mem_append.mp ha).elim (fun hold => ?_) List.mem_singleton.mp
      obtain ⟨i, hi⟩ := hlive a (List.mem_of_mem_eraseP hold)
      exact absurd (hlands.fresh.symm.trans hi) (Option.some_ne_none i).symm
    subst hnew
    obtain ⟨i, hi, -, hcell⟩ := hlands.instance_eq
    obtain rfl := Option.some.inj (hget.symm.trans hi)
    rw [VisualInstance.cell_fresh] at hcell
    obtain rfl : layer = l := congrArg Prod.fst hcell
    obtain ⟨hfoundNew, -⟩ := Outcome.ok.inj (hlookup.symm.trans hlands.found)
    rw [hfound] at hfoundNew
    refine ⟨?_, hnext.mp hfoundNew⟩
    exact Layers.get_ne_none_iff.mp hlands.layer_ne
  · rintro ⟨hlayer, hfinds⟩
    have hfoundNew := hfound.trans (hnext.mpr hfinds)
    rw [hfoundNew] at hlookup
    have hne := (Layers.get_ne_none_iff (s := EngineState.place h scene.addr
      { s with layersList := s.layersList ++ added, nextAddr := n, properties := p }
      ⟨visual, layer, column, ""⟩)).mpr hlayer
    exact ⟨s.instances.next, layer,
      { fresh := by
          cases hold : s.instances.get? s.instances.next with
          | none => rfl
          | some i => exact absurd (s.instances.lt_next_of_get? hold) (lt_irrefl _)
        instance_eq := ⟨_, hget, rfl, VisualInstance.cell_fresh ..⟩
        listed := ⟨_, hmem, hcurrent, List.mem_append_right _ (List.mem_singleton_self _)⟩
        layer_ne := hne
        found := hlookup
        returned := fun h' => Engine.setActiveVisualInstance_of_found h' hne hlookup
        layers_prefix := List.prefix_append _ _ }⟩

theorem addsToLayer_iff_of_run {run : Prog Unit} {h : Host}
    (hrun : run s = .ok () (t.place h scene.addr ⟨visual, layer, column, ""⟩)) :
    AddsToLayer run visual column s ↔
      layer.toNat < t.layersList.length ∧ scene.Finds s (layer, column) := by
  have hlands : (∃ a l, s.Lands (t.place h scene.addr ⟨visual, layer, column, ""⟩) visual column
      a l) ↔ layer.toNat < t.layersList.length ∧ scene.Finds s (layer, column) :=
    EngineState.lands_place_iff hs hscene hcurrent hgrows ht h
  rw [← hlands]
  constructor
  · rintro ⟨u, a, l, hrun', hlands⟩
    obtain ⟨-, rfl⟩ := Outcome.ok.inj (hrun.symm.trans hrun')
    exact ⟨a, l, hlands⟩
  · exact fun ⟨a, l, hlands⟩ => ⟨_, a, l, hrun, hlands⟩

end place

/-! ### The two calls -/

/-- The layer that `Engine::addVisualToSceneListInCurrentLayer` is asked for: a zero stands for the
selected one. -/
def EngineState.layerOrSelected (s : EngineState) (layer : UInt32) : UInt32 :=
  if layer ≤ 0 then s.properties.selectedLayer.toUInt32 else layer

section calls

variable {s : EngineState} {scene : Scene} {v : Visual} {visual layer column : UInt32}

/-- Adding the layers up to one of the six: they are there afterwards, unless the shaders of a
missing one cannot be loaded. -/
theorem Layers.intLoop_add_cases (hs : s.WellFormed) (h : Host)
    (hlayer : layer.toNat < maximumNumberOfLayers) :
    (∃ t, intLoop s.layersList.length (layer.toNat + 1) (do let _ ← Layers.add h true) s =
        .ok () t ∧ s.Grows t ∧ t.WellFormed ∧ layer.toNat < t.layersList.length ∧
        (layer.toNat < s.layersList.length ∨ h.shaderError = none)) ∨
      ∃ e t, intLoop s.layersList.length (layer.toNat + 1) (do let _ ← Layers.add h true) s =
        .threw e t ∧ ¬(layer.toNat < s.layersList.length ∨ h.shaderError = none) := by
  have hkeeps := (Layers.keeps_grows_intLoop s h s.layersList.length (layer.toNat + 1) s
    (.refl s)).and (Layers.keeps_wellFormed_intLoop h s.layersList.length (layer.toNat + 1) s hs)
  have hbound : layer.toNat + 1 < 2 ^ 31 := by
    rw [maximumNumberOfLayers] at hlayer
    omega
  rw [intLoop, if_pos hbound] at hkeeps ⊢
  rcases Nat.lt_or_ge layer.toNat s.layersList.length with hlt | hge
  · have hzero : layer.toNat + 1 - s.layersList.length = 0 := by omega
    rw [hzero]
    exact .inl ⟨s, rfl, .refl s, hs, hlt, .inl hlt⟩
  · cases hsh : h.shaderError with
    | none =>
      have hrun := Layers.iterate_add h hsh (layer.toNat + 1 - s.layersList.length) s hs.layers_le
      rw [hrun] at hkeeps ⊢
      refine .inl ⟨_, rfl, hkeeps.1, hkeeps.2, ?_, .inr rfl⟩
      rw [EngineState.length_pushLayers, List.length_replicate]
      omega
    | some what =>
      have hrun := Layers.iterate_add_of_shaderError hsh
        (n := layer.toNat + 1 - s.layersList.length) (by omega) (s := s) (by omega)
      refine .inr ⟨_, _, hrun, ?_⟩
      rw [not_or, Nat.not_lt]
      exact ⟨hge, Option.some_ne_none what⟩

variable (hs : s.WellFormed) (hscene : scene ∈ s.scenesList)
  (hcurrent : s.currentScene = some scene.addr)
  (hv : Visuals.get s.visualsList visual.toInt32 = some v)

include hs hscene hcurrent hv

/-- `Engine::addVisualToScene` for one of the layers that a list can have. -/
theorem addVisualToScene_adds_iff (h : Host) (hlayer : layer.toNat < maximumNumberOfLayers) :
    AddsToLayer (Engine.addVisualToScene h visual layer column) v.addr column s ↔
      (layer.toNat < s.layersList.length ∨ s.nLayers < layer ∧ h.shaderError = none) ∧
        scene.Finds s (layer, column) := by
  have hunfold : Engine.addVisualToScene h visual layer column s =
      ((if layer > s.nLayers then
          intLoop s.layersList.length (layer.toNat + 1) (do let _ ← Layers.add h true)
        else pure () : Prog Unit) s).bind
        fun _ t => Engine.placeInCurrentScene h ⟨v.addr, layer, column, ""⟩ t := by
    rw [Engine.addVisualToScene, bind_run, gets_run, Outcome.bind_ok, hv]
    dsimp only
    rw [bind_run, gets_run, Outcome.bind_ok]
    split_ifs
    · rfl
    · rfl
  by_cases hmore : layer > s.nLayers
  · rw [if_pos hmore] at hunfold
    rcases Layers.intLoop_add_cases hs h hlayer with ⟨t, hloop, hgrows, ht, hlt, hor⟩ |
      ⟨e, t, hloop, hnot⟩
    · rw [hloop, Outcome.bind_ok,
        Engine.placeInCurrentScene_eq hscene hcurrent hgrows ht h _] at hunfold
      rw [addsToLayer_iff_of_run hs hscene hcurrent hgrows ht hunfold]
      exact and_congr_left fun _ => iff_of_true hlt (hor.imp_right fun hsh => ⟨hmore, hsh⟩)
    · rw [hloop, Outcome.bind_threw] at hunfold
      refine iff_of_false ?_ fun hcond => hnot (hcond.1.imp_right And.right)
      rintro ⟨u, a, l, hrun, -⟩
      exact absurd (hunfold.symm.trans hrun) (by simp)
  · rw [if_neg hmore, pure_run, Outcome.bind_ok,
      Engine.placeInCurrentScene_eq hscene hcurrent (.refl s) hs h _] at hunfold
    rw [addsToLayer_iff_of_run hs hscene hcurrent (.refl s) hs hunfold]
    exact and_congr_left fun _ => (or_iff_left fun h => hmore h.1).symm

/-- `Engine::addVisualToSceneListInCurrentLayer`, where a zero stands for the selected layer. -/
theorem addVisualToSceneListInCurrentLayer_adds_iff (h : Host) :
    AddsToLayer (Engine.addVisualToSceneListInCurrentLayer h visual layer column) v.addr column s ↔
      (s.layerOrSelected layer).toNat < s.layersList.length ∧
        scene.Finds s (s.layerOrSelected layer, column) := by
  obtain ⟨t, hgrows, ht, hlist, hunfold⟩ : ∃ t, s.Grows t ∧ t.WellFormed ∧
      t.layersList = s.layersList ∧
      Engine.addVisualToSceneListInCurrentLayer h visual layer column s =
        Engine.placeInCurrentScene h ⟨v.addr, if s.layerOrSelected layer > Layers.count s then
          Layers.count s else s.layerOrSelected layer, column, ""⟩ t := by
    rw [Engine.addVisualToSceneListInCurrentLayer, bind_run, gets_run, Outcome.bind_ok, hv,
      EngineState.layerOrSelected]
    by_cases hzero : layer ≤ 0
    · refine ⟨s.resetProperties h, s.grows_resetProperties h, hs.resetProperties h, rfl, ?_⟩
      simp only [if_pos hzero]
      rfl
    · refine ⟨s, .refl s, hs, rfl, ?_⟩
      simp only [if_neg hzero]
      rfl
  rw [Engine.placeInCurrentScene_eq hscene hcurrent hgrows ht] at hunfold
  rw [addsToLayer_iff_of_run hs hscene hcurrent hgrows ht hunfold, hlist]
  have hcount : (Layers.count s).toNat = s.layersList.length := by
    have hle := hs.layers_le
    rw [maximumNumberOfLayers] at hle
    rw [Layers.count, UInt32.toNat_ofNat']
    omega
  split_ifs with hclamp
  · -- the clamped layer is one past the last
    have hlt := UInt32.lt_iff_toNat_lt.mp hclamp
    rw [hcount] at hlt ⊢
    exact iff_of_false (fun h => absurd h.1 (lt_irrefl _)) fun h => absurd h.1 (lt_asymm hlt)
  · exact Iff.rfl

/-- An instance that is added lands in a layer that exists exactly if it is found in its cell, and
its layer is there or is created: `Engine::addVisualToScene` creates layers past the number of
layers of the set, as long as the shaders can be loaded, and
`Engine::addVisualToSceneListInCurrentLayer` creates none. -/
theorem added_visual_lands_iff (h : Host) (hlayer : layer.toNat < maximumNumberOfLayers) :
    (AddsToLayer (Engine.addVisualToScene h visual layer column) v.addr column s ↔
      (layer.toNat < s.layersList.length ∨ s.nLayers < layer ∧ h.shaderError = none) ∧
        scene.Finds s (layer, column)) ∧
    (AddsToLayer (Engine.addVisualToSceneListInCurrentLayer h visual layer column) v.addr column s ↔
      (s.layerOrSelected layer).toNat < s.layersList.length ∧
        scene.Finds s (s.layerOrSelected layer, column)) :=
  ⟨addVisualToScene_adds_iff hs hscene hcurrent hv h hlayer,
    addVisualToSceneListInCurrentLayer_adds_iff hs hscene hcurrent hv h⟩

end calls

/-- A set with two layers and one video. -/
def twoLayers : List Call := [(.plain, .newSet 640 480 2), (.plain, .addVideo "a.mov")]

/-- The video lands in the first layer, and in the fifth, which `Engine::addVisualToScene`
creates. -/
theorem added_visual_lands_twoLayers : ∃ s : EngineState, s.Reachable ∧ ∃ v ∈ s.visualsList,
    AddsToLayer (Engine.addVisualToScene .plain 0 4 0) v.addr 0 s ∧
      AddsToLayer (Engine.addVisualToSceneListInCurrentLayer .plain 0 1 0) v.addr 0 s := by
  obtain ⟨s, hs, ⟨scene, hscene, hcurrent⟩, hfinds, ⟨v, hv, hget⟩, hlength, hlayers⟩ :
      ∃ s : EngineState, s.Reachable ∧
      (∃ scene ∈ s.scenesList, s.currentScene = some scene.addr) ∧
      (∀ scene ∈ s.scenesList, scene.Finds s (4, 0) ∧ scene.Finds s (1, 0)) ∧
      (∃ v ∈ s.visualsList, Visuals.get s.visualsList (0 : UInt32).toInt32 = some v) ∧
      s.layersList.length = 2 ∧ s.nLayers < 4 :=
    exists_reaches twoLayers (by decide +kernel)
  refine ⟨s, hs, v, hv, ?_, ?_⟩
  · have hfour : (4 : UInt32).toNat < maximumNumberOfLayers := by decide
    exact (added_visual_lands_iff hs.wellFormed hscene hcurrent hget .plain hfour).1.mpr
      ⟨.inr ⟨hlayers, rfl⟩, (hfinds scene hscene).1⟩
  · have hone : (1 : UInt32).toNat < maximumNumberOfLayers := by decide
    refine (added_visual_lands_iff hs.wellFormed hscene hcurrent hget .plain hone).2.mpr
      ⟨?_, (hfinds scene hscene).2⟩
    rw [hlength]
    exact Nat.one_lt_two

/-- The third layer is not created, and the fourth is clamped to the third. -/
theorem added_visual_lost : ∃ s : EngineState, s.Reachable ∧ ∃ v ∈ s.visualsList,
    ¬AddsToLayer (Engine.addVisualToScene .plain 0 2 0) v.addr 0 s ∧
      ¬AddsToLayer (Engine.addVisualToSceneListInCurrentLayer .plain 0 3 0) v.addr 0 s := by
  obtain ⟨s, hs, ⟨scene, hscene, hcurrent⟩, ⟨v, hv, hget⟩, hlength, hlayers⟩ :
      ∃ s : EngineState, s.Reachable ∧
      (∃ scene ∈ s.scenesList, s.currentScene = some scene.addr) ∧
      (∃ v ∈ s.visualsList, Visuals.get s.visualsList (0 : UInt32).toInt32 = some v) ∧
      s.layersList.length = 2 ∧ s.nLayers = 2 :=
    exists_reaches twoLayers (by decide +kernel)
  refine ⟨s, hs, v, hv, ?_, ?_⟩
  · rw [addVisualToScene_adds_iff hs.wellFormed hscene hcurrent hget .plain (by decide), hlength,
      hlayers]
    exact fun h => absurd h.1 (by decide)
  · rw [addVisualToSceneListInCurrentLayer_adds_iff hs.wellFormed hscene hcurrent hget .plain,
      hlength, EngineState.layerOrSelected, if_neg (by decide)]
    exact fun h => absurd h.1 (by decide)

end ArbutusEngine
