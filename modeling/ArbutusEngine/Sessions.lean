import ArbutusEngine.Lifecycle
import ArbutusEngine.Selection
import ArbutusEngine.SessionFrame
import ArbutusEngine.Writes

/-!
# What holds in every session

Whatever happens to the engine, and in whatever order, its object graph stays well formed, and no two
instances of a scene come to lie in the same cell: `VisualInstances::add` removes the instance of a
cell before it appends the new one, `Scene::setState` goes through `add`, and nothing changes the
cell of an instance that is listed.

Both facts are kept together, since a new instance is told apart from the old ones by its address.

## Main definitions

* `EngineState.cells`, `KeepsCells`: the scenes, and the cells of the instances.
* `EngineState.Laid`: the invariant.

## Main results

* `EngineState.Laid.place`, `EngineState.Laid.buildScenes`: adding instances.
* `Command.keepsLaid_run`, `Event.keepsLaid_run`: every step.
* `session_laid`: every session.
-/

open Exec

namespace ArbutusEngine

/-! ### The cells of a state -/

namespace EngineState

/-- The scenes, and the cell of the instance at an address. -/
def cells (s : EngineState) : List Scene × (Addr → Option (UInt32 × UInt32)) :=
  (s.scenesList, fun a => (s.instances.get? a).map VisualInstance.cell)

/-- Two instances lie in different cells. -/
def Apart (s : EngineState) (a b : Addr) : Prop :=
  (s.instances.get? a).map VisualInstance.cell ≠ (s.instances.get? b).map VisualInstance.cell

/-- The instances of a scene lie in different cells. -/
def CellsApart (s : EngineState) : Prop :=
  ∀ scene ∈ s.scenesList, scene.visualInstances.Pairwise s.Apart

/-- The graph is well formed, and the instances of a scene lie in different cells. -/
structure Laid (s : EngineState) : Prop where
  wellFormed : s.WellFormed
  apart : s.CellsApart

theorem laid_init : EngineState.init.Laid where
  wellFormed := wellFormed_init
  apart _ hscene := absurd hscene List.not_mem_nil

variable {s t : EngineState}

theorem CellsApart.of_cells (hs : s.CellsApart) (hc : s.cells = t.cells) : t.CellsApart := by
  have hscenes : s.scenesList = t.scenesList := congrArg Prod.fst hc
  have hcell : ∀ a, (s.instances.get? a).map VisualInstance.cell =
      (t.instances.get? a).map VisualInstance.cell := fun a => congrFun (congrArg Prod.snd hc) a
  rw [CellsApart, ← hscenes]
  refine fun scene hscene => (hs scene hscene).imp fun {a b} hab => ?_
  rwa [Apart, ← hcell, ← hcell]

/-- The invariant is about nothing but the graph and the cells. -/
theorem Laid.of_cells (hs : s.Laid) (hwf : t.WellFormed) (hc : s.cells = t.cells) : t.Laid :=
  ⟨hwf, hs.apart.of_cells hc⟩

theorem cells_of_instanceAt (hscenes : s.scenesList = t.scenesList)
    (hat : s.outline.instanceAt = t.outline.instanceAt) : s.cells = t.cells := by
  refine Prod.ext hscenes (funext fun a => ?_)
  have hcell := congrArg (Option.map Prod.snd) (congrFun hat a)
  simp only [outline, Option.map_map, Function.comp_def] at hcell
  exact hcell

theorem cells_of_graph (h : s.graph = t.graph) : s.cells = t.cells :=
  cells_of_instanceAt (congrArg (fun o => o.scenesList) h) (congrArg (fun o => o.instanceAt) h)

theorem cells_of_skeleton (h : s.skeleton = t.skeleton) : s.cells = t.cells :=
  have houtline := congrArg Prod.fst h
  cells_of_instanceAt (congrArg (fun o => o.scenesList) houtline)
    (congrArg (fun o => o.instanceAt) houtline)

end EngineState

/-- The program leaves the scenes and the cells alone. -/
abbrev KeepsCells {α : Type} (x : Prog α) : Prop := Fixes EngineState.cells x

/-- The program keeps the invariant. -/
abbrev KeepsLaid {α : Type} (x : Prog α) : Prop := Keeps EngineState.Laid x

theorem KeepsSkeleton.cells {α : Type} {x : Prog α} (hx : KeepsSkeleton x) : KeepsCells x :=
  hx.of_eq fun _ _ => EngineState.cells_of_skeleton

/-- A program that keeps the graph well formed and leaves the cells alone. -/
theorem KeepsCells.laid {α : Type} {x : Prog α} (hx : KeepsCells x)
    (hwf : Keeps EngineState.WellFormed x) : KeepsLaid x := by
  intro s hs
  exact ((hwf s hs.wellFormed).and (hx s.cells s rfl)).mono
    (fun _ _ ht => hs.of_cells ht.1 ht.2.symm) fun _ _ ht => hs.of_cells ht.1 ht.2.symm

theorem KeepsSkeleton.laid {α : Type} {x : Prog α} (hx : KeepsSkeleton x) : KeepsLaid x :=
  hx.cells.laid hx.wellFormed

theorem KeepsOutline.laid {α : Type} {x : Prog α} (hx : KeepsOutline x) : KeepsLaid x :=
  hx.skeleton.laid

theorem ignoresVisuals_cells : IgnoresVisuals EngineState.cells := fun _ _ _ => rfl

theorem ignoresLayers_cells : IgnoresLayers EngineState.cells := fun _ _ _ => rfl

theorem ignoresSelection_cells : IgnoresSelection EngineState.cells := fun _ _ _ => rfl

theorem EngineState.WellFormed.pushVisual {s : EngineState} (hs : s.WellFormed) {v : Visual}
    (hv : v.addr = s.nextAddr) (p : EngineProperties) :
    ({ s with visualsList := s.visualsList ++ [v], nextAddr := s.nextAddr + 1, properties := p } :
      EngineState).WellFormed := by
  refine { hs with visuals_lt := ?_, visuals_ne := ?_, scenes_lt := ?_, layers_lt := ?_ }
  · intro w hw
    rcases List.mem_append.mp hw with hw | hw
    · exact Nat.lt_succ_of_lt (hs.visuals_lt w hw)
    · rw [List.mem_singleton.mp hw, hv]
      exact Nat.lt_succ_self _
  · refine List.pairwise_append.mpr ⟨hs.visuals_ne, List.pairwise_singleton _ _, ?_⟩
    intro w hw w' hw'
    rw [List.mem_singleton.mp hw', hv]
    exact Nat.ne_of_lt (hs.visuals_lt w hw)
  · exact fun scene hscene => Nat.lt_succ_of_lt (hs.scenes_lt scene hscene)
  · exact fun layer hlayer => Nat.lt_succ_of_lt (hs.layers_lt layer hlayer)

/-! ### Adding and removing instances -/

/-- After the first element with a key has been erased, no element has it, if the keys differ. -/
theorem key_ne_of_mem_eraseP {α κ : Type} [DecidableEq κ] {f : α → κ} {k : κ} {l : List α}
    (hl : l.Pairwise fun a b => f a ≠ f b) {a : α} (ha : a ∈ l.eraseP fun b => f b = k) :
    f a ≠ k := by
  induction l with
  | nil => exact absurd ha List.not_mem_nil
  | cons b rest ih =>
    obtain ⟨hb, hrest⟩ := List.pairwise_cons.mp hl
    rw [List.eraseP_cons] at ha
    by_cases hk : f b = k
    · rw [decide_eq_true hk, cond_true] at ha
      exact fun hak => hb a ha (hk.trans hak.symm)
    · rw [decide_eq_false hk, cond_false] at ha
      rcases List.mem_cons.mp ha with rfl | ha
      · exact hk
      · exact ih hrest ha

namespace EngineState

variable {s : EngineState}

theorem Laid.pushScene (hs : s.Laid) (name : String) : (s.pushScene name).Laid where
  wellFormed := hs.wellFormed.pushScene name
  apart scene hscene := by
    rcases List.mem_append.mp hscene with hscene | hscene
    · exact hs.apart scene hscene
    · rw [List.mem_singleton.mp hscene]
      exact .nil

/-- The cell that an instance is added to has been emptied before. -/
theorem Laid.place (hs : s.Laid) (h : Host) (a : Addr) (p : Placement) : (s.place h a p).Laid where
  wellFormed := hs.wellFormed.place h a p
  apart scene hscene := by
    obtain ⟨old, hold, rfl⟩ := Scene.mem_replace hscene
    have hlive := hs.wellFormed.instances_live old hold
    -- the instances that are there already keep their cells
    have hcell : ∀ b ∈ old.visualInstances,
        ((s.place h a p).instances.get? b).map VisualInstance.cell =
          (s.instances.get? b).map VisualInstance.cell := by
      intro b hb
      obtain ⟨i, hi⟩ := hlive b hb
      exact congrArg _ ((s.instances.get?_alloc_of_some hi).trans hi.symm)
    have hkept : old.visualInstances.Pairwise (s.place h a p).Apart := by
      refine (hs.apart old hold).imp_of_mem fun {b c} hb hc hne => ?_
      rwa [Apart, hcell b hb, hcell c hc]
    split_ifs with haddr
    swap
    · exact hkept
    refine List.pairwise_append.mpr ⟨hkept.sublist List.eraseP_sublist, List.pairwise_singleton _ _,
      fun b hb c hc => ?_⟩
    rw [List.mem_singleton.mp hc]
    have hne := key_ne_of_mem_eraseP (k := some (p.layer, p.column)) (hs.apart old hold) hb
    rw [Apart, hcell b (List.mem_of_mem_eraseP hb)]
    change _ ≠ ((s.instances.alloc _).get? s.instances.next).map _
    rw [Heap.get?_alloc_next, Option.map_some, VisualInstance.cell_fresh]
    exact hne

theorem Laid.buildScenes (hs : s.Laid) (h : Host) (scenes : List (String × List Placement)) :
    (s.buildScenes h scenes).Laid :=
  foldl_push (EngineState.buildScene h) Laid (fun t scene ht =>
    foldl_push (EngineState.place h t.nextAddr) Laid (fun _ p ht => ht.place h _ p) scene.2
      (ht.pushScene scene.1)) scenes hs

theorem Laid.clearScenes (hs : s.Laid) : s.clearScenes.Laid where
  wellFormed := hs.wellFormed.clearScenes
  apart _ hscene := absurd hscene List.not_mem_nil

end EngineState

namespace Scenes

theorem keepsLaid_empty : KeepsLaid empty := by
  intro s hs
  rw [empty_eq hs.wellFormed]
  exact hs.clearScenes

theorem keepsLaid_newScene (name : String) : KeepsLaid (newScene name) :=
  fun _ hs => EngineState.Laid.pushScene hs name

theorem keepsLaid_setState (h : Host) (state : Json) : KeepsLaid (setState h state) := by
  intro s hs
  rw [setState_eq hs.wellFormed]
  have hbuild := hs.clearScenes.buildScenes h (decodeAll s.visualsList state.elements).1
  cases (decodeAll s.visualsList state.elements).2 with
  | none => exact hbuild
  | some e => exact hbuild

end Scenes

namespace Engine

theorem keepsLaid_removeFromScene (a : Addr) (layer column : UInt32) :
    KeepsLaid (removeFromScene a layer column) := by
  intro s hs
  have hwf := keeps_wellFormed_removeFromScene a layer column s hs.wellFormed
  cases hfind : s.scenesList.find? (fun scene => scene.addr = a) with
  | none => simp [removeFromScene, Scene.read, hfind]
  | some scene =>
    have hscene := List.mem_of_find?_eq_some hfind
    obtain rfl : scene.addr = a := by simpa using List.find?_some hfind
    rw [removeFromScene_eq hs.wellFormed hscene, Outcome.post_ok] at hwf ⊢
    refine ⟨hwf, fun x hx => ?_⟩
    obtain ⟨old, hold, rfl⟩ := Scene.mem_replace hx
    split_ifs
    · exact (hs.apart scene hscene).sublist List.eraseP_sublist
    · exact hs.apart old hold

theorem keepsLaid_removeVisualFromScene (h : Host) (layer column : UInt32) :
    KeepsLaid (removeVisualFromScene h layer column) := by
  have hremove : KeepsLaid (removeFromCurrentScene layer column) :=
    .bind keepsOutline_derefCurrentScene.laid fun a => keepsLaid_removeFromScene a layer column
  refine .bind (keepsOutline_isSelectedCell h layer column).laid fun selected => .ite ?_ hremove
  exact .bind (Layers.keepsSkeleton_stopAt layer).laid fun _ => hremove

theorem keepsLaid_placeInCurrentScene (h : Host) (p : Placement) :
    KeepsLaid (placeInCurrentScene h p) :=
  .bind keepsOutline_derefCurrentScene.laid fun a _ hs =>
    Scene.add_post hs.wellFormed h a _ (hs.place h a _)

end Engine

/-! ### Layers and visuals -/

namespace Layers

theorem keepsLaid_add (h : Host) : KeepsLaid (add h true) :=
  KeepsCells.laid (fixes_add ignoresLayers_cells ignoresSelection_cells.reset h)
    (keeps_wellFormed_add h)

theorem keepsLaid_empty (h : Host) : KeepsLaid (empty h) :=
  KeepsCells.laid (fixes_empty ignoresLayers_cells ignoresSelection_cells h)
    (keeps_wellFormed_empty h)

theorem keepsLaid_setState (h : Host) (state : Json) : KeepsLaid (setState h state) :=
  KeepsCells.laid (fixes_setState ignoresLayers_cells ignoresSelection_cells h state)
    (keeps_wellFormed_setState h state)

theorem keepsLaid_remove (h : Host) (layerN : UInt32) : KeepsLaid (remove h layerN) := by
  have hselect : KeepsCells (do
      let layerSize ← gets count
      let selected ← getCurrentId h
      if selected ≥ layerSize then setActive h layerSize) :=
    .bind (.gets _) fun _ => .bind (keepsOutline_getCurrentId h).skeleton.cells fun _ =>
      .ite (keepsOutline_setActive h _).skeleton.cells (.pure _)
  have hcells : KeepsCells (remove h layerN) :=
    .bind (.gets _) fun _ => .ite (.pure _) (.ite (.undefined _)
      (.bind (.modify fun _ => rfl) fun _ => hselect))
  exact hcells.laid (keeps_wellFormed_remove h layerN)

theorem keepsLaid_setCount (h : Host) (val : UInt32) : KeepsLaid (setCount h val) := by
  refine .bind (.gets _) fun _ => .ite (.pure _) (.ite (.iterate ?_) ?_)
  · exact .bind (keepsLaid_add h) fun _ => .pure _
  · exact .forEach fun i _ => keepsLaid_remove h _

end Layers

namespace Visuals

theorem keepsLaid_empty (h : Host) : KeepsLaid (empty h) :=
  KeepsCells.laid (fixes_empty ignoresVisuals_cells h) (keeps_wellFormed_empty h)

theorem keepsLaid_setState (h : Host) (state : Json) : KeepsLaid (setState h state) :=
  KeepsCells.laid (fixes_setState ignoresVisuals_cells ignoresSelection_cells.reset h state)
    (keeps_wellFormed_setState h state)

/-- A visual at a fresh address joins the list. -/
theorem keepsLaid_push {s : EngineState} (hs : s.Laid) {v : Visual} (hv : v.addr = s.nextAddr)
    (p : EngineProperties) :
    ({ s with visualsList := s.visualsList ++ [v], nextAddr := s.nextAddr + 1, properties := p } :
      EngineState).Laid := hs.of_cells (hs.wellFormed.pushVisual hv p) rfl

theorem keepsLaid_addVideo (h : Host) (path : String) : KeepsLaid (addVideo h path) := by
  intro s hs
  rw [addVideo, bind_run, VisualVideo.new_eq]
  dsimp only
  split_ifs
  · exact hs
  · exact keepsLaid_push hs rfl _

end Visuals

namespace Set

theorem keepsLaid_addVisualVideoToListFromFile (h : Host) (filePath : String) :
    KeepsLaid (addVisualVideoToListFromFile h filePath) := by
  refine .bind (.gets _) fun visuals => .ite (.pure _) fun s hs => ?_
  rw [bind_run, VisualVideo.new_eq]
  dsimp only
  split_ifs
  · exact hs
  · exact Visuals.keepsLaid_push hs rfl _

theorem keepsLaid_addVisualCameraToList (listDevices : List String) (id rate w h : UInt32) :
    KeepsLaid (addVisualCameraToList listDevices id rate w h) := by
  intro s hs
  rw [addVisualCameraToList, bind_run, VisualCamera.new]
  split_ifs
  · exact hs
  · exact hs
  · cases listDevices[id.toNat]? with
    | none => trivial
    | some deviceName => exact Visuals.keepsLaid_push hs rfl s.properties

theorem keepsLaid_addVisualSyphonToList (serverName appName : String) :
    KeepsLaid (addVisualSyphonToList serverName appName) :=
  fun s hs => Visuals.keepsLaid_push hs rfl s.properties

/-! ### The set -/

theorem keepsLaid_setCurrentScene (h : Host) (n : UInt32) : KeepsLaid (setCurrentScene h n) := by
  have hcells : KeepsCells (setCurrentScene h n) :=
    (keepsGraph_setCurrentScene h n).of_eq fun _ _ => EngineState.cells_of_graph
  exact hcells.laid (keeps_wellFormed_setCurrentScene h n)

theorem keepsLaid_gotoNextScene (h : Host) : KeepsLaid (gotoNextScene h) :=
  .bind (.gets _) fun _ => .bind (.gets _) fun _ =>
    .ite (keepsLaid_setCurrentScene h _) (.pure _)

theorem keepsLaid_gotoPreviousScene (h : Host) : KeepsLaid (gotoPreviousScene h) :=
  .bind (.gets _) fun _ => .ite (keepsLaid_setCurrentScene h _) (.pure _)

theorem keepsLaid_closeSet (h : Host) : KeepsLaid (closeSet h) := by
  refine .bind (Visuals.keepsLaid_empty h) fun _ => .bind Scenes.keepsLaid_empty fun _ => ?_
  exact .modify fun _ hs => hs.of_cells
    { hs.wellFormed with currentScene_ne := fun hl => Bool.noConfusion hl } rfl

end Set

namespace Engine

theorem keepsLaid_setState (h : Host) (state : Json) : KeepsLaid (setState h state) :=
  keeps_setState (Visuals.keepsLaid_setState h) (Layers.keepsLaid_setState h)
    (Scenes.keepsLaid_setState h) state

theorem keepsLaid_closeSet (h : Host) : KeepsLaid (closeSet h) := by
  refine .bind (.gets _) fun _ => .ite (.bind (Layers.keepsLaid_empty h) fun _ => ?_) (.pure _)
  refine .bind (Set.keepsLaid_closeSet h) fun _ => ?_
  refine .bind (.modify fun _ hs => hs.of_cells { hs.wellFormed with } rfl) fun _ => ?_
  exact (Fixes.updateProperties h _).laid

theorem keepsLaid_initBuffer (h : Host) : KeepsLaid (initBuffer h) := by
  intro s hs
  obtain ⟨b, p, hrun⟩ := exists_initBuffer h s
  rw [hrun]
  exact hs.of_cells { hs.wellFormed with } rfl

theorem keepsLaid_finishSet (h : Host) (path : String) : KeepsLaid (finishSet h path) := by
  intro s hs
  obtain ⟨b, p, -, hrun⟩ := exists_finishSet h path s
  rw [hrun]
  exact hs.of_cells { hs.wellFormed with } rfl

theorem keepsLaid_newSet (h : Host) (width height layers : UInt32) :
    KeepsLaid (newSet h width height layers) := by
  have hapart : Keeps EngineState.CellsApart (Set.newSet h width height layers) := by
    refine Set.keeps_newSet (fun _ _ hst hs => hs.of_cells (EngineState.cells_of_graph hst)) ?_ ?_
      width height layers
    · exact Fixes.keeps (fun _ _ hc hs => hs.of_cells hc)
        (Layers.fixes_add ignoresLayers_cells ignoresSelection_cells.reset h)
    · intro s hs scene hscene
      rcases List.mem_append.mp hscene with hscene | hscene
      · exact hs scene hscene
      · rw [List.mem_singleton.mp hscene]
        exact .nil
  have hset : KeepsLaid (Set.newSet h width height layers) := fun s hs =>
    ((Set.keeps_wellFormed_newSet h width height layers s hs.wellFormed).and
      (hapart s hs.apart)).mono (fun _ _ ht => ⟨ht.1, ht.2⟩) fun _ _ ht => ⟨ht.1, ht.2⟩
  rw [newSet_eq]
  refine .bind (keepsLaid_closeSet h) fun _ => ?_
  exact keeps_createSet_of (fun f => (Fixes.updateProperties h f).laid) hset
    (keepsLaid_finishSet h "")

theorem keepsLaid_openSet (h : Host) (path : String) : KeepsLaid (openSet h path) := by
  rw [openSet_eq]
  refine .bind (.modify fun s hs => hs.of_cells { hs.wellFormed with } rfl) fun _ => ?_
  refine .bind (keepsLaid_closeSet h) fun _ => .bind (Layers.keepsLaid_empty h) fun _ => ?_
  refine .bind (.ite (.ofExcept _ _) (.throw _)) fun state => ?_
  exact .bind (keepsLaid_setState h state) fun _ => keepsLaid_finishSet h path

theorem keepsLaid_saveSetAs (h : Host) (path : String) : KeepsLaid (Set.saveSetAs h path) := by
  have hcells : KeepsCells (Set.saveSetAs h path) :=
    (Set.keepsGraph_saveSetAs h path).of_eq fun _ _ => EngineState.cells_of_graph
  exact hcells.laid (keeps_wellFormed_saveSetAs h path)

theorem keepsLaid_addVisualToScene (h : Host) (visual layer column : UInt32) :
    KeepsLaid (addVisualToScene h visual layer column) := by
  refine .bind (.gets _) fun visuals => ?_
  cases Visuals.get visuals visual.toInt32 with
  | none => exact .pure _
  | some v =>
    have hadd := keepsLaid_placeInCurrentScene h ⟨v.addr, layer, column, ""⟩
    refine .bind (.gets _) fun nLayers => .ite (.bind (.gets _) fun layers => ?_) hadd
    exact .bind (keeps_intLoop (.bind (Layers.keepsLaid_add h) fun _ => .pure _) _ _) fun _ => hadd

theorem keepsLaid_addVisualToSceneListInCurrentLayer (h : Host) (visual layer column : UInt32) :
    KeepsLaid (addVisualToSceneListInCurrentLayer h visual layer column) := by
  refine .bind (.gets _) fun visuals => ?_
  cases Visuals.get visuals visual.toInt32 with
  | none => exact .pure _
  | some v =>
    have hadd : ∀ layer, KeepsLaid (do
        let count ← gets Layers.count
        let layer := if layer > count then count else layer
        placeInCurrentScene h ⟨v.addr, layer, column, ""⟩) := fun layer =>
      .bind (.gets _) fun count => keepsLaid_placeInCurrentScene h _
    exact .ite (.bind (keepsOutline_getSelectedLayerNumber h).laid fun layer => hadd layer)
      (hadd layer)

/-- Setting the resolution changes buffers, and the sizes of the layers. -/
theorem keepsLaid_setMixerResolution (h : Host) (width height : UInt32) :
    KeepsLaid (setMixerResolution h width height) := by
  refine .bind (.modify fun s hs => hs.of_cells { hs.wellFormed with } rfl) fun _ => ?_
  refine .bind (Fixes.updateProperties h _).laid fun _ => ?_
  refine .bind (Fixes.updateProperties h _).laid fun _ => ?_
  refine .bind (keepsLaid_initBuffer h) fun _ => .bind (.gets _) fun layers => .forEach fun n _ => ?_
  have hupdate : ∀ f : Layer → Layer, (∀ l, (f l).addr = l.addr) → KeepsLaid (Layer.update n f) :=
    fun f hf => (Layer.keepsSkeleton_update hf).laid
  exact .bind (hupdate _ fun _ => rfl) fun _ => .bind (hupdate _ fun _ => rfl) fun _ =>
    .bind (hupdate _ fun _ => rfl) fun _ => hupdate _ fun _ => rfl

end Engine

/-! ### Sessions -/

/-- Every call keeps the invariant. -/
theorem Command.keepsLaid_run (h : Host) (c : Command) : KeepsLaid (c.run h) := by
  cases c with
  | newSet width height layers =>
    exact .bind (Engine.keepsLaid_newSet h width height layers) fun _ => .pure _
  | openSet path => exact .bind (Engine.keepsLaid_openSet h path) fun _ => .pure _
  | closeSet => exact Engine.keepsLaid_closeSet h
  | saveSet =>
    exact .bind (.bind (.bind (.gets _) fun _ => Engine.keepsLaid_saveSetAs h _) fun _ => .pure _)
      fun _ => .pure _
  | saveSetAs path =>
    exact .bind (.bind (Engine.keepsLaid_saveSetAs h path) fun _ =>
      .bind (Fixes.updateProperties h _).laid fun _ => .pure _) fun _ => .pure _
  | setState state => exact Engine.keepsLaid_setState h state
  | addScene => exact .bind (Scenes.keepsLaid_newScene _) fun _ => .pure _
  | setCurrentScene n => exact Set.keepsLaid_setCurrentScene h n
  | addVideo path => exact .bind (Visuals.keepsLaid_addVideo h path) fun _ => .pure _
  | addVisualToScene visual layer column =>
    exact Engine.keepsLaid_addVisualToScene h visual layer column
  | removeVisualFromScene layer column =>
    exact Engine.keepsLaid_removeVisualFromScene h layer column
  | play data => exact (Engine.keepsSkeleton_play h data).laid
  | stop data => exact (Engine.keepsSkeleton_stop data).laid
  | triggerSchedulledVisualsOnAllLayers => exact (Engine.keepsSkeleton_trigger h).laid
  | setMetronomeOn on => exact (Fixes.updateProperties h fun p => { p with metronomeOn := on }).laid
  | setBeatSnap a on => exact (VisualInstance.keepsOutline_setBeatSnap a on).laid
  | request r =>
    refine .bind (.bind (.ofExcept _ _) fun action => .ite ?_ (.throw _)) fun _ => .pure _
    refine .bind (.ofExcept _ _) fun action => ?_
    cases haction : Action.ofString action with
    | none => exact .throw _
    | some action =>
      by_cases hset : action = .setState
      · subst hset
        refine .bind (.bind (.ofExcept _ _) fun data => .ite ?_ (.throw _)) fun _ => .pure _
        exact .bind (Engine.keepsLaid_setState h data) fun _ => .pure _
      · exact (keepsSkeleton_handleAction h r hset).laid

/-- Every event keeps the invariant. -/
theorem Event.keepsLaid_run (h : Host) (e : Event) : KeepsLaid (e.run h) := by
  cases e with
  | command c => exact c.keepsLaid_run h
  | gotoNextScene => exact Set.keepsLaid_gotoNextScene h
  | gotoPreviousScene => exact Set.keepsLaid_gotoPreviousScene h
  | addVisualVideoToListFromFile filePath =>
    exact Set.keepsLaid_addVisualVideoToListFromFile h filePath
  | addVisualCameraToList listDevices id rate w h' =>
    exact Set.keepsLaid_addVisualCameraToList listDevices id rate w h'
  | addVisualSyphonToList serverName appName =>
    exact Set.keepsLaid_addVisualSyphonToList serverName appName
  | addVisualToSceneListInCurrentLayer visual layer column =>
    exact Engine.keepsLaid_addVisualToSceneListInCurrentLayer h visual layer column
  | setActiveVisualInstance layerN column =>
    exact .bind (Engine.keepsSkeleton_setActiveVisualInstance h layerN column).laid fun _ => .pure _
  | setActiveVisualIntances columnN =>
    exact (Engine.keepsSkeleton_setActiveVisualIntances h columnN).laid
  | playFirstVisualInstanceOnActiveLayer =>
    exact (Engine.keepsSkeleton_setActiveVisualIntanceOnActiveLayer h 0).laid
  | playLastVisualInstanceOnActiveLayer => exact (Engine.keepsSkeleton_playLast h).laid
  | playPreviousVisualInstanceOnActiveLayer => exact (Engine.keepsSkeleton_playPrevious h).laid
  | playNextVisualInstanceOnActiveLayer => exact (Engine.keepsSkeleton_playNext h).laid
  | addLayer => exact .bind (Layers.keepsLaid_add h) fun _ => .pure _
  | removeLayer layerN => exact Layers.keepsLaid_remove h layerN
  | setLayerCount val => exact Layers.keepsLaid_setCount h val
  | activateLayer activeLayer => exact (Layers.keepsOutline_setActive h activeLayer).laid
  | activateNextLayer =>
    exact .bind (Layers.keepsOutline_getCurrentId h).laid fun _ =>
      (Layers.keepsOutline_setActive h _).laid
  | activatePreviousLayer =>
    exact .bind (Layers.keepsOutline_getCurrentId h).laid fun _ =>
      (Layers.keepsOutline_setActive h _).laid
  | activateLastLayer => exact .bind (.gets _) fun _ => (Layers.keepsOutline_setActive h _).laid
  | setMixerResolution width height => exact Engine.keepsLaid_setMixerResolution h width height
  | handleAction parameter data => exact (Engine.keepsSkeleton_handleAction h parameter data).laid
  | keyPressed key =>
    exact ControllerGroup.keeps_handleKeyboardControllers
      (fun n => (Layers.keepsOutline_setActive h n).laid) (fun _ _ => .pure _) _ _ _
  | beat => exact (Fixes.updateProperties h _).laid
  | render => exact (Engine.keepsSkeleton_render h).laid
  | cleanup => exact (Engine.keepsOutline_cleanup h).laid

/-- What is laid out once stays so in a session. -/
theorem EngineState.Laid.of_reaches {s t : EngineState} (hs : s.Laid)
    (h : Reaches Happening.run (fun _ _ => True) s t) : t.Laid :=
  Reaches.invariant (fun e u _ hu => e.2.keepsLaid_run e.1 u hu) hs h

theorem EngineState.Reachable.laid {s : EngineState} (hs : s.Reachable) : s.Laid :=
  Reaches.invariant (fun c u _ hu => c.2.keepsLaid_run c.1 u hu) EngineState.laid_init hs

/-- The contents of a scene lie in different cells. -/
theorem EngineState.Laid.pairwise_of_mem_views {s : EngineState} (hs : s.Laid)
    {view : String × List VisualInstance} (hview : view ∈ s.views) :
    view.2.Pairwise fun i j => i.cell ≠ j.cell := by
  obtain ⟨scene, hscene, rfl⟩ := List.mem_map.mp hview
  refine List.Pairwise.filterMap _ (R := s.Apart) ?_ (hs.apart scene hscene)
  intro a b hab i hi j hj hij
  exact hab (by rw [hi, hj, Option.map_some, Option.map_some, hij])

end ArbutusEngine
