import ArbutusEngine.Frame

/-!
# Every reachable state is well formed

`EngineState.WellFormed` is kept by every call of the engine, whether the call returns or throws: by
the operations that fill and empty the three lists, by playing and stopping, and by the handlers of
requests.

## Main results

* `EngineState.WellFormed.of_skeleton`: the invariant depends on the skeleton only.
* `Engine.keeps_wellFormed_setState`, `handleJSONRequestForClient_keeps_wellFormed`.
* `EngineState.Reachable.wellFormed`: every reachable state is well formed.
-/

open Exec

namespace ArbutusEngine

/-- Well-formedness depends on the skeleton only. -/
theorem EngineState.WellFormed.of_skeleton {s t : EngineState} (h : s.skeleton = t.skeleton)
    (hs : s.WellFormed) : t.WellFormed := by
  have houtline := congrArg Prod.fst h
  have hvisuals : s.visualsList.map Visual.addr = t.visualsList.map Visual.addr :=
    congrArg (fun o => o.visuals) houtline
  have hlayers : s.layersList.map Layer.addr = t.layersList.map Layer.addr := congrArg Prod.snd h
  have hscenes : s.scenesList = t.scenesList := congrArg (fun o => o.scenesList) houtline
  have hnext : s.nextAddr = t.nextAddr := congrArg (fun o => o.nextAddr) houtline
  have hinst : ∀ a, (s.instances.get? a).map (fun i => (i.visual, i.cell)) =
      (t.instances.get? a).map fun i => (i.visual, i.cell) :=
    fun a => congrFun (congrArg (fun o => o.instanceAt) houtline) a
  refine ⟨?_, ?_, ?_, ?_, ?_, ?_, ?_, ?_, ?_⟩
  · intro v hv
    have hmem : v.addr ∈ s.visualsList.map Visual.addr := hvisuals ▸ List.mem_map_of_mem hv
    obtain ⟨w, hw, hwv⟩ := List.mem_map.mp hmem
    rw [← hwv, ← hnext]
    exact hs.visuals_lt w hw
  · have hne := List.pairwise_map.mpr hs.visuals_ne
    rw [hvisuals] at hne
    exact List.pairwise_map.mp hne
  · rw [← hscenes, ← hnext]
    exact hs.scenes_lt
  · rw [← hscenes]
    exact hs.scenes_ne
  · rw [← hscenes]
    exact hs.instances_nodup
  · rw [← hscenes]
    intro scene hscene a ha
    obtain ⟨i, hi⟩ := hs.instances_live scene hscene a ha
    have := hinst a
    rw [hi, Option.map_some, eq_comm, Option.map_eq_some_iff] at this
    obtain ⟨j, hj, -⟩ := this
    exact ⟨j, hj⟩
  · intro l hl
    have hmem : l.addr ∈ s.layersList.map Layer.addr := hlayers ▸ List.mem_map_of_mem hl
    obtain ⟨k, hk, hkl⟩ := List.mem_map.mp hmem
    rw [← hkl, ← hnext]
    exact hs.layers_lt k hk
  · rw [← List.length_map Layer.addr, ← hlayers, List.length_map]
    exact hs.layers_le
  · rw [← show s.loaded = t.loaded from congrArg Outline.loaded houtline,
      ← show s.currentScene = t.currentScene from congrArg Outline.currentScene houtline]
    exact hs.currentScene_ne

theorem EngineState.WellFormed.of_outline {s t : EngineState} (h : s.outline = t.outline)
    (hs : s.WellFormed) : t.WellFormed := hs.of_skeleton (EngineState.skeleton_of_outline h)

theorem KeepsSkeleton.wellFormed {α : Type} {x : Prog α} (hx : KeepsSkeleton x) :
    Keeps EngineState.WellFormed x :=
  hx.keeps fun _ _ h hs => hs.of_skeleton h

theorem KeepsOutline.wellFormed {α : Type} {x : Prog α} (hx : KeepsOutline x) :
    Keeps EngineState.WellFormed x := hx.skeleton.wellFormed

/-! ### Layers -/

/-- A layer of the list after a change is a layer of the old list, changed or not. -/
theorem exists_of_mem_modify {α : Type} {l : List α} {n : ℕ} {f : α → α} {x : α}
    (hx : x ∈ l.modify n f) : ∃ y ∈ l, x = y ∨ x = f y := by
  induction l generalizing n with
  | nil => simp at hx
  | cons y l ih =>
    cases n with
    | zero =>
      rw [List.modify_zero_cons] at hx
      rcases List.mem_cons.mp hx with rfl | hx
      · exact ⟨y, List.mem_cons_self, .inr rfl⟩
      · exact ⟨x, List.mem_cons_of_mem y hx, .inl rfl⟩
    | succ n =>
      rw [List.modify_succ_cons] at hx
      rcases List.mem_cons.mp hx with rfl | hx
      · exact ⟨x, List.mem_cons_self, .inl rfl⟩
      · obtain ⟨z, hz, hxz⟩ := ih hx
        exact ⟨z, List.mem_cons_of_mem y hz, hxz⟩

namespace Layers

theorem keeps_wellFormed_add (h : Host) : Keeps EngineState.WellFormed (add h true) := by
  intro s hs
  rw [add_eq]
  split_ifs with hfull
  · exact hs
  · cases h.shaderError with
    | some what => exact hs.resetProperties h
    | none => exact hs.pushLayer (lt_of_le_of_ne hs.layers_le hfull) h _

theorem keeps_wellFormed_empty (h : Host) : Keeps EngineState.WellFormed (empty h) :=
  fun _ hs => hs.clearLayers h

theorem keeps_wellFormed_setState (h : Host) (state : Json) :
    Keeps EngineState.WellFormed (setState h state) := by
  refine .bind (keeps_wellFormed_empty h) fun _ => .forEach fun entry _ => ?_
  refine .bind (keeps_wellFormed_add h) fun newLayer => ?_
  cases newLayer with
  | none => exact .undefined _
  | some n => exact (Layer.keepsSkeleton_setState n entry).wellFormed

theorem keeps_wellFormed_setActive (h : Host) (n : UInt32) :
    Keeps EngineState.WellFormed (setActive h n) :=
  .ite (.pure _) (.bind (.gets _) fun _ => (Fixes.updateProperties h _).wellFormed)

theorem keeps_wellFormed_intLoop (h : Host) (start bound : ℕ) :
    Keeps EngineState.WellFormed (intLoop start bound (do let _ ← add h true)) :=
  keeps_intLoop (.bind (keeps_wellFormed_add h) fun _ => .pure _) start bound

end Layers

/-! ### Visuals and scenes -/

namespace Visuals

theorem keeps_wellFormed_empty (h : Host) : Keeps EngineState.WellFormed (empty h) := by
  intro s hs
  rw [empty_eq]
  split_ifs
  · exact hs.clearVisuals
  · trivial

theorem keeps_wellFormed_setState (h : Host) (state : Json) :
    Keeps EngineState.WellFormed (setState h state) := by
  refine .ite (.bind (keeps_wellFormed_empty h) fun _ => .forEach fun entry _ s hs => ?_) (.pure _)
  rw [addState_eq]
  have hpush := foldl_push (EngineState.pushVideo h) EngineState.WellFormed
    (fun _ video hs => hs.pushVideo h video) (decode h s.filePath entry).1.toList hs
  cases (decode h s.filePath entry).2 with
  | none => exact hpush
  | some e => exact hpush

theorem keeps_wellFormed_addVideo (h : Host) (path : String) :
    Keeps EngineState.WellFormed (addVideo h path) := by
  intro s hs
  rw [addVideo, bind_run, VisualVideo.new_eq]
  dsimp only
  split_ifs
  · exact hs
  · exact hs.pushVideo h (_, _)

end Visuals

namespace Scenes

theorem keeps_wellFormed_empty : Keeps EngineState.WellFormed empty := by
  intro s hs
  rw [empty_eq hs]
  exact hs.clearScenes

theorem keeps_wellFormed_newScene (name : String) : Keeps EngineState.WellFormed (newScene name) :=
  fun _ hs => hs.pushScene name

theorem keeps_wellFormed_setState (h : Host) (state : Json) :
    Keeps EngineState.WellFormed (setState h state) := by
  refine .bind keeps_wellFormed_empty fun _ => .forEach fun entry _ s hs => ?_
  rw [addState_eq hs]
  have hbuild := foldl_push (EngineState.buildScene h) EngineState.WellFormed
    (fun _ scene hs => hs.buildScene h scene) (decode s.visualsList entry).1.toList hs
  cases (decode s.visualsList entry).2 with
  | none => exact hbuild
  | some e => exact hbuild

end Scenes

/-! ### The set and the engine -/

theorem Set.keeps_wellFormed_setCurrentScene (h : Host) (n : UInt32) :
    Keeps EngineState.WellFormed (Set.setCurrentScene h n) := by
  refine .bind (.gets _) fun scenes => ?_
  match scenes, scenes[n.toNat]? with
  | [], _ => exact .undefined _
  | _ :: _, none => exact .pure _
  | _ :: _, some scene =>
    refine .bind (.modify fun s hs => ?_) fun _ =>
      (VisualInstances.keepsOutline_loadAll h scene.visualInstances).wellFormed
    exact { hs with currentScene_ne := fun _ => Option.some_ne_none _ }

theorem Set.keeps_wellFormed_closeSet (h : Host) : Keeps EngineState.WellFormed (Set.closeSet h) :=
  .bind (Visuals.keeps_wellFormed_empty h) fun _ => .bind Scenes.keeps_wellFormed_empty fun _ =>
    .modify fun _ hs => { hs with currentScene_ne := fun hl => Bool.noConfusion hl }

/-- What `Set::setCurrentScene` does with the first scene. -/
theorem Set.setCurrentScene_zero_outline (h : Host) {s : EngineState} {scene : Scene}
    {rest : List Scene} (hscenes : s.scenesList = scene :: rest) :
    (Set.setCurrentScene h 0 s).Post
      (fun _ t => t.outline =
        ({ s with currentSceneNumber := 0, currentScene := some scene.addr } : EngineState).outline)
      fun _ t => t.outline =
        ({ s with currentSceneNumber := 0, currentScene := some scene.addr } : EngineState).outline := by
  have hrun : Set.setCurrentScene h 0 s = VisualInstances.loadAll h scene.visualInstances
      { s with currentSceneNumber := 0, currentScene := some scene.addr } := by
    cases s
    cases hscenes
    rfl
  rw [hrun]
  exact VisualInstances.keepsOutline_loadAll h scene.visualInstances _ _ rfl

theorem Set.keeps_wellFormed_newSet (h : Host) (width height nLayers : UInt32) :
    Keeps EngineState.WellFormed (Set.newSet h width height nLayers) := by
  refine .bind (Fixes.updateProperties h _).wellFormed fun _ => ?_
  refine .bind (Fixes.updateProperties h _).wellFormed fun _ => ?_
  refine .bind (.modify fun _ hs => { hs with }) fun _ => ?_
  refine .bind (Layers.keeps_wellFormed_intLoop h _ _) fun _ => ?_
  intro s hs
  have hpush := hs.pushScene "First Scene"
  have hne : (s.pushScene "First Scene").scenesList ≠ [] := List.append_ne_nil_of_right_ne_nil _
    (List.cons_ne_nil _ _)
  obtain ⟨scene, rest, hscenes⟩ := List.exists_cons_of_ne_nil hne
  have hpost := Set.setCurrentScene_zero_outline h
    (s := { s.pushScene "First Scene" with currentSceneNumber := 1 }) hscenes
  have hset : ({ s.pushScene "First Scene" with
      currentSceneNumber := 0, currentScene := some scene.addr } : EngineState).WellFormed :=
    { hpush with currentScene_ne := fun _ => Option.some_ne_none _ }
  simp only [Scenes.newScene, bind_run, gets_run, modify_run, Outcome.bind_ok, pure_run]
  refine Outcome.Post.bind (hpost.mono (fun _ t ht => ht) fun _ t ht => hset.of_outline ht.symm)
    fun _ t ht => ?_
  have hcurrent : t.currentScene = some scene.addr := congrArg Outline.currentScene ht
  exact { hset.of_outline ht.symm with
    currentScene_ne := fun _ => hcurrent ▸ Option.some_ne_none _ }

namespace Engine

theorem keeps_wellFormed_setState (h : Host) (state : Json) :
    Keeps EngineState.WellFormed (setState h state) :=
  keeps_setState (Visuals.keeps_wellFormed_setState h) (Layers.keeps_wellFormed_setState h)
    (Scenes.keeps_wellFormed_setState h) state

theorem keeps_wellFormed_closeSet (h : Host) : Keeps EngineState.WellFormed (closeSet h) :=
  .bind (.gets _) fun _ => .ite
    (.bind (Layers.keeps_wellFormed_empty h) fun _ =>
      .bind (Set.keeps_wellFormed_closeSet h) fun _ =>
        .bind (.modify fun _ hs => { hs with }) fun _ =>
          (Fixes.updateProperties h _).wellFormed)
    (.pure _)

theorem keeps_wellFormed_initBuffer (h : Host) : Keeps EngineState.WellFormed (initBuffer h) := by
  refine .bind (.gets _) fun buffer => ?_
  cases buffer with
  | some _ => exact .pure _
  | none =>
    exact .bind (Fixes.getInstance h).wellFormed fun _ =>
      .bind (Fixes.getInstance h).wellFormed fun _ => .modify fun _ hs => { hs with }

theorem keeps_wellFormed_newSet (h : Host) (width height layers : UInt32) :
    Keeps EngineState.WellFormed (newSet h width height layers) := by
  have hset : ∀ f, Keeps EngineState.WellFormed (EngineProperties.update h f) :=
    fun f => (Fixes.updateProperties h f).wellFormed
  have hrest : Keeps EngineState.WellFormed (do
      Set.newSet h width height layers
      initBuffer h
      Layers.setActive h 1
      EngineProperties.update h fun p => { p with currentFilePath := "" }
      modify fun s => { s with setOpened := true }
      return true : Prog Bool) :=
    .bind (Set.keeps_wellFormed_newSet h _ _ _) fun _ =>
      .bind (keeps_wellFormed_initBuffer h) fun _ =>
        .bind (Layers.keeps_wellFormed_setActive h 1) fun _ => .bind (hset _) fun _ =>
          .bind (.modify fun _ hs => { hs with }) fun _ => .pure _
  refine .bind (keeps_wellFormed_closeSet h) fun _ => ?_
  have hlayers := Keeps.ite (c := layers > 0)
    (.bind (hset fun p => { p with mixerNLayers := layers }) fun _ => hrest) hrest
  have hheight := Keeps.ite (c := height > 0)
    (.bind (hset fun p => { p with mixerHeight := height }) fun _ => hlayers) hlayers
  exact .ite (.bind (hset _) fun _ => hheight) hheight

theorem keeps_wellFormed_load (h : Host) (path : String) :
    Keeps EngineState.WellFormed (JsonLoad.load h path) := .ite (.ofExcept _ _) (.throw _)

theorem keeps_wellFormed_openSet (h : Host) (path : String) :
    Keeps EngineState.WellFormed (openSet h path) := by
  refine .bind (.modify fun _ hs => { hs with }) fun _ => ?_
  refine .bind (keeps_wellFormed_closeSet h) fun _ => ?_
  refine .bind (Layers.keeps_wellFormed_empty h) fun _ => ?_
  refine .bind (.bind (keeps_wellFormed_load h path) fun _ =>
    .bind (keeps_wellFormed_setState h _) fun _ => .pure _) fun result => .ite ?_ (.pure _)
  refine .bind (keeps_wellFormed_initBuffer h) fun _ => ?_
  refine .bind (Layers.keeps_wellFormed_setActive h 1) fun _ => ?_
  exact .bind (Fixes.updateProperties h _).wellFormed fun _ =>
    .bind (.modify fun _ hs => { hs with }) fun _ => .pure _

theorem keeps_wellFormed_save (h : Host) (path : String) (state : Json) :
    Keeps EngineState.WellFormed (JsonSave.save h path state) := by
  refine .bind (.ite (.throw _) (.ite (.pure _) (.throw _))) fun _ => ?_
  refine .ite (.ite (.bind (.modify fun _ hs => { hs with }) fun _ => ?_) (.throw _)) (.throw _)
  exact .ite (.pure _) (.throw _)

theorem keeps_wellFormed_saveSetAs (h : Host) (path : String) :
    Keeps EngineState.WellFormed (Set.saveSetAs h path) :=
  .bind (.modify fun _ hs => { hs with }) fun _ =>
    .bind keepsOutline_getState.wellFormed fun _ => keeps_wellFormed_save h path _

/-- The end of `Engine::addVisualToScene`, once the layers are there. -/
def placeInCurrentScene (h : Host) (p : Placement) : Prog Unit := do
  let a ← derefCurrentScene
  Scene.add h a p

/-- The end of `Engine::removeVisualFromScene`, for the scene at an address. -/
def removeFromScene (a : Addr) (layer column : UInt32) : Prog Unit := do
  let scene ← Scene.read a
  let list ← VisualInstances.remove layer column scene.visualInstances
  Scene.update a fun scene => { scene with visualInstances := list }

/-- The end of `Engine::removeVisualFromScene`, once the layer has been stopped. -/
def removeFromCurrentScene (layer column : UInt32) : Prog Unit := do
  let a ← derefCurrentScene
  removeFromScene a layer column

theorem keeps_wellFormed_addVisualToScene (h : Host) (visual layer column : UInt32) :
    Keeps EngineState.WellFormed (addVisualToScene h visual layer column) := by
  refine .bind (.gets _) fun visuals => ?_
  cases Visuals.get visuals visual.toInt32 with
  | none => exact .pure _
  | some v =>
    have hadd : Keeps EngineState.WellFormed
        (placeInCurrentScene h ⟨v.addr, layer, column, ""⟩) :=
      .bind keepsOutline_derefCurrentScene.wellFormed fun a s hs =>
        Scene.add_post hs h a _ (hs.place h a _)
    refine .bind (.gets _) fun nLayers => .ite (.bind (.gets _) fun layers => ?_) hadd
    exact .bind (Layers.keeps_wellFormed_intLoop h _ _) fun _ => hadd

/-- Removing an instance from a scene of a well-formed state. -/
theorem removeFromScene_eq {s : EngineState} (hs : s.WellFormed) {scene : Scene}
    (hscene : scene ∈ s.scenesList) (layer column : UInt32) :
    removeFromScene scene.addr layer column s = .ok () { s with
      scenesList := s.scenesList |> Scene.replace scene.addr fun old => { old with
        visualInstances := scene.visualInstances.eraseP
          (VisualInstances.inCell s.instances (layer, column)) } } := by
  simp only [removeFromScene, bind_run, Scene.read, hs.find?_scene hscene, ofOption_some, pure_run,
    Outcome.bind_ok, VisualInstances.remove_eq (hs.instances_live scene hscene), Scene.update,
    modify_run]

/-- Taking an instance out of the list of a scene keeps the graph well formed. -/
theorem keeps_wellFormed_removeFromScene (a : Addr) (layer column : UInt32) :
    Keeps EngineState.WellFormed (removeFromScene a layer column) := by
  intro s hs
  cases hfind : s.scenesList.find? (fun scene => scene.addr = a) with
  | none => simp [removeFromScene, Scene.read, hfind]
  | some scene =>
    have hscene := List.mem_of_find?_eq_some hfind
    obtain rfl : scene.addr = a := by simpa using List.find?_some hfind
    have hlist : ∀ old ∈ s.scenesList, old.addr = scene.addr → old = scene :=
      fun old hold holda => hs.scene_eq hold hscene holda
    rw [removeFromScene_eq hs hscene, Outcome.post_ok]
    refine { hs with scenes_lt := ?_, scenes_ne := ?_, instances_nodup := ?_, instances_live := ?_ }
    · intro x hx
      obtain ⟨old, hold, rfl⟩ := Scene.mem_replace hx
      split_ifs <;> exact hs.scenes_lt old hold
    · refine hs.scenes_replace (fun _ => rfl) fun old hold holda b hb => .inl ?_
      rw [hlist old hold holda]
      exact List.mem_of_mem_eraseP hb
    · intro x hx
      obtain ⟨old, hold, rfl⟩ := Scene.mem_replace hx
      split_ifs
      · exact (hs.instances_nodup scene hscene).sublist List.eraseP_sublist
      · exact hs.instances_nodup old hold
    · intro x hx
      obtain ⟨old, hold, rfl⟩ := Scene.mem_replace hx
      split_ifs
      · exact (hs.instances_live scene hscene).mono fun b hb => List.mem_of_mem_eraseP hb
      · exact hs.instances_live old hold

theorem keeps_wellFormed_removeVisualFromScene (h : Host) (layer column : UInt32) :
    Keeps EngineState.WellFormed (removeVisualFromScene h layer column) := by
  refine .bind (keepsOutline_isSelectedCell h layer column).wellFormed fun selected => ?_
  have hremove : Keeps EngineState.WellFormed (removeFromCurrentScene layer column) :=
    .bind keepsOutline_derefCurrentScene.wellFormed fun a =>
      keeps_wellFormed_removeFromScene a layer column
  exact .ite (.bind (Layers.keepsSkeleton_stopAt layer).wellFormed fun _ => hremove) hremove

end Engine

/-! ### Requests and runs -/

theorem handleAction_keeps_wellFormed (h : Host) (request : Json) (action : Action) :
    Keeps EngineState.WellFormed (handleAction h request action) := by
  by_cases ha : action = .setState
  · subst ha
    refine .bind (.bind (.ofExcept _ _) fun data => .ite ?_ (.throw _)) fun _ => .pure _
    exact .bind (Engine.keeps_wellFormed_setState h data) fun _ => .pure _
  · exact (keepsSkeleton_handleAction h request ha).wellFormed

theorem handleJSONRequestForClient_keeps_wellFormed (h : Host) (request : Json) :
    Keeps EngineState.WellFormed (handleJSONRequestForClient h request) := by
  refine .bind (.ofExcept _ _) fun action => .ite (.bind (.ofExcept _ _) fun action => ?_) (.throw _)
  cases Action.ofString action with
  | some action => exact handleAction_keeps_wellFormed h request action
  | none => exact .throw _

/-- Every call keeps the graph well formed. -/
theorem Command.keeps_wellFormed (h : Host) (c : Command) :
    Keeps EngineState.WellFormed (c.run h) := by
  cases c with
  | newSet width height layers =>
    exact .bind (Engine.keeps_wellFormed_newSet h width height layers) fun _ => .pure _
  | openSet path => exact .bind (Engine.keeps_wellFormed_openSet h path) fun _ => .pure _
  | closeSet => exact Engine.keeps_wellFormed_closeSet h
  | saveSet =>
    exact .bind (.bind (.bind (.gets _) fun _ => Engine.keeps_wellFormed_saveSetAs h _)
      fun _ => .pure _) fun _ => .pure _
  | saveSetAs path =>
    exact .bind (.bind (Engine.keeps_wellFormed_saveSetAs h path) fun _ =>
      .bind (Fixes.updateProperties h _).wellFormed fun _ => .pure _) fun _ => .pure _
  | setState state => exact Engine.keeps_wellFormed_setState h state
  | addScene => exact .bind (Scenes.keeps_wellFormed_newScene _) fun _ => .pure _
  | setCurrentScene n => exact Set.keeps_wellFormed_setCurrentScene h n
  | addVideo path => exact .bind (Visuals.keeps_wellFormed_addVideo h path) fun _ => .pure _
  | addVisualToScene visual layer column =>
    exact Engine.keeps_wellFormed_addVisualToScene h visual layer column
  | removeVisualFromScene layer column =>
    exact Engine.keeps_wellFormed_removeVisualFromScene h layer column
  | play data => exact (Engine.keepsSkeleton_play h data).wellFormed
  | stop data => exact (Engine.keepsSkeleton_stop data).wellFormed
  | triggerSchedulledVisualsOnAllLayers => exact (Engine.keepsSkeleton_trigger h).wellFormed
  | setMetronomeOn on =>
    exact (Fixes.updateProperties h fun p => { p with metronomeOn := on }).wellFormed
  | setBeatSnap a on =>
    exact (VisualInstance.keepsOutline_setBeatSnap a on).wellFormed
  | request r => exact .bind (handleJSONRequestForClient_keeps_wellFormed h r) fun _ => .pure _

/-- Every reachable state is well formed. -/
theorem EngineState.Reachable.wellFormed {s : EngineState} (hs : s.Reachable) : s.WellFormed :=
  Reaches.invariant (fun c t _ ht => c.2.keeps_wellFormed c.1 t ht) EngineState.wellFormed_init hs

end ArbutusEngine
