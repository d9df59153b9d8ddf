import ArbutusEngine.Model.VisualInstances

/-!
# Scenes

A scene is a name and a list of instances. `Scene::getState` writes both; an instance is written
with its position in the list of its scene. `Scene::setState` reads that number as a position in
the list of visuals, and passes over an entry without an error when there is no visual there.

`Scenes::setState` deletes all scenes and then builds one scene for every entry. A scene is created
as soon as its name has been read, and its instances are added one by one, so that an exception
leaves the scenes built so far behind. `Scenes.setState_eq` says what the whole loop does.

## Main definitions

* `Scene.getState`, `Scene.setState`, `Scenes.newScene`, `Scenes.empty`, `Scenes.setState`.
* `Set.getScenesState`.
* `Scene.readInstance`, `Scene.decode`, `Scenes.decode`, `Scenes.decodeAll`: what the entries of a
  document come to.
* `EngineState.place`, `EngineState.pushScene`, `EngineState.buildScenes`.

## Main results

* `Scenes.empty_eq`, `Scenes.setState_eq`.
* `EngineState.WellFormed.place`, `EngineState.WellFormed.buildScenes`.
-/

open Exec

namespace ArbutusEngine

/-! ### One scene -/

/-- The arguments with which `Scene::setState` adds an instance. -/
structure Placement where
  visual : Addr
  layer : UInt32
  column : UInt32
  name : String
  deriving DecidableEq

namespace Scene

def setName (newName : String) (scene : Scene) : Scene := { scene with sceneName := newName }

/-- `Scene::getState`. -/
def getState (scene : Scene) : Prog Json := do
  let instances ← VisualInstances.getState scene.visualInstances
  return .obj [("name", .str scene.sceneName), ("instances", instances)]

/-- The reads of the loop of `Scene::setState`, which come before the instance is added. The
properties are read only when a visual has been found. -/
def readInstance (visuals : List Visual) (newVisualInstanceState : Json) :
    Except String (Option Placement) :=
  (newVisualInstanceState.index "index").bind fun index =>
  index.getInt.bind fun index =>
  match Visuals.get visuals index with
  | none => .ok none
  | some visual =>
    (newVisualInstanceState.index "properties").bind fun properties =>
    (properties.index "layer").bind fun layer =>
    layer.getUnsigned.bind fun layer =>
    (properties.index "column").bind fun column =>
    column.getUnsigned.bind fun column =>
    (properties.index "name").bind fun name =>
    name.getString.bind fun name =>
    .ok (some ⟨visual.addr, layer, column, name⟩)

/-- The body of the loop of `Scene::setState`, for the scene at the address `a`. -/
def addState (h : Host) (a : Addr) (newVisualInstanceState : Json) : Prog Unit := do
  let visuals ← gets EngineState.visualsList
  let placement ← Prog.json (readInstance visuals newVisualInstanceState)
  match placement with
  | none => pure ()
  | some p => do
    let scene ← read a
    let list ← VisualInstances.add h p.visual p.layer p.column p.name scene.visualInstances
    update a fun scene => { scene with visualInstances := list }

/-- `Scene::setState`, for the scene at the address `a`. -/
def setState (h : Host) (a : Addr) (state : Json) : Prog Unit :=
  if state.isObject then do
    let name ← Prog.json (state.index "name")
    if name.isString then do
      let name ← Prog.json name.getString
      update a (setName name)
    let instances ← Prog.json (state.index "instances")
    if instances.isArray then do
      let scene ← read a
      VisualInstances.empty scene.visualInstances
      forEach instances.elements (addState h a)
  else throw (.literal "State isn't an object")

end Scene

/-! ### The list of scenes -/

namespace Scenes

/-- `Scenes::newScene`. -/
def newScene (sceneTitle : String) : Prog Addr := do
  let a ← gets EngineState.nextAddr
  modify fun s => { s with
    scenesList := s.scenesList ++ [⟨a, sceneTitle, []⟩]
    nextAddr := s.nextAddr + 1 }
  return a

/-- `Scenes::empty`: the destructor of a scene empties its list of instances. -/
def empty : Prog Unit := do
  let scenes ← gets EngineState.scenesList
  forEach scenes fun scene => VisualInstances.empty scene.visualInstances
  modify fun s => { s with scenesList := [] }

/-- The body of the loop of `Scenes::setState`. -/
def addState (h : Host) (newSceneState : Json) : Prog Unit := do
  let name ← Prog.json (newSceneState.index "name")
  let name ← Prog.json name.getString
  let scene ← newScene name
  Scene.setState h scene newSceneState

/-- `Scenes::setState`. -/
def setState (h : Host) (state : Json) : Prog Unit := do
  empty
  forEach state.elements (addState h)

end Scenes

/-- The states of a list of scenes. -/
def Set.getScenesStates : List Scene → Prog (List Json)
  | [] => return []
  | scene :: rest => do
    let state ← scene.getState
    let states ← getScenesStates rest
    return state :: states

/-- `Set::getScenesState`. -/
def Set.getScenesState : Prog Json := do
  let scenes ← gets EngineState.scenesList
  let states ← Set.getScenesStates scenes
  return .pushAll states

/-! ### What one scene does -/

/-- The state after an instance has been added to the scene at the address `a`. -/
def EngineState.place (h : Host) (a : Addr) (s : EngineState) (p : Placement) : EngineState :=
  { s with
    scenesList := Scene.replace a (fun scene => { scene with
      visualInstances := scene.visualInstances.eraseP
        (VisualInstances.inCell s.instances (p.layer, p.column)) ++ [s.instances.next] }) s.scenesList
    instances := s.instances.alloc (.fresh h s.instances.next p.visual p.layer p.column p.name)
    properties := s.properties.setDefaults h }

/-- There is a scene at the address `a`. -/
def EngineState.HasScene (s : EngineState) (a : Addr) : Prop := ∃ scene ∈ s.scenesList, scene.addr = a

theorem Scene.mem_replace {a : Addr} {f : Scene → Scene} {scenes : List Scene} {scene : Scene}
    (hscene : scene ∈ Scene.replace a f scenes) :
    ∃ old ∈ scenes, scene = if old.addr = a then f old else old := by
  obtain ⟨old, hold, rfl⟩ := List.mem_map.mp hscene
  exact ⟨old, hold, rfl⟩

theorem EngineState.HasScene.place {s : EngineState} {a b : Addr} (hb : s.HasScene b) (h : Host)
    (p : Placement) : (s.place h a p).HasScene b := by
  obtain ⟨scene, hscene, rfl⟩ := hb
  refine ⟨_, List.mem_map_of_mem hscene, ?_⟩
  split_ifs <;> rfl

/-- Adding an instance keeps the graph well formed. -/
theorem EngineState.WellFormed.place {s : EngineState} (hs : s.WellFormed) (h : Host) (a : Addr)
    (p : Placement) : (s.place h a p).WellFormed where
  visuals_lt := hs.visuals_lt
  visuals_ne := hs.visuals_ne
  scenes_lt scene hscene := by
    obtain ⟨old, hold, rfl⟩ := Scene.mem_replace hscene
    split_ifs <;> exact hs.scenes_lt old hold
  scenes_ne := by
    refine hs.scenes_replace (fun _ => rfl) fun scene hscene _ b hb => ?_
    rcases List.mem_append.mp hb with hb | hb
    · exact .inl (List.mem_of_mem_eraseP hb)
    · rw [List.mem_singleton.mp hb]
      exact .inr fun other hother => (hs.instances_live other hother).next_notMem
  instances_nodup scene hscene := by
    obtain ⟨old, hold, rfl⟩ := Scene.mem_replace hscene
    split_ifs
    · refine List.nodup_append.mpr ⟨(hs.instances_nodup old hold).sublist List.eraseP_sublist,
        List.pairwise_singleton _ _, fun b hb c hc hbc => ?_⟩
      rw [hbc, List.mem_singleton.mp hc] at hb
      exact (hs.instances_live old hold).next_notMem (List.mem_of_mem_eraseP hb)
    · exact hs.instances_nodup old hold
  instances_live scene hscene := by
    obtain ⟨old, hold, rfl⟩ := Scene.mem_replace hscene
    split_ifs
    · exact ((hs.instances_live old hold).mono fun b hb => List.mem_of_mem_eraseP hb).append_next _
    · exact (hs.instances_live old hold).alloc _
  layers_lt := hs.layers_lt
  layers_le := hs.layers_le
  currentScene_ne := hs.currentScene_ne

theorem Scene.replace_congr {a : Addr} {f g : Scene → Scene} {scenes : List Scene}
    (hfg : ∀ scene ∈ scenes, scene.addr = a → f scene = g scene) :
    Scene.replace a f scenes = Scene.replace a g scenes := by
  refine List.map_congr_left fun scene hscene => ?_
  split_ifs with ha
  · exact hfg scene hscene ha
  · rfl

theorem Scene.replace_eq_self {a : Addr} {f : Scene → Scene} {scenes : List Scene}
    (hf : ∀ scene ∈ scenes, scene.addr = a → f scene = scene) :
    Scene.replace a f scenes = scenes := by
  rw [Scene.replace_congr hf, Scene.replace]
  simp

/-- The end of the loop of `Scene::setState` and of `Engine::addVisualToScene`. -/
def Scene.add (h : Host) (a : Addr) (p : Placement) : Prog Unit := do
  let scene ← Scene.read a
  let list ← VisualInstances.add h p.visual p.layer p.column p.name scene.visualInstances
  Scene.update a fun scene => { scene with visualInstances := list }

/-- Adding an instance to a scene of a well-formed state. -/
theorem Scene.add_eq {s : EngineState} (hs : s.WellFormed) {a : Addr} (ha : s.HasScene a) (h : Host)
    (p : Placement) : Scene.add h a p s = .ok () (s.place h a p) := by
  obtain ⟨scene, hscene, rfl⟩ := ha
  have hfind := hs.find?_scene hscene
  rw [Scene.add, bind_run]
  simp only [Scene.read, hfind, ofOption_some, pure_run, Outcome.bind_ok]
  rw [bind_run, VisualInstances.add_eq (hs.instances_live scene hscene), Outcome.bind_ok]
  simp only [Scene.update, Scene.read, bind_run, hfind, ofOption_some, pure_run, Outcome.bind_ok,
    modify_run, EngineState.place]
  congr 2
  refine Scene.replace_congr fun old hold haddr => ?_
  rw [hs.scene_eq hold hscene haddr]

/-- Adding an instance at an address where there may be no scene. -/
theorem Scene.add_post {s : EngineState} (hs : s.WellFormed) (h : Host) (a : Addr) (p : Placement)
    {Q : EngineState → Prop} (hQ : Q (s.place h a p)) :
    (Scene.add h a p s).Post (fun _ => Q) fun _ => Q := by
  by_cases ha : s.HasScene a
  · rw [Scene.add_eq hs ha]
    exact hQ
  · have hnone : s.scenesList.find? (fun scene => scene.addr = a) = none := by
      rw [List.find?_eq_none]
      exact fun scene hscene haddr => ha ⟨scene, hscene, by simpa using haddr⟩
    simp [Scene.add, Scene.read, hnone]

namespace Scene

/-- What an entry of an array of instances comes to. -/
def decode (visuals : List Visual) (newVisualInstanceState : Json) :
    Option Placement × Option Thrown :=
  match readInstance visuals newVisualInstanceState with
  | .ok placement => (placement, none)
  | .error what => (none, some (.exception what))

/-- The instances that `Scene::setState` adds from the member `instances` of an entry, and the
exception that stops it. -/
def decodeAll (visuals : List Visual) (instances : Json) : List Placement × Option Thrown :=
  match instances with
  | .arr entries => collect (decode visuals) entries
  | _ => ([], none)

/-- One turn of the loop of `Scene::setState`. -/
theorem addState_eq {s : EngineState} (hs : s.WellFormed) {a : Addr} (ha : s.HasScene a) (h : Host)
    (newVisualInstanceState : Json) :
    addState h a newVisualInstanceState s =
      .raiseIf (decode s.visualsList newVisualInstanceState).2
        ((decode s.visualsList newVisualInstanceState).1.toList.foldl (EngineState.place h a) s) := by
  rw [addState, bind_run, gets_run, Outcome.bind_ok, decode]
  cases readInstance s.visualsList newVisualInstanceState with
  | error what => rfl
  | ok placement =>
    cases placement with
    | none => rfl
    | some p => exact add_eq hs ha h p

/-- The loop of `Scene::setState` over an array. -/
theorem forEach_addState {s : EngineState} (hs : s.WellFormed) {a : Addr} (ha : s.HasScene a)
    (h : Host) (entries : List Json) :
    forEach entries (addState h a) s =
      .raiseIf (collect (decode s.visualsList) entries).2
        ((collect (decode s.visualsList) entries).1.foldl (EngineState.place h a) s) := by
  refine forEach_eq_collect (EngineState.place h a)
    (fun t => t.WellFormed ∧ t.HasScene a ∧ t.visualsList = s.visualsList)
    (fun t p ht => ⟨ht.1.place h _ p, ht.2.1.place h p, ht.2.2⟩) entries
    (fun e _ t ht => ?_) _ ⟨hs, ha, rfl⟩
  obtain ⟨ht, ha, hv⟩ := ht
  rw [addState_eq ht ha, hv]

end Scene

/-! ### What the list of scenes does -/

/-- The state after a scene has been created. -/
def EngineState.pushScene (s : EngineState) (name : String) : EngineState :=
  { s with scenesList := s.scenesList ++ [⟨s.nextAddr, name, []⟩], nextAddr := s.nextAddr + 1 }

/-- The state after a scene has been created and its instances have been added. -/
def EngineState.buildScene (h : Host) (s : EngineState) (scene : String × List Placement) :
    EngineState :=
  scene.2.foldl (EngineState.place h s.nextAddr) (s.pushScene scene.1)

def EngineState.buildScenes (h : Host) (s : EngineState)
    (scenes : List (String × List Placement)) : EngineState :=
  scenes.foldl (EngineState.buildScene h) s

/-- The instances of all scenes. -/
def EngineState.placed (s : EngineState) : List Addr := s.scenesList.flatMap Scene.visualInstances

/-- The state after all scenes have been deleted. -/
def EngineState.clearScenes (s : EngineState) : EngineState :=
  { s with scenesList := [], instances := s.instances.freeAll s.placed }

theorem EngineState.WellFormed.pushScene {s : EngineState} (hs : s.WellFormed) (name : String) :
    (s.pushScene name).WellFormed where
  visuals_lt v hv := Nat.lt_succ_of_lt (hs.visuals_lt v hv)
  visuals_ne := hs.visuals_ne
  scenes_lt scene hscene := by
    rcases List.mem_append.mp hscene with hscene | hscene
    · exact Nat.lt_succ_of_lt (hs.scenes_lt scene hscene)
    · rw [List.mem_singleton.mp hscene]
      exact Nat.lt_succ_self _
  scenes_ne := by
    refine List.pairwise_append.mpr ⟨hs.scenes_ne, List.pairwise_singleton _ _, ?_⟩
    intro scene hscene new hnew
    rw [List.mem_singleton.mp hnew]
    exact ⟨Nat.ne_of_lt (hs.scenes_lt scene hscene), List.disjoint_nil_right _⟩
  instances_nodup scene hscene := by
    rcases List.mem_append.mp hscene with hscene | hscene
    · exact hs.instances_nodup scene hscene
    · rw [List.mem_singleton.mp hscene]
      exact List.nodup_nil
  instances_live scene hscene := by
    rcases List.mem_append.mp hscene with hscene | hscene
    · exact hs.instances_live scene hscene
    · rw [List.mem_singleton.mp hscene]
      exact fun _ ha => absurd ha List.not_mem_nil
  layers_lt layer hlayer := Nat.lt_succ_of_lt (hs.layers_lt layer hlayer)
  layers_le := hs.layers_le
  currentScene_ne := hs.currentScene_ne

theorem EngineState.hasScene_pushScene (s : EngineState) (name : String) :
    (s.pushScene name).HasScene s.nextAddr :=
  ⟨_, List.mem_append_right _ (List.mem_singleton_self _), rfl⟩

@[simp] theorem EngineState.visualsList_buildScene (h : Host) (s : EngineState)
    (scene : String × List Placement) : (s.buildScene h scene).visualsList = s.visualsList :=
  foldl_push (EngineState.place h s.nextAddr) (fun t => t.visualsList = s.visualsList)
    (fun _ _ ht => ht) scene.2 (s := s.pushScene scene.1) rfl

theorem EngineState.WellFormed.buildScene {s : EngineState} (hs : s.WellFormed) (h : Host)
    (scene : String × List Placement) : (s.buildScene h scene).WellFormed :=
  foldl_push (EngineState.place h s.nextAddr) EngineState.WellFormed (fun _ p hs => hs.place h _ p)
    scene.2 (hs.pushScene scene.1)

theorem EngineState.WellFormed.buildScenes {s : EngineState} (hs : s.WellFormed) (h : Host)
    (scenes : List (String × List Placement)) : (s.buildScenes h scenes).WellFormed :=
  foldl_push (EngineState.buildScene h) EngineState.WellFormed
    (fun _ scene hs => hs.buildScene h scene) scenes hs

theorem EngineState.WellFormed.clearScenes {s : EngineState} (hs : s.WellFormed) :
    s.clearScenes.WellFormed :=
  { hs with
    scenes_lt := fun _ hscene => absurd hscene List.not_mem_nil
    scenes_ne := .nil
    instances_nodup := fun _ hscene => absurd hscene List.not_mem_nil
    instances_live := fun _ hscene => absurd hscene List.not_mem_nil }

namespace Scenes

/-- Deleting scenes one by one deletes the instances of all of them. -/
private theorem forEach_empty {s : EngineState} (scenes : List Scene)
    (hne : scenes.Pairwise fun x y => x.visualInstances.Disjoint y.visualInstances)
    (hnodup : ∀ scene ∈ scenes, scene.visualInstances.Nodup)
    (hlive : ∀ scene ∈ scenes, s.instances.Live scene.visualInstances) :
    forEach scenes (fun scene => VisualInstances.empty scene.visualInstances) s = .ok ()
      { s with instances := s.instances.freeAll (scenes.flatMap Scene.visualInstances) } := by
  induction scenes generalizing s with
  | nil => rfl
  | cons scene rest ih =>
    obtain ⟨hd, hrest⟩ := List.pairwise_cons.mp hne
    rw [forEach_cons, bind_run, VisualInstances.empty_eq (hlive scene List.mem_cons_self)
      (hnodup scene List.mem_cons_self), Outcome.bind_ok,
      ih hrest (fun x hx => hnodup x (List.mem_cons_of_mem _ hx))
        fun x hx => (hlive x (List.mem_cons_of_mem _ hx)).freeAll fun b hb hb' => hd x hx hb' hb]
    simp [Heap.freeAll]

theorem empty_eq {s : EngineState} (hs : s.WellFormed) : empty s = .ok () s.clearScenes := by
  rw [empty, bind_run, gets_run, Outcome.bind_ok, bind_run,
    forEach_empty _ (hs.scenes_ne.imp fun h => h.2) hs.instances_nodup hs.instances_live]
  rfl

/-- What an entry of an array of scenes comes to: the name and the instances of a scene, if one is
created, and the exception, if the entry throws. -/
def decode (visuals : List Visual) (newSceneState : Json) :
    Option (String × List Placement) × Option Thrown :=
  if newSceneState.isIndexable then
    match newSceneState.field "name" with
    | .str name =>
      let r := Scene.decodeAll visuals (newSceneState.field "instances")
      (some (name, r.1), r.2)
    | j => (none, some (.exception (j.typeError "string")))
  else (none, some (.exception newSceneState.indexError))

/-- The scenes built from the entries up to the first one that throws, and its exception. -/
abbrev decodeAll (visuals : List Visual) :
    List Json → List (String × List Placement) × Option Thrown :=
  collect (decode visuals)

end Scenes

/-- `Scene::setState` on a scene that has just been created under the name the entry gives it. -/
theorem Scene.setState_pushScene {s : EngineState} (hs : s.WellFormed) (h : Host) {state : Json}
    {name : String} (hname : state.field "name" = .str name) :
    Scene.setState h s.nextAddr state (s.pushScene name) =
      .raiseIf (Scene.decodeAll s.visualsList (state.field "instances")).2
        ((Scene.decodeAll s.visualsList (state.field "instances")).1.foldl
          (EngineState.place h s.nextAddr) (s.pushScene name)) := by
  have hobj : state.isObject = true := by
    cases state <;> first | rfl | exact Json.noConfusion rfl (heq_of_eq hname)
  have hx := Json.index_of_isIndexable (Json.isIndexable_of_isObject hobj)
  have hwf := hs.pushScene name
  have hfind : (s.pushScene name).scenesList.find? (fun sc => sc.addr = s.nextAddr) =
      some ⟨s.nextAddr, name, []⟩ :=
    hwf.find?_scene (List.mem_append_right _ (List.mem_singleton_self _))
  have hset : Scene.update s.nextAddr (Scene.setName name) (s.pushScene name) =
      .ok () (s.pushScene name) := by
    simp only [Scene.update, Scene.read, bind_run, hfind, ofOption_some, pure_run, Outcome.bind_ok,
      modify_run]
    rw [Scene.replace_eq_self fun scene hscene haddr => ?_]
    rcases List.mem_append.mp hscene with hscene | hscene
    · exact absurd haddr (Nat.ne_of_lt (hs.scenes_lt scene hscene))
    · rw [List.mem_singleton.mp hscene]
      rfl
  simp only [Scene.setState, hobj, ↓reduceIte, hx, ofExcept_ok, pure_bind, hname, Json.isString,
    Json.getString]
  rw [bind_run, hset, Outcome.bind_ok]
  cases hi : state.field "instances" with
  | arr entries =>
    simp only [Json.isArray, ↓reduceIte, bind_run, Scene.read, hfind, ofOption_some, pure_run,
      Outcome.bind_ok, VisualInstances.empty, forEach_nil, Json.elements, Scene.decodeAll]
    exact Scene.forEach_addState hwf (s.hasScene_pushScene name) h entries
  | _ => rfl

namespace Scenes

/-- One turn of the loop of `Scenes::setState`. -/
theorem addState_eq {s : EngineState} (hs : s.WellFormed) (h : Host) (newSceneState : Json) :
    addState h newSceneState s = .raiseIf (decode s.visualsList newSceneState).2
      ((decode s.visualsList newSceneState).1.toList.foldl (EngineState.buildScene h) s) := by
  by_cases hi : newSceneState.isIndexable = true
  swap
  · have hi : newSceneState.isIndexable = false := by simpa using hi
    simp [addState, decode, Json.index_of_not_isIndexable hi, hi]
  simp only [addState, decode, hi, ↓reduceIte, Json.index_of_isIndexable hi, ofExcept_ok, pure_bind]
  cases hname : newSceneState.field "name" with
  | str name =>
    simp only [Json.getString, ofExcept_ok, newScene, bind_run, gets_run, modify_run,
      Outcome.bind_ok, pure_run]
    exact Scene.setState_pushScene hs h hname
  | _ => rfl

/-- `Scenes::setState` deletes all scenes and builds those of the entries up to the first one that
throws. -/
theorem setState_eq {s : EngineState} (hs : s.WellFormed) (h : Host) (state : Json) :
    setState h state s = .raiseIf (decodeAll s.visualsList state.elements).2
      (s.clearScenes.buildScenes h (decodeAll s.visualsList state.elements).1) := by
  rw [setState, bind_run, empty_eq hs, Outcome.bind_ok]
  refine forEach_eq_collect (EngineState.buildScene h)
    (fun t => t.WellFormed ∧ t.visualsList = s.visualsList) (fun t scene ⟨ht, hv⟩ => ⟨?_, ?_⟩)
    state.elements (fun e _ t ⟨ht, hv⟩ => ?_) _ ⟨hs.clearScenes, rfl⟩
  · exact ht.buildScene h scene
  · exact (EngineState.visualsList_buildScene h t scene).trans hv
  · rw [addState_eq ht, hv]

end Scenes

end ArbutusEngine
