import ArbutusEngine.Lib.Heap
import ArbutusEngine.Properties

/-!
# The state of the engine

The engine keeps its data in singletons: the lists `Visuals`, `Scenes` and `Layers`, the `Set` that
is open, the `EngineProperties`, and the `Engine` object itself. `EngineState` holds the members of
all of them that the modelled functions read or write.

Objects are identified by their address. Visuals, scenes and layers are stored in the list that
owns them: a visual or a scene leaves its list exactly when it is deleted, so a pointer to one is
dangling when its address is no longer in the list. Instances are shared between the scenes that
own them and the layers that play them, and an instance erased from its scene is not deleted; they
live in a heap of their own, and scenes and layers hold their addresses.

Every access to the engine properties goes through `EngineProperties::getInstance`, which resets
eight of them to their defaults before it returns (`EngineProperties.setDefaults`).

## Main definitions

* `EngineProperties`, `Visual`, `VisualInstance`, `Scene`, `Layer`, `EngineState`.
* `Prog`: programs of the engine.
* `EngineProperties.getInstance`, `VisualInstance.read`, `VisualInstance.update`, `Visual.read`,
  `Scene.read`, `Scene.update`.
* `EngineState.WellFormed`: the invariant of the object graph.
-/

namespace ArbutusEngine

variable {N : Type}

/-! ### Engine properties -/

inductive EngineRunMode where
  | playMode
  | learnMode
  deriving DecidableEq

structure EngineProperties where
  runMode : EngineRunMode
  mixerWidth : UInt32
  mixerHeight : UInt32
  mixerNLayers : UInt32
  beatsToSnap : UInt32
  beatsCounter : UInt32
  metronomeOn : Bool
  triggeringBeat : Bool
  beatSnapInProgress : Bool
  appSupportDir : String
  currentFilePath : String
  selectedLayer : Int32
  selectedColumn : Int32
  deriving DecidableEq

/-- `MAXIMUM_NUMBER_OF_LAYERS`. -/
def maximumNumberOfLayers : ℕ := 6

namespace EngineProperties

/-- The static instance before its first use: static storage is zero. -/
def zero : EngineProperties where
  runMode := .playMode
  mixerWidth := 0
  mixerHeight := 0
  mixerNLayers := 0
  beatsToSnap := 0
  beatsCounter := 0
  metronomeOn := false
  triggeringBeat := false
  beatSnapInProgress := false
  appSupportDir := ""
  currentFilePath := ""
  selectedLayer := 0
  selectedColumn := 0

/-- `EngineProperties::setDefaults`. -/
def setDefaults (h : Host N) (p : EngineProperties) : EngineProperties :=
  { p with
    mixerWidth := 640
    mixerHeight := 480
    mixerNLayers := 3
    beatsToSnap := 4
    beatSnapInProgress := false
    currentFilePath := ""
    runMode := .playMode
    appSupportDir := h.getAppSupportPath }

end EngineProperties

/-! ### Visuals -/

/-- What distinguishes the classes `VisualVideo`, `VisualCamera` and `VisualSyphon`. -/
inductive VisualSource where
  | video (filePath : String)
  | camera (deviceId frameRate width height : UInt32) (isOpened : Bool)
  | syphon (serverName appName : String)
  deriving DecidableEq

/-- A visual. `VisualVideo` has a member `filePath` of its own, which is the one of the source; the
member `filePath` of `Visual` is left empty by every constructor. -/
structure Visual where
  addr : Addr
  caption : String
  source : VisualSource
  filePath : String
  deriving DecidableEq

namespace Visual

/-- `Visual::getFilePath`. It is not virtual, so that it is also what a call through a `Visual *`
runs when the visual is a `VisualVideo`. -/
def getFilePath (v : Visual) : String := v.filePath

/-- `Visual::getType`, as the number of the enumeration `VisualType`. -/
def getType (v : Visual) : ℤ :=
  match v.source with
  | .video _ => 0
  | .camera .. => 1
  | .syphon .. => 2

/-- The members that the `getState` of each class adds to those of `Visual::getState`. -/
def sourceState : VisualSource → List (String × Json)
  | .video filePath => [("filePath", .str filePath)]
  | .camera deviceId frameRate width height _ =>
    [("deviceId", .int deviceId.toNat), ("frameRate", .int frameRate.toNat),
      ("width", .int width.toNat), ("height", .int height.toNat)]
  | .syphon serverName appName => [("serverName", .str serverName), ("appName", .str appName)]

/-- `getState`, which also prints the address of the visual. -/
def getState (v : Visual) : Json :=
  .obj ([("type", .int v.getType), ("caption", .str v.caption),
    ("address", .str (toString v.addr))] ++ sourceState v.source)

end Visual

/-! ### Instances, scenes and layers -/

/-- An `ofAVFoundationPlayer`, which is given by what it answers. The calls below are all that the
engine makes, and each has the effect that openFrameworks documents: it changes the answer that it
is named after and no other. -/
structure VideoPlayer where
  isLoaded : Bool
  isPlaying : Bool
  speed : ℚ
  position : ℚ
  deriving DecidableEq

namespace VideoPlayer

/-- A player before it loads a file, or after `close`. -/
def new : VideoPlayer := ⟨false, false, 1, 0⟩

/-- `load`, which makes a new player of it and may fail. -/
abbrev load (isLoaded : Bool) : VideoPlayer := { new with isLoaded := isLoaded }

abbrev play (video : VideoPlayer) : VideoPlayer := { video with isPlaying := true }

abbrev stop (video : VideoPlayer) : VideoPlayer := { video with isPlaying := false }

/-- `setPosition`; `firstFrame` and `setFrame(0)` are `setPosition 0`. -/
abbrev setPosition (position : ℚ) (video : VideoPlayer) : VideoPlayer :=
  { video with position := position }

abbrev setSpeed (speed : ℚ) (video : VideoPlayer) : VideoPlayer := { video with speed := speed }

end VideoPlayer

structure VisualInstance (N : Type := ℚ) where
  properties : VisualInstancesProperties N
  visual : Addr
  video : VideoPlayer
  videoX : ℤ
  videoY : ℤ
  videoWidth : ℤ
  videoHeight : ℤ
  deriving DecidableEq

namespace VisualInstance

/-- `VisualInstance::getState`, given the state of the visual. The source writes `videoX` under
`videoY` as well. -/
def getState (i : VisualInstance) (visualState : Json) : Json :=
  .obj [("properties", i.properties.getState), ("videoX", .int i.videoX),
    ("videoY", .int i.videoX), ("videoWidth", .int i.videoWidth),
    ("videoHeight", .int i.videoHeight), ("visual", visualState)]

/-- The cell of an instance, the signed members read back as the unsigned values compared to. -/
def cell (i : VisualInstance N) : UInt32 × UInt32 :=
  (i.properties.layer.toUInt32, i.properties.column.toUInt32)

end VisualInstance

structure Scene where
  addr : Addr
  sceneName : String
  visualInstances : List Addr
  deriving DecidableEq

structure Layer (N : Type := ℚ) where
  addr : Addr
  properties : LayerProperties N
  layerNumber : UInt32
  activeInstance : Option Addr
  schedulledInstance : Option Addr
  /-- The size of the allocated frame buffer. -/
  buffer : Option (UInt32 × UInt32)
  deriving DecidableEq

/-! ### The whole state -/

structure EngineState (N : Type := ℚ) where
  /-- `Visuals::visualsList`. -/
  visualsList : List Visual
  /-- `Scenes::scenesList`. -/
  scenesList : List Scene
  /-- `Layers::layersList`. -/
  layersList : List (Layer N)
  /-- The instances that have been allocated. -/
  instances : Heap (VisualInstance N)
  /-- The address of the next visual, scene or layer. -/
  nextAddr : Addr
  /-- `Set::loaded`. -/
  loaded : Bool
  /-- `Set::filePath`. -/
  filePath : String
  /-- `Set::nLayers`. -/
  nLayers : UInt32
  /-- `Set::currentSceneNumber`. -/
  currentSceneNumber : UInt32
  /-- `Set::currentScene`. -/
  currentScene : Option Addr
  properties : EngineProperties
  /-- `Engine::setOpened`. -/
  setOpened : Bool
  /-- The size of `Engine::buffer`, if it is allocated. -/
  buffer : Option (UInt32 × UInt32)
  /-- `SetProperties::stopCurrentVisualIfTriggeredInvalid`. -/
  stopCurrentVisualIfTriggeredInvalid : Bool
  /-- The files written so far, with their texts. -/
  written : List (String × String)
  deriving DecidableEq

/-- The state after the singletons and the engine have been constructed. -/
def EngineState.init (N : Type := ℚ) : EngineState N where
  visualsList := []
  scenesList := []
  layersList := []
  instances := .empty
  nextAddr := 0
  loaded := false
  filePath := ""
  nLayers := 0
  currentSceneNumber := 0
  currentScene := none
  properties := .zero
  setOpened := false
  buffer := none
  stopCurrentVisualIfTriggeredInvalid := true
  written := []

/-- Programs of the engine, over the given numbers. -/
abbrev ProgOver (N : Type) : Type → Type := Exec (EngineState N) Thrown Undefined

/-- Programs of the engine, over exact numbers. -/
abbrev Prog : Type → Type := ProgOver ℚ

/-- A JSON accessor inside a program: its errors are standard exceptions thrown by value. -/
abbrev Prog.json {α : Type} (r : Except String α) : ProgOver N α := Exec.ofExcept Thrown.exception r

/-- `EngineProperties::getInstance`. -/
def EngineProperties.getInstance (h : Host N) : ProgOver N EngineProperties := fun s =>
  .ok (s.properties.setDefaults h) { s with properties := s.properties.setDefaults h }

/-- `EngineProperties::getInstance().set..(..)`. -/
def EngineProperties.update (h : Host) (f : EngineProperties → EngineProperties) : Prog Unit :=
  Exec.modify fun s => { s with properties := f (s.properties.setDefaults h) }

/-- Dereference a pointer to an instance. -/
def VisualInstance.read (a : Addr) : ProgOver N (VisualInstance N) := fun s =>
  (Exec.ofOption .danglingPointer (s.instances.get? a) : ProgOver N (VisualInstance N)) s

/-- Change the instance behind a pointer. -/
def VisualInstance.update (a : Addr) (f : VisualInstance N → VisualInstance N) :
    ProgOver N Unit := do
  let i ← VisualInstance.read a
  Exec.modify fun s => { s with instances := s.instances.set a (f i) }

theorem VisualInstance.update_eq {s : EngineState N} {a : Addr} {i : VisualInstance N}
    (hi : s.instances.get? a = some i) (f : VisualInstance N → VisualInstance N) :
    VisualInstance.update a f s = .ok () { s with instances := s.instances.set a (f i) } := by
  rw [update, Exec.bind_run, read, hi]
  rfl

/-- Dereference a pointer to a visual. -/
def Visual.read (a : Addr) : Prog Visual := fun s =>
  (Exec.ofOption .danglingPointer (s.visualsList.find? fun v => v.addr = a) : Prog Visual) s

/-- Dereference a pointer to a scene. -/
def Scene.read (a : Addr) : Prog Scene := fun s =>
  (Exec.ofOption .danglingPointer (s.scenesList.find? fun scene => scene.addr = a) : Prog Scene) s

/-- The list of scenes after the one at an address has been changed. -/
def Scene.replace (a : Addr) (f : Scene → Scene) (scenes : List Scene) : List Scene :=
  scenes.map fun scene => if scene.addr = a then f scene else scene

/-- Change the scene behind a pointer. -/
def Scene.update (a : Addr) (f : Scene → Scene) : Prog Unit := do
  let _ ← Scene.read a
  Exec.modify fun s => { s with scenesList := Scene.replace a f s.scenesList }

/-! ### Well-formed states -/

/-- What holds of the object graph in every state the engine reaches: different objects have
different addresses, all handed out already; the instances that a scene lists are allocated, and no
instance is listed twice; there is room for no more than six layers; a set that has been loaded has
a current scene.

It says nothing of the pointers that layers and instances hold, which can dangle. -/
structure EngineState.WellFormed (s : EngineState) : Prop where
  visuals_lt : ∀ v ∈ s.visualsList, v.addr < s.nextAddr
  visuals_ne : s.visualsList.Pairwise fun v w => v.addr ≠ w.addr
  scenes_lt : ∀ scene ∈ s.scenesList, scene.addr < s.nextAddr
  scenes_ne : s.scenesList.Pairwise fun scene scene' =>
    scene.addr ≠ scene'.addr ∧ scene.visualInstances.Disjoint scene'.visualInstances
  instances_nodup : ∀ scene ∈ s.scenesList, scene.visualInstances.Nodup
  instances_live : ∀ scene ∈ s.scenesList, s.instances.Live scene.visualInstances
  layers_lt : ∀ layer ∈ s.layersList, layer.addr < s.nextAddr
  layers_le : s.layersList.length ≤ maximumNumberOfLayers
  currentScene_ne : s.loaded = true → s.currentScene ≠ none

theorem EngineState.wellFormed_init : EngineState.init.WellFormed where
  visuals_lt _ hv := absurd hv List.not_mem_nil
  visuals_ne := .nil
  scenes_lt _ hs := absurd hs List.not_mem_nil
  scenes_ne := .nil
  instances_nodup _ hs := absurd hs List.not_mem_nil
  instances_live _ hs := absurd hs List.not_mem_nil
  layers_lt _ hl := absurd hl List.not_mem_nil
  layers_le := Nat.zero_le _
  currentScene_ne h := Bool.noConfusion h

/-- The scene found at an address is the scene that has it. -/
theorem EngineState.WellFormed.find?_scene {s : EngineState} (hs : s.WellFormed) {scene : Scene}
    (hscene : scene ∈ s.scenesList) :
    s.scenesList.find? (fun sc => sc.addr = scene.addr) = some scene := by
  have hne := hs.scenes_ne.imp fun h => h.1
  revert hscene hne
  induction s.scenesList with
  | nil => exact fun h => absurd h List.not_mem_nil
  | cons sc rest ih =>
    intro hscene hne
    obtain ⟨hsc, hrest⟩ := List.pairwise_cons.mp hne
    rcases List.mem_cons.mp hscene with rfl | hmem
    · simp
    · rw [List.find?_cons_of_neg (by simpa using hsc scene hmem), ih hmem hrest]

/-- Scenes with the same address are the same. -/
theorem EngineState.WellFormed.scene_eq {s : EngineState} (hs : s.WellFormed)
    {scene scene' : Scene} (hscene : scene ∈ s.scenesList) (hscene' : scene' ∈ s.scenesList)
    (haddr : scene.addr = scene'.addr) : scene = scene' := by
  have hfind := hs.find?_scene hscene
  rw [haddr, hs.find?_scene hscene'] at hfind
  exact (Option.some.inj hfind).symm

/-- A change of the scene at one address that keeps its address and lists no instance of another
scene keeps the graph well formed. -/
theorem EngineState.WellFormed.scenes_replace {s : EngineState} (hs : s.WellFormed)
    {a : Addr} {f : Scene → Scene} (haddr : ∀ scene, (f scene).addr = scene.addr)
    (hnew : ∀ scene ∈ s.scenesList, scene.addr = a → ∀ b ∈ (f scene).visualInstances,
      b ∈ scene.visualInstances ∨ ∀ other ∈ s.scenesList, b ∉ other.visualInstances) :
    (Scene.replace a f s.scenesList).Pairwise fun scene scene' =>
      scene.addr ≠ scene'.addr ∧ scene.visualInstances.Disjoint scene'.visualInstances := by
  rw [Scene.replace, List.pairwise_map]
  refine hs.scenes_ne.imp_of_mem fun {x y} hx hy ⟨hne, hd⟩ => ⟨?_, ?_⟩
  · split_ifs <;> simpa [haddr] using hne
  · by_cases hxa : x.addr = a
    · have hya : y.addr ≠ a := fun hya => hne (hxa.trans hya.symm)
      rw [if_pos hxa, if_neg hya]
      intro b hb hb'
      rcases hnew x hx hxa b hb with h | h
      · exact hd h hb'
      · exact h y hy hb'
    · rw [if_neg hxa]
      split_ifs with hya
      · intro b hb hb'
        rcases hnew y hy hya b hb' with h | h
        · exact hd hb h
        · exact h x hx hb
      · exact hd

end ArbutusEngine
