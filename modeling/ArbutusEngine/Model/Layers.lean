import ArbutusEngine.Model.Scenes

/-!
# Layers

A layer plays at most one instance at a time, and may have another scheduled for the next beat. It
does not own them: it holds pointers to instances of the scenes. The list of layers has room for
six; `Layers::add` returns `NULL` once it is full.

A pointer to a layer is given here by the position of the layer: no function uses such a pointer
after a layer before it has been removed.

`Layers::setState` drops all layers and adds one for every entry of the document, before it reads
the entry. `Layers.setState_arr` says what the whole loop does.

## Main definitions

* `Layer.new`, `Layer.stop`, `Layer.playVisualInstance`, `Layer.activateSchedulledInstance`,
  `Layer.setState`.
* `Layers.add`, `Layers.empty`, `Layers.remove`, `Layers.setCount`, `Layers.get`,
  `Layers.setActive`, `Layers.activateNext` and its siblings, `Layers.stopAt`, `Layers.stopAll`,
  `Layers.getState`, `Layers.setState`.
* `Layers.decode`, `EngineState.pushLayer`, `EngineState.clearLayers`.

## Main results

* `Layers.add_eq`, `Layers.iterate_add`, `Layers.setState_arr`.
-/

open Exec

namespace ArbutusEngine

/-- `for (int i = start; i < bound; i++)`, where the body does not use the counter. The counter
overflows when the bound exceeds the largest `int`. -/
def intLoop (start bound : ℕ) (body : Prog Unit) : Prog Unit :=
  if bound < 2 ^ 31 then iterate (bound - start) body
  else do
    iterate (2 ^ 31 - start) body
    undefined .signedOverflow

/-! ### One layer -/

namespace Layer

variable {N : Type}

/-- `Layer::Layer`. The members are constructed first, from the engine properties. -/
def new (h : Host) (loadShaders : Bool) : Prog Layer := do
  let width ← EngineProperties.getInstance h
  let height ← EngineProperties.getInstance h
  let properties := LayerProperties.new width.mixerWidth height.mixerHeight
  match loadShaders, h.shaderError with
  | true, some what => throw (.exceptionPointer what)
  | _, _ => do
    let addr ← gets EngineState.nextAddr
    modify fun s => { s with nextAddr := s.nextAddr + 1 }
    return {
      addr := addr
      properties := properties
      layerNumber := 0
      activeInstance := none
      schedulledInstance := none
      buffer := some (properties.width, properties.height) }

/-- Dereference the pointer that `Layers::get` returns for a position. -/
def read (n : ℕ) : ProgOver N (Layer N) := fun s =>
  (ofOption .nullPointer s.layersList[n]? : ProgOver N (Layer N)) s

/-- Change the layer at a position. -/
def update (n : ℕ) (f : Layer N → Layer N) : ProgOver N Unit := do
  let _ ← read n
  modify fun s => { s with layersList := s.layersList.modify n f }

theorem update_eq {s : EngineState N} {n : ℕ} {layer : Layer N}
    (hlayer : s.layersList[n]? = some layer) (f : Layer N → Layer N) :
    update n f s = .ok () { s with layersList := s.layersList.modify n f } := by
  rw [update, bind_run, read, hlayer]
  rfl

/-- `Layer::setActiveVisualInstance`. -/
def setActiveVisualInstance (n : ℕ) (activeInstance : Addr) : Prog Unit :=
  update n fun layer =>
    { layer with activeInstance := some activeInstance, schedulledInstance := none }

/-- `Layer::stop`. Without an active instance a scheduled one stays scheduled. -/
def stop (n : ℕ) : Prog Unit := do
  let layer ← read n
  match layer.activeInstance with
  | none => pure ()
  | some playingInstance => do
    VisualInstance.stop playingInstance
    update n fun layer => { layer with activeInstance := none, schedulledInstance := none }

/-- `Layer::schedulleInstance`. -/
def schedulleInstance (n : ℕ) (a : Addr) : Prog Unit :=
  update n fun layer => { layer with schedulledInstance := some a }

/-- `Layer::activateSchedulledInstance`. -/
def activateSchedulledInstance (h : Host) (n : ℕ) : Prog Unit := do
  let layer ← read n
  match layer.schedulledInstance with
  | none => pure ()
  | some schedulled => do
    match layer.activeInstance with
    | none => pure ()
    | some active => do
      let i ← VisualInstance.read active
      if i.video.isPlaying then VisualInstance.stop active
    setActiveVisualInstance n schedulled
    VisualInstance.play h schedulled true
    -- `video.setFrame(0)`
    VisualInstance.update schedulled fun i => { i with video := i.video.setPosition 0 }

/-- Whether `Layer::playVisualInstance` schedules the instance for the next beat. -/
def waitsForBeat (h : Host) (newInstance : VisualInstance) : Prog Bool :=
  if newInstance.properties.beatSnap then do
    let p ← EngineProperties.getInstance h
    if p.metronomeOn then do
      let p ← EngineProperties.getInstance h
      return !p.triggeringBeat
    else return false
  else return false

/-- `Layer::playVisualInstance`. -/
def playVisualInstance (h : Host) (n : ℕ) (newInstance : Addr) : Prog Unit := do
  let i ← VisualInstance.read newInstance
  let waits ← waitsForBeat h i
  if waits then schedulleInstance n newInstance
  else do
    let layer ← read n
    if layer.activeInstance = some newInstance then pure ()
    else do
      match layer.activeInstance with
      | none => pure ()
      | some active => VisualInstance.stop active
      setActiveVisualInstance n newInstance
      VisualInstance.play h newInstance false
    let i ← VisualInstance.read newInstance
    if i.properties.retrigger then VisualInstance.retrigger h newInstance

/-- Change the size in the properties of a layer. -/
def updateSize (n : ℕ) (f : SizeProperties → SizeProperties) : Prog Unit :=
  update n fun layer =>
    { layer with
      properties := { layer.properties with toSizeProperties := f layer.properties.toSizeProperties } }

/-- `Layer::initBuffer`. -/
def initBuffer (n : ℕ) : Prog Unit :=
  update n fun layer =>
    { layer with buffer := layer.buffer.or (some (layer.properties.width, layer.properties.height)) }

/-- `Layer::destroyBuffer`. -/
def destroyBuffer (n : ℕ) : Prog Unit := update n fun layer => { layer with buffer := none }

/-- `Layer::setState`. An entry that cannot be decoded throws at its first key, before anything has
been assigned (`LayerProperties.setState_eq_error`). -/
def setState [FloatNumber N] (n : ℕ) (state : Json N) : ProgOver N Unit := do
  let layer ← read n
  let properties ← Prog.json (layer.properties.setState state)
  update n fun layer => { layer with properties := properties }

end Layer

/-! ### The list of layers -/

namespace Layers

/-- `Layers::add`, which returns the new layer, or `NULL` when the list is full. -/
def add (h : Host) (loadShaders : Bool) : Prog (Option ℕ) := do
  let layers ← gets EngineState.layersList
  if layers.length = maximumNumberOfLayers then return none
  else do
    let newLayer ← Layer.new h loadShaders
    let newLayer := { newLayer with layerNumber := UInt32.ofNat (layers.length + 1) }
    modify fun s => { s with layersList := s.layersList ++ [newLayer] }
    return some layers.length

/-- `Layers::empty`. The layers are dropped from the list, not deleted. -/
def empty (h : Host) : Prog Unit := do
  modify fun s => { s with layersList := [] }
  EngineProperties.update h fun p => { p with selectedLayer := 0 }

/-- `Layers::get`. -/
def get (layerN : UInt32) (s : EngineState) : Option Layer := s.layersList[layerN.toNat]?

/-- `Layers::setActive`, which counts from one. On an empty list the clamped number is `0`, and the
selected layer becomes `-1`. -/
def setActive (h : Host) (activeLayer : UInt32) : Prog Unit :=
  if activeLayer = 0 then pure ()
  else do
    let layers ← gets EngineState.layersList
    let layerSize := UInt32.ofNat layers.length
    let activeLayer := if activeLayer > layerSize then layerSize else activeLayer
    EngineProperties.update h fun p => { p with selectedLayer := (activeLayer - 1).toInt32 }

/-- `Layers::count`, as the unsigned number it is compared to and passed as. -/
def count (s : EngineState) : UInt32 := UInt32.ofNat s.layersList.length

/-- `Layers::getCurrentId`. -/
def getCurrentId (h : Host) : Prog UInt32 := do
  let p ← EngineProperties.getInstance h
  return p.selectedLayer.toUInt32

/-- `Layers::getCurrent`. -/
def getCurrent (h : Host) : Prog (Option Layer) := do
  let p ← EngineProperties.getInstance h
  gets (get p.selectedLayer.toUInt32)

/-- `Layers::activateFirst`. -/
def activateFirst (h : Host) : Prog Unit := setActive h 1

/-- `Layers::activatePrevious`. -/
def activatePrevious (h : Host) : Prog Unit := do
  let currentId ← getCurrentId h
  setActive h currentId

/-- `Layers::activateNext`. -/
def activateNext (h : Host) : Prog Unit := do
  let currentId ← getCurrentId h
  setActive h (currentId + 2)

/-- `Layers::activateLast`. -/
def activateLast (h : Host) : Prog Unit := do
  let count ← gets count
  setActive h count

/-- `Layers::remove`. The position one past the last layer is let through, and the end of the list
is erased. -/
def remove (h : Host) (layerN : UInt32) : Prog Unit := do
  let layers ← gets EngineState.layersList
  if layerN.toNat > layers.length then pure ()
  else if layerN.toNat = layers.length then undefined .pastTheEnd
  else do
    modify fun s => { s with layersList := s.layersList.eraseIdx layerN.toNat }
    let layerSize ← gets count
    let selected ← getCurrentId h
    if selected ≥ layerSize then setActive h layerSize

/-- `Layers::setCount`. With `0` the counter of the second loop starts at its largest value. -/
def setCount (h : Host) (val : UInt32) : Prog Unit := do
  let currentNumberOfLayers ← gets count
  if val = currentNumberOfLayers then pure ()
  else if val > currentNumberOfLayers then
    iterate (val - currentNumberOfLayers).toNat (do let _ ← add h true)
  else
    let first := (val - 1).toNat
    forEach (List.range' first (currentNumberOfLayers.toNat - first)) fun i =>
      remove h (UInt32.ofNat i)

/-- `Layers::stopAt`. -/
def stopAt (position : UInt32) : Prog Unit := do
  let layer ← gets (get position)
  match layer with
  | none => pure ()
  | some _ => Layer.stop position.toNat

/-- `Layers::stopAll`. -/
def stopAll : Prog Unit := do
  let layers ← gets EngineState.layersList
  forEach (List.range layers.length) Layer.stop

/-- `Layers::getState`. -/
def getState (s : EngineState) : Json := .pushAll (s.layersList.map fun l => l.properties.getState)

/-- `Layers::getFullState`. -/
def getFullState (s : EngineState) : Json :=
  .pushAll (s.layersList.map fun l => l.properties.getFullState)

/-- The body of the loop of `Layers::setState`. What `add` returns is dereferenced unchecked. -/
def addState (h : Host) (layer : Json) : Prog Unit := do
  let newLayer ← add h true
  match newLayer with
  | none => undefined .nullPointer
  | some n => Layer.setState n layer

/-- `Layers::setState`. -/
def setState (h : Host) (state : Json) : Prog Unit := do
  empty h
  forEach state.elements (addState h)

end Layers

/-! ### What the functions do -/

/-- The state after an access to the engine properties. -/
def EngineState.resetProperties (h : Host) (s : EngineState) : EngineState :=
  { s with properties := s.properties.setDefaults h }

/-- The state after a layer with the given properties has been appended. -/
def EngineState.pushLayer {N : Type} (h : Host N) (s : EngineState N)
    (properties : LayerProperties N) : EngineState N :=
  { s with
    layersList := s.layersList ++
      [⟨s.nextAddr, properties, UInt32.ofNat (s.layersList.length + 1), none, none, some (640, 480)⟩]
    nextAddr := s.nextAddr + 1
    properties := s.properties.setDefaults h }

def EngineState.pushLayers (h : Host) (s : EngineState) (layers : List LayerProperties) :
    EngineState :=
  layers.foldl (EngineState.pushLayer h) s

/-- The state after all layers have been dropped. -/
def EngineState.clearLayers (h : Host) (s : EngineState) : EngineState :=
  { s with
    layersList := []
    properties := { s.properties.setDefaults h with selectedLayer := 0 } }

theorem EngineProperties.setDefaults_setDefaults (h : Host) (p : EngineProperties) :
    (p.setDefaults h).setDefaults h = p.setDefaults h := rfl

@[simp] theorem EngineState.resetProperties_resetProperties (h : Host) (s : EngineState) :
    (s.resetProperties h).resetProperties h = s.resetProperties h := rfl

@[simp] theorem EngineState.length_pushLayer (h : Host) (s : EngineState) (p : LayerProperties) :
    (s.pushLayer h p).layersList.length = s.layersList.length + 1 := by
  simp [EngineState.pushLayer]

theorem EngineState.length_pushLayers (h : Host) (s : EngineState) (layers : List LayerProperties) :
    (s.pushLayers h layers).layersList.length = s.layersList.length + layers.length := by
  induction layers generalizing s with
  | nil => rfl
  | cons p rest ih =>
    rw [pushLayers, List.foldl_cons, ← pushLayers, ih, length_pushLayer, List.length_cons]
    omega

theorem EngineState.properties_pushLayers (h : Host) (s : EngineState)
    (layers : List LayerProperties) :
    (s.pushLayers h layers).layersList.map Layer.properties =
      s.layersList.map Layer.properties ++ layers := by
  induction layers generalizing s with
  | nil => exact (List.append_nil _).symm
  | cons p rest ih =>
    change ((s.pushLayer h p).pushLayers h rest).layersList.map Layer.properties = _
    rw [ih, EngineState.pushLayer, List.map_append, List.append_assoc]
    rfl

theorem EngineState.WellFormed.resetProperties {s : EngineState} (hs : s.WellFormed) (h : Host) :
    (s.resetProperties h).WellFormed := { hs with }

theorem EngineState.WellFormed.pushLayer {s : EngineState} (hs : s.WellFormed)
    (hl : s.layersList.length < maximumNumberOfLayers) (h : Host) (p : LayerProperties) :
    (s.pushLayer h p).WellFormed where
  visuals_lt v hv := Nat.lt_succ_of_lt (hs.visuals_lt v hv)
  visuals_ne := hs.visuals_ne
  scenes_lt scene hscene := Nat.lt_succ_of_lt (hs.scenes_lt scene hscene)
  scenes_ne := hs.scenes_ne
  instances_nodup := hs.instances_nodup
  instances_live := hs.instances_live
  layers_lt layer hlayer := by
    rcases List.mem_append.mp hlayer with hlayer | hlayer
    · exact Nat.lt_succ_of_lt (hs.layers_lt layer hlayer)
    · rw [List.mem_singleton.mp hlayer]
      exact Nat.lt_succ_self _
  layers_le := by
    rw [EngineState.length_pushLayer]
    exact hl
  currentScene_ne := hs.currentScene_ne

theorem EngineState.WellFormed.clearLayers {s : EngineState} (hs : s.WellFormed) (h : Host) :
    (s.clearLayers h).WellFormed :=
  { hs with
    layers_lt := fun _ hl => absurd hl List.not_mem_nil
    layers_le := Nat.zero_le _ }

namespace Layers

/-- The properties of a layer before its entry is read. -/
abbrev newProperties : LayerProperties := LayerProperties.new 640 480

theorem add_eq (h : Host) (s : EngineState) :
    add h true s =
      if s.layersList.length = maximumNumberOfLayers then .ok none s
      else match h.shaderError with
        | some what => .threw (.exceptionPointer what) (s.resetProperties h)
        | none => .ok (some s.layersList.length) (s.pushLayer h newProperties) := by
  simp only [add, bind_run, gets_run, Outcome.bind_ok]
  split_ifs
  · rfl
  · cases he : h.shaderError with
    | some what =>
      simp [Layer.new, he, EngineProperties.getInstance, EngineState.resetProperties,
        EngineProperties.setDefaults]
    | none =>
      simp [Layer.new, he, EngineProperties.getInstance, EngineState.pushLayer,
        EngineProperties.setDefaults, LayerProperties.new]

/-- What an entry of an array of layers comes to, as long as the list has room: the properties of
the layer that is added, and the exception, if there is one. -/
def decode (h : Host) (layer : Json) : Option LayerProperties × Option Thrown :=
  match h.shaderError with
  | some what => (none, some (.exceptionPointer what))
  | none =>
    match newProperties.setState layer with
    | .ok properties => (some properties, none)
    | .error what => (some newProperties, some (.exception what))

theorem addState_eq_undefined {s : EngineState} (hs : s.layersList.length = maximumNumberOfLayers)
    (h : Host) (layer : Json) : addState h layer s = .undefined .nullPointer := by
  simp [addState, add_eq, hs]

/-- One turn of the loop of `Layers::setState`, as long as the list has room. -/
theorem addState_eq {s : EngineState} (hs : s.layersList.length < maximumNumberOfLayers) (h : Host)
    (hp : s.resetProperties h = s) (layer : Json) :
    addState h layer s = .raiseIf (decode h layer).2
      ((decode h layer).1.toList.foldl (EngineState.pushLayer h) s) := by
  rw [addState, bind_run, add_eq, if_neg hs.ne, decode]
  cases h.shaderError with
  | some what =>
    simp only [Outcome.bind_threw, hp]
    rfl
  | none =>
    have hlast : (s.pushLayer h newProperties).layersList[s.layersList.length]? =
        some ⟨s.nextAddr, newProperties, UInt32.ofNat (s.layersList.length + 1), none, none,
          some (640, 480)⟩ := by
      simp [EngineState.pushLayer]
    simp only [Outcome.bind_ok, Layer.setState, bind_run, Layer.read, hlast, ofOption_some, pure_run]
    cases newProperties.setState layer with
    | error what => rfl
    | ok properties =>
      simp only [ofExcept_ok, pure_run, Outcome.bind_ok, Layer.update_eq hlast]
      simp [EngineState.pushLayer, List.modify_eq_take_drop]

/-- An entry that does not throw adds a layer. -/
theorem decode_of_snd_eq_none {h : Host} {layer : Json} (hd : (decode h layer).2 = none) :
    ∃ p, (decode h layer).1 = some p := by
  revert hd
  rw [decode]
  cases h.shaderError with
  | some what => exact fun hd => absurd hd (Option.some_ne_none _)
  | none =>
    cases newProperties.setState layer with
    | ok p => exact fun _ => ⟨p, rfl⟩
    | error what => exact fun hd => absurd hd (Option.some_ne_none _)

/-- The loop of `Layers::setState` on a list with some room left. It is undefined when it gets to an
entry for which there is no room. -/
private theorem forEach_addState (h : Host) (entries : List Json) :
    ∀ s : EngineState, s.layersList.length ≤ maximumNumberOfLayers → s.resetProperties h = s →
      forEach entries (addState h) s =
        let room := maximumNumberOfLayers - s.layersList.length
        let r := collect (decode h) (entries.take room)
        if r.2 = none ∧ room < entries.length then .undefined .nullPointer
        else .raiseIf r.2 (s.pushLayers h r.1) := by
  induction entries with
  | nil =>
    intro s _ _
    simp [collect, EngineState.pushLayers]
  | cons e rest ih =>
    intro s hs hp
    rcases hs.eq_or_lt with hfull | hroom
    · simp [hfull, addState_eq_undefined hfull, collect]
    · have hsucc : maximumNumberOfLayers - s.layersList.length =
          maximumNumberOfLayers - (s.layersList.length + 1) + 1 := by omega
      rw [forEach_cons, bind_run, addState_eq hroom h hp, hsucc]
      simp only [List.take_succ_cons, collect, List.length_cons, Nat.add_lt_add_iff_right]
      cases hd : (decode h e).2 with
      | some what => simp [EngineState.pushLayers]
      | none =>
        obtain ⟨p, hp'⟩ := decode_of_snd_eq_none hd
        simp only [hp', Option.toList_some, List.foldl_cons, List.foldl_nil, Outcome.raiseIf_none,
          Outcome.bind_ok, List.singleton_append]
        rw [ih (s.pushLayer h p) (by rw [EngineState.length_pushLayer]; exact hroom) rfl,
          EngineState.length_pushLayer]
        rfl

/-- `Layers::setState` on an array: the layers are replaced by those of the entries up to the first
one that throws. Behaviour is undefined when there are more than six entries and the first six do
not throw. -/
theorem setState_arr (h : Host) (entries : List Json) (s : EngineState) :
    setState h (.arr entries) s =
      let r := collect (decode h) (entries.take maximumNumberOfLayers)
      if r.2 = none ∧ maximumNumberOfLayers < entries.length then .undefined .nullPointer
      else .raiseIf r.2 ((s.clearLayers h).pushLayers h r.1) :=
  forEach_addState h entries (s.clearLayers h) (Nat.zero_le _) rfl

/-- Adding layers over and over stops without an error once the list is full. -/
theorem iterate_add (h : Host) (hsh : h.shaderError = none) (n : ℕ) :
    ∀ s : EngineState, s.layersList.length ≤ maximumNumberOfLayers →
      iterate n (do let _ ← add h true) s = .ok () (s.pushLayers h
        (List.replicate (min n (maximumNumberOfLayers - s.layersList.length)) newProperties)) := by
  induction n with
  | zero => exact fun s _ => by simp [EngineState.pushLayers]
  | succ n ih =>
    intro s hs
    rw [iterate_succ, bind_run]
    simp only [bind_run, add_eq, hsh]
    rcases hs.eq_or_lt with hfull | hroom
    · simp only [hfull, ↓reduceIte, Outcome.bind_ok, pure_run, ih s hs]
      simp
    · have hsucc : min (n + 1) (maximumNumberOfLayers - s.layersList.length) =
          min n (maximumNumberOfLayers - (s.layersList.length + 1)) + 1 := by omega
      rw [if_neg hroom.ne, hsucc]
      simp only [Outcome.bind_ok, pure_run]
      rw [ih (s.pushLayer h newProperties) (by rw [EngineState.length_pushLayer]; exact hroom),
        EngineState.length_pushLayer]
      rfl

/-- Without the shaders the first layer that is added throws. -/
theorem iterate_add_of_shaderError {h : Host} {what : String} (hsh : h.shaderError = some what)
    {n : ℕ} (hn : n ≠ 0) {s : EngineState} (hs : s.layersList.length ≠ maximumNumberOfLayers) :
    iterate n (do let _ ← add h true) s =
      .threw (.exceptionPointer what) (s.resetProperties h) := by
  obtain ⟨m, rfl⟩ := Nat.exists_eq_succ_of_ne_zero hn
  simp [add_eq, hsh, hs]

/-- On a full list nothing is added. -/
theorem iterate_add_of_full {h : Host} {s : EngineState}
    (hs : s.layersList.length = maximumNumberOfLayers) (n : ℕ) :
    iterate n (do let _ ← add h true) s = .ok () s := by
  induction n with
  | zero => rfl
  | succ n ih =>
    rw [iterate_succ, bind_run]
    simp only [bind_run, add_eq, hs, ↓reduceIte, Outcome.bind_ok, pure_run, ih]

end Layers

end ArbutusEngine
