import ArbutusEngine.Model.Visuals

/-!
# Instances of visuals

An instance places a visual in a cell of a scene, given by a layer and a column. The functions of
the class `VisualInstance` play and stop an instance and load its file; those of `VisualInstances`
work on the list of instances of one scene, which is given here as the list of their addresses.

`VisualInstances::remove` erases an instance from the list without deleting it.
`VisualInstances::empty` does the opposite: it deletes the instances and then calls
`visualInstanceList.empty()`, which only asks whether the list is empty, so the list keeps the
addresses of the deleted instances.

## Main definitions

* `VisualInstance.new`, `VisualInstance.loadVideo`, `VisualInstance.play`, `VisualInstance.stop`,
  `VisualInstance.retrigger`.
* `VisualInstances.get`, `VisualInstances.inColumn`, `VisualInstances.count`,
  `VisualInstances.countInLayer`, `VisualInstances.remove`, `VisualInstances.removeVisual`,
  `VisualInstances.add`, `VisualInstances.empty`, `VisualInstances.getState`,
  `VisualInstances.loadAll`.
-/

open Exec

namespace ArbutusEngine

namespace VisualInstance

/-- `VisualInstance::VisualInstance` on a visual that is not `NULL`, which is what every caller
passes. Both sizes are read from the engine properties. -/
def new {N : Type} [FloatNumber N] (h : Host N) (visual : Addr) (layer column : UInt32) :
    ProgOver N Addr := do
  let width ← EngineProperties.getInstance h
  let height ← EngineProperties.getInstance h
  let a ← gets fun s => s.instances.next
  let u := h.uninitialised a
  let properties := VisualInstancesProperties.new u width.mixerWidth height.mixerHeight
  modify fun s => { s with
    instances := s.instances.alloc
      { properties := { properties with layer := layer.toInt32, column := column.toInt32 }
        visual := visual
        video := .new
        videoX := u.videoX
        videoY := u.videoY
        videoWidth := u.videoWidth
        videoHeight := u.videoHeight } }
  return a

/-- `delete`. -/
def delete (a : Addr) : Prog Unit := do
  let _ ← read a
  modify fun s => { s with instances := s.instances.free a }

def setIsPlaying (isPlaying : Bool) (i : VisualInstance) : VisualInstance :=
  { i with properties := { i.properties with isPlaying := isPlaying } }

def setIsTriggered (isTriggered : Bool) (i : VisualInstance) : VisualInstance :=
  { i with properties := { i.properties with isTriggered := isTriggered } }

def setName (name : String) (i : VisualInstance) : VisualInstance :=
  { i with properties := { i.properties with name := name } }

def setOpenedTimestampToNow (h : Host) (i : VisualInstance) : VisualInstance :=
  { i with properties := { i.properties with openedTimestamp := h.ofGetElapsedTimeMillis.toNat } }

def setLastPlayedTimestampToNow (h : Host) (i : VisualInstance) : VisualInstance :=
  { i with
    properties := { i.properties with lastPlayedTimestamp := h.ofGetElapsedTimeMillis.toNat } }

/-- `VisualInstance::checkFileExists`. When the file does not open, its result is a local that was
never assigned. -/
def checkFileExists (h : Host) (path : String) : Bool :=
  if h.opens path then true else h.fileExists path

/-- `VisualInstance::loadVideo`. -/
def loadVideo (h : Host) (a : Addr) : Prog Bool := do
  update a (setIsPlaying false)
  let i ← read a
  let visual ← Visual.read i.visual
  match visual.source with
  | .video filePath =>
    if checkFileExists h filePath then
      update a fun i => { i with video := .load (h.load filePath) }
      if h.load filePath then
        update a (setOpenedTimestampToNow h)
        return true
      else throw (.string ("Error opening file '" ++ filePath ++ "'"))
    else throw (.string ("File '" ++ filePath ++ "' doesn't exist."))
  | _ => return false

/-- `properties.getBeatSnap() && EngineProperties::getInstance().isMetronomeOn()`. -/
def snapsToBeat (h : Host) (i : VisualInstance) : Prog Bool :=
  if i.properties.beatSnap then do
    let p ← EngineProperties.getInstance h
    return p.metronomeOn
  else return false

/-- `VisualCamera::open`, as far as it changes the visual. -/
def openCamera (a : Addr) : Prog Unit := modify fun s => { s with
  visualsList := s.visualsList.map fun v =>
    if v.addr = a then
      match v.source with
      | .camera deviceId frameRate width height _ =>
        { v with source := .camera deviceId frameRate width height true }
      | _ => v
    else v }

/-- `VisualInstance::play`. -/
def play (h : Host) (a : Addr) (forcePlay : Bool) : Prog Unit := do
  update a (setIsTriggered false)
  update a (setLastPlayedTimestampToNow h)
  let i ← read a
  let visual ← Visual.read i.visual
  match visual.source with
  | .video _ =>
    if i.video.isLoaded then pure () else do let _ ← loadVideo h a
    let i ← read a
    if i.video.isLoaded then
      let snaps ← snapsToBeat h i
      if snaps && !forcePlay then update a (setIsTriggered true)
      else update a fun i => { i with video := i.video.play }
      update a (setIsPlaying true)
  | .camera .. =>
    openCamera i.visual
    update a (setIsPlaying true)
  | .syphon .. => update a (setIsPlaying true)

/-- `VisualInstance::stop`. -/
def stop (a : Addr) : Prog Unit := do
  let i ← read a
  let visual ← Visual.read i.visual
  match visual.source with
  | .video _ =>
    if i.video.isLoaded then
      update a fun i => { i with video := i.video.stop }
      update a (setIsPlaying false)
  | _ => update a (setIsPlaying false)

/-- `VisualInstance::retrigger`. -/
def retrigger (h : Host) (a : Addr) : Prog Unit := do
  let i ← read a
  let snaps ← snapsToBeat h i
  if snaps then update a (setIsTriggered true)
  else do
    update a fun i => { i with video := i.video.setPosition 0 }
    update a (setLastPlayedTimestampToNow h)

end VisualInstance

namespace VisualInstances

/-- `VisualInstances::count`, which converts the size of the list to `unsigned int`. -/
def count (list : List Addr) : UInt32 := UInt32.ofNat list.length

/-- The loop of `VisualInstances::countInLayer`, with its counter. -/
def countInLayerFrom (layer n : UInt32) : List Addr → Prog UInt32
  | [] => return n
  | a :: rest => do
    let i ← VisualInstance.read a
    countInLayerFrom layer (if i.cell.1 = layer then n + 1 else n) rest

/-- `VisualInstances::countInLayer`. -/
def countInLayer (layer : UInt32) (list : List Addr) : Prog UInt32 := countInLayerFrom layer 0 list

/-- The loop of `VisualInstances::getLastColumnInLayer`, with its result so far, which is signed and
is converted for the comparison with the column. -/
def getLastColumnInLayerFrom (layer : UInt32) (result : Int32) : List Addr → Prog Int32
  | [] => return result
  | a :: rest => do
    let i ← VisualInstance.read a
    if i.cell.1 = layer ∧ i.cell.2 > result.toUInt32 then return i.cell.2.toInt32
    else getLastColumnInLayerFrom layer result rest

/-- `VisualInstances::getLastColumnInLayer`. -/
def getLastColumnInLayer (layer : UInt32) (list : List Addr) : Prog Int32 :=
  getLastColumnInLayerFrom layer (-1) list

/-- The loop of `VisualInstances::get`. -/
def getLoop (layerN column : UInt32) : List Addr → Prog (Option Addr)
  | [] => return none
  | a :: rest => do
    let i ← VisualInstance.read a
    if i.cell = (layerN, column) then return some a else getLoop layerN column rest

/-- `VisualInstances::get`. -/
def get (layerN column : UInt32) (list : List Addr) : Prog (Option Addr) :=
  if count list = 0 then return none else getLoop layerN column list

/-- `VisualInstances::inColumn`. -/
def inColumn (layerN column : UInt32) : List Addr → Prog Bool
  | [] => return false
  | a :: rest => do
    let i ← VisualInstance.read a
    if i.cell = (layerN, column) then return true else inColumn layerN column rest

/-- `VisualInstances::remove(layer, column)`: the list without its first instance in the cell. -/
def remove (layer column : UInt32) : List Addr → Prog (List Addr)
  | [] => return []
  | a :: rest => do
    let i ← VisualInstance.read a
    if i.cell = (layer, column) then return rest
    else do
      let rest ← remove layer column rest
      return a :: rest

/-- `VisualInstances::remove(visual)`: the list without the instances of a visual. The iterator is
advanced after its element has been erased. -/
def removeVisual (h : Host) (visual : Addr) : List Addr → Prog (List Addr)
  | [] => return []
  | a :: rest => do
    let i ← VisualInstance.read a
    if i.visual = visual then do
      Visuals.advanceErased h
      removeVisual h visual rest
    else do
      let rest ← removeVisual h visual rest
      return a :: rest

/-- `VisualInstances::add`: the list after the instance of the cell, if any, has been replaced by
a new one at the end. -/
def add (h : Host) (visual : Addr) (layer column : UInt32) (name : String) (list : List Addr) :
    Prog (List Addr) := do
  let present ← inColumn layer column list
  let list ← if present then remove layer column list else pure list
  let a ← VisualInstance.new h visual layer column
  VisualInstance.update a (VisualInstance.setName name)
  return list ++ [a]

/-- `VisualInstances::empty`: the instances are deleted, the list stays as it is. -/
def empty (list : List Addr) : Prog Unit := forEach list VisualInstance.delete

/-- `VisualInstances::loadAll`. -/
def loadAll (h : Host) (list : List Addr) : Prog Unit :=
  forEach list fun a => do
    let _ ← VisualInstance.loadVideo h a

/-- `VisualInstances::getIndex`: the position of an instance in the list. -/
def getIndex (instance' : Addr) : List Addr → ℕ
  | [] => 0
  | a :: rest => if a = instance' then 0 else getIndex instance' rest + 1

/-- The states of the instances in the list, each with its index in `all`. -/
def getStates (all : List Addr) : List Addr → Prog (List Json)
  | [] => return []
  | a :: rest => do
    let i ← VisualInstance.read a
    let visual ← Visual.read i.visual
    let states ← getStates all rest
    return (i.getState visual.getState).insert "index" (.int (getIndex a all)) :: states

/-- `VisualInstances::getState`. -/
def getState (list : List Addr) : Prog Json := do
  let states ← getStates list list
  return .pushAll states

/-! ### What the functions do on a list of live instances -/

variable {s : EngineState} {list : List Addr}

/-- Whether the instance at an address lies in the cell. -/
def inCell (instances : Heap VisualInstance) (cell : UInt32 × UInt32) (a : Addr) : Bool :=
  (instances.get? a).map VisualInstance.cell = some cell

theorem getLoop_eq (hl : s.instances.Live list) (layerN column : UInt32) :
    getLoop layerN column list s = .ok (list.find? (inCell s.instances (layerN, column))) s := by
  induction list with
  | nil => rfl
  | cons a rest ih =>
    obtain ⟨i, hi⟩ := hl a List.mem_cons_self
    have hrest := ih (hl.mono fun b hb => List.mem_cons_of_mem a hb)
    by_cases hc : i.cell = (layerN, column)
    · simp [getLoop, VisualInstance.read, hi, hc, inCell]
    · simp [getLoop, VisualInstance.read, hi, hc, inCell, hrest]

/-- The instance that `VisualInstances::get` finds: the first one in the cell, unless the number of
instances is a multiple of `2 ^ 32` and `count` takes the list for empty. -/
def found (instances : Heap VisualInstance) (cell : UInt32 × UInt32) (list : List Addr) :
    Option Addr :=
  if count list = 0 then none else list.find? (inCell instances cell)

theorem get_eq (hl : s.instances.Live list) (layerN column : UInt32) :
    get layerN column list s = .ok (found s.instances (layerN, column) list) s := by
  rw [get, found]
  split_ifs
  · rfl
  · exact getLoop_eq hl layerN column

theorem found_ne_none_iff {instances : Heap VisualInstance} {cell : UInt32 × UInt32} :
    found instances cell list ≠ none ↔
      count list ≠ 0 ∧ ∃ a ∈ list, inCell instances cell a = true := by
  rw [found]
  split_ifs with hcount
  · exact iff_of_false (fun h => h rfl) fun h => h.1 hcount
  · rw [Ne, List.find?_eq_none]
    push Not
    exact (and_iff_right hcount).symm

theorem find?_of_found {instances : Heap VisualInstance} {cell : UInt32 × UInt32} {a : Addr}
    (ha : found instances cell list = some a) : list.find? (inCell instances cell) = some a := by
  rw [found] at ha
  split_ifs at ha
  exact ha

theorem inColumn_eq (hl : s.instances.Live list) (layerN column : UInt32) :
    inColumn layerN column list s = .ok (list.any (inCell s.instances (layerN, column))) s := by
  induction list with
  | nil => rfl
  | cons a rest ih =>
    obtain ⟨i, hi⟩ := hl a List.mem_cons_self
    have hrest := ih (hl.mono fun b hb => List.mem_cons_of_mem a hb)
    by_cases hc : i.cell = (layerN, column)
    · simp [inColumn, VisualInstance.read, hi, hc, inCell]
    · simp [inColumn, VisualInstance.read, hi, hc, inCell, hrest]

theorem remove_eq (hl : s.instances.Live list) (layer column : UInt32) :
    remove layer column list s = .ok (list.eraseP (inCell s.instances (layer, column))) s := by
  induction list with
  | nil => rfl
  | cons a rest ih =>
    obtain ⟨i, hi⟩ := hl a List.mem_cons_self
    have hrest := ih (hl.mono fun b hb => List.mem_cons_of_mem a hb)
    by_cases hc : i.cell = (layer, column)
    · simp [remove, VisualInstance.read, hi, hc, inCell]
    · simp [remove, VisualInstance.read, hi, hc, inCell, hrest]

/-- `VisualInstances::empty` frees the instances of a list without repetitions. -/
theorem empty_eq (hl : s.instances.Live list) (hn : list.Nodup) :
    empty list s = .ok () { s with instances := s.instances.freeAll list } := by
  rw [empty]
  induction list generalizing s with
  | nil => rfl
  | cons a rest ih =>
    obtain ⟨i, hi⟩ := hl a List.mem_cons_self
    obtain ⟨ha, hrest⟩ := List.nodup_cons.mp hn
    have hlive : (s.instances.free a).Live rest := by
      intro b hb
      obtain ⟨j, hj⟩ := hl b (List.mem_cons_of_mem a hb)
      exact ⟨j, by rw [Heap.get?_free_of_ne _ (ne_of_mem_of_not_mem hb ha), hj]⟩
    have hdel : VisualInstance.delete a s =
        .ok () { s with instances := s.instances.free a } := by
      simp [VisualInstance.delete, VisualInstance.read, hi]
    rw [forEach_cons, bind_run, hdel, Outcome.bind_ok,
      ih (s := { s with instances := s.instances.free a }) hlive hrest]
    rfl

end VisualInstances

/-! ### New instances -/

/-- An instance as `VisualInstances::add` makes it at the address `a`. -/
def VisualInstance.fresh (h : Host) (a visual : Addr) (layer column : UInt32) (name : String) :
    VisualInstance :=
  VisualInstance.setName name
    { properties :=
        { VisualInstancesProperties.new (h.uninitialised a) 640 480 with
          layer := layer.toInt32
          column := column.toInt32 }
      visual := visual
      video := .new
      videoX := (h.uninitialised a).videoX
      videoY := (h.uninitialised a).videoY
      videoWidth := (h.uninitialised a).videoWidth
      videoHeight := (h.uninitialised a).videoHeight }

/-- The cell an instance is made for is the cell it lies in. -/
@[simp] theorem VisualInstance.cell_fresh (h : Host) (a visual : Addr) (layer column : UInt32)
    (name : String) : (VisualInstance.fresh h a visual layer column name).cell = (layer, column) := by
  simp [VisualInstance.fresh, VisualInstance.cell, VisualInstance.setName]

/-- `VisualInstances::add` on a list of live instances: the first instance in the cell, if any,
leaves the list, and the new instance is appended. -/
theorem VisualInstances.add_eq {s : EngineState} {list : List Addr} (hl : s.instances.Live list)
    (h : Host) (visual : Addr) (layer column : UInt32) (name : String) :
    VisualInstances.add h visual layer column name list s =
      .ok (list.eraseP (inCell s.instances (layer, column)) ++ [s.instances.next])
        { s with
          instances := s.instances.alloc
            (VisualInstance.fresh h s.instances.next visual layer column name)
          properties := s.properties.setDefaults h } := by
  have hnew : ∀ list' : List Addr, (do
      let a ← VisualInstance.new h visual layer column
      VisualInstance.update a (VisualInstance.setName name)
      return list' ++ [a] : Prog (List Addr)) s = .ok (list' ++ [s.instances.next])
        { s with
          instances := s.instances.alloc
            (VisualInstance.fresh h s.instances.next visual layer column name)
          properties := s.properties.setDefaults h } := by
    intro list'
    simp [VisualInstance.new, VisualInstance.update, VisualInstance.read,
      EngineProperties.getInstance, Heap.get?_alloc_next, Heap.set_alloc_next,
      VisualInstance.fresh, EngineProperties.setDefaults]
  rw [add, bind_run, inColumn_eq hl, Outcome.bind_ok]
  split_ifs with hany
  · rw [bind_run, remove_eq hl, Outcome.bind_ok]
    exact hnew _
  · rw [pure_bind, List.eraseP_of_forall_not (by simpa using hany)]
    exact hnew _

namespace VisualInstances

/-! ### The state of a list of instances -/

/-- The state of the instance at an address, `null` for an address without one. -/
def stateAt (s : EngineState) (a : Addr) : Json :=
  match s.instances.get? a with
  | some i =>
    match s.visualsList.find? fun v => v.addr = i.visual with
    | some v => i.getState v.getState
    | none => .null
  | none => .null

/-- The visual of the instance at an address is in the list of visuals. -/
def Known (s : EngineState) (a : Addr) : Prop :=
  ∀ i, s.instances.get? a = some i → ∃ v ∈ s.visualsList, v.addr = i.visual

theorem getStates_of_known {s : EngineState} {list : List Addr} (hl : s.instances.Live list)
    (hk : ∀ a ∈ list, Known s a) (all : List Addr) :
    getStates all list s = .ok
      (list.map fun a => (stateAt s a).insert "index" (.int (getIndex a all))) s := by
  induction list with
  | nil => rfl
  | cons a rest ih =>
    obtain ⟨i, hi⟩ := hl a List.mem_cons_self
    have hrest := ih (hl.mono fun b hb => List.mem_cons_of_mem a hb)
      fun b hb => hk b (List.mem_cons_of_mem a hb)
    obtain ⟨v, hv, hva⟩ := hk a List.mem_cons_self i hi
    obtain ⟨w, hw⟩ : ∃ w, s.visualsList.find? (fun v => v.addr = i.visual) = some w :=
      Option.isSome_iff_exists.mp (List.find?_isSome.mpr ⟨v, hv, by simpa using hva⟩)
    simp [getStates, VisualInstance.read, Visual.read, hi, hw, hrest, stateAt]

/-- Encoding a list reads every visual of its instances: one that has been deleted makes it
undefined. -/
theorem getStates_of_not_known {s : EngineState} {list : List Addr} (hl : s.instances.Live list)
    (hk : ¬ ∀ a ∈ list, Known s a) (all : List Addr) :
    getStates all list s = .undefined .danglingPointer := by
  induction list with
  | nil => exact absurd (by simp) hk
  | cons a rest ih =>
    obtain ⟨i, hi⟩ := hl a List.mem_cons_self
    cases hw : s.visualsList.find? (fun v => v.addr = i.visual) with
    | none => simp [getStates, VisualInstance.read, Visual.read, hi, hw]
    | some w =>
      have hrest := ih (hl.mono fun b hb => List.mem_cons_of_mem a hb) fun hall => hk <| by
        intro b hb
        rcases List.mem_cons.mp hb with rfl | hb
        · intro j hj
          rw [hi] at hj
          obtain rfl := Option.some.inj hj
          exact ⟨w, List.mem_of_find?_eq_some hw, by simpa using List.find?_some hw⟩
        · exact hall b hb
      simp [getStates, VisualInstance.read, Visual.read, hi, hw, hrest]

/-- In a list without repetitions the index of an instance is its position. -/
theorem getIndex_getElem {list : List Addr} (hn : list.Nodup) {n : ℕ} {a : Addr}
    (ha : list[n]? = some a) : getIndex a list = n := by
  induction list generalizing n with
  | nil => cases ha
  | cons b rest ih =>
    obtain ⟨hb, hrest⟩ := List.nodup_cons.mp hn
    cases n with
    | zero =>
      obtain rfl := Option.some.inj ha
      simp [getIndex]
    | succ n =>
      rw [List.getElem?_cons_succ] at ha
      have hne : b ≠ a := fun h => hb (h ▸ List.mem_of_getElem? ha)
      rw [getIndex, if_neg hne, ih hrest ha]

end VisualInstances

end ArbutusEngine
