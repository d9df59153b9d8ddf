import ArbutusEngine.Model.Session
import ArbutusEngine.Regions

/-!
# The layout

What a session edits is a layout: a list of visuals, and a list of scenes, each of which shows some
of the visuals in its cells. One of the scenes is the current one, and visuals are put into its cells
and taken out of them. Beside the scenes there is a number of layers, one of which is selected.

A layout knows nothing of addresses, of instances, or of what is being played. A visual is told by
its position in the list, a camera whether it is open or not, and a layer by nothing but its
position.

## Main definitions

* `Layout`, `Layout.cellAt`: the layout, and the visual in a cell.
* `Layout.put`, `Layout.goto`, `Layout.list`, `Layout.addLayers`, `Layout.removeLayer`,
  `Layout.setActive`: what is done to a layout.
* `Layout.step`, `Layout.steps`: what an event does to the layout, and what the events of a session
  do.
* `Event.Spares`: the events that leave a column alone.

## Main results

* `Layout.sameColumn_step`, `Layout.sameColumn_steps`: events that spare a column leave its cells
  alone.
-/

namespace ArbutusEngine

structure Layout where
  /-- The visuals, each with its caption. -/
  visuals : List (String × VisualSource)
  /-- The scenes, each with its name and the positions of the visuals in its cells. -/
  scenes : List (String × (UInt32 × UInt32 → Option ℕ))
  /-- The position of the current scene. -/
  current : UInt32
  /-- The number of layers. -/
  layers : ℕ
  selected : UInt32
  /-- The number of layers that the set was created with. -/
  nLayers : UInt32
  /-- The path that relative paths of videos are searched from. -/
  filePath : String

namespace Layout

/-! ### What is done to a layout -/

/-- The visual in a cell of a scene, by its position. -/
def cellAt (l : Layout) (k : ℕ) (cell : UInt32 × UInt32) : Option ℕ :=
  (l.scenes[k]?).bind fun scene => scene.2 cell

/-- What is in a cell of the current scene is exchanged. -/
def put (cell : UInt32 × UInt32) (visual : Option ℕ) (l : Layout) : Layout :=
  { l with
    scenes := l.scenes.modify l.current.toNat fun scene =>
      (scene.1, Function.update scene.2 cell visual) }

/-- Another scene becomes the current one, if there is such a scene. -/
def goto (n : UInt32) (l : Layout) : Layout :=
  if n.toNat < l.scenes.length then { l with current := n } else l

/-- A visual joins the list. -/
def list (visual : String × VisualSource) (l : Layout) : Layout :=
  { l with visuals := l.visuals ++ [visual] }

/-- A video joins the list, if its file is found. -/
def listVideo (h : Host) (path : String) (l : Layout) : Layout :=
  let filePath := VisualVideo.findAbsolutePath h l.filePath path
  if filePath = "" then l else l.list (VisualVideo.getCaptionFromPath h filePath, .video filePath)

/-- Layers are added, as long as there is room and the shaders can be loaded. -/
def addLayers (h : Host) (n : ℕ) (l : Layout) : Layout :=
  if h.shaderError = none then { l with layers := min (l.layers + n) maximumNumberOfLayers } else l

/-- A layer is selected by its number from one. -/
def setActive (n : UInt32) (l : Layout) : Layout :=
  if n = 0 then l
  else
    let layerSize := UInt32.ofNat l.layers
    { l with selected := (if n > layerSize then layerSize else n) - 1 }

/-- A new set, in which the first layer is selected. -/
def create (n : UInt32) (l : Layout) : Layout :=
  setActive 1
    { visuals := []
      scenes := [("First Scene", fun _ => none)]
      current := 0
      layers := min n.toNat maximumNumberOfLayers
      selected := 0
      nLayers := n
      filePath := l.filePath }

/-- A layer goes; when the selected one is past the end, the last one is selected. -/
def removeLayer (n : UInt32) (l : Layout) : Layout :=
  if n.toNat < l.layers then
    let l := { l with layers := l.layers - 1 }
    if l.selected ≥ UInt32.ofNat l.layers then l.setActive (UInt32.ofNat l.layers) else l
  else l

/-- The number of layers is changed; the layers of a smaller number go from the one before on. -/
def setLayerCount (h : Host) (n : UInt32) (l : Layout) : Layout :=
  let count := UInt32.ofNat l.layers
  if n = count then l
  else if n > count then l.addLayers h (n - count).toNat
  else
    let first := (n - 1).toNat
    (List.range' first (count.toNat - first)).foldl (fun l i => l.removeLayer (UInt32.ofNat i)) l

/-- A visual is put into a cell of the current scene. A layer past those of the set is created
first, with those before it; when this fails, the visual is put nowhere. -/
def addVisual (h : Host) (visual layer column : UInt32) (l : Layout) : Layout :=
  if 0 ≤ visual.toInt32.toInt ∧ visual.toInt32.toInt.toNat < l.visuals.length then
    let missing := if layer > l.nLayers then layer.toNat + 1 - l.layers else 0
    if missing ≠ 0 ∧ l.layers ≠ maximumNumberOfLayers ∧ h.shaderError ≠ none then l
    else (l.addLayers h missing).put (layer, column) (some visual.toInt32.toInt.toNat)
  else l

/-- A visual is put into a cell of the current scene, in the selected layer if the layer is zero,
and in the row below the last layer if there is no such layer. -/
def addVisualInCurrentLayer (visual layer column : UInt32) (l : Layout) : Layout :=
  if 0 ≤ visual.toInt32.toInt ∧ visual.toInt32.toInt.toNat < l.visuals.length then
    let layer := if layer ≤ 0 then l.selected else layer
    let layer := if layer > UInt32.ofNat l.layers then UInt32.ofNat l.layers else layer
    l.put (layer, column) (some visual.toInt32.toInt.toNat)
  else l

/-- A camera joins the list, if there is one with that number. -/
def listCamera (listDevices : List String) (id rate w h : UInt32) (l : Layout) : Layout :=
  match listDevices[id.toNat]? with
  | some deviceName => l.list ("Camera: " ++ deviceName, .camera id rate w h true)
  | none => l

/-! ### Events -/

/-- What a call does to the layout. Documents are not read here, and no set is closed. -/
def command (h : Host) (c : Command) (l : Layout) : Layout :=
  match c with
  | .newSet _ _ layers => l.create layers
  | .saveSetAs path => { l with filePath := path }
  | .addScene => { l with scenes := l.scenes ++ [("new Scene", fun _ => none)] }
  | .setCurrentScene n => l.goto n
  | .addVideo path => l.listVideo h path
  | .addVisualToScene visual layer column => l.addVisual h visual layer column
  | .removeVisualFromScene layer column => l.put (layer, column) none
  | _ => l

/-- What an event does to the layout. -/
def step (h : Host) (e : Event) (l : Layout) : Layout :=
  match e with
  | .command c => l.command h c
  | .gotoNextScene =>
    if l.current.toNat < l.scenes.length - 1 then l.goto (l.current + 1) else l
  | .gotoPreviousScene => if l.current > 0 then l.goto (l.current - 1) else l
  | .addVisualVideoToListFromFile path =>
    if l.visuals.any fun v => v.2 = .video path then l else l.listVideo h path
  | .addVisualCameraToList listDevices id rate w h' => l.listCamera listDevices id rate w h'
  | .addVisualSyphonToList serverName appName =>
    l.list ("Syphon: " ++ if appName = "" then serverName else appName, .syphon serverName appName)
  | .addVisualToSceneListInCurrentLayer visual layer column =>
    l.addVisualInCurrentLayer visual layer column
  | .addLayer => l.addLayers h 1
  | .removeLayer n => l.removeLayer n
  | .setLayerCount n => l.setLayerCount h n
  | .activateLayer n => l.setActive n
  | .activateNextLayer => l.setActive (l.selected + 2)
  | .activatePreviousLayer => l.setActive l.selected
  | .activateLastLayer => l.setActive (UInt32.ofNat l.layers)
  | .keyPressed key =>
    match ControllerGroup.layerKeys.lookup key with
    | some layer => l.setActive layer.toUInt32
    | none => l
  | _ => l

/-- What the events make of a layout, one after the other. -/
def steps (cs : List Happening) (l : Layout) : Layout := cs.foldl (fun l e => l.step e.1 e.2) l

end Layout

/-! ### A column -/

/-- The call creates no set, and puts nothing into the column and takes nothing out of it. -/
def Command.Spares (column : UInt32) : Command → Prop
  | newSet _ _ _ => False
  | openSet _ => False
  | closeSet => False
  | setState _ => False
  | addVisualToScene _ _ c => c ≠ column
  | removeVisualFromScene _ c => c ≠ column
  | _ => True

instance (column : UInt32) (c : Command) : Decidable (c.Spares column) := by
  unfold Command.Spares
  split <;> infer_instance

/-- The event creates no set, and puts nothing into the column and takes nothing out of it. -/
def Event.Spares (column : UInt32) : Event → Prop
  | command c => c.Spares column
  | addVisualToSceneListInCurrentLayer _ _ c => c ≠ column
  | _ => True

instance (column : UInt32) (e : Event) : Decidable (e.Spares column) := by
  unfold Event.Spares
  split <;> infer_instance

namespace Layout

variable {l : Layout} {k : ℕ} {layer column : UInt32}

theorem length_scenes_put (cell : UInt32 × UInt32) (visual : Option ℕ) :
    (l.put cell visual).scenes.length = l.scenes.length := List.length_modify ..

theorem cellAt_put (cell : UInt32 × UInt32) (visual : Option ℕ) (k : ℕ) (cell' : UInt32 × UInt32) :
    (l.put cell visual).cellAt k cell' =
      if k = l.current.toNat ∧ k < l.scenes.length ∧ cell' = cell then visual
      else l.cellAt k cell' := by
  rw [cellAt, cellAt, put, List.getElem?_modify]
  by_cases hk : k < l.scenes.length
  · by_cases hcurrent : l.current.toNat = k
    · by_cases hcell : cell' = cell
      · simp [hk, hcurrent, hcell]
      · simp [hk, hcurrent, hcell]
    · simp [hcurrent, Ne.symm hcurrent]
  · simp [hk]

/-- What the scenes show. -/
def shown (l : Layout) : List (String × VisualSource) × List (String × (UInt32 × UInt32 → Option ℕ)) :=
  (l.visuals, l.scenes)

/-- The scenes of the second layout are those of the first, in the given column, and the visuals have
kept their positions. -/
def SameColumn (column : UInt32) (l l' : Layout) : Prop :=
  l.visuals <+: l'.visuals ∧ ∀ k < l.scenes.length, k < l'.scenes.length ∧
    ∀ layer, l'.cellAt k (layer, column) = l.cellAt k (layer, column)

namespace SameColumn

theorem of_shown {l' : Layout} (h : l'.shown = l.shown) : SameColumn column l l' := by
  have hvisuals : l'.visuals = l.visuals := congrArg Prod.fst h
  have hscenes : l'.scenes = l.scenes := congrArg Prod.snd h
  refine ⟨hvisuals ▸ List.prefix_rfl, fun k hk => ⟨hscenes ▸ hk, fun layer => ?_⟩⟩
  rw [cellAt, cellAt, hscenes]

theorem trans {l' l'' : Layout} (h : SameColumn column l l') (h' : SameColumn column l' l'') :
    SameColumn column l l'' := by
  refine ⟨h.1.trans h'.1, fun k hk => ?_⟩
  obtain ⟨hk', heq⟩ := h.2 k hk
  obtain ⟨hk'', heq'⟩ := h'.2 k hk'
  exact ⟨hk'', fun layer => (heq' layer).trans (heq layer)⟩

theorem put {l' : Layout} (h : SameColumn column l l') {row c : UInt32} (hc : c ≠ column)
    (visual : Option ℕ) : SameColumn column l (l'.put (row, c) visual) := by
  refine h.trans ⟨List.prefix_rfl, fun k hk => ?_⟩
  refine ⟨length_scenes_put (l := l') (row, c) visual ▸ hk, fun layer => ?_⟩
  rw [cellAt_put, if_neg fun hput => hc (congrArg Prod.snd hput.2.2).symm]

theorem append (scene : String × (UInt32 × UInt32 → Option ℕ)) :
    SameColumn column l { l with scenes := l.scenes ++ [scene] } := by
  refine ⟨List.prefix_rfl, fun k hk => ⟨?_, fun layer => ?_⟩⟩
  · rw [List.length_append]
    exact Nat.lt_add_right 1 hk
  · rw [cellAt, cellAt]
    exact congrArg (fun scene => Option.bind scene _) (List.getElem?_append_left hk)

theorem list (visual : String × VisualSource) : SameColumn column l (l.list visual) :=
  ⟨List.prefix_append _ _, fun _ hk => ⟨hk, fun _ => rfl⟩⟩

theorem listVideo (h : Host) (path : String) : SameColumn column l (l.listVideo h path) := by
  simp only [Layout.listVideo]
  split_ifs
  · exact of_shown rfl
  · exact list _

end SameColumn

theorem shown_goto (n : UInt32) : (l.goto n).shown = l.shown := by
  rw [goto]
  split_ifs <;> rfl

theorem shown_addLayers (h : Host) (n : ℕ) : (l.addLayers h n).shown = l.shown := by
  rw [addLayers]
  split_ifs <;> rfl

theorem shown_setActive (n : UInt32) : (l.setActive n).shown = l.shown := by
  rw [setActive]
  split_ifs <;> rfl

theorem shown_removeLayer (n : UInt32) : (l.removeLayer n).shown = l.shown := by
  simp only [removeLayer]
  split_ifs
  · exact shown_setActive _
  · rfl
  · rfl

theorem shown_setLayerCount (h : Host) (n : UInt32) : (l.setLayerCount h n).shown = l.shown := by
  rw [setLayerCount]
  dsimp only
  split_ifs
  · rfl
  · exact shown_addLayers h _
  · refine Exec.foldl_push (fun (l : Layout) i => l.removeLayer (UInt32.ofNat i))
      (fun l' : Layout => l'.shown = l.shown) (fun l' i hb => ?_) _ rfl
    exact (shown_removeLayer _).trans hb

theorem sameColumn_command {c : Command} (hc : c.Spares column) (h : Host) :
    SameColumn column l (l.command h c) := by
  cases c with
  | newSet | openSet | closeSet | setState => exact hc.elim
  | addScene => exact .append _
  | setCurrentScene n => exact .of_shown (shown_goto n)
  | addVideo path => exact .listVideo h path
  | addVisualToScene visual layer c =>
    have hne : c ≠ column := hc
    rw [command, addVisual]
    dsimp only
    split_ifs
    all_goals
      first
      | exact .of_shown rfl
      | exact (SameColumn.of_shown (shown_addLayers h _)).put hne _
  | removeVisualFromScene layer c =>
    have hne : c ≠ column := hc
    exact (SameColumn.of_shown rfl).put hne none
  | _ => exact .of_shown rfl

/-- An event that spares a column leaves its cells alone, in every scene. -/
theorem sameColumn_step {e : Event} (he : e.Spares column) (h : Host) :
    SameColumn column l (l.step h e) := by
  cases e with
  | command c => exact sameColumn_command he h
  | gotoNextScene =>
    rw [step]
    split_ifs
    · exact .of_shown (shown_goto _)
    · exact .of_shown rfl
  | gotoPreviousScene =>
    rw [step]
    split_ifs
    · exact .of_shown (shown_goto _)
    · exact .of_shown rfl
  | addVisualVideoToListFromFile path =>
    rw [step]
    split_ifs
    · exact .of_shown rfl
    · exact .listVideo h path
  | addVisualCameraToList listDevices id rate w h' =>
    rw [step, listCamera]
    cases listDevices[id.toNat]? with
    | none => exact .of_shown rfl
    | some name => exact .list _
  | addVisualSyphonToList => exact .list _
  | addVisualToSceneListInCurrentLayer visual layer c =>
    have hne : c ≠ column := he
    rw [step, addVisualInCurrentLayer]
    dsimp only
    split_ifs
    all_goals
      first
      | exact .of_shown rfl
      | exact (SameColumn.of_shown rfl).put hne _
  | addLayer => exact .of_shown (shown_addLayers h 1)
  | removeLayer n => exact .of_shown (shown_removeLayer n)
  | setLayerCount n => exact .of_shown (shown_setLayerCount h n)
  | activateLayer | activateNextLayer | activatePreviousLayer | activateLastLayer =>
    exact .of_shown (shown_setActive _)
  | keyPressed key =>
    rw [step]
    cases ControllerGroup.layerKeys.lookup key with
    | none => exact .of_shown rfl
    | some layer => exact .of_shown (shown_setActive _)
  | _ => exact .of_shown rfl

theorem sameColumn_steps {cs : List Happening} (hcs : ∀ e ∈ cs, e.2.Spares column) (l : Layout) :
    SameColumn column l (l.steps cs) := by
  induction cs generalizing l with
  | nil => exact .of_shown rfl
  | cons e rest ih =>
    obtain ⟨he, hrest⟩ := List.forall_mem_cons.mp hcs
    exact (sameColumn_step he e.1).trans (ih hrest (l.step e.1 e.2))

end Layout

end ArbutusEngine
