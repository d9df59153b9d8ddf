import ArbutusEngine.Cells
import ArbutusEngine.RoundTrip

/-!
# What an array of scenes describes

`Scenes::setState` builds one scene for every element of an array. An element names its scene and
lists instances; the entry of an instance gives the position of a visual, a cell and a name. The
entries are placed one after another, each in the place of the one that lies in its cell, and those
whose position holds no visual are passed over. A scene therefore has an instance in each cell that
some placed entry names, made from the last such entry.

The numbers of an entry are JSON integers of any size. The position is converted to `int`, the layer
and the column to `unsigned int`, so that all three are taken modulo `2 ^ 32`.

## Main definitions

* `InstanceEntry`, `SceneEntry`: what the elements of the array say, and `Describes`: that they do.
* `SceneEntry.lastAt`: the last entry of a cell.
* `SceneEntry.BuiltAs`: a scene is the one that an element describes.

## Main results

* `instancesOf_eq_standing`: the instances that are placed are those of a log of writes to cells.
* `Scenes.decodeAll_of_describes`: what the elements are read as.
* `scenes_built_as_described`: the scenes after `Scenes::setState`.
-/

open Exec

namespace ArbutusEngine

/-! ### Entries -/

/-- What the entry of an instance says. -/
structure InstanceEntry where
  index : ℤ
  layer : ℕ
  column : ℕ
  name : String

/-- What an element of an array of scenes says. -/
structure SceneEntry where
  name : String
  instances : List InstanceEntry

namespace InstanceEntry

/-- A JSON value is an entry that says `e`, whatever else it contains. -/
structure Describes (j : Json) (e : InstanceEntry) : Prop where
  index_eq : j.field "index" = .int e.index
  layer_eq : (j.field "properties").field "layer" = .int e.layer
  column_eq : (j.field "properties").field "column" = .int e.column
  name_eq : (j.field "properties").field "name" = .str e.name

variable (e : InstanceEntry)

/-- The cell of the entry, as it is converted. -/
def cell : UInt32 × UInt32 := (UInt32.ofNat e.layer, UInt32.ofNat e.column)

/-- The visual at the position of the entry, as it is converted. -/
def visual? (visuals : List Visual) : Option Visual := Visuals.get visuals (Int32.ofInt e.index)

/-- The position of the entry holds a visual. -/
def IsValid (visuals : List Visual) : Prop := (e.visual? visuals).isSome = true

instance (visuals : List Visual) : Decidable (e.IsValid visuals) :=
  inferInstanceAs (Decidable ((e.visual? visuals).isSome = true))

/-- The instance the entry places. -/
def placement? (visuals : List Visual) : Option Placement :=
  (e.visual? visuals).map fun v => ⟨v.addr, e.cell.1, e.cell.2, e.name⟩

end InstanceEntry

/-- The entries of the instances of an element, of which there are none without an array. -/
def Scene.instanceEntries (state : Json) : List Json :=
  match state.field "instances" with
  | .arr entries => entries
  | _ => []

namespace SceneEntry

/-- A JSON value is an element that says `d`, whatever else it contains. -/
structure Describes (j : Json) (d : SceneEntry) : Prop where
  name_eq : j.field "name" = .str d.name
  instances_eq : List.Forall₂ InstanceEntry.Describes (Scene.instanceEntries j) d.instances

variable (visuals : List Visual) (d : SceneEntry)

/-- The instances the element places. -/
def placements : List Placement := d.instances.filterMap fun e => e.placement? visuals

/-- The last entry of a cell whose position holds a visual. -/
def lastAt (cell : UInt32 × UInt32) : Option InstanceEntry :=
  d.instances.reverse.find? fun e => e.cell = cell ∧ e.IsValid visuals

/-- The cells of the entries whose positions hold visuals. -/
def cells : Set (UInt32 × UInt32) := {cell | ∃ e ∈ d.instances, e.cell = cell ∧ e.IsValid visuals}

end SceneEntry

/-! ### Reading the elements -/

/-- An entry is read as the instance it places, or passed over. -/
theorem InstanceEntry.Describes.decode_eq {j : Json} {e : InstanceEntry} (hj : Describes j e)
    (visuals : List Visual) : Scene.decode visuals j = (e.placement? visuals, none) := by
  have hmember : j.field "index" ≠ .null := by simp [hj.index_eq]
  have hlayer : (j.field "properties").field "layer" ≠ .null := by simp [hj.layer_eq]
  have hindex := Json.index_of_field_ne_null hmember
  have hproperties := Json.index_of_field_ne_null hlayer
  rw [Scene.decode, Scene.readInstance, hindex, hj.index_eq]
  simp only [Except.bind, Json.getInt]
  cases hv : Visuals.get visuals (Int32.ofInt e.index) with
  | none => simp [placement?, visual?, hv]
  | some v =>
    simp only [hindex, hproperties, hj.layer_eq, hj.column_eq, hj.name_eq,
      Json.getUnsigned_int_natCast, Json.getString]
    simp [placement?, visual?, hv, cell]

/-- An element is read as the scene it describes. -/
theorem SceneEntry.Describes.decode_eq {j : Json} {d : SceneEntry} (hj : Describes j d)
    (visuals : List Visual) :
    Scenes.decode visuals j = (some (d.name, d.placements visuals), none) := by
  have hobj : j.isIndexable = true := by
    cases j <;> first | rfl | exact Json.noConfusion rfl (heq_of_eq hj.name_eq)
  have hinstances : Scene.decodeAll visuals (j.field "instances") =
      (d.placements visuals, none) := by
    have hcollect : collect (Scene.decode visuals) (Scene.instanceEntries j) =
        (d.placements visuals, none) :=
      collect_of_forall₂ (hj.instances_eq.imp fun _ _ hentry => hentry.decode_eq visuals)
    rw [Scene.instanceEntries] at hcollect
    cases hi : j.field "instances" with
    | arr entries =>
      rw [hi] at hcollect
      exact hcollect
    | _ =>
      rw [hi] at hcollect
      exact hcollect
  simp only [Scenes.decode, hobj, ↓reduceIte, hj.name_eq, hinstances]

theorem Scenes.decodeAll_of_describes {entries : List Json} {scenes : List SceneEntry}
    (hd : List.Forall₂ SceneEntry.Describes entries scenes) (visuals : List Visual) :
    Scenes.decodeAll visuals entries =
      (scenes.map fun d => (d.name, d.placements visuals), none) := by
  rw [← List.filterMap_eq_map]
  exact collect_of_forall₂ (hd.imp fun _ _ hscene => hscene.decode_eq visuals)

/-! ### Placing the entries -/

/-- The instances that are placed, as writes to their cells, their unset members forgotten. -/
def placementLog (placements : List Placement) :
    List ((UInt32 × UInt32) × Option VisualInstance) :=
  placements.map fun p => ((p.layer, p.column), some (p.toInstance .plain 0))

theorem cell_of_mem_standing {placements : List Placement}
    {e : (UInt32 × UInt32) × VisualInstance}
    (he : e ∈ KeyLog.standing (placementLog placements)) : e.2.cell = e.1 := by
  obtain ⟨p, -, hp⟩ := List.mem_map.mp (KeyLog.mem_of_mem_standing he)
  obtain ⟨hcell, hinst⟩ := Prod.mk.inj hp
  rw [← hcell, ← Option.some.inj hinst, Placement.toInstance, VisualInstance.cell_fresh]

/-- The instances that are placed one after another are those of the latest writes to the cells. -/
theorem instancesOf_eq_standing (placements : List Placement) :
    instancesOf .plain 0 placements =
      (KeyLog.standing (placementLog placements)).map Prod.snd := by
  induction placements using List.reverseRecOn with
  | nil => rfl
  | append_singleton placements p ih =>
    have hcell : (p.toInstance .plain 0).cell = (p.layer, p.column) := VisualInstance.cell_fresh ..
    have hlast : instancesOf .plain 0 (placements ++ [p]) =
        addInstance (instancesOf .plain 0 placements) (p.toInstance .plain 0) := by
      rw [instancesOf, List.zipIdx_append, List.foldl_append]
      rfl
    have herase : (instancesOf .plain 0 placements).eraseP
          (fun j => j.cell = (p.layer, p.column)) =
        ((KeyLog.standing (placementLog placements)).filter
          fun e => e.1 ≠ (p.layer, p.column)).map Prod.snd := by
      rw [ih, List.eraseP_map, ← KeyLog.eraseP_standing]
      refine congrArg (List.map Prod.snd) (KeyLog.eraseP_congr fun e he => ?_)
      rw [Function.comp_apply, cell_of_mem_standing he]
    have hlog : placementLog (placements ++ [p]) =
        placementLog placements ++ [((p.layer, p.column), some (p.toInstance .plain 0))] :=
      List.map_append
    rw [hlog, KeyLog.standing_concat, List.map_append, ← herase, hlast, addInstance, hcell]
    rfl

theorem latest_placementLog (placements : List Placement) (cell : UInt32 × UInt32) :
    KeyLog.latest (placementLog placements) cell =
      (placements.reverse.find? fun p => (p.layer, p.column) = cell).map
        (Placement.toInstance .plain 0) := by
  rw [KeyLog.latest, placementLog, ← List.map_reverse, List.find?_map, Option.bind_map]
  exact Option.map_eq_bind.symm

theorem find?_instancesOf_eq_latest (placements : List Placement) (cell : UInt32 × UInt32) :
    (instancesOf .plain 0 placements).find? (fun i => i.cell = cell) =
      KeyLog.latest (placementLog placements) cell := by
  rw [instancesOf_eq_standing, List.find?_map, ← KeyLog.find?_standing]
  congr 1
  refine List.find?_congr fun e he => ?_
  rw [Function.comp_apply, cell_of_mem_standing he]

/-- There are as many instances as cells that hold one. -/
theorem length_instancesOf (placements : List Placement) :
    (instancesOf .plain 0 placements).length =
      Set.ncard {cell | (instancesOf .plain 0 placements).find? (fun i => i.cell = cell) ≠ none} := by
  simp only [find?_instancesOf_eq_latest]
  rw [instancesOf_eq_standing, List.length_map, KeyLog.length_standing]

namespace SceneEntry

variable (visuals : List Visual) (d : SceneEntry)

/-- The instance in a cell is made from the last entry of the cell. -/
theorem find?_instancesOf_placements (cell : UInt32 × UInt32) :
    (instancesOf .plain 0 (d.placements visuals)).find? (fun i => i.cell = cell) =
      (d.lastAt visuals cell).bind fun e =>
        (e.placement? visuals).map (Placement.toInstance .plain 0) := by
  have hany : ∀ e : InstanceEntry,
      (e.placement? visuals).any (fun p => (p.layer, p.column) = cell) =
        decide (e.cell = cell ∧ e.IsValid visuals) := by
    intro e
    cases hv : e.visual? visuals <;>
      simp [InstanceEntry.placement?, InstanceEntry.IsValid, hv, InstanceEntry.cell]
  rw [find?_instancesOf_eq_latest, latest_placementLog, placements, ← List.filterMap_reverse,
    List.find?_filterMap, Option.map_bind, lastAt]
  simp only [hany]
  rfl

theorem lastAt_ne_none_iff (cell : UInt32 × UInt32) :
    d.lastAt visuals cell ≠ none ↔ cell ∈ d.cells visuals := by
  simp [lastAt, cells]

/-- There are as many instances as cells that the element describes. -/
theorem length_instancesOf_placements :
    (instancesOf .plain 0 (d.placements visuals)).length = Set.ncard (d.cells visuals) := by
  rw [length_instancesOf]
  congr 1
  ext cell
  rw [Set.mem_ofPred_eq, ← d.lastAt_ne_none_iff visuals, d.find?_instancesOf_placements visuals]
  cases hlast : d.lastAt visuals cell with
  | none => simp
  | some e =>
    have he : e.cell = cell ∧ e.IsValid visuals := by simpa using List.find?_some hlast
    obtain ⟨v, hv⟩ := Option.isSome_iff_exists.mp he.2
    simp [InstanceEntry.placement?, hv]

end SceneEntry

/-! ### The scenes -/

/-- The instance that `VisualInstances::get` finds contains what the contents of the scene say. -/
theorem VisualInstances.bind_find? {instances : Heap VisualInstance} (list : List Addr)
    (cell : UInt32 × UInt32) :
    (list.find? (inCell instances cell)).bind instances.get? =
      (list.filterMap instances.get?).find? fun i => i.cell = cell := by
  rw [List.find?_filterMap]
  congr 2
  funext a
  cases hi : instances.get? a <;> simp [inCell, hi]

/-- The scene is the one that the element describes: it has its name, `get` finds in every cell an
instance of the visual and with the name of the last entry of the cell, and `count` is the number of
cells described. The count is unsigned, and nothing is found while it is zero. -/
structure SceneEntry.BuiltAs (t : EngineState) (visuals : List Visual) (scene : Scene)
    (d : SceneEntry) : Prop where
  name_eq : scene.sceneName = d.name
  get_of_lastAt : ∀ layer column e, d.lastAt visuals (layer, column) = some e →
    VisualInstances.count scene.visualInstances ≠ 0 →
    ∃ a i v, VisualInstances.get layer column scene.visualInstances t = .ok (some a) t ∧
      t.instances.get? a = some i ∧ e.visual? visuals = some v ∧ i.visual = v.addr ∧
      i.properties.name = e.name
  get_of_lastAt_eq_none : ∀ layer column, d.lastAt visuals (layer, column) = none →
    VisualInstances.get layer column scene.visualInstances t = .ok none t
  get_of_count_eq_zero : ∀ layer column, VisualInstances.count scene.visualInstances = 0 →
    VisualInstances.get layer column scene.visualInstances t = .ok none t
  count_eq : VisualInstances.count scene.visualInstances =
    UInt32.ofNat (Set.ncard (d.cells visuals))

section contents

variable {t : EngineState} {visuals : List Visual} {scene : Scene} {d : SceneEntry}

/-- What lies in a cell of a scene that has the instances of an element, but for what the memory held
before. -/
theorem SceneEntry.bind_find?_of_contents
    (hcontents : (t.contents scene).map VisualInstance.forget =
      instancesOf .plain 0 (d.placements visuals)) (cell : UInt32 × UInt32) :
    ((scene.visualInstances.find? (VisualInstances.inCell t.instances cell)).bind
        t.instances.get?).map VisualInstance.forget =
      (d.lastAt visuals cell).bind fun e =>
        (e.placement? visuals).map (Placement.toInstance .plain 0) := by
  rw [VisualInstances.bind_find?, ← d.find?_instancesOf_placements, ← hcontents, List.find?_map]
  rfl

/-- A scene with the name and the instances of an element is the one it describes. -/
theorem SceneEntry.builtAs_of_contents (hlive : t.instances.Live scene.visualInstances)
    (hname : scene.sceneName = d.name)
    (hcontents : (t.contents scene).map VisualInstance.forget =
      instancesOf .plain 0 (d.placements visuals)) : BuiltAs t visuals scene d where
  name_eq := hname
  get_of_lastAt layer column e hlast hcount := by
    have he : e.cell = (layer, column) ∧ e.IsValid visuals := by simpa using List.find?_some hlast
    obtain ⟨v, hv⟩ := Option.isSome_iff_exists.mp he.2
    have hfind := bind_find?_of_contents hcontents (layer, column)
    simp only [hlast, Option.bind_some, InstanceEntry.placement?, hv, Option.map_some] at hfind
    obtain ⟨i, hfind, hi⟩ := Option.map_eq_some_iff.mp hfind
    obtain ⟨a, ha, hget⟩ := Option.bind_eq_some_iff.mp hfind
    have hvisual : i.visual = v.addr := congrArg VisualInstance.visual hi
    have hname' : i.properties.name = e.name := congrArg (fun i => i.properties.name) hi
    refine ⟨a, i, v, ?_, hget, hv, hvisual, hname'⟩
    rw [VisualInstances.get_eq hlive, VisualInstances.found, if_neg hcount, ha]
  get_of_lastAt_eq_none layer column hlast := by
    have hfind := bind_find?_of_contents hcontents (layer, column)
    rw [hlast, Option.bind_none, Option.map_eq_none_iff] at hfind
    have hnone : scene.visualInstances.find?
        (VisualInstances.inCell t.instances (layer, column)) = none := by
      refine Option.eq_none_iff_forall_ne_some.mpr fun a ha => ?_
      obtain ⟨i, hi⟩ := hlive a (List.mem_of_find?_eq_some ha)
      rw [ha, Option.bind_some, hi] at hfind
      exact Option.some_ne_none i hfind
    rw [VisualInstances.get_eq hlive, VisualInstances.found, hnone, ite_self]
  get_of_count_eq_zero layer column hcount := by rw [VisualInstances.get, if_pos hcount, pure_run]
  count_eq := by
    have hlength : (t.contents scene).length = scene.visualInstances.length := by
      refine List.filterMap_length_eq_length.mpr fun a ha => ?_
      obtain ⟨i, hi⟩ := hlive a ha
      rw [hi, Option.isSome_some]
    rw [VisualInstances.count, ← hlength, ← List.length_map (f := VisualInstance.forget), hcontents,
      d.length_instancesOf_placements]

end contents

/-- An array of elements that describe scenes is decoded, and leaves one scene for each element, in
order, which is the one that the element describes. -/
theorem scenes_built_as_described {s : EngineState} (hs : s.WellFormed) (h : Host)
    {entries : List Json} {scenes : List SceneEntry}
    (hd : List.Forall₂ SceneEntry.Describes entries scenes) :
    ∃ t, Scenes.setState h (.arr entries) s = .ok () t ∧ t.visualsList = s.visualsList ∧
      List.Forall₂ (SceneEntry.BuiltAs t s.visualsList) t.scenesList scenes := by
  have hrun : Scenes.setState h (.arr entries) s = .ok () (s.clearScenes.buildScenes h
      (scenes.map fun d => (d.name, d.placements s.visualsList))) := by
    rw [Scenes.setState_eq hs, Json.elements, Scenes.decodeAll_of_describes hd]
    rfl
  refine ⟨_, hrun, EngineState.visualsList_buildScenes h _ _, ?_⟩
  have hlive := (hs.clearScenes.buildScenes h
    (scenes.map fun d => (d.name, d.placements s.visualsList))).instances_live
  have hviews := map_contentsOf (g := VisualInstance.forget) (fun _ => rfl) h s.instances.next
    (scenes.map fun d => (d.name, d.placements s.visualsList))
  rw [← EngineState.views_clearScenes_buildScenes hs, EngineState.views, List.map_map, List.map_map,
    ← List.forall₂_eq_eq_eq, List.forall₂_map_left_iff, List.forall₂_map_right_iff] at hviews
  refine ((List.forall₂_and_left _ _).mpr ⟨hlive, hviews⟩).imp fun scene d hscene => ?_
  obtain ⟨hname, hcontents⟩ := Prod.mk.inj hscene.2
  exact SceneEntry.builtAs_of_contents hscene.1 hname
    (hcontents.trans (map_forget_instancesOf h 0 _))

/-- The smallest JSON values that say what an element says. -/
def InstanceEntry.toJson (e : InstanceEntry) : Json :=
  .obj [("index", .int e.index), ("properties", .obj [("layer", .int e.layer),
    ("column", .int e.column), ("name", .str e.name)])]

def SceneEntry.toJson (d : SceneEntry) : Json :=
  .obj [("name", .str d.name), ("instances", .arr (d.instances.map InstanceEntry.toJson))]

theorem SceneEntry.describes_toJson (d : SceneEntry) : Describes d.toJson d where
  name_eq := rfl
  instances_eq := List.forall₂_map_left_iff.mpr
    (List.forall₂_same.mpr fun _ _ => ⟨rfl, rfl, rfl, rfl⟩)

/-- A scene with two entries for one cell, and one for a visual that does not exist. -/
def repeatedCell : SceneEntry :=
  ⟨"Outro", [⟨0, 1, 2, "first"⟩, ⟨1, 1, 2, "second"⟩, ⟨7, 1, 3, "nothing"⟩]⟩

/-- The second entry for the cell is the one that stays, and the entry without a visual leaves
nothing. -/
theorem repeatedCell_built :
    ∃ t, Scenes.setState .plain (.arr [repeatedCell.toJson]) (twoVideos [1]) = .ok () t ∧
      t.visualsList = (twoVideos [1]).visualsList ∧
      List.Forall₂ (SceneEntry.BuiltAs t (twoVideos [1]).visualsList) t.scenesList
        [repeatedCell] :=
  scenes_built_as_described (twoVideos_wellFormed _) .plain
    (.cons repeatedCell.describes_toJson .nil)

/-- A scene with one entry, in the layer `2 ^ 32`. -/
def farLayer : SceneEntry := ⟨"Outro", [⟨0, 2 ^ 32, 0, "far"⟩]⟩

/-- No entry names the cell in the layer `0` and the column `0`, and yet an instance is found
there. -/
theorem farLayer_wraps :
    SceneEntry.Describes farLayer.toJson farLayer ∧
      (∀ e ∈ farLayer.instances, (e.layer, e.column) ≠ (0, 0)) ∧
      ∃ t scene a, Scenes.setState .plain (.arr [farLayer.toJson]) (twoVideos []) = .ok () t ∧
        t.scenesList = [scene] ∧
        VisualInstances.get 0 0 scene.visualInstances t = .ok (some a) t := by
  refine ⟨farLayer.describes_toJson, ?_, _, _, _, rfl, rfl, rfl⟩
  intro e he
  rw [List.mem_singleton.mp he]
  decide

end ArbutusEngine
