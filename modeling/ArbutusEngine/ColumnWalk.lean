import ArbutusEngine.Columns
import ArbutusEngine.Starting

/-!
# Walking over the columns of the active layer

Four commands of the engine play the first, the previous, the next and the last instance of the
selected layer. The first and the last go to a fixed column; the other two go one column to the left
or to the right of the selected column, and stay where that is the first or the last one. They move
over the columns of the layer as long as the selected column is the one that is played: the
commands read it, and `EngineProperties::setSelectedColumnNumber` is what sets it.

A command for a column without an instance plays nothing. It stops the layer if the set is to stop
the current visual when an invalid one is triggered.

## Main definitions

* `EngineState.HasColumns`: the instances of the selected layer occupy the first columns.
* `ColumnCommand`, `ColumnCommand.move`: the commands, and where they lead.
* `Follows`: the selected column is that of the instance that is played where a command reads it.

## Main results

* `ColumnCall.final?_run`: what one call does.
* `column_walk`: what sequences of calls do.
-/

open Exec

namespace ArbutusEngine

/-! ### The columns of the selected layer -/

namespace VisualInstances

/-- The columns of the instances that a list has in a layer. -/
def columnsIn (instances : Heap VisualInstance) (layer : UInt32) (list : List Addr) : List ℕ :=
  list.filterMap fun a => ((instances.get? a).map VisualInstance.cell).bind fun cell =>
    if cell.1 = layer then some cell.2.toNat else none

variable {instances : Heap VisualInstance} {layer : UInt32} {list : List Addr}

theorem mem_columnsIn {column : UInt32} : column.toNat ∈ columnsIn instances layer list ↔
    ∃ a ∈ list, inCell instances (layer, column) a = true := by
  rw [columnsIn, List.mem_filterMap]
  refine exists_congr fun a => and_congr_right fun _ => ?_
  rw [inCell, decide_eq_true_eq]
  cases (instances.get? a).map VisualInstance.cell with
  | none => simp
  | some cell =>
    rw [Option.bind_some, Option.some.injEq, Prod.ext_iff]
    split_ifs with hlayer
    · rw [Option.some.injEq, UInt32.toNat_inj]
      exact (and_iff_right hlayer).symm
    · exact iff_of_false id fun h => hlayer h.1

theorem lt_of_mem_columnsIn {k : ℕ} (hk : k ∈ columnsIn instances layer list) : k < 2 ^ 32 := by
  obtain ⟨a, -, ha⟩ := List.mem_filterMap.mp hk
  obtain ⟨cell, -, hcell⟩ := Option.bind_eq_some_iff.mp ha
  split_ifs at hcell
  exact Option.some.inj hcell ▸ cell.2.toNat_lt

theorem length_columnsIn : (columnsIn instances layer list).length =
    list.countP fun a => (instances.get? a).any fun i => i.cell.1 = layer := by
  rw [columnsIn, List.length_filterMap_eq_countP]
  refine List.countP_congr fun a _ => ?_
  cases instances.get? a with
  | none => rfl
  | some i =>
    simp only [Option.map_some, Option.bind_some, Option.any_some, decide_eq_true_eq]
    split_ifs with hlayer <;> simp [hlayer]

end VisualInstances

namespace EngineState

/-- The number of the selected layer. -/
def activeLayer (s : EngineState) : UInt32 := s.properties.selectedLayer.toUInt32

/-- The number of the selected column. -/
def selectedColumn (s : EngineState) : ℕ := s.properties.selectedColumn.toUInt32.toNat

/-- The instances that the current scene has in the selected layer occupy the first `m` columns, one
each. They are there, with their visuals, they do not wait for the beat, and the scene is not taken
for empty. -/
structure HasColumns (s : EngineState) (scene : Scene) (m : ℕ) : Prop where
  wellFormed : s.WellFormed
  scene_mem : scene ∈ s.scenesList
  current_eq : s.currentScene = some scene.addr
  layer_lt : s.activeLayer.toNat < s.layersList.length
  columns_perm :
    (VisualInstances.columnsIn s.instances s.activeLayer scene.visualInstances).Perm (List.range m)
  playable : ∀ a ∈ scene.visualInstances, ∀ column,
    VisualInstances.inCell s.instances (s.activeLayer, column) a = true →
      s.Stoppable a ∧ s.snaps a = some false
  count_ne : m ≠ 0 → VisualInstances.count scene.visualInstances ≠ 0

variable {s t : EngineState} {scene : Scene} {m : ℕ}

theorem stoppable_of_skeleton (h : s.skeleton = t.skeleton) {a : Addr} (ha : s.Stoppable a) :
    t.Stoppable a :=
  (stoppable_iff_of_outline (s := { s with layersList := [] }) (t := { t with layersList := [] })
    (congrArg Prod.fst h) a).mp ha

theorem cell_of_skeleton (h : s.skeleton = t.skeleton) (a : Addr) :
    (s.instances.get? a).map VisualInstance.cell =
      (t.instances.get? a).map VisualInstance.cell := by
  have hat : (s.instances.get? a).map (fun i => (i.visual, i.cell)) =
      (t.instances.get? a).map fun i => (i.visual, i.cell) :=
    congrFun (congrArg (fun o => o.1.instanceAt) h) a
  have hsnd := congrArg (Option.map Prod.snd) hat
  rwa [Option.map_map, Option.map_map] at hsnd

/-- The columns stay while the skeleton does. -/
theorem HasColumns.of_skeleton (hs : s.HasColumns scene m) (h : s.skeleton = t.skeleton)
    (hlayer : s.properties.selectedLayer = t.properties.selectedLayer)
    (hsnaps : s.snaps = t.snaps) : t.HasColumns scene m := by
  have houtline := congrArg Prod.fst h
  have hscenes : s.scenesList = t.scenesList := congrArg (fun o => o.scenesList) houtline
  have hcurrent : s.currentScene = t.currentScene := congrArg (fun o => o.currentScene) houtline
  have hlength : s.layersList.length = t.layersList.length := by
    have hmap := congrArg List.length (congrArg Prod.snd h)
    rwa [skeleton, skeleton, List.length_map, List.length_map] at hmap
  have hactive : s.activeLayer = t.activeLayer := congrArg Int32.toUInt32 hlayer
  have hcolumns : VisualInstances.columnsIn s.instances s.activeLayer scene.visualInstances =
      VisualInstances.columnsIn t.instances t.activeLayer scene.visualInstances := by
    rw [hactive, VisualInstances.columnsIn, VisualInstances.columnsIn]
    simp only [cell_of_skeleton h]
  refine ⟨hs.wellFormed.of_skeleton h, hscenes ▸ hs.scene_mem, hcurrent ▸ hs.current_eq,
    hactive ▸ hlength ▸ hs.layer_lt, hcolumns ▸ hs.columns_perm, fun a ha column hcell => ?_,
    hs.count_ne⟩
  rw [VisualInstances.inCell, ← cell_of_skeleton h, ← hactive] at hcell
  obtain ⟨hstop, hsnap⟩ := hs.playable a ha column hcell
  exact ⟨stoppable_of_skeleton h hstop, hsnaps ▸ hsnap⟩

theorem activeLayer_of_board (h : s.board = t.board) : s.activeLayer = t.activeLayer :=
  congrArg Int32.toUInt32 (congrArg Prod.fst (board_eq_iff.mp h).2.1)

theorem selectedColumn_of_board (h : s.board = t.board) : s.selectedColumn = t.selectedColumn :=
  congrArg (fun cell => cell.2.toUInt32.toNat) (board_eq_iff.mp h).2.1

/-- The columns stay when a layer starts an instance or is stopped. -/
theorem HasColumns.of_board (hs : s.HasColumns scene m) (h : s.board = t.board) :
    t.HasColumns scene m := by
  obtain ⟨hskeleton, hselected, hsnaps⟩ := board_eq_iff.mp h
  exact hs.of_skeleton hskeleton (congrArg Prod.fst hselected) hsnaps

/-- Reading the engine properties leaves the columns alone. -/
theorem HasColumns.resetProperties (hs : s.HasColumns scene m) (h : Host) :
    (s.resetProperties h).HasColumns scene m :=
  hs.of_skeleton rfl rfl rfl

/-- The layer has no more columns than there are numbers for. -/
theorem HasColumns.le (hs : s.HasColumns scene m) : m ≤ 2 ^ 32 := by
  by_contra hlt
  have hmem := hs.columns_perm.mem_iff.mpr (List.mem_range.mpr (Nat.lt_of_not_le hlt))
  exact absurd (VisualInstances.lt_of_mem_columnsIn hmem) (lt_irrefl _)

theorem HasColumns.foundInCell_eq (hs : s.HasColumns scene m) (cell : UInt32 × UInt32) :
    s.foundInCell cell = VisualInstances.found s.instances cell scene.visualInstances :=
  foundInCell_current hs.wellFormed hs.scene_mem hs.current_eq cell

/-- The instance in one of the columns. -/
theorem HasColumns.exists_found (hs : s.HasColumns scene m) {column : UInt32}
    (hc : column.toNat < m) : ∃ a ∈ scene.visualInstances,
      s.foundInCell (s.activeLayer, column) = some a ∧
        VisualInstances.inCell s.instances (s.activeLayer, column) a = true := by
  have hmem := hs.columns_perm.mem_iff.mpr (List.mem_range.mpr hc)
  obtain ⟨a, ha, hcell⟩ := VisualInstances.mem_columnsIn.mp hmem
  have hne : VisualInstances.found s.instances (s.activeLayer, column)
      scene.visualInstances ≠ none :=
    VisualInstances.found_ne_none_iff.mpr ⟨hs.count_ne (by omega), a, ha, hcell⟩
  obtain ⟨b, hb⟩ := Option.ne_none_iff_exists'.mp hne
  have hfind := VisualInstances.find?_of_found hb
  exact ⟨b, List.mem_of_find?_eq_some hfind, (hs.foundInCell_eq _).trans hb, List.find?_some hfind⟩

/-- Past the columns there is no instance. -/
theorem HasColumns.foundInCell_eq_none (hs : s.HasColumns scene m) {column : UInt32}
    (hc : m ≤ column.toNat) : s.foundInCell (s.activeLayer, column) = none := by
  rw [hs.foundInCell_eq]
  by_contra hne
  obtain ⟨-, hmem⟩ := VisualInstances.found_ne_none_iff.mp hne
  have hcolumn := hs.columns_perm.mem_iff.mp (VisualInstances.mem_columnsIn.mpr hmem)
  have hlt := List.mem_range.mp hcolumn
  omega

theorem HasColumns.getVisualInstance_eq (hs : s.HasColumns scene m) (column : UInt32) :
    Set.getVisualInstanceInCorrentSet s.activeLayer column s =
      .ok (s.foundInCell (s.activeLayer, column)) s :=
  Set.getVisualInstanceInCorrentSet_eq hs.wellFormed hs.scene_mem hs.current_eq s.activeLayer column

/-- The active instance of the selected layer is the one of the scene in the column. -/
def PlaysColumn (s : EngineState) (scene : Scene) (column : ℕ) : Prop :=
  ∃ a ∈ scene.visualInstances, s.activeAt s.activeLayer.toNat = some a ∧
    ∃ i, s.instances.get? a = some i ∧ i.cell.1 = s.activeLayer ∧ i.cell.2.toNat = column

theorem PlaysColumn.stoppable {k : ℕ} (hk : s.PlaysColumn scene k) (hs : s.HasColumns scene m)
    {b : Addr} (hb : s.activeAt s.activeLayer.toNat = some b) : s.Stoppable b := by
  obtain ⟨a, ha, hactive, i, hi, hlayer, -⟩ := hk
  obtain rfl := Option.some.inj (hactive.symm.trans hb)
  refine (hs.playable a ha i.cell.2 ?_).1
  rw [VisualInstances.inCell, hi, Option.map_some, ← hlayer]
  exact decide_eq_true rfl

end EngineState

/-! ### What the commands do -/

namespace Engine

variable {s : EngineState} {scene : Scene} {m : ℕ}

/-- The instances of the selected layer are counted as an unsigned number. -/
theorem countInSelectedLayer_eq (hs : s.HasColumns scene m) (h : Host) :
    countInSelectedLayer h s = .ok (UInt32.ofNat m) (s.resetProperties h) := by
  have hs' := hs.resetProperties h
  have hcount := VisualInstances.Represents.countInLayerFrom_eq
    (hs'.wellFormed.instances_live scene hs'.scene_mem) s.activeLayer 0
  have hlength := hs.columns_perm.length_eq
  rw [List.length_range, VisualInstances.length_columnsIn] at hlength
  have hread : countInSelectedLayer h s =
      VisualInstances.countInLayer s.activeLayer scene.visualInstances (s.resetProperties h) := by
    rw [countInSelectedLayer, bind_run, derefCurrentScene, bind_run, gets_run, Outcome.bind_ok,
      hs.current_eq, ofOption_some, pure_run, Outcome.bind_ok,
      Scene.read_current hs.wellFormed hs.scene_mem]
    rfl
  rw [hread, VisualInstances.countInLayer, hcount, UInt32.zero_add]
  exact congrArg (fun n => Outcome.ok (UInt32.ofNat n) (s.resetProperties h)) hlength

/-- The instance of a column is set on the selected layer. -/
theorem setActiveVisualIntanceOnActiveLayer_eq (h : Host) (column : UInt32) (s : EngineState) :
    setActiveVisualIntanceOnActiveLayer h column s =
      (setActiveVisualInstance h s.activeLayer column (s.resetProperties h)).bind
        fun _ t => .ok () t := rfl

/-- Going to a column of the layer plays the instance there. -/
theorem final?_setActive (hs : s.HasColumns scene m)
    (hactive : ∀ b, s.activeAt s.activeLayer.toNat = some b → s.Stoppable b) (h : Host)
    {column : UInt32} {k : ℕ} (hk : column.toNat = k) (hc : k < m) :
    ∃ t, (setActiveVisualIntanceOnActiveLayer h column s).final? = some t ∧ t.board = s.board ∧
      t.PlaysColumn scene k := by
  subst hk
  have hs' := hs.resetProperties h
  obtain ⟨a, ha, hfound, hcell⟩ := hs'.exists_found hc
  obtain ⟨hstop, hsnap⟩ := hs'.playable a ha column hcell
  obtain ⟨v, hv⟩ := hstop.linked
  obtain ⟨t, ht, hboard, hplays⟩ := Layer.final?_playVisualInstance h hs'.layer_lt hv hsnap hactive
  have hrun : (setActiveVisualIntanceOnActiveLayer h column s).final? =
      (Layer.playVisualInstance h s.activeLayer.toNat a (s.resetProperties h)).final? := by
    have hlayer : Layers.get s.activeLayer (s.resetProperties h) ≠ none :=
      Layers.get_ne_none_iff.mpr hs'.layer_lt
    have hget := hs'.getVisualInstance_eq column
    rw [hfound] at hget
    rw [setActiveVisualIntanceOnActiveLayer_eq, setActiveVisualInstance_of_found h hlayer hget]
    cases Layer.playVisualInstance h s.activeLayer.toNat a (s.resetProperties h) <;> rfl
  have hboard' : t.board = s.board := hboard
  have hlayer := EngineState.activeLayer_of_board hboard'
  refine ⟨t, hrun.trans ht, hboard', a, ha, ?_, ?_⟩
  · rw [hlayer]
    exact hplays
  · have hcell' := EngineState.cell_of_skeleton (EngineState.board_eq_iff.mp hboard').1 a
    rw [show (s.instances.get? a).map VisualInstance.cell = some (s.activeLayer, column) from
      of_decide_eq_true hcell] at hcell'
    obtain ⟨i, hi, hicell⟩ := Option.map_eq_some_iff.mp hcell'
    exact ⟨i, hi, by rw [hicell, hlayer], by rw [hicell]⟩

/-- Going to a column without an instance plays nothing. It stops the layer, if that is set. -/
theorem setActive_of_not_found (hs : s.HasColumns scene m) (h : Host) {column : UInt32}
    (hc : m ≤ column.toNat) : setActiveVisualIntanceOnActiveLayer h column s =
      (if s.stopCurrentVisualIfTriggeredInvalid then Layers.stopAt s.activeLayer else pure () :
        Prog Unit) (s.resetProperties h) := by
  have hs' := hs.resetProperties h
  have hlayer : Layers.get s.activeLayer (s.resetProperties h) ≠ none :=
    Layers.get_ne_none_iff.mpr hs'.layer_lt
  have hget := hs'.getVisualInstance_eq column
  rw [hs'.foundInCell_eq_none hc] at hget
  rw [setActiveVisualIntanceOnActiveLayer_eq, setActiveVisualInstance_of_not_found h hlayer hget]
  change Outcome.bind (Outcome.bind ((if s.stopCurrentVisualIfTriggeredInvalid then
    Layers.stopAt s.activeLayer else pure () : Prog Unit) (s.resetProperties h)) _) _ = _
  cases (if s.stopCurrentVisualIfTriggeredInvalid then Layers.stopAt s.activeLayer else pure () :
    Prog Unit) (s.resetProperties h) <;> rfl

section commands

variable {k : ℕ} (hs : s.HasColumns scene m) (hplays : s.PlaysColumn scene k) (hk : k < m)

include hs

/-- The number of the last column. -/
theorem toNat_lastColumn (hm : 0 < m) : (UInt32.ofNat m - 1).toNat = m - 1 := by
  have hle := hs.le
  have hone : (1 : UInt32).toNat = 1 := rfl
  rw [UInt32.toNat_sub, UInt32.toNat_ofNat']
  omega

include hplays hk

/-- `playLastVisualInstanceOnActiveLayer` goes to the last column. -/
theorem final?_playLast (h : Host) : ∃ t,
    (playLastVisualInstanceOnActiveLayer h s).final? = some t ∧ t.board = s.board ∧
      t.PlaysColumn scene (m - 1) := by
  have hlast := toNat_lastColumn hs (Nat.zero_lt_of_lt hk)
  obtain ⟨t, ht, hboard, hmoved⟩ := final?_setActive (hs.resetProperties h)
    (fun _ => hplays.stoppable hs) h hlast (by omega)
  refine ⟨t, ?_, hboard, hmoved⟩
  rw [playLastVisualInstanceOnActiveLayer, bind_run, countInSelectedLayer_eq hs, Outcome.bind_ok,
    ht]

/-- From the column that is played, `playPreviousVisualInstanceOnActiveLayer` goes to the one before
it, if there is one. -/
theorem final?_playPrevious (h : Host) (hcolumn : s.selectedColumn = k) : ∃ t,
    (playPreviousVisualInstanceOnActiveLayer h s).final? = some t ∧ t.board = s.board ∧
      t.PlaysColumn scene (k - 1) := by
  have hcolumn : s.properties.selectedColumn.toUInt32.toNat = k := hcolumn
  rw [playPreviousVisualInstanceOnActiveLayer, bind_run, getSelectedColumnNumber_eq,
    Outcome.bind_ok]
  split_ifs with hzero
  · have hfirst : k = 0 := hcolumn.symm.trans (Nat.le_zero.mp (UInt32.le_iff_toNat_le.mp hzero))
    subst hfirst
    exact ⟨_, rfl, rfl, hplays⟩
  · have hpos : 0 < k := by
      rw [UInt32.not_le, UInt32.lt_iff_toNat_lt, hcolumn] at hzero
      exact hzero
    have hone : (1 : UInt32).toNat = 1 := rfl
    have hprevious : (s.properties.selectedColumn.toUInt32 - 1).toNat = k - 1 := by
      have hle := hs.le
      rw [UInt32.toNat_sub, hcolumn]
      omega
    rw [bind_run, getSelectedColumnNumber_eq, Outcome.bind_ok]
    exact final?_setActive (hs.resetProperties h) (fun _ => hplays.stoppable hs) h hprevious
      (by omega)

/-- From the column that is played, `playNextVisualInstanceOnActiveLayer` goes to the one after it,
if there is one. -/
theorem final?_playNext (h : Host) (hcolumn : s.selectedColumn = k) : ∃ t,
    (playNextVisualInstanceOnActiveLayer h s).final? = some t ∧ t.board = s.board ∧
      t.PlaysColumn scene (min (k + 1) (m - 1)) := by
  have hs' := hs.resetProperties h
  have hlast := toNat_lastColumn hs (Nat.zero_lt_of_lt hk)
  have hcolumn : s.properties.selectedColumn.toUInt32.toNat = k := hcolumn
  rw [playNextVisualInstanceOnActiveLayer, bind_run, getSelectedColumnNumber_eq, Outcome.bind_ok,
    bind_run, countInSelectedLayer_eq hs', Outcome.bind_ok]
  split_ifs with hend
  · have hge := UInt32.le_iff_toNat_le.mp hend
    rw [hlast, hcolumn] at hge
    have hstays : min (k + 1) (m - 1) = k := by omega
    exact ⟨_, rfl, rfl, by rw [hstays]; exact hplays⟩
  · have hroom : k + 1 ≤ m - 1 := by
      rw [ge_iff_le, UInt32.not_le, UInt32.lt_iff_toNat_lt, hlast, hcolumn] at hend
      exact hend
    have hone : (1 : UInt32).toNat = 1 := rfl
    have hnext : (s.properties.selectedColumn.toUInt32 + 1).toNat = k + 1 := by
      have hle := hs.le
      rw [UInt32.toNat_add, hcolumn]
      omega
    rw [bind_run, getSelectedColumnNumber_eq, Outcome.bind_ok, Nat.min_eq_left hroom]
    exact final?_setActive hs' (fun _ => hplays.stoppable hs) h hnext (by omega)

end commands

end Engine

/-! ### The commands -/

/-- The commands that play an instance of the selected layer. -/
inductive ColumnCommand where
  | first
  | previous
  | next
  | last
  deriving DecidableEq

namespace ColumnCommand

/-- The program of a command. -/
def run (h : Host) : ColumnCommand → Prog Unit
  | first => Engine.playFirstVisualInstanceOnActiveLayer h
  | previous => Engine.playPreviousVisualInstanceOnActiveLayer h
  | next => Engine.playNextVisualInstanceOnActiveLayer h
  | last => Engine.playLastVisualInstanceOnActiveLayer h

/-- Where a command leads from the column `k`, if there are `m` columns. -/
def move (m k : ℕ) : ColumnCommand → ℕ
  | first => 0
  | previous => k - 1
  | next => min (k + 1) (m - 1)
  | last => m - 1

/-- The command goes from the selected column. -/
def readsColumn : ColumnCommand → Bool
  | previous | next => true
  | first | last => false

theorem move_lt {m k : ℕ} (hk : k < m) (c : ColumnCommand) : c.move m k < m := by
  cases c <;> simp only [move] <;> omega

variable {s : EngineState} {scene : Scene} {m k : ℕ}

/-- A command moves over the columns, if the selected column is the one that is played where the
command reads it. -/
theorem final?_run (hs : s.HasColumns scene m) (hplays : s.PlaysColumn scene k) (hk : k < m)
    (h : Host) (c : ColumnCommand) (hc : c.readsColumn = true → s.selectedColumn = k) :
    ∃ t, (c.run h s).final? = some t ∧ t.board = s.board ∧ t.PlaysColumn scene (c.move m k) := by
  cases c with
  | first =>
    have hzero : (0 : UInt32).toNat = 0 := rfl
    exact Engine.final?_setActive hs (fun _ => hplays.stoppable hs) h hzero (Nat.zero_lt_of_lt hk)
  | last => exact Engine.final?_playLast hs hplays hk h
  | previous => exact Engine.final?_playPrevious hs hplays hk h (hc rfl)
  | next => exact Engine.final?_playNext hs hplays hk h (hc rfl)

/-- Without an instance in the layer a command does nothing, once the layer is stopped if the set is
to stop it. -/
theorem run_of_empty (hs : s.HasColumns scene 0)
    (hidle : s.stopCurrentVisualIfTriggeredInvalid = true → s.activeAt s.activeLayer.toNat = none)
    (h : Host) (c : ColumnCommand) : c.run h s = .ok () (s.resetProperties h) := by
  have hs' := hs.resetProperties h
  have hset : ∀ column, Engine.setActiveVisualIntanceOnActiveLayer h column (s.resetProperties h) =
      .ok () (s.resetProperties h) := by
    intro column
    rw [Engine.setActive_of_not_found hs' h (Nat.zero_le _)]
    split_ifs with hstops
    · exact (Layers.stopAt_of_lt hs'.layer_lt).trans
        (Layer.stop_of_idle (s := s.resetProperties h) hs.layer_lt (hidle hstops))
    · rfl
  have hcount := Engine.countInSelectedLayer_eq hs h
  have hcount' := Engine.countInSelectedLayer_eq hs' h
  cases c with
  | first => exact hset 0
  | last =>
    rw [run, Engine.playLastVisualInstanceOnActiveLayer, bind_run, hcount, Outcome.bind_ok, hset]
  | previous =>
    rw [run, Engine.playPreviousVisualInstanceOnActiveLayer, bind_run,
      Engine.getSelectedColumnNumber_eq, Outcome.bind_ok]
    split_ifs
    · rfl
    · exact hset _
  | next =>
    rw [run, Engine.playNextVisualInstanceOnActiveLayer, bind_run,
      Engine.getSelectedColumnNumber_eq, Outcome.bind_ok, bind_run, hcount', Outcome.bind_ok]
    split_ifs
    · rfl
    · exact hset _

end ColumnCommand

/-! ### Sequences of calls -/

/-- The commands, and the setter of the selected column. -/
inductive ColumnCall where
  | play (command : ColumnCommand)
  | setSelectedColumnNumber (val : Int32)

namespace ColumnCall

/-- The program of a call. -/
def run (c : Host × ColumnCall) : Prog Unit :=
  match c with
  | (h, play command) => command.run h
  | (h, setSelectedColumnNumber val) =>
    EngineProperties.update h fun p => { p with selectedColumn := val }

/-- Where a call leads from the column `k`, if there are `m` columns. -/
def move (m k : ℕ) : ColumnCall → ℕ
  | play command => command.move m k
  | setSelectedColumnNumber _ => k

/-- The selected column after a call, if it was the given one before. -/
def select (column : ℕ) : ColumnCall → ℕ
  | play _ => column
  | setSelectedColumnNumber val => val.toUInt32.toNat

/-- The call goes from the selected column. -/
def readsColumn : ColumnCall → Bool
  | play command => command.readsColumn
  | setSelectedColumnNumber _ => false

variable {s : EngineState} {scene : Scene} {m k : ℕ}

theorem move_lt (hk : k < m) (c : ColumnCall) : c.move m k < m := by
  cases c with
  | play command => exact command.move_lt hk
  | setSelectedColumnNumber val => exact hk

/-- What one call does, if the selected column is the one that is played where it is read. -/
theorem final?_run (hs : s.HasColumns scene m) (hplays : s.PlaysColumn scene k) (hk : k < m)
    (h : Host) (c : ColumnCall) (hc : c.readsColumn = true → s.selectedColumn = k) :
    ∃ t, (run (h, c) s).final? = some t ∧ t.HasColumns scene m ∧ t.activeLayer = s.activeLayer ∧
      t.selectedColumn = c.select s.selectedColumn ∧ t.PlaysColumn scene (c.move m k) := by
  cases c with
  | play command =>
    obtain ⟨t, ht, hboard, hmoved⟩ := command.final?_run hs hplays hk h hc
    exact ⟨t, ht, hs.of_board hboard.symm, EngineState.activeLayer_of_board hboard,
      EngineState.selectedColumn_of_board hboard, hmoved⟩
  | setSelectedColumnNumber val =>
    exact ⟨_, rfl, hs.of_skeleton rfl rfl rfl, rfl, rfl, hplays⟩

end ColumnCall

/-- Where the calls read the selected column, it is the one they have led to. -/
def Follows (m : ℕ) : ℕ → ℕ → List ColumnCall → Prop
  | _, _, [] => True
  | column, k, c :: calls =>
    (c.readsColumn = true → column = k) ∧ Follows m (c.select column) (c.move m k) calls

/-- The column that the calls lead to from the column `k`. -/
def columnAfter (m k : ℕ) (calls : List ColumnCall) : ℕ := calls.foldl (fun k c => c.move m k) k

section runs

variable {s : EngineState} {scene : Scene} {m : ℕ}

/-- The calls walk over the columns. -/
theorem runAll_columns (calls : List (Host × ColumnCall)) : ∀ {s : EngineState} {k : ℕ},
    s.HasColumns scene m → s.PlaysColumn scene k → k < m →
    Follows m s.selectedColumn k (calls.map Prod.snd) →
    ∃ t, runAll ColumnCall.run (fun _ _ => True) calls s = some t ∧
      t.activeLayer = s.activeLayer ∧
      t.PlaysColumn scene (columnAfter m k (calls.map Prod.snd)) := by
  induction calls with
  | nil => exact fun {s k} _ hplays _ _ => ⟨s, rfl, rfl, hplays⟩
  | cons c calls ih =>
    intro s k hs hplays hk hfollows
    obtain ⟨h, call⟩ := c
    obtain ⟨hreads, hrest⟩ := hfollows
    obtain ⟨t, ht, hst, hlayer, hcolumn, hmoved⟩ := call.final?_run hs hplays hk h hreads
    rw [← hcolumn] at hrest
    obtain ⟨u, hu, hlayer', hplays'⟩ := ih hst hmoved (call.move_lt hk) hrest
    refine ⟨u, ?_, hlayer'.trans hlayer, hplays'⟩
    rw [runAll, if_pos trivial, ht, Option.bind_some, hu]

/-- Over a layer without instances the calls change the engine properties only. -/
theorem runAll_of_empty (calls : List (Host × ColumnCall)) : ∀ {s : EngineState},
    s.HasColumns scene 0 →
    (s.stopCurrentVisualIfTriggeredInvalid = true → s.activeAt s.activeLayer.toNat = none) →
    ∃ t, runAll ColumnCall.run (fun _ _ => True) calls s = some t ∧
      t.instances = s.instances ∧ t.layersList = s.layersList := by
  induction calls with
  | nil => exact fun {s} _ _ => ⟨s, rfl, rfl, rfl⟩
  | cons c calls ih =>
    intro s hs hidle
    obtain ⟨p, hrun, hp⟩ : ∃ p, ColumnCall.run c s = .ok () { s with properties := p } ∧
        p.selectedLayer = s.properties.selectedLayer := by
      obtain ⟨h, command | val⟩ := c
      · exact ⟨_, command.run_of_empty hs hidle h, rfl⟩
      · exact ⟨_, rfl, rfl⟩
    have hlayer : EngineState.activeLayer { s with properties := p } = s.activeLayer :=
      congrArg Int32.toUInt32 hp
    obtain ⟨t, ht, hinstances, hlayers⟩ := ih (s := { s with properties := p })
      (hs.of_skeleton rfl hp.symm rfl) fun hstops => by
        rw [hlayer]
        exact hidle hstops
    refine ⟨t, ?_, hinstances, hlayers⟩
    rw [runAll, if_pos trivial, hrun, Outcome.final?_ok, Option.bind_some, ht]

/-- A sequence of calls that begins by playing the first column. -/
def walk (h : Host) (calls : List (Host × ColumnCall)) (s : EngineState) : Option EngineState :=
  runAll ColumnCall.run (fun _ _ => True) ((h, .play .first) :: calls) s

/-- Over the columns of a layer the calls walk, as long as the selected column is the one that is
played where it is read. Over a layer without instances they play nothing, and stop the layer if
the set is to stop it. -/
theorem column_walk (hs : s.HasColumns scene m)
    (hactive : ∀ b, s.activeAt s.activeLayer.toNat = some b → s.Stoppable b) (h : Host)
    (calls : List (Host × ColumnCall)) :
    (0 < m → Follows m s.selectedColumn 0 (calls.map Prod.snd) →
      ∃ t, walk h calls s = some t ∧ t.activeLayer = s.activeLayer ∧
        t.PlaysColumn scene (columnAfter m 0 (calls.map Prod.snd))) ∧
    (m = 0 → ∃ t u, walk h calls s = some t ∧
      (if s.stopCurrentVisualIfTriggeredInvalid then Layers.stopAt s.activeLayer else pure () :
        Prog Unit) (s.resetProperties h) = .ok () u ∧
      t.instances = u.instances ∧ t.layersList = u.layersList) := by
  constructor
  · intro hm hfollows
    have hzero : (0 : UInt32).toNat = 0 := rfl
    obtain ⟨t, ht, hboard, hplays⟩ := Engine.final?_setActive hs hactive h hzero hm
    have hcolumn := EngineState.selectedColumn_of_board hboard
    obtain ⟨u, hu, hlayer, hplays'⟩ := runAll_columns calls (hs.of_board hboard.symm) hplays hm
      (hcolumn ▸ hfollows)
    refine ⟨u, ?_, hlayer.trans (EngineState.activeLayer_of_board hboard), hplays'⟩
    rw [walk, runAll, if_pos trivial]
    exact (congrArg (fun o => Option.bind o _) ht).trans hu
  · rintro rfl
    have hs' := hs.resetProperties h
    obtain ⟨u, hu, hsu, hidle⟩ : ∃ u, (if s.stopCurrentVisualIfTriggeredInvalid then
        Layers.stopAt s.activeLayer else pure () : Prog Unit) (s.resetProperties h) = .ok () u ∧
        u.HasColumns scene 0 ∧ (u.stopCurrentVisualIfTriggeredInvalid = true →
          u.activeAt u.activeLayer.toNat = none) := by
      by_cases hstops : s.stopCurrentVisualIfTriggeredInvalid = true
      · obtain ⟨u, hu, hboard, hnone⟩ := Layer.exists_stop_board hs'.layer_lt hactive
        refine ⟨u, ?_, hs'.of_board hboard.symm, fun _ => ?_⟩
        · rw [if_pos hstops]
          exact (Layers.stopAt_of_lt hs'.layer_lt).trans hu
        · rw [EngineState.activeLayer_of_board hboard]
          exact hnone
      · exact ⟨_, by rw [if_neg hstops, pure_run], hs', fun h => absurd h hstops⟩
    obtain ⟨t, ht, hinstances, hlayers⟩ := runAll_of_empty calls hsu hidle
    refine ⟨t, u, ?_, hu, hinstances, hlayers⟩
    have hfirst : ColumnCall.run (h, .play .first) s = .ok () u :=
      (Engine.setActive_of_not_found hs h (Nat.zero_le _)).trans hu
    rw [walk, runAll, if_pos trivial, hfirst, Outcome.final?_ok, Option.bind_some, ht]

/-- The conditions on the instances of the scene, as a test. -/
theorem EngineState.HasColumns.of_forall (hs : s.WellFormed) (hscene : scene ∈ s.scenesList)
    (hcurrent : s.currentScene = some scene.addr)
    (hlayer : s.activeLayer.toNat < s.layersList.length)
    (hperm : (VisualInstances.columnsIn s.instances s.activeLayer scene.visualInstances).Perm
      (List.range m))
    (hplayable : ∀ a ∈ scene.visualInstances, (s.instances.get? a).any (fun i =>
      s.visualsList.any (fun v => v.addr = i.visual) && !i.properties.beatSnap) = true)
    (hcount : m ≠ 0 → VisualInstances.count scene.visualInstances ≠ 0) :
    s.HasColumns scene m := by
  refine ⟨hs, hscene, hcurrent, hlayer, hperm, fun a ha _ _ => ?_, hcount⟩
  obtain ⟨i, hi, htest⟩ := (Option.any_eq_true _ _).mp (hplayable a ha)
  obtain ⟨hvisual, hsnap⟩ := (Bool.and_eq_true _ _).mp htest
  obtain ⟨v, hv, hvi⟩ := List.any_eq_true.mp hvisual
  refine ⟨⟨i, hi, v, hv, of_decide_eq_true hvi⟩, ?_⟩
  rw [EngineState.snaps, hi, Option.map_some]
  exact congrArg some (by simpa using hsnap)

end runs

/-- A set with one layer and one video, placed in the first three columns. -/
def threeColumns : List Call :=
  [(.plain, .newSet 640 480 1), (.plain, .addVideo "a.mov"), (.plain, .addVisualToScene 0 0 0),
    (.plain, .addVisualToScene 0 0 1), (.plain, .addVisualToScene 0 0 2)]

/-- A set with one layer, which plays an instance that is no longer in a cell. -/
def removedColumn : List Call :=
  [(.plain, .newSet 640 480 1), (.plain, .addVideo "a.mov"), (.plain, .addVisualToScene 0 0 1),
    (.plain, .play (.obj [("layer", .int 0), ("column", .int 1)])),
    (.plain, .removeVisualFromScene 0 1)]

/-- The conditions of `EngineState.HasColumns.of_forall` on a state of a set with one layer that is
selected. -/
def EngineState.ColumnsTaken (s : EngineState) (m : ℕ) : Prop :=
  ∃ scene ∈ s.scenesList, s.currentScene = some scene.addr ∧
    s.activeLayer.toNat < s.layersList.length ∧
    (VisualInstances.columnsIn s.instances s.activeLayer scene.visualInstances).Perm
      (List.range m) ∧
    (∀ a ∈ scene.visualInstances, (s.instances.get? a).any (fun i =>
      s.visualsList.any (fun v => v.addr = i.visual) && !i.properties.beatSnap) = true) ∧
    (m ≠ 0 → VisualInstances.count scene.visualInstances ≠ 0)

instance (s : EngineState) (m : ℕ) : Decidable (s.ColumnsTaken m) :=
  inferInstanceAs (Decidable (∃ scene ∈ s.scenesList, _))

theorem EngineState.ColumnsTaken.hasColumns {s : EngineState} {m : ℕ} (h : s.ColumnsTaken m)
    (hs : s.WellFormed) : ∃ scene ∈ s.scenesList, s.HasColumns scene m := by
  obtain ⟨scene, hscene, hcurrent, hlayer, hperm, hplayable, hcount⟩ := h
  exact ⟨scene, hscene, .of_forall hs hscene hcurrent hlayer hperm hplayable hcount⟩

/-- The next column, twice, with the selected column set in between. -/
theorem column_walk_threeColumns : ∃ s : EngineState, s.Reachable ∧ ∃ scene ∈ s.scenesList,
    ∃ t, walk .plain [(.plain, .play .next), (.plain, .setSelectedColumnNumber 1),
      (.plain, .play .next)] s = some t ∧ t.PlaysColumn scene 2 := by
  obtain ⟨s, hs, hcolumns, hidle, hselected⟩ : ∃ s : EngineState, s.Reachable ∧
      s.ColumnsTaken 3 ∧ s.activeAt s.activeLayer.toNat = none ∧ s.selectedColumn = 0 :=
    exists_reaches threeColumns (by decide +kernel)
  obtain ⟨scene, hscene, hcolumns⟩ := hcolumns.hasColumns hs.wellFormed
  have hactive : ∀ b, s.activeAt s.activeLayer.toNat = some b → s.Stoppable b := fun b hb =>
    absurd (hidle.symm.trans hb) (Option.some_ne_none b).symm
  have hfollows : Follows 3 s.selectedColumn 0
      [.play .next, .setSelectedColumnNumber 1, .play .next] := by
    rw [hselected]
    exact ⟨fun _ => rfl, fun h => Bool.noConfusion h, fun _ => rfl, trivial⟩
  obtain ⟨t, ht, -, hplays⟩ := (column_walk hcolumns hactive .plain [(.plain, .play .next),
    (.plain, .setSelectedColumnNumber 1), (.plain, .play .next)]).1 (Nat.zero_lt_succ 2) hfollows
  exact ⟨s, hs, scene, hscene, t, ht, hplays⟩

/-- Nothing moves the selected column, so that the next column is played once and no further. Over a
layer without instances the first command stops the one that the layer plays. -/
theorem column_walk_stuck :
    (∃ s : EngineState, s.Reachable ∧ ∃ scene ∈ s.scenesList, s.HasColumns scene 3 ∧
      ∃ t, walk .plain [(.plain, .play .next), (.plain, .play .next)] s = some t ∧
        ¬t.PlaysColumn scene (columnAfter 3 0 [.play .next, .play .next])) ∧
    ∃ s : EngineState, s.Reachable ∧ ∃ scene ∈ s.scenesList, s.HasColumns scene 0 ∧
      ∃ t, walk .plain [] s = some t ∧ s.activeAt s.activeLayer.toNat ≠ none ∧
        t.activeAt s.activeLayer.toNat = none := by
  constructor
  · obtain ⟨s, hs, hcolumns, hwalk⟩ : ∃ s : EngineState, s.Reachable ∧ s.ColumnsTaken 3 ∧
        (walk .plain [(.plain, .play .next), (.plain, .play .next)] s).any (fun t =>
          (t.activeAt t.activeLayer.toNat).any fun a => (t.instances.get? a).any fun i =>
            i.cell.2.toNat = 1) = true :=
      exists_reaches threeColumns (by decide +kernel)
    obtain ⟨scene, hscene, hcolumns⟩ := hcolumns.hasColumns hs.wellFormed
    obtain ⟨t, ht, hplays⟩ := (Option.any_eq_true _ _).mp hwalk
    refine ⟨s, hs, scene, hscene, hcolumns, t, ht, ?_⟩
    rintro ⟨a, -, hactive, i, hi, -, hcolumn⟩
    rw [hactive, Option.any_some, hi, Option.any_some, decide_eq_true_eq, hcolumn] at hplays
    exact absurd hplays (by decide)
  · obtain ⟨s, hs, hcolumns, hactive, hwalk⟩ : ∃ s : EngineState, s.Reachable ∧
        s.ColumnsTaken 0 ∧ s.activeAt s.activeLayer.toNat ≠ none ∧
        (walk .plain [] s).any (fun t => t.activeAt s.activeLayer.toNat = none) = true :=
      exists_reaches removedColumn (by decide +kernel)
    obtain ⟨scene, hscene, hcolumns⟩ := hcolumns.hasColumns hs.wellFormed
    obtain ⟨t, ht, hnone⟩ := (Option.any_eq_true _ _).mp hwalk
    exact ⟨s, hs, scene, hscene, hcolumns, t, ht, hactive, of_decide_eq_true hnone⟩

end ArbutusEngine
