import Mathlib.Data.List.Find
import ArbutusEngine.Lib.KeyLog
import ArbutusEngine.WellFormed

/-!
# Cells

A scene places its instances in cells, given by a layer and a column. The list of instances that
`VisualInstances` keeps is unsorted, and holds the cells as signed numbers; `add` erases the first
instance of the cell before it appends the new one. Read as a map, the list has one binding for each
cell that is occupied: that of the latest `add` to the cell, unless a `remove` came after it. The
log of the calls says which that is, and `VisualInstances.Represents` ties the list to the log.

The lookups of a cell of the current scene go through `VisualInstances::get` and
`VisualInstances::inColumn`. `Engine::getVisualAtLayerAndInstanceN` and
`Set::isVisualInstantInColumn` pass the column where the layer is expected.

## Main definitions

* `CellCall`, `runCells`: runs of `add` and `remove` on one list.
* `VisualInstances.Represents`: the list is that of the standing bindings of the log.

## Main results

* `runCells_represents`: every run keeps the list and the log together.
* `cells_refine`: what the lookups and the counts answer after any run.
* `lookups_agree_iff`: when all lookups of a cell agree.
-/

open Exec

namespace ArbutusEngine

/-! ### Runs on one list -/

/-- The calls that change a list of instances. -/
inductive CellCall where
  | add (visual : Addr) (layer column : UInt32) (name : String)
  | remove (layer column : UInt32)

/-- The cell a call is about. -/
def CellCall.cell : CellCall → UInt32 × UInt32
  | add _ layer column _ => (layer, column)
  | remove layer column => (layer, column)

def CellCall.isAdd : CellCall → Bool
  | add .. => true
  | remove .. => false

/-- A call on a list: the list afterwards, and the instance that `add` returns. -/
def CellCall.run (h : Host) (list : List Addr) : CellCall → Prog (List Addr × Option Addr)
  | add visual layer column name => do
    let list ← VisualInstances.add h visual layer column name list
    return (list, list.getLast?)
  | remove layer column => do
    let list ← VisualInstances.remove layer column list
    return (list, none)

/-- Calls one after another: the list afterwards, and the log of the calls, each with its cell and
with the instance it returned. -/
def runCells : List (Host × CellCall) → List Addr →
    Prog (List Addr × List ((UInt32 × UInt32) × Option Addr))
  | [], list => return (list, [])
  | (h, call) :: calls, list => do
    let r ← call.run h list
    let rest ← runCells calls r.1
    return (rest.1, (call.cell, r.2) :: rest.2)

namespace VisualInstances

/-- The list holds the standing bindings of the log, in order, each in its cell. -/
structure Represents (instances : Heap VisualInstance) (list : List Addr)
    (log : List ((UInt32 × UInt32) × Option Addr)) : Prop where
  list_eq : list = (KeyLog.standing log).map Prod.snd
  cell_eq : ∀ e ∈ KeyLog.standing log, (instances.get? e.2).map VisualInstance.cell = some e.1

namespace Represents

variable {instances : Heap VisualInstance} {list : List Addr}
  {log : List ((UInt32 × UInt32) × Option Addr)} {s : EngineState}

theorem nil (instances : Heap VisualInstance) : Represents instances [] [] where
  list_eq := rfl
  cell_eq _ he := absurd he List.not_mem_nil

theorem live (hr : Represents instances list log) : instances.Live list := by
  intro a ha
  rw [hr.list_eq] at ha
  obtain ⟨e, he, rfl⟩ := List.mem_map.mp ha
  obtain ⟨i, hi, -⟩ := Option.map_eq_some_iff.mp (hr.cell_eq e he)
  exact ⟨i, hi⟩

/-- On the bindings of the log, `inCell` compares the key. -/
theorem inCell_eq (hr : Represents instances list log) (cell : UInt32 × UInt32)
    {e : (UInt32 × UInt32) × Addr} (he : e ∈ KeyLog.standing log) :
    inCell instances cell e.2 = decide (e.1 = cell) := by
  rw [inCell, hr.cell_eq e he]
  simp

theorem find?_eq (hr : Represents instances list log) (cell : UInt32 × UInt32) :
    list.find? (inCell instances cell) = KeyLog.latest log cell := by
  rw [hr.list_eq, List.find?_map, ← KeyLog.find?_standing]
  congr 1
  exact List.find?_congr fun e he => hr.inCell_eq cell he

theorem any_eq (hr : Represents instances list log) (cell : UInt32 × UInt32) :
    list.any (inCell instances cell) = (KeyLog.latest log cell).isSome := by
  rw [← hr.find?_eq, List.isSome_find?]

theorem eraseP_eq (hr : Represents instances list log) (cell : UInt32 × UInt32) :
    list.eraseP (inCell instances cell) =
      ((KeyLog.standing log).filter fun e => e.1 ≠ cell).map Prod.snd := by
  rw [hr.list_eq, List.eraseP_map, ← KeyLog.eraseP_standing]
  exact congrArg (List.map Prod.snd) (KeyLog.eraseP_congr fun e he => hr.inCell_eq cell he)

/-- Clearing a cell removes its instance from the list. -/
theorem clear (hr : Represents instances list log) (cell : UInt32 × UInt32) :
    Represents instances (list.eraseP (inCell instances cell)) (log ++ [(cell, none)]) where
  list_eq := by
    rw [hr.eraseP_eq, KeyLog.standing_concat, Option.map_none, Option.toList_none, List.append_nil]
  cell_eq e he := by
    rw [KeyLog.standing_concat, Option.map_none, Option.toList_none, List.append_nil] at he
    exact hr.cell_eq e (List.mem_filter.mp he).1

/-- Setting a cell puts the new instance at the end, in the place of the one before it. -/
theorem set (hr : Represents instances list log) {i : VisualInstance} :
    Represents (instances.alloc i) (list.eraseP (inCell instances i.cell) ++ [instances.next])
      (log ++ [(i.cell, some instances.next)]) where
  list_eq := by
    rw [hr.eraseP_eq, KeyLog.standing_concat, List.map_append]
    rfl
  cell_eq e he := by
    rw [KeyLog.standing_concat, List.mem_append] at he
    rcases he with he | he
    · have hcell := hr.cell_eq e (List.mem_filter.mp he).1
      obtain ⟨j, hj, -⟩ := Option.map_eq_some_iff.mp hcell
      rw [Heap.get?_alloc_of_some _ hj, ← hj]
      exact hcell
    · obtain rfl := List.mem_singleton.mp he
      rw [Heap.get?_alloc_next, Option.map_some]

theorem length_eq (hr : Represents instances list log) :
    list.length = Set.ncard {cell | KeyLog.latest log cell ≠ none} := by
  rw [hr.list_eq, List.length_map, KeyLog.length_standing]

/-- The loop of `countInLayer` adds the instances of the layer to its counter. -/
theorem countInLayerFrom_eq {list : List Addr} (hl : s.instances.Live list) (layer n : UInt32) :
    countInLayerFrom layer n list s = .ok (n + UInt32.ofNat (list.countP fun a =>
      (s.instances.get? a).any fun i => i.cell.1 = layer)) s := by
  induction list generalizing n with
  | nil => simp [countInLayerFrom]
  | cons a rest ih =>
    obtain ⟨i, hi⟩ := hl a List.mem_cons_self
    have hrest := ih (hl.mono fun b hb => List.mem_cons_of_mem a hb)
    by_cases hlayer : i.cell.1 = layer
    · simp [countInLayerFrom, VisualInstance.read, hi, hlayer, hrest, UInt32.add_assoc,
        UInt32.add_comm]
    · simp [countInLayerFrom, VisualInstance.read, hi, hlayer, hrest]

theorem countP_eq (hr : Represents instances list log) (layer : UInt32) :
    (list.countP fun a => (instances.get? a).any fun i => i.cell.1 = layer) =
      Set.ncard {cell | cell.1 = layer ∧ KeyLog.latest log cell ≠ none} := by
  rw [KeyLog.ncard_latest log fun cell => cell.1 = layer, hr.list_eq, List.countP_map]
  refine List.countP_congr fun e he => ?_
  obtain ⟨i, hi, hcell⟩ := Option.map_eq_some_iff.mp (hr.cell_eq e he)
  simp [hi, hcell]

end Represents

end VisualInstances

/-- One call keeps the list and the log together. -/
theorem CellCall.run_represents {s : EngineState} {list : List Addr}
    {log : List ((UInt32 × UInt32) × Option Addr)}
    (hr : VisualInstances.Represents s.instances list log) (h : Host) (call : CellCall) :
    ∃ list' made t, call.run h list s = .ok (list', made) t ∧ made.isSome = call.isAdd ∧
      VisualInstances.Represents t.instances list' (log ++ [(call.cell, made)]) := by
  cases call with
  | add visual layer column name =>
    have hset := hr.set (i := VisualInstance.fresh h s.instances.next visual layer column name)
    rw [VisualInstance.cell_fresh] at hset
    rw [CellCall.run, bind_run, VisualInstances.add_eq hr.live, Outcome.bind_ok, pure_run,
      List.getLast?_concat]
    exact ⟨_, _, _, rfl, rfl, hset⟩
  | remove layer column =>
    rw [CellCall.run, bind_run, VisualInstances.remove_eq hr.live, Outcome.bind_ok, pure_run]
    exact ⟨_, _, _, rfl, rfl, hr.clear (layer, column)⟩

/-- Every run returns, and keeps the list and the log together. -/
theorem runCells_represents (calls : List (Host × CellCall)) {s : EngineState} {list : List Addr}
    {log : List ((UInt32 × UInt32) × Option Addr)}
    (hr : VisualInstances.Represents s.instances list log) :
    ∃ list' log' t, runCells calls list s = .ok (list', log') t ∧
      log'.map (fun e => (e.1, e.2.isSome)) = calls.map (fun c => (c.2.cell, c.2.isAdd)) ∧
      VisualInstances.Represents t.instances list' (log ++ log') := by
  induction calls generalizing s list log with
  | nil => exact ⟨list, [], s, rfl, rfl, (List.append_nil log).symm ▸ hr⟩
  | cons c calls ih =>
    obtain ⟨h, call⟩ := c
    obtain ⟨list₁, made, t₁, hrun, hmade, hr₁⟩ := CellCall.run_represents hr h call
    obtain ⟨list₂, log₂, t₂, hrest, hcells, hr₂⟩ := ih hr₁
    refine ⟨list₂, (call.cell, made) :: log₂, t₂, ?_, ?_, ?_⟩
    · rw [runCells, bind_run, hrun, Outcome.bind_ok, bind_run, hrest, Outcome.bind_ok, pure_run]
    · rw [List.map_cons, List.map_cons, hcells, hmade]
    · rwa [List.append_assoc, List.singleton_append] at hr₂

/-- What a list of instances answers, read as a map from cells to instances whose latest changes are
those of the log. -/
structure VisualInstances.RefinesMap (s : EngineState) (list : List Addr)
    (log : List ((UInt32 × UInt32) × Option Addr)) : Prop where
  /-- No two instances share a cell. -/
  cells_ne : list.Pairwise fun a b =>
    (s.instances.get? a).map VisualInstance.cell ≠ (s.instances.get? b).map VisualInstance.cell
  get_eq : ∀ layer column, VisualInstances.get layer column list s =
    .ok (if VisualInstances.count list = 0 then none else KeyLog.latest log (layer, column)) s
  inColumn_eq : ∀ layer column, VisualInstances.inColumn layer column list s =
    .ok (KeyLog.latest log (layer, column)).isSome s
  count_eq : VisualInstances.count list =
    UInt32.ofNat (Set.ncard {cell | KeyLog.latest log cell ≠ none})
  countInLayer_eq : ∀ layer, VisualInstances.countInLayer layer list s =
    .ok (UInt32.ofNat (Set.ncard {cell | cell.1 = layer ∧ KeyLog.latest log cell ≠ none})) s
  /-- The instances are in the order of the calls that placed them. -/
  order : list = (KeyLog.standing log).map Prod.snd

theorem VisualInstances.Represents.refinesMap {s : EngineState} {list : List Addr}
    {log : List ((UInt32 × UInt32) × Option Addr)}
    (hr : VisualInstances.Represents s.instances list log) :
    VisualInstances.RefinesMap s list log where
  cells_ne := by
    have hnodup := List.pairwise_map.mp (KeyLog.nodup_standing log)
    rw [hr.list_eq, List.pairwise_map]
    refine hnodup.imp_of_mem fun {e e'} he he' hne => ?_
    rw [hr.cell_eq e he, hr.cell_eq e' he']
    exact fun h => hne (Option.some.inj h)
  get_eq layer column := by
    rw [VisualInstances.get_eq hr.live, VisualInstances.found, hr.find?_eq]
  inColumn_eq layer column := by rw [VisualInstances.inColumn_eq hr.live, hr.any_eq]
  count_eq := by rw [VisualInstances.count, hr.length_eq]
  countInLayer_eq layer := by
    rw [VisualInstances.countInLayer, VisualInstances.Represents.countInLayerFrom_eq hr.live,
      hr.countP_eq, UInt32.zero_add]
  order := hr.list_eq

/-- After any calls of `add` and `remove` on an empty list, the list answers as the finite map that
the calls describe; the counts are unsigned, and nothing is found while `count` is zero. -/
theorem cells_refine (s : EngineState) (calls : List (Host × CellCall)) :
    ∃ list log t, runCells calls [] s = .ok (list, log) t ∧
      log.map (fun e => (e.1, e.2.isSome)) = calls.map (fun c => (c.2.cell, c.2.isAdd)) ∧
      VisualInstances.RefinesMap t list log := by
  obtain ⟨list, log, t, hrun, hcells, hr⟩ :=
    runCells_represents calls (VisualInstances.Represents.nil s.instances)
  exact ⟨list, log, t, hrun, hcells, hr.refinesMap⟩

/-- Calls that add an instance to each of the first `n` cells, `2 ^ 16` columns to a layer. -/
def addsUpTo (n : ℕ) : List (Host × CellCall) :=
  (List.range n).map fun k =>
    (.plain, .add 0 (UInt32.ofNat (k / 2 ^ 16)) (UInt32.ofNat (k % 2 ^ 16)) "")

theorem nodup_cells_addsUpTo {n : ℕ} (hn : n ≤ 2 ^ 32) :
    ((addsUpTo n).map fun c => c.2.cell).Nodup := by
  rw [addsUpTo, List.map_map]
  refine List.Nodup.map_on (fun j hj k hk hjk => ?_) List.nodup_range
  rw [List.mem_range] at hj hk
  simp only [Function.comp_apply, CellCall.cell, Prod.mk.injEq] at hjk
  have hlayer := congrArg UInt32.toNat hjk.1
  have hcolumn := congrArg UInt32.toNat hjk.2
  simp only [UInt32.toNat_ofNat'] at hlayer hcolumn
  omega

/-- Instances added to different cells all stand. -/
theorem runCells_of_nodup {calls : List (Host × CellCall)} (hadd : ∀ c ∈ calls, c.2.isAdd = true)
    (hcells : (calls.map fun c => c.2.cell).Nodup) (s : EngineState) :
    ∃ list log t, runCells calls [] s = .ok (list, log) t ∧
      VisualInstances.Represents t.instances list log ∧ list.length = calls.length ∧
      ∀ c ∈ calls, KeyLog.latest log c.2.cell ≠ none := by
  obtain ⟨list, log, t, hrun, hlog, hr⟩ :=
    runCells_represents calls (VisualInstances.Represents.nil s.instances)
  rw [List.nil_append] at hr
  have hkeys : log.map Prod.fst = calls.map fun c => c.2.cell := by
    have hfst := congrArg (List.map Prod.fst) hlog
    rwa [List.map_map, List.map_map] at hfst
  have hsome : ∀ e ∈ log, e.2.isSome = true := by
    intro e he
    have hmem : (e.1, e.2.isSome) ∈ calls.map fun c => (c.2.cell, c.2.isAdd) :=
      hlog ▸ List.mem_map_of_mem he
    obtain ⟨c, hc, hce⟩ := List.mem_map.mp hmem
    rw [← (Prod.mk.inj hce).2, hadd c hc]
  have hstanding : (KeyLog.standing log).map Prod.fst = calls.map fun c => c.2.cell :=
    (KeyLog.map_fst_standing (hkeys ▸ hcells) hsome).trans hkeys
  refine ⟨list, log, t, hrun, hr, ?_, fun c hc => ?_⟩
  · have hlength := congrArg List.length hstanding
    rw [List.length_map, List.length_map] at hlength
    rw [hr.list_eq, List.length_map, hlength]
  · have hmem : c.2.cell ∈ (KeyLog.standing log).map Prod.fst :=
      hstanding ▸ List.mem_map_of_mem hc
    obtain ⟨e, he, hce⟩ := List.mem_map.mp hmem
    rw [← hce, KeyLog.mem_standing.mp he]
    exact Option.some_ne_none _

/-- With an instance in each of the first `2 ^ 32` cells, `count` is zero and `get` finds
nothing. -/
theorem cells_overflow : ∃ list log t, runCells (addsUpTo (2 ^ 32)) [] .init = .ok (list, log) t ∧
    (VisualInstances.count list).toNat ≠ Set.ncard {cell | KeyLog.latest log cell ≠ none} ∧
    KeyLog.latest log (0, 0) ≠ none ∧ VisualInstances.get 0 0 list t = .ok none t := by
  have hadd : ∀ c ∈ addsUpTo (2 ^ 32), c.2.isAdd = true := by
    intro c hc
    obtain ⟨k, -, rfl⟩ := List.mem_map.mp hc
    rfl
  obtain ⟨list, log, t, hrun, hr, hlength, hlatest⟩ :=
    runCells_of_nodup hadd (nodup_cells_addsUpTo le_rfl) .init
  have hfull : list.length = 2 ^ 32 := by
    rw [hlength, addsUpTo, List.length_map, List.length_range]
  have hcount : VisualInstances.count list = 0 := by
    rw [VisualInstances.count, hfull]
    rfl
  have hzero : (Host.plain, CellCall.add 0 0 0 "") ∈ addsUpTo (2 ^ 32) :=
    List.mem_map.mpr ⟨0, List.mem_range.mpr (Nat.two_pow_pos 32), rfl⟩
  refine ⟨list, log, t, hrun, ?_, hlatest _ hzero, ?_⟩
  · rw [hcount, ← hr.length_eq, hfull]
    exact (Nat.two_pow_pos 32).ne
  · rw [VisualInstances.get, if_pos hcount, pure_run]

/-! ### Lookups in the current scene -/

section lookups

variable {s : EngineState}

/-- For an existing layer, `Engine::setActiveVisualInstance` returns what the lookup has found. -/
theorem Engine.setActiveVisualInstance_post_found (h : Host) {layerN column : UInt32}
    (hlayer : layerN.toNat < s.layersList.length) :
    (Engine.setActiveVisualInstance h layerN column s).Post
      (fun found _ => found = s.foundInCell (layerN, column)) fun _ _ => True := by
  refine Engine.setActiveVisualInstance_post_of (fun hnone => ?_) (fun a _ hfound => ?_)
    fun _ hnone => ?_
  · exact absurd hnone (Layers.get_ne_none_iff.mpr hlayer)
  · exact .of_forall (fun _ _ => hfound.symm) fun _ _ => trivial
  · exact .of_forall (fun _ _ => hnone.symm) fun _ _ => trivial

variable (hs : s.WellFormed) {scene : Scene} (hscene : scene ∈ s.scenesList)

include hs hscene

/-- Reading the current scene. -/
theorem Scene.read_current {α : Type} (x : Scene → Prog α) :
    (Scene.read scene.addr >>= x) s = x scene s := by
  rw [bind_run, Scene.read, hs.find?_scene hscene, ofOption_some, pure_run, Outcome.bind_ok]

variable (hcurrent : s.currentScene = some scene.addr)

include hcurrent

theorem EngineState.foundInCell_current (cell : UInt32 × UInt32) :
    s.foundInCell cell = VisualInstances.found s.instances cell scene.visualInstances := by
  rw [EngineState.foundInCell, hcurrent, Option.bind_some, hs.find?_scene hscene, Option.bind_some]

theorem Set.getVisualInstanceInCorrentSet_eq (layer column : UInt32) :
    Set.getVisualInstanceInCorrentSet layer column s = .ok (s.foundInCell (layer, column)) s := by
  rw [Set.getVisualInstanceInCorrentSet, bind_run, gets_run, Outcome.bind_ok, hcurrent,
    EngineState.foundInCell_current hs hscene hcurrent]
  exact (Scene.read_current hs hscene _).trans
    (VisualInstances.get_eq (hs.instances_live scene hscene) layer column)

theorem Engine.getVisualAtLayerAndInstanceN_eq (layerN visualInstanceN : UInt32) :
    Engine.getVisualAtLayerAndInstanceN layerN visualInstanceN s =
      .ok (s.foundInCell (visualInstanceN, layerN)) s := by
  rw [Engine.getVisualAtLayerAndInstanceN, bind_run, gets_run, Outcome.bind_ok, hcurrent,
    EngineState.foundInCell_current hs hscene hcurrent]
  exact (Scene.read_current hs hscene _).trans
    (VisualInstances.get_eq (hs.instances_live scene hscene) visualInstanceN layerN)

theorem Set.isVisualInstantInColumn_eq (layerN column : UInt32) :
    Set.isVisualInstantInColumn layerN column s =
      .ok (scene.visualInstances.any (VisualInstances.inCell s.instances (column, layerN))) s := by
  rw [Set.isVisualInstantInColumn, bind_run, gets_run, Outcome.bind_ok, hcurrent]
  exact (Scene.read_current hs hscene _).trans
    (VisualInstances.inColumn_eq (hs.instances_live scene hscene) column layerN)

end lookups

/-- All lookups of a cell of the current scene give the same answer. What
`Engine::setActiveVisualInstance` returns is asked for only of an existing layer, and only if
playing the instance does not throw. -/
def LookupsAgree (h : Host) (s : EngineState) (layer column : UInt32) : Prop :=
  ∃ found, Set.getVisualInstanceInCorrentSet layer column s = .ok found s ∧
    Engine.getVisualAtLayerAndInstanceN layer column s = .ok found s ∧
    (layer.toNat < s.layersList.length → (Engine.setActiveVisualInstance h layer column s).Post
      (fun r _ => r = found) fun _ _ => True) ∧
    Set.isVisualInstantInColumn layer column s = .ok found.isSome s

/-- An instance of the scene lies in the cell. -/
def Scene.Occupied (scene : Scene) (s : EngineState) (cell : UInt32 × UInt32) : Prop :=
  ∃ a ∈ scene.visualInstances, VisualInstances.inCell s.instances cell a = true

instance (s : EngineState) (scene : Scene) (cell : UInt32 × UInt32) :
    Decidable (scene.Occupied s cell) := inferInstanceAs (Decidable (∃ a ∈ scene.visualInstances, _))

/-- One instance lies in one cell. -/
theorem VisualInstances.inCell_unique {instances : Heap VisualInstance}
    {cell cell' : UInt32 × UInt32}
    {a : Addr} (h : inCell instances cell a = true) (h' : inCell instances cell' a = true) :
    cell = cell' := by
  rw [inCell, decide_eq_true_eq] at h h'
  exact Option.some.inj (h.symm.trans h')

/-- The mirrored lookup finds the same instance exactly on the diagonal, or where both find
nothing. -/
theorem VisualInstances.found_swap_iff {instances : Heap VisualInstance} {list : List Addr}
    {layer column : UInt32} :
    found instances (layer, column) list = found instances (column, layer) list ↔
      layer = column ∨ found instances (layer, column) list = none ∧
        found instances (column, layer) list = none := by
  constructor
  · intro heq
    cases hfound : found instances (layer, column) list with
    | none => exact .inr ⟨rfl, heq ▸ hfound⟩
    | some a =>
      have hcell := List.find?_some (find?_of_found hfound)
      have hcell' := List.find?_some (find?_of_found (heq ▸ hfound))
      exact .inl (Prod.mk.inj (inCell_unique hcell hcell')).1
  · rintro (rfl | ⟨hnone, hnone'⟩)
    · rfl
    · rw [hnone, hnone']

/-- All lookups of a cell agree exactly when its two numbers are equal, or neither the cell nor its
mirror image is occupied. A scene with a multiple of `2 ^ 32` instances looks empty to the lookups,
and then it is enough that the mirror image is free. -/
theorem lookups_agree_iff {s : EngineState} (hs : s.WellFormed) {scene : Scene}
    (hscene : scene ∈ s.scenesList) (hcurrent : s.currentScene = some scene.addr) (h : Host)
    (layer column : UInt32) :
    LookupsAgree h s layer column ↔
      if VisualInstances.count scene.visualInstances = 0 then ¬ scene.Occupied s (column, layer)
      else layer = column ∨
        ¬ scene.Occupied s (layer, column) ∧ ¬ scene.Occupied s (column, layer) := by
  have hset := Set.getVisualInstanceInCorrentSet_eq hs hscene hcurrent layer column
  have hget := Engine.getVisualAtLayerAndInstanceN_eq hs hscene hcurrent layer column
  have hin := Set.isVisualInstantInColumn_eq hs hscene hcurrent layer column
  have hfound := EngineState.foundInCell_current hs hscene hcurrent
  have hany : ∀ cell, scene.visualInstances.any (VisualInstances.inCell s.instances cell) = true ↔
      scene.Occupied s cell := fun cell => List.any_eq_true
  have hagree : LookupsAgree h s layer column ↔
      s.foundInCell (layer, column) = s.foundInCell (column, layer) ∧
        (scene.Occupied s (column, layer) ↔ s.foundInCell (layer, column) ≠ none) := by
    constructor
    · rintro ⟨found, hset', hget', -, hin'⟩
      obtain ⟨rfl, -⟩ := Outcome.ok.inj (hset.symm.trans hset')
      obtain ⟨heq, -⟩ := Outcome.ok.inj (hget.symm.trans hget')
      obtain ⟨hsome, -⟩ := Outcome.ok.inj (hin.symm.trans hin')
      exact ⟨heq.symm, by rw [← hany, hsome, Option.isSome_iff_ne_none]⟩
    · rintro ⟨heq, hocc⟩
      refine ⟨_, hset, heq ▸ hget, Engine.setActiveVisualInstance_post_found h, hin.trans ?_⟩
      congr 1
      rw [Bool.eq_iff_iff, hany, hocc, Option.isSome_iff_ne_none]
  rw [hagree, hfound, hfound, VisualInstances.found_swap_iff]
  split_ifs with hcount
  · have hnone : ∀ cell, VisualInstances.found s.instances cell scene.visualInstances = none :=
      fun cell => if_pos hcount
    simp [hnone]
  · have hocc : ∀ cell, VisualInstances.found s.instances cell scene.visualInstances = none ↔
        ¬ scene.Occupied s cell := by
      intro cell
      rw [← not_iff_not, not_not]
      exact VisualInstances.found_ne_none_iff.trans (and_iff_right hcount)
    rw [Ne, hocc, hocc, not_not]
    constructor
    · exact fun hagree => hagree.1
    · rintro (rfl | ⟨hfree, hfree'⟩)
      · exact ⟨.inl rfl, Iff.rfl⟩
      · exact ⟨.inr ⟨hfree, hfree'⟩, iff_of_false hfree' hfree⟩

/-- A set with one layer and one video, placed in the column `1` of the layer `0`. -/
def placedOffDiagonal : List Call :=
  [(.plain, .newSet 640 480 1), (.plain, .addVideo "a.mov"), (.plain, .addVisualToScene 0 0 1)]

/-- The instance placed in the column `1` of the second layer is found there by all lookups. -/
theorem lookups_agree_diagonal : ∃ s : EngineState, s.Reachable ∧ s.layersList.length = 2 ∧
    (∃ scene ∈ s.scenesList, s.currentScene = some scene.addr ∧ scene.Occupied s (1, 1)) ∧
      LookupsAgree .plain s 1 1 := by
  obtain ⟨s, hs, hlayers, ⟨scene, hscene, hcurrent, hocc⟩, hcount⟩ : ∃ s : EngineState,
      s.Reachable ∧ s.layersList.length = 2 ∧ (∃ scene ∈ s.scenesList,
        s.currentScene = some scene.addr ∧ scene.Occupied s (1, 1)) ∧
      ∀ scene ∈ s.scenesList, VisualInstances.count scene.visualInstances ≠ 0 :=
    exists_reaches [(.plain, .newSet 640 480 2), (.plain, .addVideo "a.mov"),
      (.plain, .addVisualToScene 0 1 1)] (by decide +kernel)
  refine ⟨s, hs, hlayers, ⟨scene, hscene, hcurrent, hocc⟩, ?_⟩
  rw [lookups_agree_iff hs.wellFormed hscene hcurrent, if_neg (hcount scene hscene)]
  exact .inl rfl

/-- The instance placed in the column `1` of the layer `0` is found there by one lookup and not by
the other. -/
theorem lookups_disagree_offDiagonal : ∃ s : EngineState, s.Reachable ∧
    ¬ LookupsAgree .plain s 0 1 := by
  obtain ⟨s, hs, hfound, hmissed⟩ : ∃ s : EngineState, s.Reachable ∧
      (Set.getVisualInstanceInCorrentSet 0 1 s).returns (fun a _ => a.isSome) = true ∧
      (Engine.getVisualAtLayerAndInstanceN 0 1 s).returns (fun a _ => a.isNone) = true :=
    exists_reaches placedOffDiagonal (by decide +kernel)
  refine ⟨s, hs, ?_⟩
  rintro ⟨found, hset, hget, -, -⟩
  rw [hset] at hfound
  rw [hget] at hmissed
  cases found with
  | none => exact Bool.false_ne_true hfound
  | some a => exact Bool.false_ne_true hmissed

end ArbutusEngine
