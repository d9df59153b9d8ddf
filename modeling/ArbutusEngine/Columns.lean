import ArbutusEngine.Cells

/-!
# Columns of a layer

`VisualInstances::getLastColumnInLayer` looks for the greatest column among the instances of a
layer. Its result starts as `-1`, which the comparison with a column converts to the greatest
unsigned number, so that no column is greater.

## Main definitions

* `VisualInstances.IsLastColumn`: the greatest column of a layer, or `-1`.

## Main results

* `VisualInstances.getLastColumnInLayer_eq`: what is answered.
* `last_column_iff`: when that is the last column.
-/

open Exec

namespace ArbutusEngine

/-! ### The last column -/

namespace VisualInstances

variable {s : EngineState} {list : List Addr} {layer : UInt32}

/-- The instance at an address lies in the layer, in the column. -/
def Occupies (s : EngineState) (layer : UInt32) (column : ℕ) (a : Addr) : Prop :=
  ∃ i, s.instances.get? a = some i ∧ i.cell.1 = layer ∧ i.cell.2.toNat = column

/-- The number is the greatest column of the instances in the layer, or `-1` where there are
none. -/
structure IsLastColumn (s : EngineState) (layer : UInt32) (list : List Addr) (result : Int32) :
    Prop where
  column_le : ∀ a ∈ list, ∀ column, Occupies s layer column a → (column : ℤ) ≤ result.toInt
  exists_column : result ≠ -1 →
    ∃ a ∈ list, ∃ column, Occupies s layer column a ∧ (column : ℤ) = result.toInt

/-- No column is greater than the result that the search begins with. -/
theorem getLastColumnInLayer_eq (hl : s.instances.Live list) :
    getLastColumnInLayer layer list s = .ok (-1) s := by
  have hgreatest : ∀ column : UInt32, ¬column > (-1 : Int32).toUInt32 := by
    intro column hlt
    have hvalue : (-1 : Int32).toUInt32.toNat = 2 ^ 32 - 1 := rfl
    have hcolumn := column.toNat_lt
    have := UInt32.lt_iff_toNat_lt.mp hlt
    omega
  rw [getLastColumnInLayer]
  induction list with
  | nil => rfl
  | cons a rest ih =>
    obtain ⟨i, hi⟩ := hl a List.mem_cons_self
    have hrest := ih (hl.mono fun b hb => List.mem_cons_of_mem a hb)
    rw [getLastColumnInLayerFrom, bind_run, VisualInstance.read, hi]
    simp only [ofOption, pure_run, Outcome.bind_ok, hgreatest, and_false, if_false]
    exact hrest

end VisualInstances

open VisualInstances in
/-- The answer is the last column of the layer exactly if the layer has no instance in the list. -/
theorem last_column_iff {s : EngineState} {list : List Addr} (hl : s.instances.Live list)
    (layer : UInt32) :
    (∃ result t, getLastColumnInLayer layer list s = .ok result t ∧
        IsLastColumn s layer list result) ↔
      ∀ a ∈ list, ∀ column, ¬Occupies s layer column a := by
  rw [getLastColumnInLayer_eq hl]
  constructor
  · rintro ⟨result, t, hrun, hlast⟩ a ha column hcolumn
    obtain rfl : (-1 : Int32) = result := (Outcome.ok.inj hrun).1
    have hle := hlast.column_le a ha column hcolumn
    have hneg : (-1 : Int32).toInt = -1 := rfl
    omega
  · intro hnone
    refine ⟨-1, s, rfl, ⟨fun a ha column hcolumn => ?_, fun hne => absurd rfl hne⟩⟩
    exact absurd hcolumn (hnone a ha column)

/-- A set with one video, in the first cell. -/
def firstCellTaken : List Call :=
  [(.plain, .newSet 640 480 2), (.plain, .addVideo "a.mov"), (.plain, .addVisualToScene 0 0 0)]

/-- The first cell is taken by the first instance. -/
theorem exists_firstCellTaken : ∃ s : EngineState, s.Reachable ∧ ∃ i : VisualInstance,
    s.instances.get? 0 = some i ∧ i.cell = (0, 0) ∧ s.instances.Live [0] := by
  obtain ⟨s, hs, hcell⟩ : ∃ s : EngineState, s.Reachable ∧
      (s.instances.get? 0).map VisualInstance.cell = some (0, 0) :=
    exists_reaches firstCellTaken (by decide +kernel)
  obtain ⟨i, hi, hcell⟩ := Option.map_eq_some_iff.mp hcell
  exact ⟨s, hs, i, hi, hcell, fun a ha => ⟨i, List.mem_singleton.mp ha ▸ hi⟩⟩

/-- The second layer has no instance. -/
theorem last_column_of_second_layer : ∃ s : EngineState, s.Reachable ∧ ∃ result t,
    VisualInstances.getLastColumnInLayer 1 [0] s = .ok result t ∧
      VisualInstances.IsLastColumn s 1 [0] result := by
  obtain ⟨s, hs, i, hi, hcell, hlive⟩ := exists_firstCellTaken
  refine ⟨s, hs, (last_column_iff hlive 1).mpr fun a ha column hcolumn => ?_⟩
  obtain rfl := List.mem_singleton.mp ha
  obtain ⟨j, hj, hlayer, -⟩ := hcolumn
  obtain rfl := Option.some.inj (hi.symm.trans hj)
  rw [hcell] at hlayer
  exact absurd hlayer (by decide)

/-- The first layer has an instance, in its first column. -/
theorem last_column_missed : ∃ s : EngineState, s.Reachable ∧ ∃ t,
    VisualInstances.getLastColumnInLayer 0 [0] s = .ok (-1) t ∧
      ¬VisualInstances.IsLastColumn s 0 [0] (-1) := by
  obtain ⟨s, hs, i, hi, hcell, hlive⟩ := exists_firstCellTaken
  refine ⟨s, hs, s, VisualInstances.getLastColumnInLayer_eq hlive, fun hlast => ?_⟩
  have hle := hlast.column_le 0 List.mem_cons_self 0 ⟨i, hi, by simp [hcell]⟩
  exact absurd hle (by decide)

end ArbutusEngine
