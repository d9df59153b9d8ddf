import ArbutusEngine.Model.Layers

/-!
# Moving between layers

The engine properties hold the number of the selected layer, which counts from zero and is signed.
`Layers::setActive` takes a number that counts from one; it ignores `0`, and takes a number past the
last layer for that of the last layer. The four other commands are calls of `setActive`:
`activatePrevious` passes the stored number, which is the number from one of the layer before, and
`activateNext` passes that plus two. On a list with layers every command is therefore a step of a
walk on their positions that stops at both ends.

## Main definitions

* `EngineState.Selects`: the layer at a position is the selected one.
* `Navigation`, `Navigation.run`: the commands, and `Navigation.walk`, the step each one makes.

## Main results

* `Layers.setActive_selects`: what `Layers::setActive` does on a list with layers.
* `navigation_walks`: every sequence of commands.
-/

open Exec

namespace ArbutusEngine

/-! ### The selected layer -/

/-- The layer at the position is the selected one. -/
structure EngineState.Selects (s : EngineState) (i : ℕ) : Prop where
  lt : i < s.layersList.length
  eq : s.properties.selectedLayer.toInt = i

/-- The number of layers is one that the selection, an `int`, can count up to. `Layers::add` stops
at six. -/
def EngineState.SelectionFits (s : EngineState) : Prop := s.layersList.length ≤ 2 ^ 31

theorem EngineState.selectionFits_of_le {s : EngineState}
    (hs : s.layersList.length ≤ maximumNumberOfLayers) : s.SelectionFits := by
  have hmax : maximumNumberOfLayers = 6 := rfl
  rw [SelectionFits]
  omega

namespace EngineState.Selects

variable {s : EngineState} {i : ℕ}

/-- The selected number, read back as an unsigned one. -/
theorem toNat_eq (hs : s.Selects i) : s.properties.selectedLayer.toUInt32.toNat = i := by
  have heq : s.properties.selectedLayer.toBitVec.toInt = i := hs.eq
  change s.properties.selectedLayer.toBitVec.toNat = i
  rw [BitVec.toInt_eq_toNat_cond] at heq
  split_ifs at heq <;> omega

theorem getCurrent_eq (hs : s.Selects i) (h : Host) :
    Layers.getCurrent h s = .ok s.layersList[i]? (s.resetProperties h) := by
  change Outcome.ok s.layersList[s.properties.selectedLayer.toUInt32.toNat]? _ = _
  rw [hs.toNat_eq]
  rfl

theorem exists_getCurrent (hs : s.Selects i) (h : Host) :
    ∃ layer u, Layers.getCurrent h s = .ok (some layer) u := by
  obtain ⟨layer, hlayer⟩ : ∃ layer, s.layersList[i]? = some layer :=
    ⟨_, List.getElem?_eq_getElem hs.lt⟩
  exact ⟨layer, s.resetProperties h, by rw [hs.getCurrent_eq, hlayer]⟩

theorem getCurrentId_eq (hs : s.Selects i) (h : Host) :
    Layers.getCurrentId h s = .ok (UInt32.ofNat i) (s.resetProperties h) := by
  rw [← hs.toNat_eq, UInt32.ofNat_toNat]
  rfl

end EngineState.Selects

/-- The state after the layer at a position has been selected. -/
def EngineState.select (h : Host) (i : ℕ) (s : EngineState) : EngineState :=
  { s with properties := { s.properties.setDefaults h with selectedLayer := Int32.ofNat i } }

theorem EngineState.selects_select {s : EngineState} {i : ℕ} (hi : i < s.layersList.length)
    (hfit : s.SelectionFits) (h : Host) : (s.select h i).Selects i where
  lt := hi
  eq := Int32.toInt_ofNat_of_lt (lt_of_lt_of_le hi hfit)

namespace Layers

/-- Selecting a layer by its number from one, on a list with layers. -/
theorem setActive_eq {s : EngineState} (hfit : s.SelectionFits) (hne : s.layersList ≠ []) (h : Host)
    {n : UInt32} (hn : n ≠ 0) :
    setActive h n s = .ok () (s.select h (min n.toNat s.layersList.length - 1)) := by
  have hpos := List.length_pos_iff.mpr hne
  have hsize : (UInt32.ofNat s.layersList.length).toNat = s.layersList.length :=
    UInt32.toNat_ofNat_of_lt' (lt_of_le_of_lt hfit (by decide))
  have hnpos : 0 < n.toNat := Nat.pos_of_ne_zero fun h0 => hn (UInt32.toNat_inj.mp h0)
  set m := if n > UInt32.ofNat s.layersList.length then UInt32.ofNat s.layersList.length else n
    with hm
  have hclamp : m.toNat = min n.toNat s.layersList.length := by
    rw [hm]
    split_ifs with hgt
    · have hlt := UInt32.lt_iff_toNat_lt.mp hgt
      omega
    · have hle := UInt32.le_iff_toNat_le.mp (UInt32.not_lt.mp hgt)
      omega
  have hpred : m - 1 = UInt32.ofNat (min n.toNat s.layersList.length - 1) := by
    rw [← hclamp, ← UInt32.toNat_one, ← UInt32.toNat_sub_of_le, UInt32.ofNat_toNat]
    rw [UInt32.le_iff_toNat_le, UInt32.toNat_one]
    omega
  rw [setActive, if_neg hn]
  change Outcome.ok () { s with
    properties := { s.properties.setDefaults h with selectedLayer := (m - 1).toInt32 } } = _
  rw [hpred, UInt32.toInt32_ofNat']
  rfl

/-- Selecting a layer by its number from one. The number `0` is ignored. -/
theorem setActive_selects {s : EngineState} {i : ℕ} (hs : s.Selects i) (hfit : s.SelectionFits)
    (h : Host) {n : UInt32} {j : ℕ}
    (hj : j = if n.toNat = 0 then i else min n.toNat s.layersList.length - 1) :
    ∃ t, setActive h n s = .ok () t ∧ t.layersList = s.layersList ∧ t.Selects j := by
  have hlt := hs.lt
  rw [hj]
  split_ifs with hn
  · refine ⟨s, ?_, rfl, hs⟩
    rw [setActive, if_pos (UInt32.toNat_inj.mp hn)]
    rfl
  · have hne : n ≠ 0 := fun h0 => hn (congrArg UInt32.toNat h0)
    refine ⟨_, setActive_eq hfit (List.ne_nil_of_length_pos (by omega)) h hne, rfl, ?_⟩
    exact EngineState.selects_select (by omega) hfit h

end Layers

/-! ### The commands -/

/-- The commands that move between layers. -/
inductive Navigation where
  | activateFirst
  | activatePrevious
  | activateNext
  | activateLast
  | setActive (activeLayer : UInt32)

namespace Navigation

/-- The program of a command. -/
def run (c : Host × Navigation) : Prog Unit :=
  match c with
  | (h, activateFirst) => Layers.activateFirst h
  | (h, activatePrevious) => Layers.activatePrevious h
  | (h, activateNext) => Layers.activateNext h
  | (h, activateLast) => Layers.activateLast h
  | (h, setActive activeLayer) => Layers.setActive h activeLayer

/-- The step of the walk on the positions of `m` layers that a command makes. -/
def walk (m : ℕ) (c : Navigation) (i : ℕ) : ℕ :=
  match c with
  | activateFirst => 0
  | activatePrevious => i - 1
  | activateNext => min (i + 1) (m - 1)
  | activateLast => m - 1
  | setActive activeLayer => if activeLayer.toNat = 0 then i else min activeLayer.toNat m - 1

/-- One command makes one step of the walk, and leaves the layers alone. -/
theorem run_selects {s : EngineState} {i : ℕ} (hs : s.Selects i) (hfit : s.SelectionFits)
    (c : Host × Navigation) :
    ∃ t, run c s = .ok () t ∧ t.layersList = s.layersList ∧
      t.Selects (c.2.walk s.layersList.length i) := by
  have hlt := hs.lt
  have hlen : s.layersList.length ≤ 2 ^ 31 := hfit
  have hnat : ∀ n, n ≤ 2 ^ 31 → (UInt32.ofNat n).toNat = n := fun n hn =>
    UInt32.toNat_ofNat_of_lt' (lt_of_le_of_lt hn (by decide))
  have hid := hnat i (by omega)
  match c with
  | (h, activateFirst) =>
    refine Layers.setActive_selects hs hfit h (n := 1) ?_
    rw [if_neg (by decide), UInt32.toNat_one]
    change 0 = _
    omega
  | (h, activatePrevious) =>
    -- the number from zero of the selected layer is the number from one of the layer before
    rw [run, Layers.activatePrevious, bind_run, hs.getCurrentId_eq]
    refine Layers.setActive_selects (s := s.resetProperties h) ⟨hlt, hs.eq⟩ hfit h ?_
    rw [hid]
    change i - 1 = if i = 0 then i else min i s.layersList.length - 1
    split_ifs <;> omega
  | (h, activateNext) =>
    rw [run, Layers.activateNext, bind_run, hs.getCurrentId_eq]
    refine Layers.setActive_selects (s := s.resetProperties h) ⟨hlt, hs.eq⟩ hfit h ?_
    have hnext : (UInt32.ofNat i + 2).toNat = i + 2 := by
      rw [UInt32.toNat_add, hid]
      exact Nat.mod_eq_of_lt (by change i + 2 < 2 ^ 32; omega)
    rw [hnext, if_neg (by omega)]
    change min (i + 1) (s.layersList.length - 1) = min (i + 2) s.layersList.length - 1
    omega
  | (h, activateLast) =>
    refine Layers.setActive_selects hs hfit h ?_
    rw [Layers.count, hnat _ hlen]
    change s.layersList.length - 1 = _
    split_ifs <;> omega
  | (h, setActive activeLayer) => exact Layers.setActive_selects hs hfit h rfl

/-- A sequence of commands makes the steps of the walk. -/
theorem forEach_selects (cs : List (Host × Navigation)) {s : EngineState} {i : ℕ}
    (hs : s.Selects i) (hfit : s.SelectionFits) :
    ∃ t, forEach cs run s = .ok () t ∧ t.layersList = s.layersList ∧
      t.Selects (cs.foldl (fun i c => c.2.walk s.layersList.length i) i) := by
  induction cs generalizing s i with
  | nil => exact ⟨s, rfl, rfl, hs⟩
  | cons c cs ih =>
    obtain ⟨t, ht, hlist, hsel⟩ := run_selects hs hfit c
    obtain ⟨u, hu, hlist', hsel'⟩ := ih hsel (by rwa [EngineState.SelectionFits, hlist])
    refine ⟨u, ?_, hlist'.trans hlist, ?_⟩
    · rw [forEach_cons, bind_run, ht]
      exact hu
    · rw [hlist] at hsel'
      exact hsel'

end Navigation

/-- After every command of a sequence on a list with layers, the selected layer is the one that the
walk is at, and `Layers::getCurrent` returns it. -/
theorem navigation_walks {s : EngineState} {i : ℕ} (hs : s.Selects i) (hfit : s.SelectionFits)
    (cs : List (Host × Navigation)) (n : ℕ) :
    ∃ t, forEach (cs.take n) Navigation.run s = .ok () t ∧ t.layersList = s.layersList ∧
      t.properties.selectedLayer.toInt =
        (cs.take n).foldl (fun i c => c.2.walk s.layersList.length i) i ∧
      ∀ h, ∃ layer u, Layers.getCurrent h t = .ok (some layer) u := by
  obtain ⟨t, ht, hlist, hsel⟩ := Navigation.forEach_selects (cs.take n) hs hfit
  exact ⟨t, ht, hlist, hsel.eq, fun h => hsel.exists_getCurrent h⟩

/-- A walk over two layers that meets both ends. -/
theorem navigation_walks_to_both_ends :
    ∃ t, forEach [(Host.plain, Navigation.activateNext), (.plain, .activateNext),
        (.plain, .activatePrevious), (.plain, .activatePrevious)] Navigation.run
          (EngineState.init.pushLayers .plain [Layers.newProperties, Layers.newProperties]) =
        .ok () t ∧ t.properties.selectedLayer.toInt = 0 := by
  obtain ⟨t, ht, -, hsel, -⟩ := navigation_walks
    (s := EngineState.init.pushLayers .plain [Layers.newProperties, Layers.newProperties])
    (i := 0) ⟨by decide, by decide⟩ (EngineState.selectionFits_of_le (by decide))
    [(.plain, .activateNext), (.plain, .activateNext), (.plain, .activatePrevious),
      (.plain, .activatePrevious)] 4
  exact ⟨t, ht, hsel⟩

end ArbutusEngine
