import ArbutusEngine.Isolation
import ArbutusEngine.Sessions

/-!
# What is done on all layers

The trigger of a column, the trigger of a beat and the stop of everything go through the layers one
after the other. As long as every layer holds only instances that lie on it, the steps do not notice
each other: the whole returns when each layer's own step would return by itself, the order is of no
matter, and each layer ends up with what its own step gives it.

## Main definitions

* `Sweep`, `Sweep.run`, `Sweep.onLayer`: what is done, and the part of one layer.
* `EngineState.positions`: the positions of the layers.

## Main results

* `Sweep.independent`: the parts are independent programs.
* `sweep_any_order`: every order, in every reachable state.
-/

open Exec

namespace ArbutusEngine

/-- What is done on all layers. -/
inductive Sweep where
  | column (columnN : UInt32)
  | beat
  | stop

namespace Sweep

/-- The program of the whole. -/
def run (h : Host) : Sweep → Prog Unit
  | column columnN => Engine.setActiveVisualIntances h columnN
  | beat => Engine.triggerSchedulledVisualsOnAllLayers h
  | stop => Layers.stopAll

/-- The part of one layer. -/
def onLayer (h : Host) (sweep : Sweep) (l : UInt32) : Prog Unit :=
  match sweep with
  | column columnN => do let _ ← Engine.setActiveVisualInstance h l columnN
  | beat => Engine.triggerLayer h l.toNat
  | stop => Layer.stop l.toNat

end Sweep

/-- The positions of the layers. -/
def EngineState.positions (s : EngineState) : List UInt32 :=
  (List.range s.layersList.length).map UInt32.ofNat

/-! ### Positions -/

namespace EngineState

variable {s : EngineState}

/-- There are few layers, so that a position does not wrap around. -/
theorem toNat_position (hs : s.layersList.length ≤ maximumNumberOfLayers) {n : ℕ}
    (hn : n ∈ List.range s.layersList.length) : (UInt32.ofNat n).toNat = n := by
  have hmax : maximumNumberOfLayers = 6 := rfl
  have hsize : UInt32.size = 2 ^ 32 := rfl
  have hlt := List.mem_range.mp hn
  exact UInt32.toNat_ofNat_of_lt' (by omega)

theorem nodup_positions (hs : s.layersList.length ≤ maximumNumberOfLayers) :
    s.positions.Nodup := by
  refine List.pairwise_map.mpr (List.nodup_range.imp_of_mem fun {n m} hn hm hne heq => hne ?_)
  have hnat := congrArg UInt32.toNat heq
  rwa [toNat_position hs hn, toNat_position hs hm] at hnat

/-- A loop over the positions. -/
theorem forEach_positions (hs : s.layersList.length ≤ maximumNumberOfLayers)
    (body : ℕ → Prog Unit) :
    forEach s.positions (fun l => body l.toNat) = forEach (List.range s.layersList.length) body := by
  rw [positions, forEach_map]
  exact forEach_congr fun n hn => congrArg body (toNat_position hs hn)

end EngineState

namespace Sweep

/-- The whole goes through the positions. -/
theorem run_eq {s : EngineState} (hs : s.layersList.length ≤ maximumNumberOfLayers) (h : Host)
    (sweep : Sweep) : sweep.run h s = forEach s.positions (sweep.onLayer h) s := by
  cases sweep with
  | column columnN =>
    have hmap := forEach_map UInt32.ofNat (onLayer h (column columnN))
      (List.range s.layersList.length)
    exact (congrFun hmap s).symm
  | beat => exact (congrFun (EngineState.forEach_positions hs (Engine.triggerLayer h)) s).symm
  | stop => exact (congrFun (EngineState.forEach_positions hs Layer.stop) s).symm

/-! ### The parts -/

variable {h : Host} {κ : Placing} {S : Region} {l : UInt32}

theorem confined (hd : (Region.ofLayer κ l.toNat).Disjoint κ S) (sweep : Sweep) :
    ConfinedTo h κ (.ofLayer κ l.toNat) S (sweep.onLayer h l) := by
  cases sweep with
  | column columnN =>
    exact .bind (Engine.confined_setActiveVisualInstance hd columnN) fun _ => .pure _
  | beat => exact Layer.confined_triggerLayer hd rfl
  | stop => exact Layer.confined_stop hd rfl

/-- The parts of the layers are independent of each other. -/
theorem independent (h : Host) (κ : Placing) (sweep : Sweep) :
    Independent (fun l : UInt32 => (Region.ofLayer κ l.toNat).actions h κ)
      (fun s => s.Placed ∧ s.placing = κ) (sweep.onLayer h) where
  acts l s := by
    rintro ⟨hs, rfl⟩
    have hacts := (sweep.confined (h := h) (Region.disjoint_empty _)).acts s (hs l.toNat)
    exact hacts.mono (fun _ t ht => ⟨⟨hs.of_acts ht.1 ht.2, ht.1.1⟩, ht.2⟩)
      fun _ t ht => ⟨⟨hs.of_acts ht.1 ht.2, ht.1.1⟩, ht.2⟩
  blind l m hlm g hg s := by
    rintro ⟨hs, rfl⟩
    have hne : l.toNat ≠ m.toNat := fun heq => hlm (UInt32.toNat_inj.mp heq)
    exact (sweep.confined (Region.disjoint_ofLayer hne)).blind g hg s (hs l.toNat)
  comm l m hlm f hf g hg := by
    have hne : l.toNat ≠ m.toNat := fun heq => hlm (UInt32.toNat_inj.mp heq)
    exact Region.comm_actions (Region.disjoint_ofLayer hne) hf hg

end Sweep

/-! ### What a layer holds in the end -/

theorem EngineState.KeptAt.refl (l : UInt32) (s : EngineState) : s.KeptAt l s :=
  ⟨rfl, fun _ _ => rfl⟩

theorem EngineState.KeptAt.trans {l : UInt32} {s t u : EngineState} (hst : s.KeptAt l t)
    (htu : t.KeptAt l u) : s.KeptAt l u := by
  refine ⟨htu.1.trans hst.1, fun a ha => ?_⟩
  have hactive : t.activeAt l.toNat = some a := by
    rw [activeAt, hst.1]
    exact ha
  exact (htu.2 a hactive).trans (hst.2 a ha)

/-- The part of one layer leaves alone what another one holds. -/
theorem Sweep.post_keptAt {s : EngineState} (hs : s.Placed) (h : Host) (sweep : Sweep)
    {l m : UInt32} (hlm : l ≠ m) :
    (sweep.onLayer h l s).Post (fun _ t => s.KeptAt m t) fun _ t => s.KeptAt m t := by
  have hne : m.toNat ≠ l.toNat := fun heq => hlm (UInt32.toNat_inj.mp heq.symm)
  have hacts := (sweep.confined (h := h) (Region.disjoint_ofLayer hne.symm)).acts s (hs l.toNat)
  exact hacts.mono (fun _ t ht => hs.keptAt_of_acts hne ht.2) fun _ t ht =>
    hs.keptAt_of_acts hne ht.2

/-- The parts of other layers leave alone what a layer holds. -/
theorem Sweep.forEach_keptAt {s t : EngineState} (hs : s.Placed) (h : Host) (sweep : Sweep)
    {l : UInt32} {order : List UInt32} (hl : l ∉ order)
    (hrun : forEach order (sweep.onLayer h) s = .ok () t) : s.KeptAt l t := by
  have hkeeps : Keeps (fun u : EngineState => u.Placed ∧ s.KeptAt l u)
      (forEach order (sweep.onLayer h)) := by
    refine .forEach fun m hm u hu => ?_
    have hml : m ≠ l := fun heq => hl (heq ▸ hm)
    have hplaced := (sweep.independent h u.placing).acts m u ⟨hu.1, rfl⟩
    exact (hplaced.and (sweep.post_keptAt hu.1 h hml)).mono
      (fun _ _ ht => ⟨ht.1.1.1, hu.2.trans ht.2⟩) fun _ _ ht => ⟨ht.1.1.1, hu.2.trans ht.2⟩
  have hpost := hkeeps s ⟨hs, .refl l s⟩
  rw [hrun] at hpost
  exact hpost.2

/-! ### Reachable states -/

/-- The calls that lead to a state: those of the layers, and what is done on all of them. -/
inductive StageCall where
  | call (c : IsolationCall)
  | all (sweep : Sweep)

namespace StageCall

/-- The program of a call. -/
def run (c : Host × StageCall) : Prog Unit :=
  match c with
  | (h, call c) => IsolationCall.run (h, c)
  | (h, all sweep) => sweep.run h

/-- No layer that holds an instance is moved. -/
def KeepsPositions (c : Host × StageCall) (s : EngineState) : Prop :=
  match c with
  | (h, call c) => IsolationCall.KeepsPositions (h, c) s
  | (_, all _) => True

instance (c : Host × StageCall) (s : EngineState) : Decidable (KeepsPositions c s) :=
  match c with
  | (h, call c) => inferInstanceAs (Decidable (IsolationCall.KeepsPositions (h, c) s))
  | (_, all _) => .isTrue trivial

/-- The layers stay placed. -/
theorem run_post_placed {c : Host × StageCall} {s : EngineState} (hc : KeepsPositions c s)
    (hwf : s.WellFormed) (hs : s.Placed) :
    (run c s).Post (fun _ => EngineState.Placed) fun _ => EngineState.Placed := by
  obtain ⟨h, c | sweep⟩ := c
  · exact IsolationCall.run_post_placed hc hs
  · have hparts : Keeps EngineState.Placed (forEach s.positions (sweep.onLayer h)) := by
      refine .forEach fun l _ t ht => ?_
      exact ((sweep.independent h t.placing).acts l t ⟨ht, rfl⟩).mono (fun _ _ hu => hu.1.1)
        fun _ _ hu => hu.1.1
    have hpost := hparts s hs
    rwa [← sweep.run_eq hwf.layers_le h] at hpost

/-- The graph stays well formed. -/
theorem keeps_wellFormed (c : Host × StageCall) : Keeps EngineState.WellFormed (run c) := by
  obtain ⟨h, c | sweep⟩ := c
  · cases c with
    | newSet width height layers =>
      exact .bind (Engine.keeps_wellFormed_newSet h width height layers) fun _ => .pure _
    | openSet path => exact .bind (Engine.keeps_wellFormed_openSet h path) fun _ => .pure _
    | add => exact .bind (Layers.keeps_wellFormed_add h) fun _ => .pure _
    | remove layerN => exact Layers.keeps_wellFormed_remove h layerN
    | play data => exact (Engine.keepsSkeleton_play h data).wellFormed
    | stop data => exact (Engine.keepsSkeleton_stop data).wellFormed
  · cases sweep with
    | column columnN => exact (Engine.keepsSkeleton_setActiveVisualIntances h columnN).wellFormed
    | beat => exact (Engine.keepsSkeleton_trigger h).wellFormed
    | stop =>
      have hstop : KeepsSkeleton Layers.stopAll :=
        .bind (.gets _) fun _ => .forEach fun n _ => Layer.keepsSkeleton_stop n
      exact hstop.wellFormed

end StageCall

/-- In every state that is reached without moving a layer that holds an instance, what is done on all
layers returns when each layer's own part would; the layers can then be taken in any order, and each
ends up with what its own part gives it. -/
theorem sweep_any_order {s : EngineState}
    (hs : Reaches StageCall.run StageCall.KeepsPositions EngineState.init s) (h : Host)
    (sweep : Sweep) :
    ((∃ t, sweep.run h s = .ok () t) ↔ ∀ l ∈ s.positions, ∃ u, sweep.onLayer h l s = .ok () u) ∧
      ∀ t, sweep.run h s = .ok () t →
        (∀ order, s.positions.Perm order → forEach order (sweep.onLayer h) s = .ok () t) ∧
          ∀ l ∈ s.positions, ∃ u, sweep.onLayer h l s = .ok () u ∧ u.KeptAt l t := by
  obtain ⟨hwf, hplaced⟩ : s.WellFormed ∧ s.Placed := by
    refine hs.invariant (I := fun t => t.WellFormed ∧ t.Placed) (fun c t hc ht => ?_)
      ⟨EngineState.wellFormed_init, EngineState.HoldsNone.placed (s := .init) (List.forall_mem_nil _)⟩
    exact (StageCall.keeps_wellFormed c t ht.1).and (StageCall.run_post_placed hc ht.1 ht.2)
  have hind := sweep.independent h s.placing
  have hnodup := EngineState.nodup_positions hwf.layers_le
  rw [sweep.run_eq hwf.layers_le]
  refine ⟨hind.forEach_returns_iff ⟨hplaced, rfl⟩ hnodup, fun t ht => ⟨fun order horder => ?_,
    fun l hl => ?_⟩⟩
  · exact hind.forEach_perm ⟨hplaced, rfl⟩ horder hnodup ht
  · obtain ⟨u, hu, hrest⟩ := hind.forEach_first ⟨hplaced, rfl⟩ hnodup hl ht
    exact ⟨u, hu, sweep.forEach_keptAt (hind.of_ok ⟨hplaced, rfl⟩ hu).1.1 h
      (hnodup.not_mem_erase) hrest⟩

/-- The video plays on the second layer of three, the column of its cell is triggered again, and the
layers could have been taken from the last to the first. -/
theorem sweep_any_order_reverse : ∃ s t : EngineState,
    Reaches StageCall.run StageCall.KeepsPositions EngineState.init s ∧ s.positions = [0, 1, 2] ∧
      Sweep.run .plain (.column 0) s = .ok () t ∧ t.activeAt 1 = some 0 ∧
      forEach [2, 1, 0] (Sweep.onLayer .plain (.column 0)) s = .ok () t := by
  obtain ⟨s, hs, hpositions, hrun⟩ : ∃ s : EngineState,
      Reaches StageCall.run StageCall.KeepsPositions EngineState.init s ∧ s.positions = [0, 1, 2] ∧
        (Sweep.run .plain (.column 0) s).returns
          (fun _ t => decide (t.activeAt 1 = some 0)) = true :=
    exists_reaches (playSecondLayer.map fun c => (c.1, .call c.2)) (by decide +kernel)
  obtain ⟨_, t, ht, hactive⟩ := Outcome.exists_of_returns hrun
  refine ⟨s, t, hs, hpositions, ht, of_decide_eq_true hactive, ?_⟩
  refine ((sweep_any_order hs .plain (.column 0)).2 t ht).1 [2, 1, 0] ?_
  rw [hpositions]
  decide

end ArbutusEngine
