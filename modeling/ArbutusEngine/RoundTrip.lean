import ArbutusEngine.Documents

/-!
# Saving and restoring scenes

`Set::getScenesState` writes each instance with its position in the list of its scene, and
`Scenes::setState` reads the number as a position in the list of visuals. With the visuals left in
place, scenes therefore come back as they were exactly when, in every scene, the instance at each
position is an instance of the visual at the same position.

## Main definitions

* `VisualInstance.summary`, `EngineState.summaries`: what a scene is expected to keep.
* `restoreScenes`: `Scenes::setState(Set::getScenesState())`.

## Main results

* `restoreScenes_eq`: restoring always returns, and what it leaves.
* `scenes_roundTrip_iff`.
-/

open Exec

namespace ArbutusEngine

/-- The visual, the layer, the column and the name of an instance. -/
def VisualInstance.summary (i : VisualInstance) : Addr × Int32 × Int32 × String :=
  (i.visual, i.properties.layer, i.properties.column, i.properties.name)

/-- The scenes in their order, with the summaries of their instances. -/
def EngineState.summaries (s : EngineState) :
    List (String × List (Addr × Int32 × Int32 × String)) :=
  s.views.map fun view => (view.1, view.2.map VisualInstance.summary)

/-- `Scenes::setState(Set::getScenesState())`. -/
def restoreScenes (h : Host) : Prog Unit := do
  let state ← Set.getScenesState
  Scenes.setState h state

/-- Restoring the scenes of a state returns, and rebuilds every scene from the visuals at the
positions of its instances. -/
theorem restoreScenes_eq {s : EngineState} (hs : s.WellFormed) (hc : s.Connected) (h : Host) :
    restoreScenes h s = .ok () (s.clearScenes.buildScenes h
      (s.views.map fun view => (view.1, placementsOf s.visualsList view.2))) := by
  rw [restoreScenes, bind_run, Set.getScenesState_of_connected hs hc, Outcome.bind_ok,
    Scenes.setState_scenesState hs]

@[simp] theorem EngineState.visualsList_buildScenes (h : Host) (s : EngineState)
    (scenes : List (String × List Placement)) :
    (s.buildScenes h scenes).visualsList = s.visualsList :=
  foldl_push (EngineState.buildScene h) (fun t => t.visualsList = s.visualsList)
    (fun t scene ht => (EngineState.visualsList_buildScene h t scene).trans ht) scenes rfl

/-! ### One scene -/

/-- Values that are kept in order and none of which is lost. -/
theorem filterMap_map_eq_iff {α β γ : Type} (f : α → Option β) (g : β → γ) (k : α → γ)
    (l : List α) :
    (l.filterMap f).map g = l.map k ↔ ∀ a ∈ l, (f a).map g = some (k a) := by
  induction l with
  | nil => simp
  | cons a l ih =>
    rw [List.forall_mem_cons, ← ih]
    cases hfa : f a with
    | none =>
      rw [List.filterMap_cons_none hfa]
      constructor
      · intro heq
        have hlen := congrArg List.length heq
        have hle := List.length_filterMap_le f l
        simp only [List.length_map, List.length_cons] at hlen
        omega
      · rintro ⟨h, -⟩
        cases h
    | some b => simp [List.filterMap_cons_some hfa]

/-- The placements of instances in different cells are in different cells. -/
theorem placementsOf_pairwise {instances : List VisualInstance} (visuals : List Visual)
    (hcells : instances.Pairwise fun i j => i.cell ≠ j.cell) :
    (placementsOf visuals instances).Pairwise
      fun p q => (p.layer, p.column) ≠ (q.layer, q.column) := by
  refine List.Pairwise.filterMap _ ?_
    (R := fun (x y : VisualInstance × ℕ) => x.1.cell ≠ y.1.cell) ?_
  · intro x y hxy p hp q hq
    obtain ⟨v, -, rfl⟩ := Option.map_eq_some_iff.mp hp
    obtain ⟨w, -, rfl⟩ := Option.map_eq_some_iff.mp hq
    exact hxy
  · have hfst : instances.zipIdx.map Prod.fst = instances := List.zipIdx_map_fst 0 instances
    rw [← hfst, List.pairwise_map] at hcells
    exact hcells

/-- What the placements keep of the instances, in order, when none of them is lost. -/
theorem map_placementsOf_eq_iff {γ : Type} (g : Placement → γ) (k : VisualInstance → γ)
    (visuals : List Visual) (instances : List VisualInstance) :
    (placementsOf visuals instances).map g = instances.map k ↔
      ∀ (n : ℕ) (i : VisualInstance), instances[n]? = some i →
        ∃ v, Visuals.get visuals (Int32.ofInt n) = some v ∧ g (i.toPlacement v.addr) = k i := by
  have hzip : instances.map k = instances.zipIdx.map fun i => k i.1 := by
    rw [← Function.comp_def, ← List.map_map, List.zipIdx_map_fst]
  rw [hzip, placementsOf, filterMap_map_eq_iff]
  constructor
  · intro hall n i hi
    have hkept := hall (i, n) (List.mk_mem_zipIdx_iff_getElem?.mpr hi)
    obtain ⟨p, hp, hpi⟩ := Option.map_eq_some_iff.mp hkept
    obtain ⟨v, hv, rfl⟩ := Option.map_eq_some_iff.mp hp
    exact ⟨v, hv, hpi⟩
  · rintro hall ⟨i, n⟩ hi
    obtain ⟨v, hv, hvi⟩ := hall n i (List.mk_mem_zipIdx_iff_getElem?.mp hi)
    rw [hv, Option.map_some, Option.map_some, hvi]

/-- The rebuilt contents of a scene agree with the old ones exactly when every position holds an
instance of the visual at that position. -/
theorem summary_instancesOf_iff (h : Host) (a : Addr) (visuals : List Visual)
    {instances : List VisualInstance} (hcells : instances.Pairwise fun i j => i.cell ≠ j.cell) :
    (instancesOf h a (placementsOf visuals instances)).map VisualInstance.summary =
        instances.map VisualInstance.summary ↔
      ∀ (n : ℕ) (i : VisualInstance), instances[n]? = some i →
        (Visuals.get visuals (Int32.ofInt n)).map Visual.addr = some i.visual := by
  have hsummary : ∀ (a : Addr) (i : VisualInstance),
      ((i.toPlacement a).toInstance .plain 0).summary =
        (a, i.properties.layer, i.properties.column, i.properties.name) := by
    intro a i
    simp [VisualInstance.summary, Placement.toInstance, VisualInstance.toPlacement,
      VisualInstance.fresh, VisualInstance.setName]
  rw [map_instancesOf_of_pairwise (fun _ => rfl) h a (placementsOf_pairwise visuals hcells),
    map_placementsOf_eq_iff]
  refine forall_congr' fun n => forall_congr' fun i => imp_congr_right fun _ => ?_
  rw [Option.map_eq_some_iff]
  refine exists_congr fun v => and_congr_right fun _ => ?_
  rw [hsummary, VisualInstance.summary, Prod.mk.injEq]
  exact and_iff_left rfl

/-! ### All scenes -/

/-- Saving and restoring the scenes over the same visuals keeps every scene with its instances, in
order and with their visuals, cells and names, exactly when in every scene the instance at each
position is an instance of the visual that `Visuals::get` finds at that position. -/
theorem scenes_roundTrip_iff (h : Host) (s : EngineState) (hs : s.WellFormed) (hc : s.Connected)
    (hcells : ∀ view ∈ s.views, view.2.Pairwise fun i j => i.cell ≠ j.cell) :
    (∃ t, restoreScenes h s = .ok () t ∧ t.visualsList = s.visualsList ∧
        t.summaries = s.summaries) ↔
      ∀ view ∈ s.views, ∀ (n : ℕ) (i : VisualInstance), view.2[n]? = some i →
        (Visuals.get s.visualsList (Int32.ofInt n)).map Visual.addr = some i.visual := by
  have hrun := restoreScenes_eq hs hc h
  have hsum : (s.clearScenes.buildScenes h (s.views.map fun view =>
      (view.1, placementsOf s.visualsList view.2))).summaries = s.views.map fun view =>
        (view.1,
          (instancesOf h 0 (placementsOf s.visualsList view.2)).map VisualInstance.summary) := by
    rw [EngineState.summaries, EngineState.views_clearScenes_buildScenes hs,
      map_contentsOf fun _ => rfl, List.map_map]
    rfl
  have hview : ∀ view ∈ s.views,
      ((view.1, (instancesOf h 0 (placementsOf s.visualsList view.2)).map VisualInstance.summary) =
        (view.1, view.2.map VisualInstance.summary) ↔
          ∀ (n : ℕ) (i : VisualInstance), view.2[n]? = some i →
            (Visuals.get s.visualsList (Int32.ofInt n)).map Visual.addr = some i.visual) := by
    intro view hview
    rw [Prod.mk.injEq, ← summary_instancesOf_iff h 0 s.visualsList (hcells view hview)]
    exact and_iff_right rfl
  constructor
  · rintro ⟨t, ht, -, heq⟩
    rw [hrun] at ht
    obtain rfl := (Outcome.ok.inj ht).2
    rw [hsum, EngineState.summaries] at heq
    exact fun view hmem => (hview view hmem).mp (List.map_inj_left.mp heq view hmem)
  · intro hall
    refine ⟨_, hrun, by simp [EngineState.clearScenes], ?_⟩
    rw [hsum, EngineState.summaries]
    exact List.map_congr_left fun view hmem => (hview view hmem).mpr (hall view hmem)

/-- Two videos and a scene `Intro` with one instance for each given visual, in the columns from `0`
on. -/
def twoVideos (visuals : List Addr) : EngineState :=
  (EngineState.init.pushVideos Host.plain [("a", "a.mov"), ("b", "b.mov")]).buildScenes Host.plain
    [("Intro", visuals.mapIdx fun n a => ⟨a, 0, UInt32.ofNat n, ""⟩)]

theorem twoVideos_wellFormed (visuals : List Addr) : (twoVideos visuals).WellFormed :=
  (EngineState.wellFormed_init.pushVideos _ _).buildScenes _ _

theorem views_twoVideos (visuals : List Addr) :
    (twoVideos visuals).views = [("Intro", instancesOf Host.plain 0
      (visuals.mapIdx fun n a => ⟨a, 0, UInt32.ofNat n, ""⟩))] :=
  EngineState.views_buildScenes _ (EngineState.wellFormed_init.pushVideos _ _)

theorem visualsList_twoVideos (visuals : List Addr) : (twoVideos visuals).visualsList =
    [⟨0, "a", .video "a.mov", ""⟩, ⟨1, "b", .video "b.mov", ""⟩] :=
  EngineState.visualsList_buildScenes _ _ _

theorem connected_twoVideos_one : (twoVideos [1]).Connected := by
  rw [EngineState.Connected, views_twoVideos, visualsList_twoVideos]
  decide

/-- A scene whose instances are in the order of the visuals is restored. -/
theorem scenes_roundTrip_inOrder :
    ∃ t, restoreScenes Host.plain (twoVideos [0, 1]) = .ok () t ∧
      t.visualsList = (twoVideos [0, 1]).visualsList ∧
      t.summaries = (twoVideos [0, 1]).summaries := by
  refine (scenes_roundTrip_iff Host.plain _ (twoVideos_wellFormed _) ?_ ?_).mpr ?_
  · rw [EngineState.Connected, views_twoVideos, visualsList_twoVideos]
    decide
  · rw [views_twoVideos]
    decide
  · rw [views_twoVideos, visualsList_twoVideos]
    intro view hview n i hi
    rw [List.mem_singleton.mp hview] at hi
    rcases n with _ | _ | n
    · obtain rfl := Option.some.inj hi
      decide
    · obtain rfl := Option.some.inj hi
      decide
    · cases hi

/-- A scene with one instance, of the second visual, does not come back: its instance becomes one of
the first visual. -/
theorem scenes_roundTrip_secondVisual :
    (twoVideos [1]).WellFormed ∧ (twoVideos [1]).Connected ∧
      (∀ view ∈ (twoVideos [1]).views, view.2.Pairwise fun i j => i.cell ≠ j.cell) ∧
      ¬ ∃ t, restoreScenes Host.plain (twoVideos [1]) = .ok () t ∧
        t.visualsList = (twoVideos [1]).visualsList ∧
        t.summaries = (twoVideos [1]).summaries := by
  refine ⟨twoVideos_wellFormed _, connected_twoVideos_one, ?_, ?_⟩
  · rw [views_twoVideos]
    decide
  · rintro ⟨t, ht, -, hsum⟩
    rw [restoreScenes_eq (twoVideos_wellFormed _) connected_twoVideos_one] at ht
    obtain rfl := (Outcome.ok.inj ht).2
    rw [EngineState.summaries, EngineState.summaries,
      EngineState.views_clearScenes_buildScenes (twoVideos_wellFormed _), views_twoVideos,
      visualsList_twoVideos] at hsum
    revert hsum
    decide

end ArbutusEngine
