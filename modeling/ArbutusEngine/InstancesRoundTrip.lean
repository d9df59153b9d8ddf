import ArbutusEngine.InstanceWrites
import ArbutusEngine.SceneDecoder

/-!
# Saving and restoring the properties of instances

`VisualInstancesProperties::getState` writes every property of an instance. `Scene::setState` reads
the layer, the column and the name, and makes a new instance of these; all other properties get the
values of a new instance. Properties therefore come back exactly if they have not been changed since
their instance was made, and their instance comes back.

## Main definitions

* `VisualInstancesProperties.saved`: the properties that saving is expected to keep.
* `VisualInstancesProperties.IsAsNew`: they are those of a new instance.
* `InstancesRoundTrip`: the restored scenes have instances with the same properties.

## Main results

* `saved_instancesOf_iff`: when the properties of the instances of one scene come back.
* `instances_roundTrip_iff`.
-/

open Exec

namespace ArbutusEngine

namespace VisualInstancesProperties

/-- The members of the state of an instance that saving is expected to keep. -/
def savedKeys : List String :=
  ["alpha", "red", "green", "blue", "brightness", "contrast", "saturation", "width", "height",
    "zoomX", "zoomY", "centerX", "centerY", "startPercentage", "endPercentage", "effects_drywet",
    "loopMode", "direction", "beatSnap", "retrigger", "triggerMode"]

/-- What these members say. -/
def saved (p : VisualInstancesProperties) : List Json :=
  savedKeys.map fun key => p.getState.field key

/-- The properties are those of a new instance, up to the position, the cell and the name, and to
how far it has been played. -/
structure IsAsNew (p : VisualInstancesProperties) : Prop where
  number_eq : ∀ x : InstanceNumber, x ≠ .percentagePlayed → x.get p = x.default
  mode_eq : ∀ m : InstanceMode, m.get p = 1
  width_eq : p.width = 640
  height_eq : p.height = 480
  beatSnap_eq : p.beatSnap = false
  retrigger_eq : p.retrigger = true

variable (p : VisualInstancesProperties)

theorem saved_eq : p.saved =
    [.float p.alpha, .float p.red, .float p.green, .float p.blue, .float p.brightness,
      .float p.contrast, .float p.saturation, .int p.width.toNat, .int p.height.toNat,
      .float p.zoomX, .float p.zoomY, .float p.centerX, .float p.centerY, .float p.startPercentage,
      .float p.endPercentage, .float p.effectsDrywet, .int p.loopMode.toNat,
      .int p.direction.toNat, booleanState p.beatSnap, booleanState p.retrigger,
      .int p.triggerMode.toNat] := by
  simp only [saved, savedKeys, List.map_cons, List.map_nil, getState, ownState, List.foldl_cons,
    List.foldl_nil, SizeProperties.getState, Properties.getState, Json.field_insert,
    Json.field_obj, Json.member, String.reduceEq, ↓reduceIte]

theorem booleanState_inj {b c : Bool} : (booleanState b : Json) = booleanState c ↔ b = c := by
  cases b <;> cases c <;> simp [booleanState]

/-- The properties that come back with an instance are those of a new one. -/
theorem saved_eq_fresh_iff (h : Host) (a visual : Addr) (layer column : UInt32) (name : String) :
    (VisualInstance.fresh h a visual layer column name).properties.saved = p.saved ↔ p.IsAsNew := by
  rw [saved_eq, saved_eq]
  simp only [List.cons.injEq, Json.float.injEq, Json.int.injEq, Int.natCast_inj, UInt32.toNat_inj,
    booleanState_inj, and_true]
  constructor
  · rintro ⟨ha, hr, hg, hb, hbr, hc, hs, hw, hh, hzx, hzy, hcx, hcy, hsp, hep, he, hl, hd, hbs, hre,
      ht⟩
    refine ⟨fun x hx => ?_, fun m => ?_, hw.symm, hh.symm, hbs.symm, hre.symm⟩
    · cases x <;> first | exact absurd rfl hx | (symm; assumption)
    · cases m <;> (symm; assumption)
  · intro hp
    have hn := fun x hx => (hp.number_eq x hx).symm
    have hm := fun m => (hp.mode_eq m).symm
    exact ⟨hn .alpha (by decide), hn .red (by decide), hn .green (by decide), hn .blue (by decide),
      hn .brightness (by decide), hn .contrast (by decide), hn .saturation (by decide),
      hp.width_eq.symm, hp.height_eq.symm, hn .zoomX (by decide), hn .zoomY (by decide),
      hn .centerX (by decide), hn .centerY (by decide), hn .startPercentage (by decide),
      hn .endPercentage (by decide), hn .effectsDrywet (by decide), hm .loopMode, hm .direction,
      hp.beatSnap_eq.symm, hp.retrigger_eq.symm, hm .triggerMode⟩

end VisualInstancesProperties

/-- The unset members are not among the properties that come back. -/
theorem VisualInstance.saved_forget (i : VisualInstance) :
    i.forget.properties.saved = i.properties.saved := by
  rw [VisualInstancesProperties.saved_eq, VisualInstancesProperties.saved_eq]
  rfl

/-! ### One scene -/

theorem length_instancesOf_le (h : Host) (n : Addr) (placements : List Placement) :
    (instancesOf h n placements).length ≤ placements.length := by
  have hle := KeyLog.length_standing_le (placementLog placements)
  rwa [placementLog, List.length_map, ← placementLog, ← List.length_map (f := Prod.snd),
    ← instancesOf_eq_standing, ← length_instancesOf_eq h n] at hle

/-- When no placement is lost, all are in different cells. -/
theorem pairwise_of_length_instancesOf {h : Host} {n : Addr} {placements : List Placement}
    (hlen : (instancesOf h n placements).length = placements.length) :
    placements.Pairwise fun p q => (p.layer, p.column) ≠ (q.layer, q.column) := by
  have hnodup : ((placementLog placements).map Prod.fst).Nodup := by
    refine KeyLog.nodup_of_length_standing ?_
    rw [placementLog, List.length_map, ← hlen, ← placementLog, length_instancesOf_eq,
      instancesOf_eq_standing, List.length_map]
  rw [placementLog, List.map_map] at hnodup
  exact List.pairwise_map.mp hnodup

/-- The properties of the instances of a scene come back exactly if the instances do, which takes
cells of their own and visuals at their positions, and they are those of new instances. -/
theorem saved_instancesOf_iff (h : Host) (visuals : List Visual) (instances : List VisualInstance) :
    (instancesOf h 0 (placementsOf visuals instances)).map (fun i => i.properties.saved) =
        instances.map (fun i => i.properties.saved) ↔
      instances.Pairwise (fun i j => i.cell ≠ j.cell) ∧
        ∀ (n : ℕ) (i : VisualInstance), instances[n]? = some i →
          Visuals.get visuals (Int32.ofInt n) ≠ none ∧ i.properties.IsAsNew := by
  have hrestored : ∀ (i : VisualInstance) (a : Addr),
      ((i.toPlacement a).toInstance .plain 0).properties.saved = i.properties.saved ↔
        i.properties.IsAsNew :=
    fun i _ => i.properties.saved_eq_fresh_iff .plain 0 _ _ _ _
  constructor
  · intro heq
    have hlen := congrArg List.length heq
    rw [List.length_map, List.length_map] at hlen
    have hplaced : (placementsOf visuals instances).length ≤ instances.length :=
      (List.length_filterMap_le _ _).trans_eq List.length_zipIdx
    have hpair := pairwise_of_length_instancesOf
      (Nat.le_antisymm (length_instancesOf_le h 0 _) (hlen ▸ hplaced))
    rw [map_instancesOf_of_pairwise VisualInstance.saved_forget h 0 hpair,
      map_placementsOf_eq_iff] at heq
    have hcells : (placementsOf visuals instances).map (fun p => (p.layer, p.column)) =
        instances.map VisualInstance.cell := by
      refine (map_placementsOf_eq_iff _ _ _ _).mpr fun n i hi => ?_
      obtain ⟨v, hv, -⟩ := heq n i hi
      exact ⟨v, hv, rfl⟩
    refine ⟨?_, fun n i hi => ?_⟩
    · rw [← List.pairwise_map, ← hcells, List.pairwise_map]
      exact hpair
    · obtain ⟨v, hv, hsaved⟩ := heq n i hi
      exact ⟨Option.ne_none_iff_exists'.mpr ⟨v, hv⟩, (hrestored i v.addr).mp hsaved⟩
  · rintro ⟨hcells, hall⟩
    rw [map_instancesOf_of_pairwise VisualInstance.saved_forget h 0
      (placementsOf_pairwise visuals hcells), map_placementsOf_eq_iff]
    intro n i hi
    obtain ⟨hvisual, hnew⟩ := hall n i hi
    obtain ⟨v, hv⟩ := Option.ne_none_iff_exists'.mp hvisual
    exact ⟨v, hv, (hrestored i v.addr).mpr hnew⟩

/-! ### All scenes -/

/-- The properties of the instances of all scenes, in order. -/
def EngineState.savedProperties (s : EngineState) : List (List (List Json)) :=
  s.views.map fun view => view.2.map fun i => i.properties.saved

/-- Restoring the saved scenes returns, and leaves as many instances in every scene, with the same
properties. -/
def InstancesRoundTrip (h : Host) (s : EngineState) : Prop :=
  ∃ t, restoreScenes h s = .ok () t ∧ t.savedProperties = s.savedProperties

/-- Saving and restoring the scenes keeps the properties of their instances exactly if no instance
has lost its visual, the instances of a scene are in cells of their own, there is a visual at the
position of each, and the properties are those of new instances. -/
theorem instances_roundTrip_iff (h : Host) {s : EngineState} (hs : s.WellFormed) :
    InstancesRoundTrip h s ↔ s.Connected ∧ ∀ view ∈ s.views,
      view.2.Pairwise (fun i j => i.cell ≠ j.cell) ∧
        ∀ (n : ℕ) (i : VisualInstance), view.2[n]? = some i →
          Visuals.get s.visualsList (Int32.ofInt n) ≠ none ∧ i.properties.IsAsNew := by
  by_cases hc : s.Connected
  · have hsaved : (s.clearScenes.buildScenes h (s.views.map fun view =>
        (view.1, placementsOf s.visualsList view.2))).savedProperties = s.views.map fun view =>
          (instancesOf h 0 (placementsOf s.visualsList view.2)).map fun i => i.properties.saved := by
      have hviews := EngineState.views_clearScenes_buildScenes hs h
        (s.views.map fun view => (view.1, placementsOf s.visualsList view.2))
      have hmap := congrArg (List.map Prod.snd) (map_contentsOf
        (g := fun i => i.properties.saved) VisualInstance.saved_forget h s.instances.next
        (s.views.map fun view => (view.1, placementsOf s.visualsList view.2)))
      rw [List.map_map, List.map_map, List.map_map, ← hviews] at hmap
      exact hmap
    simp only [InstancesRoundTrip, restoreScenes_eq hs hc, Outcome.ok.injEq, true_and,
      exists_eq_left', hsaved, hc]
    rw [EngineState.savedProperties, List.map_inj_left]
    exact forall₂_congr fun view _ => saved_instancesOf_iff h s.visualsList view.2
  · have hundefined : restoreScenes h s = .undefined .danglingPointer := by
      rw [restoreScenes, bind_run, Set.getScenesState_of_not_connected hs hc,
        Outcome.bind_undefined]
    simp [InstancesRoundTrip, hundefined, hc]

/-- The properties of two new instances come back. -/
theorem new_instances_roundTrip : InstancesRoundTrip .plain (twoVideos [0, 1]) := by
  have hnew : ∀ (visual : Addr) (column : UInt32),
      (VisualInstance.fresh .plain 0 visual 0 column "").properties.IsAsNew :=
    fun visual column =>
      (VisualInstancesProperties.saved_eq_fresh_iff _ .plain 0 visual 0 column "").mp rfl
  refine (instances_roundTrip_iff .plain (twoVideos_wellFormed _)).mpr ⟨?_, ?_⟩
  · rw [EngineState.Connected, views_twoVideos, visualsList_twoVideos]
    decide
  · rw [views_twoVideos, visualsList_twoVideos]
    intro view hview
    rw [List.mem_singleton.mp hview]
    refine ⟨by decide, fun n i hi => ?_⟩
    rcases n with _ | _ | n
    · obtain rfl := Option.some.inj hi
      exact ⟨by decide, hnew 0 0⟩
    · obtain rfl := Option.some.inj hi
      exact ⟨by decide, hnew 1 1⟩
    · cases hi

/-- The first number of the properties of the first instance, its alpha. -/
def firstAlpha (properties : List (List (List Json))) : Option ℚ :=
  ((properties.head?.bind List.head?).bind List.head?).bind fun alpha => alpha.getFloat.toOption

/-- An instance whose alpha has been set to one half, within its limits, comes back with an alpha of
one. -/
theorem alpha_not_restored :
    ∃ s, VisualInstance.updateProperties 0 (fun p => InstanceNumber.alpha.set p (1 / 2))
        (twoVideos [0]) = .ok () s ∧
      (∀ view ∈ s.views, ∀ i ∈ view.2, i.properties.InLimits) ∧ ¬InstancesRoundTrip .plain s := by
  obtain ⟨s, hs, hdiffers, hlimits⟩ : ∃ s,
      VisualInstance.updateProperties 0 (fun p => InstanceNumber.alpha.set p (1 / 2))
        (twoVideos [0]) = .ok () s ∧
      (restoreScenes .plain s).returns
        (fun _ t => firstAlpha t.savedProperties != firstAlpha s.savedProperties) = true ∧
      ∀ view ∈ s.views, ∀ i ∈ view.2, i.properties.InLimits := by
    refine ⟨_, rfl, by decide +kernel, fun view hview i hi => ?_⟩
    rw [List.mem_singleton.mp hview] at hi
    rw [List.mem_singleton.mp hi]
    intro x
    cases x <;> exact ⟨by decide +kernel, by decide +kernel⟩
  refine ⟨s, hs, hlimits, ?_⟩
  rintro ⟨t, ht, hsaved⟩
  rw [ht, Outcome.returns, hsaved, bne_self_eq_false] at hdiffers
  exact Bool.noConfusion hdiffers

end ArbutusEngine
