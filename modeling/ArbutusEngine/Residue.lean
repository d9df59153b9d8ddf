import ArbutusEngine.Bounds
import ArbutusEngine.Renaming
import ArbutusEngine.RoundTrip
import ArbutusEngine.Sessions

/-!
# What restoring a document leaves of the state before

A list that is empty is encoded as `null`, and `Engine::setState` replaces a list only by an array.
Restoring the document of a state therefore replaces the lists that this state has something in, and
leaves the others as they were before. The instances that are made for the scenes are encoded with
members that no constructor has initialised, which contain what the memory held before. This file
says what the state after restoring is, section by section, and from which two states restoring one
document comes to the same.

## Main definitions

* `Visual.IsVideoFile`: a video whose file exists.
* `EngineState.restored`: the state after a document has been restored.
* `Restores`: when restoring comes to an end.
* `SameResidue`, `SameMemory`: what has to agree before, in the two states and in the memory, for
  restoring to come to the same.

## Main results

* `Engine.setState_document_iff`: when restoring returns.
* `EngineState.connected_restored_iff`: when the restored state can be encoded.
* `restore_noResidue_iff`.
-/

open Exec

namespace ArbutusEngine

/-! ### The sections of a document -/

/-- The visual is a video, and its file exists. -/
def Visual.IsVideoFile (h : Host) (v : Visual) : Prop :=
  ∃ path, v.source = .video path ∧ path ≠ "" ∧ h.doesFileExist path false = true

/-- The caption and the path of a video. -/
def Visual.toVideo (v : Visual) : String × String :=
  (v.caption, match v.source with
    | .video path => path
    | _ => "")

/-- The video behind an entry is found again, wherever the set is. -/
theorem Visuals.decode_getState {h : Host} {v : Visual} (hv : v.IsVideoFile h) (setPath : String) :
    Visuals.decode h setPath v.getState = (some v.toVideo, none) := by
  obtain ⟨path, hsource, hne, hfile⟩ := hv
  have hvideo : Visuals.isVideo v.getState = true := by
    simp [Visuals.isVideo, Visual.getState, Visual.getType, Visual.sourceState, hsource, Json.field,
      Json.member, Json.isNumber, Json.isString, Json.getInt, Except.toOption]
  have hpath : v.getState.stringOr "filePath" "" = path := by
    simp [Json.stringOr, Visual.getState, Visual.sourceState, hsource, Json.field, Json.member]
  have hcaption : ∀ default, v.getState.stringOr "caption" default = v.caption := fun default => by
    simp [Json.stringOr, Visual.getState, Json.field, Json.member]
  have hfind : VisualVideo.findAbsolutePath h setPath path = path := if_pos hfile
  rw [Visuals.decode, if_pos (show v.getState.isIndexable = true from rfl), if_pos hvideo, hpath,
    hfind, if_neg hne, hcaption, Visual.toVideo, hsource]

section sections

variable {h : Host} {S : EngineState}

theorem Visuals.decodeAll_getState (hvideos : ∀ v ∈ S.visualsList, v.IsVideoFile h)
    (setPath : String) : Visuals.decodeAll h setPath (Visuals.getState S).elements =
      (S.visualsList.map Visual.toVideo, none) := by
  rw [Visuals.getState, Json.elements_pushAll]
  exact collect_map_of_forall_some fun v hv => Visuals.decode_getState (hvideos v hv) setPath

theorem visualsError_getState (hvideos : ∀ v ∈ S.visualsList, v.IsVideoFile h) (setPath : String) :
    visualsError h setPath (Visuals.getState S) = none := by
  rw [visualsError, Visuals.decodeAll_getState hvideos]
  exact ite_self _

/-- Encoded layers are read without an exception as long as the shaders are there. -/
theorem layersError_getState_iff (hlayers : S.layersList.length ≤ maximumNumberOfLayers) :
    layersError h (Layers.getState S) = none ↔ (S.layersList ≠ [] → h.shaderError = none) := by
  have hlen : (S.layersList.map fun l => l.properties.getState).length ≤ maximumNumberOfLayers := by
    rw [List.length_map]
    exact hlayers
  rw [layersError, Layers.getState, Json.elements_pushAll, List.take_of_length_le hlen]
  by_cases hnil : S.layersList = []
  · simp [hnil, Json.pushAll, Json.isArray]
  rw [if_pos (Json.isArray_pushAll.mpr (mt List.map_eq_nil_iff.mp hnil)), collect_snd_eq_none]
  have hdecode : ∀ l : Layer, (Layers.decode h l.properties.getState).2 = none ↔
      h.shaderError = none := by
    intro l
    rw [Layers.decode]
    cases h.shaderError with
    | some what => simp
    | none =>
      obtain ⟨p, hp⟩ := LayerProperties.setState_eq_ok l.properties.isIndexable_getState
        Layers.newProperties
      simp [hp]
  constructor
  · intro hall _
    obtain ⟨l, hl⟩ := List.exists_mem_of_ne_nil _ hnil
    exact (hdecode l).mp (hall _ (List.mem_map_of_mem hl))
  · intro hsh e he
    obtain ⟨l, -, rfl⟩ := List.mem_map.mp he
    exact (hdecode l).mpr (hsh hnil)

theorem not_tooManyLayers_getState (hlayers : S.layersList.length ≤ maximumNumberOfLayers) :
    ¬ TooManyLayers h (Layers.getState S) := by
  rintro ⟨-, -, hlt⟩
  rw [Layers.getState, Json.elements_pushAll, List.length_map] at hlt
  exact absurd hlayers (Nat.not_le_of_lt hlt)

theorem scenesError_scenesState (visuals visuals' : List Visual)
    (views : List (String × List VisualInstance)) :
    scenesError visuals' (scenesState visuals views) = none := by
  rw [scenesError, Scenes.decodeAll_scenesState]
  exact ite_self _

end sections

/-! ### The restored state -/

section restored

variable {h : Host} {S P : EngineState}

theorem Visuals.isArray_getState : (Visuals.getState S).isArray = true ↔ S.visualsList ≠ [] := by
  rw [Visuals.getState, Json.isArray_pushAll, ne_eq, List.map_eq_nil_iff]

theorem Layers.isArray_getState : (Layers.getState S).isArray = true ↔ S.layersList ≠ [] := by
  rw [Layers.getState, Json.isArray_pushAll, ne_eq, List.map_eq_nil_iff]

theorem isArray_scenesState (visuals : List Visual) :
    (scenesState visuals S.views).isArray = true ↔ S.scenesList ≠ [] := by
  rw [scenesState, Json.isArray_pushAll, ne_eq, List.map_eq_nil_iff, EngineState.views,
    List.map_eq_nil_iff]

/-- The state `P` after the document of `S` has been restored. -/
def EngineState.restored (h : Host) (P S : EngineState) : EngineState :=
  ((P.afterVisuals h (Visuals.getState S)).afterLayers h (Layers.getState S)).afterScenes h
    (scenesState S.visualsList S.views)

theorem EngineState.WellFormed.restored (hP : P.WellFormed) (h : Host) (S : EngineState) :
    (P.restored h S).WellFormed :=
  ((hP.afterVisuals h _).afterLayers h _).afterScenes h _

/-- Restoring the document of `S` returns exactly when the visuals can be replaced and the layers
can be made. -/
theorem Engine.setState_document_iff (hP : P.WellFormed)
    (hvideos : ∀ v ∈ S.visualsList, v.IsVideoFile h)
    (hlayers : S.layersList.length ≤ maximumNumberOfLayers) {t : EngineState} :
    Engine.setState h S.document P = .ok () t ↔
      (S.visualsList ≠ [] → P.Erasable h) ∧ (S.layersList ≠ [] → h.shaderError = none) ∧
        t = P.restored h S := by
  have hvisuals : S.document.field "visuals" = Visuals.getState S := rfl
  have hlayer : S.document.field "layers" = Layers.getState S := rfl
  have hscenes : S.document.field "scenes" = scenesState S.visualsList S.views := rfl
  rw [Engine.setState_eq_ok_iff hP, hvisuals, hlayer, hscenes, Visuals.isArray_getState,
    visualsError_getState hvideos, layersError_getState_iff hlayers, scenesError_scenesState]
  constructor
  · rintro ⟨-, herase, -, -, hshaders, -, ht⟩
    exact ⟨herase, hshaders, ht⟩
  · rintro ⟨herase, hshaders, ht⟩
    exact ⟨rfl, herase, rfl, not_tooManyLayers_getState hlayers, hshaders, rfl, ht⟩

/-- The visuals of the restored state: those of the document, or those that were there. -/
theorem EngineState.visualsList_restored (hvideos : ∀ v ∈ S.visualsList, v.IsVideoFile h) :
    (P.restored h S).visualsList = if S.visualsList = [] then P.visualsList
      else Visuals.allocate P.nextAddr (S.visualsList.map Visual.toVideo) := by
  rw [restored, visualsList_afterScenes, visualsList_afterLayers, afterVisuals]
  by_cases hnil : S.visualsList = []
  · rw [if_neg fun harr => Visuals.isArray_getState.mp harr hnil, if_pos hnil]
  · rw [if_pos (Visuals.isArray_getState.mpr hnil), if_neg hnil, Visuals.decodeAll_getState hvideos,
      pushVideos_eq]
    rfl

/-- The layers of the restored state: those of the document, or those that were there. -/
theorem EngineState.layers_restored (h : Host) (P S : EngineState) :
    Layers.getState (P.restored h S) = if S.layersList = [] then Layers.getState P
      else .pushAll ((decodedLayers h (Layers.getState S)).map LayerProperties.getState) := by
  have hstate : ∀ s : EngineState, Layers.getState s =
      .pushAll ((s.layersList.map Layer.properties).map LayerProperties.getState) := fun s => by
    rw [Layers.getState, List.map_map]
    rfl
  obtain ⟨l, i, n, p, hafter⟩ := EngineState.exists_afterScenes h
    ((P.afterVisuals h (Visuals.getState S)).afterLayers h (Layers.getState S))
    (scenesState S.visualsList S.views)
  obtain ⟨v, m, q, hvisuals⟩ := P.exists_afterVisuals h (Visuals.getState S)
  have hlayers : Layers.getState (P.restored h S) = Layers.getState
      ((P.afterVisuals h (Visuals.getState S)).afterLayers h (Layers.getState S)) := by
    rw [restored, hafter]
    rfl
  rw [hlayers, afterLayers, decodedLayers, hvisuals]
  by_cases hnil : S.layersList = []
  · rw [if_neg fun harr => Layers.isArray_getState.mp harr hnil, if_pos hnil]
    rfl
  · rw [if_pos (Layers.isArray_getState.mpr hnil), if_neg hnil,
      if_pos (Layers.isArray_getState.mpr hnil), hstate, properties_pushLayers]
    rfl

/-- The scenes of the restored state: those of the document, rebuilt over the visuals there are
then, or those that were there. -/
theorem EngineState.views_restored (hP : P.WellFormed) :
    (P.restored h S).views = if S.scenesList = [] then P.views
      else contentsOf h P.instances.next (S.views.map fun view =>
        (view.1, placementsOf (P.restored h S).visualsList view.2)) := by
  have hwf := (hP.afterVisuals h (Visuals.getState S)).afterLayers h (Layers.getState S)
  rw [restored, visualsList_afterScenes, afterScenes]
  by_cases hnil : S.scenesList = []
  · obtain ⟨l, n, p, hlayers⟩ := EngineState.exists_afterLayers h
      (P.afterVisuals h (Visuals.getState S)) (Layers.getState S)
    obtain ⟨v, m, q, hvisuals⟩ := P.exists_afterVisuals h (Visuals.getState S)
    rw [if_neg fun harr => (isArray_scenesState _).mp harr hnil, if_pos hnil, hlayers, hvisuals]
    rfl
  · rw [if_pos ((isArray_scenesState _).mpr hnil), if_neg hnil, views_clearScenes_buildScenes hwf,
      Scenes.decodeAll_scenesState, instances_afterLayers]

theorem Visuals.le_of_mem_allocate {videos : List (String × String)} {n : Addr} {v : Visual}
    (hv : v ∈ Visuals.allocate n videos) : n ≤ v.addr := by
  induction videos generalizing n with
  | nil => exact absurd hv List.not_mem_nil
  | cons video rest ih =>
    rcases List.mem_cons.mp hv with rfl | hv
    · exact Nat.le_refl _
    · exact Nat.le_of_succ_le (ih hv)

/-- The scenes have no instances. -/
theorem EngineState.views_eq_nil_iff (hP : P.WellFormed) :
    (∀ view ∈ P.views, view.2 = []) ↔ P.placed = [] := by
  rw [placed, List.flatMap_eq_nil_iff]
  constructor
  · intro hviews scene hscene
    have hnil : P.contents scene = [] := hviews _ (List.mem_map_of_mem hscene)
    refine List.eq_nil_iff_forall_not_mem.mpr fun a ha => ?_
    obtain ⟨i, hi⟩ := hP.instances_live scene hscene a ha
    have hmem : i ∈ P.contents scene := List.mem_filterMap.mpr ⟨a, ha, hi⟩
    rw [hnil] at hmem
    exact absurd hmem List.not_mem_nil
  · intro hplaced view hview
    obtain ⟨scene, hscene, rfl⟩ := List.mem_map.mp hview
    simp [contents, hplaced scene hscene]

/-- The restored state can be encoded when its scenes come from the document, or when their
instances still have their visuals: those that were there, unless the document has visuals. -/
theorem EngineState.connected_restored_iff (hP : P.WellFormed) (hb : P.Bounded)
    (hvideos : ∀ v ∈ S.visualsList, v.IsVideoFile h) :
    (P.restored h S).Connected ↔ (S.scenesList = [] →
      if S.visualsList = [] then P.Connected else P.placed = []) := by
  by_cases hscenes : S.scenesList = []
  swap
  · refine ⟨fun _ hnil => absurd hnil hscenes, fun _ => ?_⟩
    exact connected_afterScenes h ((hP.afterVisuals h _).afterLayers h _)
      ((isArray_scenesState _).mpr hscenes)
  rw [Connected, views_restored hP, if_pos hscenes, visualsList_restored hvideos]
  by_cases hvisuals : S.visualsList = []
  · rw [if_pos hvisuals, if_pos hvisuals]
    exact ⟨fun hc _ => hc, fun hc => hc hscenes⟩
  rw [if_neg hvisuals, if_neg hvisuals, ← views_eq_nil_iff hP]
  constructor
  · intro hc _ view hview
    obtain ⟨scene, -, rfl⟩ := List.mem_map.mp hview
    refine List.eq_nil_iff_forall_not_mem.mpr fun i hi => ?_
    obtain ⟨v, hv, hvi⟩ := hc _ hview i hi
    obtain ⟨a, -, ha⟩ := List.mem_filterMap.mp hi
    -- the visual of the instance is older than the visuals of the document
    have hlt := hb a i ha
    have hle := Visuals.le_of_mem_allocate hv
    rw [hvi] at hle
    exact absurd hlt (Nat.not_lt_of_le hle)
  · intro hc view hview i hi
    rw [hc hscenes view hview] at hi
    exact absurd hi List.not_mem_nil

/-- Scenes without instances are encoded alike over all lists of visuals. -/
theorem scenesState_congr {views : List (String × List VisualInstance)}
    (hviews : ∀ view ∈ views, view.2 = []) (visuals visuals' : List Visual) :
    scenesState visuals views = scenesState visuals' views := by
  rw [scenesState, scenesState]
  refine congrArg Json.pushAll (List.map_congr_left fun view hview => ?_)
  rw [sceneState, sceneState, hviews view hview]
  rfl

end restored

/-! ### Memory that is not initialised -/

section memory

variable {h₁ h₂ : Host}

/-- What the encoding writes of the members that no constructor has initialised. -/
def Uninitialised.written (u : Uninitialised) : ℕ × ℕ × ℤ × ℤ × ℤ :=
  (u.openedTimestamp, u.lastPlayedTimestamp, u.videoX, u.videoWidth, u.videoHeight)

/-- The properties of new instances are encoded alike exactly when their timestamps are equal. -/
theorem without_getState_fresh_iff (a b visual : Addr) (layer column : UInt32) (name : String) :
    (VisualInstance.fresh h₁ a visual layer column name).properties.getState.without "address" =
        (VisualInstance.fresh h₂ b visual layer column name).properties.getState.without "address" ↔
      (h₁.uninitialised a).openedTimestamp = (h₂.uninitialised b).openedTimestamp ∧
        (h₁.uninitialised a).lastPlayedTimestamp = (h₂.uninitialised b).lastPlayedTimestamp := by
  have hfields : ∀ p : VisualInstancesProperties,
      p.getState.field "openedTimestamp" = .int p.openedTimestamp ∧
        p.getState.field "lastPlayedTimestamp" = .int p.lastPlayedTimestamp := by
    intro p
    simp only [VisualInstancesProperties.getState, VisualInstancesProperties.ownState,
      List.foldl_cons, List.foldl_nil, Json.field_insert, String.reduceEq, ↓reduceIte, and_self]
  constructor
  · intro heq
    have hopened := congrArg (Json.field "openedTimestamp") heq
    have hlast := congrArg (Json.field "lastPlayedTimestamp") heq
    simp only [Json.field_without (show "openedTimestamp" ≠ "address" by decide),
      Json.field_without (show "lastPlayedTimestamp" ≠ "address" by decide), hfields] at hopened hlast
    exact ⟨Int.ofNat.inj (Json.int.inj hopened), Int.ofNat.inj (Json.int.inj hlast)⟩
  · rintro ⟨hopened, hlast⟩
    have hproperties : (VisualInstance.fresh h₁ a visual layer column name).properties =
        (VisualInstance.fresh h₂ b visual layer column name).properties := by
      simp only [VisualInstance.fresh, VisualInstance.setName, VisualInstancesProperties.new, hopened,
        hlast]
    rw [hproperties]

/-- An instance is encoded alike in two places exactly when the memory holds the same there. -/
theorem without_instanceState_iff (visuals : List Visual) (n : ℕ) (p : Placement) (a b : Addr) :
    (instanceState visuals n (p.toInstance h₁ a)).without "address" =
        (instanceState visuals n (p.toInstance h₂ b)).without "address" ↔
      (h₁.uninitialised a).written = (h₂.uninitialised b).written := by
  have hproperties : (p.toInstance h₁ a).properties.getState.without "address" =
      (p.toInstance h₂ b).properties.getState.without "address" ↔ _ :=
    without_getState_fresh_iff a b p.visual p.layer p.column p.name
  have hvideo : ∀ (h : Host) (a : Addr), ((p.toInstance h a).videoX, (p.toInstance h a).videoWidth,
      (p.toInstance h a).videoHeight, (p.toInstance h a).visual) = ((h.uninitialised a).videoX,
        (h.uninitialised a).videoWidth, (h.uninitialised a).videoHeight, p.visual) :=
    fun _ _ => rfl
  simp only [Prod.mk.injEq] at hvideo
  simp [instanceState, VisualInstance.getState, Json.insert, Json.without, Json.withoutMembers,
    Uninitialised.written, hvideo, hproperties, and_assoc]

theorem map_without_instancesOf_iff {placements : List Placement}
    (hp : placements.Pairwise fun p q => (p.layer, p.column) ≠ (q.layer, q.column))
    (visuals : List Visual) (a b : Addr) :
    ((instancesOf h₁ a placements).mapIdx (instanceState visuals)).map (Json.without "address") =
        ((instancesOf h₂ b placements).mapIdx (instanceState visuals)).map
          (Json.without "address") ↔
      ∀ k < placements.length,
        (h₁.uninitialised (a + k)).written = (h₂.uninitialised (b + k)).written := by
  have hstate : ∀ (h : Host) (a : Addr) (k : ℕ),
      (((instancesOf h a placements).mapIdx (instanceState visuals)).map
        (Json.without "address"))[k]? = placements[k]?.map fun p =>
          (instanceState visuals k (p.toInstance h (a + k))).without "address" := by
    intro h a k
    rw [instancesOf_of_pairwise h a hp, List.getElem?_map, List.getElem?_mapIdx, List.getElem?_map,
      List.getElem?_zipIdx, Option.map_map, Option.map_map, Option.map_map]
    rfl
  rw [List.ext_getElem?_iff]
  refine forall_congr' fun k => ?_
  rw [hstate, hstate]
  by_cases hk : k < placements.length
  · rw [List.getElem?_eq_getElem hk, Option.map_some, Option.map_some, Option.some.injEq,
      without_instanceState_iff, imp_iff_right hk]
  · rw [List.getElem?_eq_none (Nat.le_of_not_lt hk), Option.map_none, Option.map_none]
    exact iff_of_true rfl fun hlt => absurd hlt hk

theorem without_sceneState (visuals : List Visual) (view : String × List VisualInstance) :
    (sceneState visuals view).without "address" = .obj [("name", .str view.1), ("instances",
      .pushAll ((view.2.mapIdx (instanceState visuals)).map (Json.without "address")))] := by
  rw [← Json.without_pushAll]
  rfl

theorem without_sceneState_iff {placements : List Placement}
    (hp : placements.Pairwise fun p q => (p.layer, p.column) ≠ (q.layer, q.column))
    (visuals : List Visual) (name : String) (a b : Addr) :
    (sceneState visuals (name, instancesOf h₁ a placements)).without "address" =
        (sceneState visuals (name, instancesOf h₂ b placements)).without "address" ↔
      ∀ k < placements.length,
        (h₁.uninitialised (a + k)).written = (h₂.uninitialised (b + k)).written := by
  rw [without_sceneState, without_sceneState, ← map_without_instancesOf_iff hp visuals,
    ← Json.pushAll_inj]
  simp only [Json.obj.injEq, List.cons.injEq, Prod.mk.injEq, true_and, and_true]

theorem forall_lt_add {P : ℕ → Prop} (m n : ℕ) :
    (∀ k < m + n, P k) ↔ (∀ k < m, P k) ∧ ∀ k < n, P (m + k) := by
  constructor
  · exact fun hall => ⟨fun k hk => hall k (by omega), fun k hk => hall (m + k) (by omega)⟩
  · rintro ⟨hlow, hhigh⟩ k hk
    by_cases hm : k < m
    · exact hlow k hm
    · obtain ⟨j, rfl⟩ := Nat.exists_eq_add_of_le (Nat.le_of_not_lt hm)
      exact hhigh j (by omega)

/-- The scenes are encoded alike exactly when the memory holds the same for each of their
instances. -/
theorem without_scenesState_iff {scenes : List (String × List Placement)}
    (hp : ∀ scene ∈ scenes, scene.2.Pairwise fun p q => (p.layer, p.column) ≠ (q.layer, q.column))
    (visuals : List Visual) (a b : Addr) :
    (scenesState visuals (contentsOf h₁ a scenes)).without "address" =
        (scenesState visuals (contentsOf h₂ b scenes)).without "address" ↔
      ∀ k < (scenes.map fun scene => scene.2.length).sum,
        (h₁.uninitialised (a + k)).written = (h₂.uninitialised (b + k)).written := by
  rw [scenesState, scenesState, Json.without_pushAll, Json.without_pushAll, Json.pushAll_inj]
  induction scenes generalizing a b with
  | nil => exact iff_of_true rfl fun k hk => absurd hk (Nat.not_lt_zero k)
  | cons scene rest ih =>
    obtain ⟨hscene, hrest⟩ := List.forall_mem_cons.mp hp
    have hsucc := ih hrest (a + scene.2.length) (b + scene.2.length)
    simp only [contentsOf, List.map_cons, List.cons.injEq, List.sum_cons]
    rw [forall_lt_add, without_sceneState_iff hscene, hsucc]
    simp only [Nat.add_assoc]

end memory

/-! ### Two states before -/

section residue

variable {h h₁ h₂ : Host} {S P P₁ P₂ : EngineState}

theorem without_visuals_restored (hvideos : ∀ v ∈ S.visualsList, v.IsVideoFile h)
    (hne : S.visualsList ≠ []) (P : EngineState) :
    (Visuals.getState (P.restored h S)).without "address" = (Json.pushAll
      ((Visuals.allocate 0 (S.visualsList.map Visual.toVideo)).map Visual.getState)).without
        "address" := by
  rw [Visuals.getState, EngineState.visualsList_restored hvideos, if_neg hne,
    ← Nat.zero_add P.nextAddr, Visuals.allocate_eq, Visuals.without_states_rename]

/-- The scenes of the document of a state, over its visuals allocated from the address `0` on. -/
def EngineState.rebuilt (S : EngineState) : List (String × List Placement) :=
  S.views.map fun view =>
    (view.1, placementsOf (Visuals.allocate 0 (S.visualsList.map Visual.toVideo)) view.2)

/-- Scenes that come from the document are encoded alike but for addresses, whatever was there
before, over the same memory. -/
theorem without_scenes_restored (hvideos : ∀ v ∈ S.visualsList, v.IsVideoFile h)
    (hS : S.Connected) (hscenes : S.scenesList ≠ []) (hP : P.WellFormed) :
    (scenesState (P.restored h S).visualsList (P.restored h S).views).without "address" =
      (scenesState (Visuals.allocate 0 (S.visualsList.map Visual.toVideo))
        (contentsOf h P.instances.next S.rebuilt)).without "address" := by
  rw [EngineState.views_restored hP, if_neg hscenes, EngineState.visualsList_restored hvideos,
    EngineState.rebuilt]
  by_cases hvisuals : S.visualsList = []
  · -- without visuals the document has no instances
    have hnil : ∀ view ∈ S.views, view.2 = [] := by
      intro view hview
      refine List.eq_nil_iff_forall_not_mem.mpr fun i hi => ?_
      obtain ⟨v, hv, -⟩ := hS view hview i hi
      rw [hvisuals] at hv
      exact absurd hv List.not_mem_nil
    have hplacements : ∀ visuals : List Visual, (S.views.map fun view =>
        (view.1, placementsOf visuals view.2)) = S.views.map fun view => (view.1, []) := by
      intro visuals
      refine List.map_congr_left fun view hview => ?_
      rw [hnil view hview]
      rfl
    rw [hplacements, hplacements]
    refine congrArg _ (scenesState_congr (fun view hview => ?_) _ _)
    obtain ⟨scene, hscene, m, rfl⟩ := exists_of_mem_contentsOf hview
    obtain ⟨view, -, rfl⟩ := List.mem_map.mp hscene
    rfl
  · rw [if_neg hvisuals, ← Nat.zero_add P.nextAddr, Visuals.allocate_eq]
    simp only [placementsOf_rename]
    have hrename := contentsOf_rename (· + P.nextAddr) h P.instances.next S.rebuilt
    rw [EngineState.rebuilt, List.map_map] at hrename
    have hscenes := without_scenesState_rename (f := (· + P.nextAddr))
      (fun _ _ => Nat.add_right_cancel)
      (Visuals.allocate 0 (S.visualsList.map Visual.toVideo))
      (contentsOf h P.instances.next S.rebuilt)
    rw [← contentsOf_rename, EngineState.rebuilt, List.map_map] at hscenes
    exact hscenes

/-- The encoded states agree but for addresses when their sections do. -/
theorem without_document_eq_iff (s t : EngineState) :
    s.document.without "address" = t.document.without "address" ↔
      (Visuals.getState s).without "address" = (Visuals.getState t).without "address" ∧
      (Layers.getState s).without "address" = (Layers.getState t).without "address" ∧
      (scenesState s.visualsList s.views).without "address" =
        (scenesState t.visualsList t.views).without "address" := by
  simp [EngineState.document, Json.without, Json.withoutMembers]

/-- Restoring the document of `S` from the state `P` comes to an end that can be encoded: the list
of visuals can be emptied if there are visuals to replace it, and scenes that are not replaced keep
the visuals of their instances. -/
def Restores (h : Host) (S P : EngineState) : Prop :=
  (S.visualsList ≠ [] → P.Erasable h) ∧
    (S.scenesList = [] → if S.visualsList = [] then P.Connected else P.placed = [])

/-- What the document of `S` does not replace, because a list of `S` is empty, is encoded alike but
for addresses in the two states. -/
def SameResidue (S P₁ P₂ : EngineState) : Prop :=
  (S.visualsList = [] →
    (Visuals.getState P₁).without "address" = (Visuals.getState P₂).without "address") ∧
  (S.layersList = [] →
    (Layers.getState P₁).without "address" = (Layers.getState P₂).without "address") ∧
  (S.scenesList = [] →
    (scenesState P₁.visualsList P₁.views).without "address" =
      (scenesState P₂.visualsList P₂.views).without "address")

/-- The number of instances that restoring the document makes: those whose position in their scene
is a position of the list of visuals. -/
def EngineState.restoredCount (S : EngineState) : ℕ :=
  (S.views.map fun view => (placementsOf S.visualsList view.2).length).sum

/-- The memory in which restoring the document makes its instances holds the same in both runs, as
far as it is encoded. -/
def SameMemory (h₁ h₂ : Host) (S P₁ P₂ : EngineState) : Prop :=
  ∀ k < S.restoredCount, (h₁.uninitialised (P₁.instances.next + k)).written =
    (h₂.uninitialised (P₂.instances.next + k)).written

/-- Restoring the document from both states, each in its own surroundings, returns, and both then
encode alike but for addresses. -/
def RestoresAlike (h₁ h₂ : Host) (document : Json) (P₁ P₂ : EngineState) : Prop :=
  ∃ t₁ t₂ j₁ j₂ u₁ u₂, Engine.setState h₁ document P₁ = .ok () t₁ ∧
    Engine.setState h₂ document P₂ = .ok () t₂ ∧ Engine.getState t₁ = .ok j₁ u₁ ∧
    Engine.getState t₂ = .ok j₂ u₂ ∧ j₁.without "address" = j₂.without "address"

/-- Scenes that are not replaced are encoded as before. -/
theorem scenesState_restored (hvideos : ∀ v ∈ S.visualsList, v.IsVideoFile h) (hP : P.WellFormed)
    (hr : Restores h S P) (hscenes : S.scenesList = []) :
    scenesState (P.restored h S).visualsList (P.restored h S).views =
      scenesState P.visualsList P.views := by
  have hkept := hr.2 hscenes
  rw [EngineState.views_restored hP, if_pos hscenes, EngineState.visualsList_restored hvideos]
  split_ifs at hkept ⊢
  · rfl
  · exact scenesState_congr ((EngineState.views_eq_nil_iff hP).mpr hkept) _ _

/-- How many placements there are depends on the number of visuals only. -/
theorem length_placementsOf_congr {visuals visuals' : List Visual}
    (hlen : visuals.length = visuals'.length) (instances : List VisualInstance) :
    (placementsOf visuals instances).length = (placementsOf visuals' instances).length := by
  have hget : ∀ pos, (Visuals.get visuals pos).map (fun _ => ()) =
      (Visuals.get visuals' pos).map fun _ => () := by
    intro pos
    rw [Visuals.get_eq, Visuals.get_eq]
    split_ifs
    · rcases Nat.lt_or_ge pos.toInt.toNat visuals.length with hlt | hle
      · rw [List.getElem?_eq_getElem hlt, List.getElem?_eq_getElem (hlen ▸ hlt)]
        rfl
      · rw [List.getElem?_eq_none hle, List.getElem?_eq_none (hlen ▸ hle)]
    · rfl
  have hunits : (placementsOf visuals instances).map (fun _ => ()) =
      (placementsOf visuals' instances).map fun _ => () := by
    rw [placementsOf, placementsOf, List.map_filterMap, List.map_filterMap]
    refine List.filterMap_congr fun i _ => ?_
    rw [Option.map_map, Option.map_map]
    exact hget _
  simpa using congrArg List.length hunits

theorem sum_length_rebuilt (S : EngineState) :
    (S.rebuilt.map fun scene => scene.2.length).sum = S.restoredCount := by
  rw [EngineState.rebuilt, List.map_map, EngineState.restoredCount]
  refine congrArg List.sum (List.map_congr_left fun view _ => ?_)
  refine length_placementsOf_congr ?_ view.2
  rw [Visuals.length_allocate, List.length_map]

theorem decodedLayers_congr (hs : h₁.shaderError = h₂.shaderError) (layers : Json) :
    decodedLayers h₁ layers = decodedLayers h₂ layers := by
  have hdecode : Layers.decode h₁ = Layers.decode h₂ := by
    funext layer
    rw [Layers.decode, Layers.decode, hs]
  rw [decodedLayers, decodedLayers, hdecode]

theorem without_visuals_restored_iff (hvideos₁ : ∀ v ∈ S.visualsList, v.IsVideoFile h₁)
    (hvideos₂ : ∀ v ∈ S.visualsList, v.IsVideoFile h₂) :
    (Visuals.getState (P₁.restored h₁ S)).without "address" =
      (Visuals.getState (P₂.restored h₂ S)).without "address" ↔ (S.visualsList = [] →
        (Visuals.getState P₁).without "address" = (Visuals.getState P₂).without "address") := by
  by_cases hnil : S.visualsList = []
  · have hkept : ∀ {h : Host}, (∀ v ∈ S.visualsList, v.IsVideoFile h) → ∀ P : EngineState,
        Visuals.getState (P.restored h S) = Visuals.getState P := by
      intro h hvideos P
      rw [Visuals.getState, EngineState.visualsList_restored hvideos, if_pos hnil, Visuals.getState]
    rw [hkept hvideos₁, hkept hvideos₂]
    exact ⟨fun heq _ => heq, fun heq => heq hnil⟩
  · rw [without_visuals_restored hvideos₁ hnil, without_visuals_restored hvideos₂ hnil]
    exact ⟨fun _ hnil' => absurd hnil' hnil, fun _ => rfl⟩

theorem without_layers_restored_iff
    (hshaders : S.layersList ≠ [] → h₁.shaderError = h₂.shaderError) :
    (Layers.getState (P₁.restored h₁ S)).without "address" =
      (Layers.getState (P₂.restored h₂ S)).without "address" ↔ (S.layersList = [] →
        (Layers.getState P₁).without "address" = (Layers.getState P₂).without "address") := by
  rw [EngineState.layers_restored, EngineState.layers_restored]
  split_ifs with hnil
  · exact ⟨fun heq _ => heq, fun heq => heq hnil⟩
  · rw [decodedLayers_congr (hshaders hnil)]
    exact ⟨fun _ hnil' => absurd hnil' hnil, fun _ => rfl⟩

/-- The scenes are encoded alike when the memory of their instances held the same. -/
theorem without_scenes_restored_iff (hvideos₁ : ∀ v ∈ S.visualsList, v.IsVideoFile h₁)
    (hvideos₂ : ∀ v ∈ S.visualsList, v.IsVideoFile h₂) (hlaid : S.Laid) (hS : S.Connected)
    (hP₁ : P₁.WellFormed) (hP₂ : P₂.WellFormed) (hr₁ : Restores h₁ S P₁)
    (hr₂ : Restores h₂ S P₂) :
    (scenesState (P₁.restored h₁ S).visualsList (P₁.restored h₁ S).views).without "address" =
      (scenesState (P₂.restored h₂ S).visualsList (P₂.restored h₂ S).views).without "address" ↔
        (S.scenesList = [] →
          (scenesState P₁.visualsList P₁.views).without "address" =
            (scenesState P₂.visualsList P₂.views).without "address") ∧
          SameMemory h₁ h₂ S P₁ P₂ := by
  by_cases hnil : S.scenesList = []
  · have hmemory : SameMemory h₁ h₂ S P₁ P₂ := by
      intro k hk
      rw [EngineState.restoredCount, EngineState.views, hnil] at hk
      exact absurd hk (Nat.not_lt_zero k)
    rw [scenesState_restored hvideos₁ hP₁ hr₁ hnil, scenesState_restored hvideos₂ hP₂ hr₂ hnil]
    exact ⟨fun heq => ⟨fun _ => heq, hmemory⟩, fun heq => heq.1 hnil⟩
  · have hcells : ∀ scene ∈ S.rebuilt,
        scene.2.Pairwise fun p q => (p.layer, p.column) ≠ (q.layer, q.column) := by
      intro scene hscene
      obtain ⟨view, hview, rfl⟩ := List.mem_map.mp hscene
      exact placementsOf_pairwise _ (hlaid.pairwise_of_mem_views hview)
    rw [without_scenes_restored hvideos₁ hS hnil hP₁, without_scenes_restored hvideos₂ hS hnil hP₂,
      without_scenesState_iff hcells, sum_length_rebuilt]
    exact (and_iff_right fun hnil' => absurd hnil' hnil).symm

/-- Two restored states are encoded alike exactly when what the document does not replace is, and
the memory of the new instances. -/
theorem without_document_restored_iff (hvideos₁ : ∀ v ∈ S.visualsList, v.IsVideoFile h₁)
    (hvideos₂ : ∀ v ∈ S.visualsList, v.IsVideoFile h₂)
    (hshaders : S.layersList ≠ [] → h₁.shaderError = h₂.shaderError) (hlaid : S.Laid)
    (hS : S.Connected) (hP₁ : P₁.WellFormed) (hP₂ : P₂.WellFormed) (hr₁ : Restores h₁ S P₁)
    (hr₂ : Restores h₂ S P₂) :
    (P₁.restored h₁ S).document.without "address" = (P₂.restored h₂ S).document.without "address" ↔
      SameResidue S P₁ P₂ ∧ SameMemory h₁ h₂ S P₁ P₂ := by
  rw [without_document_eq_iff, without_visuals_restored_iff hvideos₁ hvideos₂,
    without_layers_restored_iff hshaders,
    without_scenes_restored_iff hvideos₁ hvideos₂ hlaid hS hP₁ hP₂ hr₁ hr₂, SameResidue]
  tauto

/-- For every state `S` of videos whose files exist, restoring its document from two reachable
states, each in surroundings of its own, comes to the same, up to addresses, exactly when the shaders
are there for the layers to be made, restoring comes to an end in both, what the document does not
replace is the same in both, and so is what the memory of the new instances held before. -/
theorem restore_noResidue_iff {S' : EngineState} {document : Json} (h₁ h₂ : Host) (hS : S.Reachable)
    (hP₁ : P₁.Reachable) (hP₂ : P₂.Reachable) (hD : Engine.getState S = .ok document S')
    (hvideos₁ : ∀ v ∈ S.visualsList, v.IsVideoFile h₁)
    (hvideos₂ : ∀ v ∈ S.visualsList, v.IsVideoFile h₂)
    (hlayers : S.layersList.length ≤ maximumNumberOfLayers) :
    RestoresAlike h₁ h₂ document P₁ P₂ ↔
      (S.layersList ≠ [] → h₁.shaderError = none ∧ h₂.shaderError = none) ∧ Restores h₁ S P₁ ∧
        Restores h₂ S P₂ ∧ SameResidue S P₁ P₂ ∧ SameMemory h₁ h₂ S P₁ P₂ := by
  have hc : S.Connected := by
    by_contra hne
    rw [Engine.getState_of_not_connected hS.wellFormed hne] at hD
    cases hD
  rw [Engine.getState_of_connected hS.wellFormed hc] at hD
  obtain ⟨rfl, -⟩ := Outcome.ok.inj hD
  have hget : ∀ {h : Host} {P : EngineState}, P.Reachable → ∀ j u,
      Engine.getState (P.restored h S) = .ok j u ↔
        (P.restored h S).Connected ∧ j = (P.restored h S).document ∧ u = P.restored h S := by
    intro h P hP j u
    have hwf := hP.wellFormed.restored h S
    by_cases hconn : (P.restored h S).Connected
    · rw [Engine.getState_of_connected hwf hconn, Outcome.ok.injEq, eq_comm (b := j),
        eq_comm (b := u)]
      exact ⟨fun heq => ⟨hconn, heq⟩, fun heq => heq.2⟩
    · rw [Engine.getState_of_not_connected hwf hconn]
      exact ⟨fun heq => (by cases heq), fun heq => absurd heq.1 hconn⟩
  have hconn : ∀ {h : Host} {P : EngineState}, (∀ v ∈ S.visualsList, v.IsVideoFile h) →
      P.Reachable → ((P.restored h S).Connected ↔ (S.scenesList = [] →
        if S.visualsList = [] then P.Connected else P.placed = [])) := fun hvideos hP =>
    EngineState.connected_restored_iff hP.wellFormed hP.bounded hvideos
  constructor
  · rintro ⟨t₁, t₂, j₁, j₂, u₁, u₂, hset₁, hset₂, hget₁, hget₂, heq⟩
    obtain ⟨herase₁, hshaders₁, rfl⟩ :=
      (Engine.setState_document_iff hP₁.wellFormed hvideos₁ hlayers).mp hset₁
    obtain ⟨herase₂, hshaders₂, rfl⟩ :=
      (Engine.setState_document_iff hP₂.wellFormed hvideos₂ hlayers).mp hset₂
    obtain ⟨hconn₁, rfl, -⟩ := (hget hP₁ _ _).mp hget₁
    obtain ⟨hconn₂, rfl, -⟩ := (hget hP₂ _ _).mp hget₂
    have hr₁ : Restores h₁ S P₁ := ⟨herase₁, (hconn hvideos₁ hP₁).mp hconn₁⟩
    have hr₂ : Restores h₂ S P₂ := ⟨herase₂, (hconn hvideos₂ hP₂).mp hconn₂⟩
    refine ⟨fun hne => ⟨hshaders₁ hne, hshaders₂ hne⟩, hr₁, hr₂, ?_⟩
    exact (without_document_restored_iff hvideos₁ hvideos₂
      (fun hne => (hshaders₁ hne).trans (hshaders₂ hne).symm) hS.laid hc hP₁.wellFormed
      hP₂.wellFormed hr₁ hr₂).mp heq
  · rintro ⟨hshaders, hr₁, hr₂, hsame⟩
    refine ⟨_, _, _, _, _, _,
      (Engine.setState_document_iff hP₁.wellFormed hvideos₁ hlayers).mpr
        ⟨hr₁.1, fun hne => (hshaders hne).1, rfl⟩,
      (Engine.setState_document_iff hP₂.wellFormed hvideos₂ hlayers).mpr
        ⟨hr₂.1, fun hne => (hshaders hne).2, rfl⟩,
      (hget hP₁ _ _).mpr ⟨(hconn hvideos₁ hP₁).mpr hr₁.2, rfl, rfl⟩,
      (hget hP₂ _ _).mpr ⟨(hconn hvideos₂ hP₂).mpr hr₂.2, rfl, rfl⟩, ?_⟩
    exact (without_document_restored_iff hvideos₁ hvideos₂
      (fun hne => (hshaders hne).1.trans (hshaders hne).2.symm) hS.laid hc hP₁.wellFormed
      hP₂.wellFormed hr₁ hr₂).mpr hsame

end residue

/-- A set with a layer, a video and an instance of it in its scene is restored alike from the
initial state and from a set with two layers. -/
theorem restore_noResidue_fullSet : ∃ (S P : EngineState) (document : Json), S.Reachable ∧
    P.Reachable ∧ P.layersList.length = 2 ∧ Engine.getState S = .ok document S ∧
      RestoresAlike Host.plain Host.plain document EngineState.init P := by
  obtain ⟨S, hS, hc, hvisuals, hlayers, hscenes, hvideos⟩ : ∃ S : EngineState, S.Reachable ∧
      S.Connected ∧ S.visualsList ≠ [] ∧ S.layersList ≠ [] ∧ S.scenesList ≠ [] ∧
        ∀ v ∈ S.visualsList, v.source = .video "a.mov" :=
    exists_reaches [(Host.plain, .newSet 640 480 1), (Host.plain, .addVideo "a.mov"),
      (Host.plain, .addVisualToScene 0 0 0)] (by decide +kernel)
  obtain ⟨P, hP, hlen⟩ : ∃ P : EngineState, P.Reachable ∧ P.layersList.length = 2 :=
    exists_reaches [(Host.plain, .newSet 640 480 2)] (by decide +kernel)
  have hD := Engine.getState_of_connected hS.wellFormed hc
  have hfiles : ∀ v ∈ S.visualsList, v.IsVideoFile Host.plain := fun v hv =>
    ⟨"a.mov", hvideos v hv, by decide, rfl⟩
  have hrestores : ∀ Q : EngineState, Restores Host.plain S Q := fun _ =>
    ⟨fun _ => .inr rfl, fun hnil => absurd hnil hscenes⟩
  refine ⟨S, P, S.document, hS, hP, hlen, hD, ?_⟩
  refine (restore_noResidue_iff Host.plain Host.plain hS .refl hP hD hfiles hfiles
    hS.wellFormed.layers_le).mpr
      ⟨fun _ => ⟨rfl, rfl⟩, hrestores _, hrestores _, ?_, fun _ _ => rfl⟩
  exact ⟨fun hnil => absurd hnil hvisuals, fun hnil => absurd hnil hlayers,
    fun hnil => absurd hnil hscenes⟩

/-- The document of the initial state leaves the layers of a new set where they are. -/
theorem restore_noResidue_emptySet : ∃ P : EngineState, P.Reachable ∧ EngineState.init.Reachable ∧
    Engine.getState EngineState.init = .ok EngineState.init.document EngineState.init ∧
      ¬ RestoresAlike Host.plain Host.plain EngineState.init.document EngineState.init P := by
  obtain ⟨P, hP, hlayers⟩ : ∃ P : EngineState, P.Reachable ∧
      (Engine.getState P).returns
        (fun j _ => ((j.without "address").field "layers").isArray) = true :=
    exists_reaches [(Host.plain, .newSet 640 480 1)] (by decide +kernel)
  refine ⟨P, hP, .refl, rfl, ?_⟩
  rintro ⟨t₁, t₂, j₁, j₂, u₁, u₂, hset₁, hset₂, hget₁, hget₂, heq⟩
  -- a document of three `null`s changes nothing
  obtain rfl := (Outcome.ok.inj hset₁).2
  obtain rfl := (Outcome.ok.inj hset₂).2
  obtain rfl := (Outcome.ok.inj hget₁).1
  rw [hget₂] at hlayers
  have hlayers : ((j₂.without "address").field "layers").isArray = true := hlayers
  rw [← heq] at hlayers
  exact Bool.noConfusion hlayers

end ArbutusEngine
