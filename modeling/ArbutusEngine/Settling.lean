import ArbutusEngine.Alignment
import ArbutusEngine.LayersRoundTrip
import ArbutusEngine.Residue
import ArbutusEngine.RoundTrip
import ArbutusEngine.Sessions

/-!
# Saving and opening settle

A set does not come back as it was saved: the red and the green of a layer are rounded, and the
instance at a position of a scene comes back as one of the visual at that position, or not at all
when there are fewer visuals. What has been opened once is in a normal form, though: saving it and
opening it again, over whatever was open in between, leads to the same document up to addresses.

The members that no constructor initialises are saved as well, so that the two documents agree exactly
when the memory of the instances held the same both times.

## Main definitions

* `LayerProperties.readBack`: what is read back from the state of a layer.
* `Host.Holds`: the file at a path holds the document of a state.

## Main results

* `placementsOf_instancesOf`: what is read back from a scene that has been read.
* `LayerProperties.getState_readBack_readBack`: what is read back from a layer that has been read.
* `open_settles`.
-/

open Exec

namespace ArbutusEngine

/-! ### Scenes -/

/-- Entries that are kept as long as a list lasts. -/
theorem filterMap_zipIdx_eq_zipWith {α β γ : Type} {f : ℕ → Option β} (g : α → β → γ) {l : List β} :
    ∀ (w : List α) (n : ℕ), (∀ k < w.length, f (n + k) = l[k]?) →
      (w.zipIdx n).filterMap (fun x => (f x.2).map (g x.1)) = List.zipWith g w l := by
  intro w
  induction w generalizing l with
  | nil => exact fun _ _ => rfl
  | cons x rest ih =>
    intro n hf
    have hhead : f n = l[0]? := hf 0 (Nat.zero_lt_succ _)
    have htail : ∀ k < rest.length, f (n + 1 + k) = l.tail[k]? := fun k hk => by
      rw [List.getElem?_tail, ← hf (k + 1) (Nat.succ_lt_succ hk)]
      exact congrArg f (by omega)
    rw [List.zipIdx_cons]
    cases l with
    | nil =>
      rw [List.filterMap_cons_none (by rw [hhead]; rfl), ih _ htail, List.tail_nil,
        List.zipWith_nil_right, List.zipWith_nil_right]
    | cons y ys =>
      rw [List.filterMap_cons_some (b := g x y) (by rw [hhead]; rfl), ih _ htail]
      rfl

/-- `Visuals::get` at the position of an instance, an `int`. -/
theorem Visuals.get_ofInt {visuals : List Visual} {n : ℕ} (hn : n < 2 ^ 32) :
    Visuals.get visuals (Int32.ofInt n) = (visuals.take (2 ^ 31))[n]? := by
  have hint : (Int32.ofInt n).toInt = if n < 2 ^ 31 then (n : ℤ) else n - 2 ^ 32 := by
    rw [Int32.toInt_ofInt, Int.bmod_def, Int32.size]
    split_ifs <;> omega
  rw [Visuals.get_eq, hint, List.getElem?_take]
  by_cases hsmall : n < 2 ^ 31
  · rw [if_pos hsmall, if_pos (Int.natCast_nonneg n), if_pos hsmall, Int.toNat_natCast]
  · rw [if_neg hsmall, if_neg (by omega), if_neg hsmall]

section scenes

variable {visuals : List Visual} {w : List VisualInstance}

/-- The instances of a scene are read back as those of the first visuals, in order. -/
theorem placementsOf_eq_zipWith (hw : w.length ≤ 2 ^ 32) : placementsOf visuals w =
    List.zipWith (fun i v => i.toPlacement v.addr) w (visuals.take (2 ^ 31)) := by
  refine filterMap_zipIdx_eq_zipWith (f := fun n => Visuals.get visuals (Int32.ofInt n))
    (fun i v => VisualInstance.toPlacement v.addr i) w 0 fun k hk => ?_
  rw [Nat.zero_add]
  exact Visuals.get_ofInt (lt_of_lt_of_le hk hw)

/-- An instance that has been added again is added in the same way. -/
theorem toPlacement_forget_toInstance (h : Host) (p : Placement) (a b : Addr) :
    (p.toInstance h a).forget.toPlacement b = { p with visual := b } := by
  simp [Placement.toInstance, VisualInstance.fresh, VisualInstance.toPlacement,
    VisualInstance.setName, VisualInstance.forget]

theorem placementsOf_map_forget (visuals : List Visual) (w : List VisualInstance) :
    placementsOf visuals (w.map VisualInstance.forget) = placementsOf visuals w := by
  rw [placementsOf, List.zipIdx_map, List.filterMap_map]
  rfl

/-- What is read back from a scene that has been read. -/
theorem placementsOf_instancesOf (h : Host) (n : Addr) {visuals' : List Visual}
    (hlen : visuals'.length = visuals.length) (hw : w.length ≤ 2 ^ 32)
    (hcells : w.Pairwise fun i j => i.cell ≠ j.cell) :
    placementsOf visuals' (instancesOf h n (placementsOf visuals w)) = placementsOf visuals' w := by
  have hread : (instancesOf h n (placementsOf visuals w)).map VisualInstance.forget = List.zipWith
      (fun i v => ((VisualInstance.toPlacement v.addr i).toInstance .plain 0).forget) w
        (visuals.take (2 ^ 31)) := by
    rw [map_instancesOf_of_pairwise (fun _ => rfl) h n (placementsOf_pairwise visuals hcells),
      placementsOf_eq_zipWith hw, List.map_zipWith]
  have hagain : ∀ (w : List VisualInstance) (l l' : List Visual), l'.length = l.length →
      List.zipWith (fun i v => VisualInstance.toPlacement v.addr i)
        (List.zipWith (fun i v =>
          ((VisualInstance.toPlacement v.addr i).toInstance .plain 0).forget) w l) l' =
          List.zipWith (fun i v => VisualInstance.toPlacement v.addr i) w l' := by
    intro w
    induction w with
    | nil => exact fun _ _ _ => rfl
    | cons i rest ih =>
      intro l l' hl
      cases l with
      | nil =>
        rw [List.length_eq_zero_iff.mp hl]
        rfl
      | cons v vs =>
        obtain ⟨v', vs', rfl⟩ := List.exists_cons_of_length_eq_add_one hl
        rw [List.zipWith_cons_cons, List.zipWith_cons_cons, List.zipWith_cons_cons,
          ih vs vs' (Nat.succ.inj hl), toPlacement_forget_toInstance]
        rfl
  rw [← placementsOf_map_forget, hread, placementsOf_eq_zipWith, placementsOf_eq_zipWith hw]
  · exact hagain w _ _ (by rw [List.length_take, List.length_take, hlen])
  · rw [List.length_zipWith]
    exact (min_le_left _ _).trans hw

end scenes

/-! ### Layers -/

/-- What a number has been rounded to has two decimals. -/
theorem twoDecimals_clampTo (q : ℚ) : TwoDecimals (ofClamp (roundWithPrecision q 2) (-1) 1) := by
  rw [ofClamp]
  split_ifs
  · exact ⟨-100, by norm_num⟩
  · exact ⟨100, by norm_num⟩
  · refine ⟨(floatToInt (roundHalfAway (q * 10 ^ 2) : ℚ)).toInt, ?_⟩
    rw [roundWithPrecision]
    norm_num

namespace LayerProperties

/-- The layer that is made from the state of another one. -/
@[irreducible] def readBack (p : LayerProperties) : LayerProperties :=
  (LayerWrite.setState p.getState).apply Layers.newProperties

theorem setState_readBack (p : LayerProperties) :
    Layers.newProperties.setState p.getState = .ok p.readBack := by
  rw [readBack, LayerWrite.apply, setState_getState_eq]

theorem storable_readBack (p : LayerProperties) : p.readBack.Storable := by
  have hnew : Constructed Layers.newProperties := .inl ⟨.plain, .zero, rfl⟩
  refine Written.storable ⟨Layers.newProperties, hnew, [.setState p.getState], ?_⟩
  rw [List.foldl_cons, List.foldl_nil, readBack]

/-- What is read back from a layer that has been read. -/
theorem getState_readBack_readBack (p : LayerProperties) :
    p.readBack.readBack.getState = p.readBack.getState := by
  have hcolours : TwoDecimals p.readBack.red ∧ TwoDecimals p.readBack.green := by
    have hread := p.setState_readBack
    rw [setState_getState_eq] at hread
    rw [← Except.ok.inj hread]
    exact ⟨twoDecimals_clampTo p.red, twoDecimals_clampTo p.green⟩
  have hstorable := p.storable_readBack
  have hread := p.readBack.setState_readBack
  rw [setState_getState hstorable] at hread
  rw [← Except.ok.inj hread]
  exact (getState_restored_iff hstorable).mpr hcolours

end LayerProperties

/-- The layers that are made from a saved list. -/
theorem decodedLayers_getState {h : Host} (hshaders : h.shaderError = none) {s : EngineState}
    (hmax : s.layersList.length ≤ maximumNumberOfLayers) :
    decodedLayers h (Layers.getState s) =
      s.layersList.map fun l => l.properties.readBack := by
  have helements : (Layers.getState s).elements = s.layersList.map fun l => l.properties.getState :=
    Json.elements_pushAll _
  have hdecode : collect (Layers.decode h) (s.layersList.map fun l => l.properties.getState) =
      (s.layersList.map fun l => l.properties.readBack, none) := by
    refine collect_map_of_forall_some fun l _ => ?_
    rw [Layers.decode, hshaders]
    simp only [LayerProperties.setState_readBack]
  rw [decodedLayers, helements, List.take_of_length_le (by rwa [List.length_map]), hdecode]
  split_ifs with harr
  · rfl
  · rw [Layers.isArray_getState, not_not] at harr
    rw [harr, List.map_nil]

/-! ### Visuals -/

theorem Visuals.map_toVideo_allocate (n : Addr) (videos : List (String × String)) :
    (Visuals.allocate n videos).map Visual.toVideo = videos := by
  induction videos generalizing n with
  | nil => rfl
  | cons video rest ih =>
    rw [Visuals.allocate, List.map_cons, ih]
    rfl

theorem Visuals.isVideoFile_allocate {h : Host} {visuals : List Visual}
    (hvideos : ∀ v ∈ visuals, v.IsVideoFile h) (n : Addr) :
    ∀ v ∈ Visuals.allocate n (visuals.map Visual.toVideo), v.IsVideoFile h := by
  induction visuals generalizing n with
  | nil => exact fun v hv => absurd hv List.not_mem_nil
  | cons w rest ih =>
    obtain ⟨hw, hrest⟩ := List.forall_mem_cons.mp hvideos
    refine List.forall_mem_cons.mpr ⟨?_, ih hrest (n + 1)⟩
    obtain ⟨path, hsource, hne, hfile⟩ := hw
    exact ⟨path, by rw [Visual.toVideo, hsource], hne, hfile⟩

/-! ### Documents -/

/-- The set has a visual, a layer and a scene. -/
def EngineState.Filled (s : EngineState) : Prop :=
  s.visualsList ≠ [] ∧ s.layersList ≠ [] ∧ s.scenesList ≠ []

instance (s : EngineState) : Decidable s.Filled := inferInstanceAs (Decidable (_ ∧ _ ∧ _))

section documents

variable {h h' : Host} {S P Q : EngineState}

/-- The properties of the layers that are restored. -/
theorem EngineState.properties_restored (hne : S.layersList ≠ []) (hshaders : h.shaderError = none)
    (hmax : S.layersList.length ≤ maximumNumberOfLayers) :
    (P.restored h S).layersList.map Layer.properties =
      S.layersList.map fun l => l.properties.readBack := by
  obtain ⟨l, i, n, p, hafter⟩ := EngineState.exists_afterScenes h
    ((P.afterVisuals h (Visuals.getState S)).afterLayers h (Layers.getState S))
    (scenesState S.visualsList S.views)
  have hlayers : (P.restored h S).layersList =
      ((P.afterVisuals h (Visuals.getState S)).afterLayers h (Layers.getState S)).layersList := by
    rw [restored, hafter]
  have hread := decodedLayers_getState hshaders hmax
  rw [decodedLayers, if_pos (Layers.isArray_getState.mpr hne)] at hread
  rw [hlayers, afterLayers, if_pos (Layers.isArray_getState.mpr hne), properties_pushLayers, hread]
  rfl

theorem Visuals.map_toVideo_restored (hvideos : ∀ v ∈ S.visualsList, v.IsVideoFile h)
    (hne : S.visualsList ≠ []) :
    (P.restored h S).visualsList.map Visual.toVideo = S.visualsList.map Visual.toVideo := by
  rw [EngineState.visualsList_restored hvideos, if_neg hne, map_toVideo_allocate]

theorem Layers.getState_eq (s : EngineState) : Layers.getState s =
    .pushAll ((s.layersList.map Layer.properties).map LayerProperties.getState) := by
  rw [Layers.getState, List.map_map]
  rfl

/-- Layers that have been restored are restored as they are. -/
theorem Layers.getState_restored_restored (hne : S.layersList ≠ [])
    (hshaders : h.shaderError = none) (hshaders' : h'.shaderError = none)
    (hmax : S.layersList.length ≤ maximumNumberOfLayers) :
    Layers.getState (Q.restored h' (P.restored h S)) = Layers.getState (P.restored h S) := by
  have hproperties := EngineState.properties_restored (P := P) hne hshaders hmax
  have hlen := congrArg List.length hproperties
  rw [List.length_map, List.length_map] at hlen
  have hne' : (P.restored h S).layersList ≠ [] := by
    rw [← List.length_pos_iff, hlen, List.length_pos_iff]
    exact hne
  have hread : (P.restored h S).layersList.map (fun l => l.properties.readBack) =
      S.layersList.map fun l => l.properties.readBack.readBack := by
    rw [← Function.comp_def, ← List.map_map, hproperties, List.map_map]
    rfl
  rw [Layers.getState_eq, EngineState.properties_restored hne' hshaders' (hlen ▸ hmax),
    Layers.getState_eq, hread, hproperties, List.map_map, List.map_map]
  refine congrArg Json.pushAll (List.map_congr_left fun l _ => ?_)
  exact l.properties.getState_readBack_readBack

theorem EngineState.Filled.restored (hS : S.Filled) (hP : P.WellFormed)
    (hvideos : ∀ v ∈ S.visualsList, v.IsVideoFile h) (hshaders : h.shaderError = none)
    (hmax : S.layersList.length ≤ maximumNumberOfLayers) : (P.restored h S).Filled := by
  obtain ⟨hvisuals, hlayers, hscenes⟩ := hS
  refine ⟨fun hnil => ?_, fun hnil => ?_, fun hnil => ?_⟩
  · have hsame := Visuals.map_toVideo_restored (P := P) hvideos hvisuals
    rw [hnil, List.map_nil] at hsame
    exact hvisuals (List.map_eq_nil_iff.mp hsame.symm)
  · have hproperties := EngineState.properties_restored (P := P) hlayers hshaders hmax
    rw [hnil, List.map_nil] at hproperties
    exact hlayers (List.map_eq_nil_iff.mp hproperties.symm)
  · have hviews := EngineState.views_restored (h := h) (S := S) hP
    rw [if_neg hscenes, EngineState.views, hnil, List.map_nil] at hviews
    cases hS : S.scenesList with
    | nil => exact hscenes hS
    | cons scene rest =>
      rw [EngineState.views, hS] at hviews
      cases hviews

/-- Scenes that come from a document can be encoded. -/
theorem EngineState.connected_restored (hP : P.WellFormed) (hne : S.scenesList ≠ []) :
    (P.restored h S).Connected :=
  EngineState.connected_afterScenes h ((hP.afterVisuals h _).afterLayers h _)
    ((isArray_scenesState _).mpr hne)

/-- The scenes of a restored state are those it has been restored from. -/
theorem rebuilt_restored (hP : P.WellFormed) (hvideos : ∀ v ∈ S.visualsList, v.IsVideoFile h)
    (hvisuals : S.visualsList ≠ []) (hscenes : S.scenesList ≠ [])
    (hcells : ∀ view ∈ S.views, view.2.Pairwise fun i j => i.cell ≠ j.cell)
    (hfew : ∀ view ∈ S.views, view.2.length ≤ 2 ^ 32) :
    (P.restored h S).rebuilt = S.rebuilt := by
  have hsame := Visuals.map_toVideo_restored (P := P) hvideos hvisuals
  have hlen : (Visuals.allocate 0 (S.visualsList.map Visual.toVideo)).length =
      (P.restored h S).visualsList.length := by
    rw [Visuals.length_allocate, ← hsame, List.length_map]
  set visuals := Visuals.allocate 0 (S.visualsList.map Visual.toVideo)
  have hread : ∀ (n : Addr) (placements : List Placement),
      placementsOf visuals (instancesOf h n placements) =
        placementsOf visuals (instancesOf h 0 placements) := by
    intro n placements
    rw [← placementsOf_map_forget, map_forget_instancesOf, ← map_forget_instancesOf h 0,
      placementsOf_map_forget]
  rw [EngineState.rebuilt, hsame, EngineState.views_restored hP, if_neg hscenes,
    map_contentsOf_eq (G := fun placements => placementsOf visuals (instancesOf h 0 placements))
      fun scene _ n => hread n scene.2, List.map_map, EngineState.rebuilt]
  refine List.map_congr_left fun view hview => ?_
  rw [Function.comp_apply, placementsOf_instancesOf h 0 hlen (hfew view hview) (hcells view hview)]

/-- Restoring what has been restored, over other states, leads to the same document exactly when the
memory of the instances holds the same. -/
theorem without_document_restored_restored (hP : P.WellFormed) (hQ : Q.WellFormed)
    (hS : S.Connected) (hvideos : ∀ v ∈ S.visualsList, v.IsVideoFile h)
    (hvideos' : ∀ v ∈ (P.restored h S).visualsList, v.IsVideoFile h') (hfilled : S.Filled)
    (hshaders : h.shaderError = none) (hshaders' : h'.shaderError = none)
    (hmax : S.layersList.length ≤ maximumNumberOfLayers)
    (hcells : ∀ view ∈ S.views, view.2.Pairwise fun i j => i.cell ≠ j.cell)
    (hfew : ∀ view ∈ S.views, view.2.length ≤ 2 ^ 32) :
    (Q.restored h' (P.restored h S)).document.without "address" =
      (P.restored h S).document.without "address" ↔ SameMemory h h' S P Q := by
  obtain ⟨hvisualsR, -, hscenesR⟩ := hfilled.restored hP hvideos hshaders hmax
  have hconn := EngineState.connected_restored (h := h) hP hfilled.2.2
  have hsame := Visuals.map_toVideo_restored (P := P) hvideos hfilled.1
  have hplaced : ∀ scene ∈ S.rebuilt,
      scene.2.Pairwise fun p q => (p.layer, p.column) ≠ (q.layer, q.column) := by
    intro scene hscene
    obtain ⟨view, hview, rfl⟩ := List.mem_map.mp hscene
    exact placementsOf_pairwise _ (hcells view hview)
  have hvisuals : (Visuals.getState (Q.restored h' (P.restored h S))).without "address" =
      (Visuals.getState (P.restored h S)).without "address" := by
    rw [without_visuals_restored hvideos' hvisualsR, hsame,
      without_visuals_restored hvideos hfilled.1]
  rw [without_document_eq_iff, and_iff_right hvisuals,
    Layers.getState_restored_restored hfilled.2.1 hshaders hshaders' hmax, and_iff_right rfl,
    without_scenes_restored hvideos' hconn hscenesR hQ, hsame,
    without_scenes_restored hvideos hS hfilled.2.2 hP,
    rebuilt_restored hP hvideos hfilled.1 hfilled.2.2 hcells hfew, eq_comm,
    without_scenesState_iff hplaced, sum_length_rebuilt]
  rfl

end documents

/-! ### Files -/

/-- The file at the path holds the document of a state, and the shaders are there. -/
structure Host.Holds (h : Host) (path : String) (s : EngineState) : Prop where
  doesFileExist : h.doesFileExist path true = true
  parse : h.parse (h.getText path) = .ok s.document
  shaders : h.shaderError = none

section files

variable {h : Host} {path : String} {S P : EngineState}

/-- Opening a file restores what it holds, over what the closed set leaves. -/
theorem Engine.exists_openSet (hP : P.WellFormed) (hfile : h.Holds path S)
    (hvideos : ∀ v ∈ S.visualsList, v.IsVideoFile h)
    (hmax : S.layersList.length ≤ maximumNumberOfLayers) (herase : P.Erasable h) :
    ∃ b p, Engine.openSet h path P = .ok true { (P.beforeLoad h).restored h S with
      buffer := some b, properties := p, setOpened := true } := by
  have herase' : (P.beforeLoad h).Erasable h := by
    rw [EngineState.beforeLoad]
    split_ifs
    · exact .inl rfl
    · exact herase
  have hload : JsonLoad.load h path (P.beforeLoad h) = .ok S.document (P.beforeLoad h) := by
    rw [JsonLoad.load, if_pos hfile.doesFileExist, hfile.parse]
    rfl
  have hset := (Engine.setState_document_iff (hP.beforeLoad h) hvideos hmax).mpr
    ⟨fun _ => herase', fun _ => hfile.shaders, rfl⟩
  obtain ⟨b, p, -, hfinish⟩ :=
    Engine.exists_finishSet h path ((P.beforeLoad h).restored h S)
  refine ⟨b, p, ?_⟩
  rw [Engine.openSet_run hP, if_neg (not_and.mpr fun _ => not_not.mpr herase), bind_run, hload,
    Outcome.bind_ok, bind_run, hset, Outcome.bind_ok, hfinish]

/-- Closing a set before a file is loaded allocates no instances. -/
theorem EngineState.next_beforeLoad (h : Host) (P : EngineState) :
    (P.beforeLoad h).instances.next = P.instances.next := by
  rw [beforeLoad]
  split_ifs
  · exact Heap.next_freeAll _ _
  · rfl

end files

/-- A set of videos that has been saved is opened, over any other one. What has been opened is saved
and opened again, over any other one: the document is the same up to addresses exactly when the
memory in which the instances were made held the same both times. -/
theorem open_settles {h : Host} {path : String} {S P : EngineState} (hS : S.InSession)
    (hP : P.InSession) (hc : S.Connected) (hfilled : S.Filled)
    (hfew : ∀ scene ∈ S.scenesList, scene.visualInstances.length ≤ 2 ^ 32)
    (hvideos : ∀ v ∈ S.visualsList, v.IsVideoFile h) (hfile : h.Holds path S)
    (herase : P.Erasable h) :
    ∃ t, Engine.openSet h path P = .ok true t ∧ Engine.getState t = .ok t.document t ∧
      ∀ (h' : Host) (path' : String) (Q : EngineState), Q.InSession → h'.Holds path' t →
        (∀ v ∈ S.visualsList, v.IsVideoFile h') → Q.Erasable h' →
          ∃ u, Engine.openSet h' path' Q = .ok true u ∧ Engine.getState u = .ok u.document u ∧
            (u.document.without "address" = t.document.without "address" ↔
              SameMemory h h' S P Q) := by
  have hlaid := EngineState.laid_init.of_reaches hS
  have hwf := (EngineState.laid_init.of_reaches hP).wellFormed
  have hmax := hlaid.wellFormed.layers_le
  have hwf' := hwf.beforeLoad h
  set R := (P.beforeLoad h).restored h S with hR
  have hwfR : R.WellFormed := hwf'.restored h S
  obtain ⟨b, p, hopen⟩ := Engine.exists_openSet hwf hfile hvideos hmax herase
  refine ⟨_, hopen, ?_, ?_⟩
  · exact Engine.getState_of_connected { hwfR with }
      (EngineState.connected_restored hwf' hfilled.2.2)
  · intro h' path' Q hQ hfile' hvideos' herase'
    have hwfQ := (EngineState.laid_init.of_reaches hQ).wellFormed
    have hfilledR : R.Filled := hfilled.restored hwf' hvideos hfile.shaders hmax
    have hvideosR : ∀ v ∈ R.visualsList, v.IsVideoFile h' := by
      rw [hR, EngineState.visualsList_restored hvideos, if_neg hfilled.1]
      exact Visuals.isVideoFile_allocate hvideos' _
    have hsame := without_document_restored_restored hwf' (hwfQ.beforeLoad h') hc hvideos
      hvideosR hfilled hfile.shaders hfile'.shaders hmax
      (fun _ hview => hlaid.pairwise_of_mem_views hview) fun view hview => by
        obtain ⟨scene, hscene, rfl⟩ := List.mem_map.mp hview
        exact (List.length_filterMap_le _ _).trans (hfew scene hscene)
    rw [SameMemory, EngineState.next_beforeLoad, EngineState.next_beforeLoad] at hsame
    obtain ⟨b', p', hopen'⟩ := Engine.exists_openSet hwfQ hfile' hvideosR hwfR.layers_le herase'
    refine ⟨_, hopen', ?_, hsame⟩
    exact Engine.getState_of_connected { (hwfQ.beforeLoad h').restored h' R with }
      (EngineState.connected_restored (hwfQ.beforeLoad h') hfilledR.2.2)

/-- A set with an instance of the second of two videos is opened, saved, and opened again. -/
theorem open_settles_secondVisual : ∃ (S P : EngineState) (h h' : Host) (t u : EngineState),
    S.InSession ∧ S.visualsList.length = 2 ∧ S.placed.length = 1 ∧ P.InSession ∧
      P.layersList.length = 2 ∧ h.Holds "set.json" S ∧ h'.Holds "set.json" t ∧
      Engine.openSet h "set.json" P = .ok true t ∧ Engine.openSet h' "set.json" P = .ok true u ∧
      u.document.without "address" = t.document.without "address" := by
  obtain ⟨S, hS, hc, hfilled, hvideos, hvisuals, hplaced, hfew⟩ : ∃ S : EngineState, S.InSession ∧
      S.Connected ∧ S.Filled ∧ (∀ v ∈ S.visualsList, v.source = .video "a.mov" ∨
        v.source = .video "b.mov") ∧ S.visualsList.length = 2 ∧ S.placed.length = 1 ∧
          ∀ scene ∈ S.scenesList, scene.visualInstances.length ≤ 2 ^ 32 :=
    exists_reaches
      [(.plain, .command (.newSet 640 480 1)), (.plain, .command (.addVideo "a.mov")),
        (.plain, .command (.addVideo "b.mov")), (.plain, .command (.addVisualToScene 1 0 0))]
      (by decide +kernel)
  obtain ⟨P, hP, hlen⟩ : ∃ P : EngineState, P.InSession ∧ P.layersList.length = 2 :=
    exists_reaches [(.plain, .command (.newSet 640 480 2))] (by decide +kernel)
  let file : EngineState → Host := fun s => { Host.plain with parse := fun _ => .ok s.document }
  have hholds : ∀ s, (file s).Holds "set.json" s := fun s => ⟨rfl, rfl, rfl⟩
  have hfiles : ∀ s, ∀ v ∈ S.visualsList, v.IsVideoFile (file s) := by
    intro s v hv
    obtain hsource | hsource := hvideos v hv
    · exact ⟨"a.mov", hsource, by decide, rfl⟩
    · exact ⟨"b.mov", hsource, by decide, rfl⟩
  obtain ⟨t, ht, -, hagain⟩ :=
    open_settles hS hP hc hfilled hfew (hfiles S) (hholds S) (.inr rfl)
  obtain ⟨u, hu, -, hsame⟩ := hagain (file t) "set.json" P hP (hholds t) (hfiles t) (.inr rfl)
  exact ⟨S, P, file S, file t, t, u, hS, hvisuals, hplaced, hP, hlen, hholds S, hholds t, ht, hu,
    hsame.mpr fun _ _ => rfl⟩

end ArbutusEngine
