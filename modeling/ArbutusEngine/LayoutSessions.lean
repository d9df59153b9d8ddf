import ArbutusEngine.LayoutRefinement

/-!
# Sessions follow the layout

In a session of careful events, every event does to the layout that the state shows what it does to a
layout, whether it returns or throws. What has been edited is therefore the same however it has been
played in the meantime, and what can be said of layouts can be said of sessions.

## Main results

* `Command.shows_run`, `Event.shows_run`: one event.
* `sessions_follow_layout`: every session.
* `sessions_spare_column`: a column that no event is about keeps its visuals.
-/

open Exec

namespace ArbutusEngine

namespace Shows

variable {α β : Type} {o : Outcome EngineState Thrown Undefined α} {l : Layout}

/-- What follows leaves the layout alone. -/
theorem bind_keeps {f : α → Prog β} (ho : Shows o l) (hf : ∀ a, KeepsLayout (f a)) :
    Shows (o.bind fun a => f a) l := Outcome.Post.bind ho fun a t ht => hf a l t ht

theorem of_keeps {x : Prog α} (hx : KeepsLayout x) (s : EngineState) : Shows (x s) s.layout :=
  hx s.layout s rfl

end Shows

variable {s : EngineState}

/-! ### Scenes and visuals -/

namespace Set

theorem shows_setCurrentScene (hs : s.Safe) (h : Host) (n : UInt32) :
    Shows (setCurrentScene h n s) (s.layout.goto n) := by
  have hlen : s.layout.scenes.length = s.scenesList.length := List.length_map _
  rw [setCurrentScene, bind_run, gets_run, Outcome.bind_ok, Layout.goto, hlen]
  cases hscenes : s.scenesList with
  | nil => exact absurd hscenes hs.scenes_ne
  | cons first rest =>
    cases hscene : (first :: rest)[n.toNat]? with
    | none =>
      rw [if_neg (Nat.not_lt.mpr (List.getElem?_eq_none_iff.mp hscene))]
      exact rfl
    | some scene =>
      rw [if_pos (List.getElem?_eq_some_iff.mp hscene).1]
      exact Shows.of_keeps (fixes_layout (VisualInstances.performs_loadAll (h := h) trivial _))
        { s with currentSceneNumber := n, currentScene := some scene.addr }

theorem shows_gotoNextScene (hs : s.Safe) (h : Host) :
    Shows (gotoNextScene h s) (s.layout.step h .gotoNextScene) := by
  have hlen : s.layout.scenes.length = s.scenesList.length := List.length_map _
  rw [gotoNextScene, bind_run, gets_run, Outcome.bind_ok, bind_run, gets_run, Outcome.bind_ok,
    Layout.step, hlen]
  by_cases hlt : s.currentSceneNumber.toNat < s.scenesList.length - 1
  · rw [if_pos (.inr hlt), if_pos (show s.layout.current.toNat < _ from hlt)]
    exact shows_setCurrentScene hs h _
  · rw [if_neg (not_or.mpr ⟨hs.scenes_ne, hlt⟩), if_neg (show ¬s.layout.current.toNat < _ from hlt)]
    exact rfl

theorem shows_gotoPreviousScene (hs : s.Safe) (h : Host) :
    Shows (gotoPreviousScene h s) (s.layout.step h .gotoPreviousScene) := by
  rw [gotoPreviousScene, bind_run, gets_run, Outcome.bind_ok, Layout.step]
  by_cases hlt : s.currentSceneNumber > 0
  · rw [if_pos hlt, if_pos (show s.layout.current > 0 from hlt)]
    exact shows_setCurrentScene hs h _
  · rw [if_neg hlt, if_neg (show ¬s.layout.current > 0 from hlt)]
    exact rfl

/-- A video is listed where its file is found. -/
theorem shows_listVideo (hs : s.Safe) (h : Host) (path : String) {β : Type} {f : Visual → Prog β}
    (hf : ∀ v : Visual, ∀ t : EngineState,
      Shows (f v t) ({ t with visualsList := t.visualsList ++ [v] } : EngineState).layout) :
    Shows ((do
      let v ← VisualVideo.new h path
      f v) s) (s.layout.listVideo h path) := by
  have hpath : s.layout.filePath = s.filePath := rfl
  rw [bind_run, VisualVideo.new_eq, Layout.listVideo, hpath]
  dsimp only
  split_ifs
  · exact rfl
  · have hpush := hs.layout_pushVisual ⟨s.nextAddr, VisualVideo.getCaptionFromPath h
      (VisualVideo.findAbsolutePath h s.filePath path),
      .video (VisualVideo.findAbsolutePath h s.filePath path), ""⟩
      (p := s.properties.setDefaults h) rfl
    exact (congrArg (Shows _) hpush).mp (hf _ _)

theorem shows_addVisualVideoToListFromFile (hs : s.Safe) (h : Host) (path : String) :
    Shows (addVisualVideoToListFromFile h path s)
      (s.layout.step h (.addVisualVideoToListFromFile path)) := by
  have hany : (s.layout.visuals.any fun v => v.2 = .video path) =
      Visuals.isFileInList s.visualsList path := by
    change (s.visualsList.map _).any _ = _
    rw [List.any_map, Visuals.isFileInList]
    congr 1
    funext v
    rw [Function.comp_apply]
    cases v.source with
    | video p => simp [VisualSource.opened, Bool.beq_eq_decide_eq, eq_comm]
    | camera => simp [VisualSource.opened]
    | syphon => simp [VisualSource.opened]
  rw [addVisualVideoToListFromFile, bind_run, gets_run, Outcome.bind_ok, Layout.step, hany]
  split_ifs
  · exact rfl
  · exact shows_listVideo hs h path fun _ _ => rfl

/-- The number of a camera past the last device throws, and the one next to it is undefined. -/
theorem shows_addVisualCameraToList (hs : s.Safe) (h : Host) (listDevices : List String)
    (id rate w height : UInt32) : Shows (addVisualCameraToList listDevices id rate w height s)
      (s.layout.step h (.addVisualCameraToList listDevices id rate w height)) := by
  rw [addVisualCameraToList, bind_run, VisualCamera.new, Layout.step, Layout.listCamera]
  cases hname : listDevices[id.toNat]? with
  | none =>
    split_ifs
    · exact rfl
    · exact rfl
    · exact trivial
  | some name =>
    have hlt := (List.getElem?_eq_some_iff.mp hname).1
    rw [if_neg (by omega), if_neg (by omega)]
    exact hs.layout_pushVisual ⟨s.nextAddr, "Camera: " ++ name, .camera id rate w height false, ""⟩
      (p := s.properties) rfl

end Set

theorem Visuals.shows_addVideo (hs : s.Safe) (h : Host) (path : String) :
    Shows (addVideo h path s) (s.layout.listVideo h path) :=
  Set.shows_listVideo hs h path fun _ _ => rfl

/-! ### Cells -/

/-- A listed visual is found at its position. -/
theorem EngineState.WellFormed.findIdx?_addr (hs : s.WellFormed) {k : ℕ} {v : Visual}
    (hk : s.visualsList[k]? = some v) :
    (s.visualsList.map Visual.addr).findIdx? (fun b => b = v.addr) = some k := by
  obtain ⟨hlt, rfl⟩ := List.getElem?_eq_some_iff.mp hk
  refine List.findIdx?_eq_some_iff_getElem.mpr ⟨by rwa [List.length_map], ?_, fun j hj => ?_⟩
  · rw [List.getElem_map, decide_eq_true_eq]
  · rw [List.getElem_map, decide_eq_true_eq]
    exact (List.pairwise_iff_getElem.mp hs.visuals_ne j k (hj.trans hlt) hlt hj)

/-- Adding layers returns when there are none to add, no room, or shaders. -/
theorem Layers.exists_iterate_add (hle : s.layersList.length ≤ maximumNumberOfLayers) {h : Host}
    {n : ℕ} (hn : ¬(n ≠ 0 ∧ s.layersList.length ≠ maximumNumberOfLayers ∧ h.shaderError ≠ none)) :
    ∃ t, iterate n (do let _ ← add h true) s = .ok () t := by
  by_cases h0 : n = 0
  · subst h0
    exact ⟨s, rfl⟩
  by_cases hfull : s.layersList.length = maximumNumberOfLayers
  · exact ⟨s, iterate_add_of_full hfull n⟩
  · have hsh : h.shaderError = none := not_not.mp fun hsh => hn ⟨h0, hfull, hsh⟩
    exact ⟨_, iterate_add h hsh n s hle⟩

theorem VisualInstance.noThrow_stop (a : Addr) : NoThrow (VisualInstance.stop a) := by
  have hupdate : ∀ f : VisualInstance → VisualInstance, NoThrow (VisualInstance.update a f) := fun f =>
    .bind (.deref _ _) fun _ => .modify _
  refine .bind (.deref _ _) fun i => .bind (.deref _ _) fun v => ?_
  cases v.source with
  | video path => exact .ite (.bind (hupdate _) fun _ => hupdate _) (.pure _)
  | camera => exact hupdate _
  | syphon => exact hupdate _

/-- Stopping throws nothing. -/
theorem Layers.noThrow_stopAt (position : UInt32) : NoThrow (Layers.stopAt position) := by
  refine .bind (.gets _) fun found => ?_
  cases found with
  | none => exact .pure _
  | some _ =>
    refine .bind (.deref _ _) fun layer => ?_
    cases layer.activeInstance with
    | none => exact .pure _
    | some a =>
      exact .bind (VisualInstance.noThrow_stop a) fun _ => .bind (.deref _ _) fun _ => .modify _

namespace Engine

/-- A visual is put into a cell of the current scene. -/
theorem shows_placeInCurrentScene (hs : s.Safe) (hl : s.Laid) (h : Host) {k : ℕ} {v : Visual}
    (hk : s.visualsList[k]? = some v) (layer column : UInt32) :
    Shows (placeInCurrentScene h ⟨v.addr, layer, column, ""⟩ s)
      (s.layout.put (layer, column) (some k)) := by
  obtain ⟨scene, hscene, hcurrent, -⟩ := hs.exists_current
  rw [placeInCurrentScene_eq hscene hcurrent (.refl s) hs.wellFormed h]
  exact hs.layout_place hl h hcurrent (p := ⟨v.addr, layer, column, ""⟩)
    (hs.wellFormed.findIdx?_addr hk)

/-- The visual that a position in the list gives. -/
theorem visuals_get_cases (s : EngineState) (visual : UInt32) :
    Visuals.get s.visualsList visual.toInt32 = none ∧
        ¬(0 ≤ visual.toInt32.toInt ∧ visual.toInt32.toInt.toNat < s.layout.visuals.length) ∨
      ∃ v, Visuals.get s.visualsList visual.toInt32 = some v ∧
        s.visualsList[visual.toInt32.toInt.toNat]? = some v ∧
        0 ≤ visual.toInt32.toInt ∧ visual.toInt32.toInt.toNat < s.layout.visuals.length := by
  have hlen : s.layout.visuals.length = s.visualsList.length := List.length_map _
  rw [Visuals.get_eq, hlen]
  by_cases hpos : 0 ≤ visual.toInt32.toInt
  · rw [if_pos hpos]
    cases hv : s.visualsList[visual.toInt32.toInt.toNat]? with
    | none =>
      exact .inl ⟨rfl, fun h => absurd h.2 (Nat.not_lt.mpr (List.getElem?_eq_none_iff.mp hv))⟩
    | some v => exact .inr ⟨v, rfl, rfl, hpos, (List.getElem?_eq_some_iff.mp hv).1⟩
  · exact .inl ⟨if_neg hpos, fun h => hpos h.1⟩

theorem shows_addVisualToScene (hs : s.Safe) (hl : s.Laid) (h : Host) {visual layer column : UInt32}
    (hlayer : layer.toNat + 1 < 2 ^ 31) : Shows (addVisualToScene h visual layer column s)
      (s.layout.addVisual h visual layer column) := by
  rw [addVisualToScene, bind_run, gets_run, Outcome.bind_ok, Layout.addVisual]
  rcases visuals_get_cases s visual with ⟨hv, hpos⟩ | ⟨v, hv, hk, hpos⟩
  · rw [hv, if_neg hpos]
    exact rfl
  rw [hv, if_pos hpos]
  dsimp only
  have hadd : ∀ n, Shows ((iterate n (do let _ ← Layers.add h true) >>= fun _ =>
        placeInCurrentScene h ⟨v.addr, layer, column, ""⟩) s)
      (if n ≠ 0 ∧ s.layersList.length ≠ maximumNumberOfLayers ∧ h.shaderError ≠ none then s.layout
      else (s.layout.addLayers h n).put (layer, column) (some visual.toInt32.toInt.toNat)) := by
    intro n
    have hle := hs.wellFormed.layers_le
    rw [bind_run]
    split_ifs with hfail
    · obtain ⟨hn, hfull, hsh⟩ := hfail
      obtain ⟨what, hwhat⟩ := Option.ne_none_iff_exists'.mp hsh
      rw [Layers.iterate_add_of_shaderError hwhat hn hfull]
      exact rfl
    · obtain ⟨t, ht⟩ := Layers.exists_iterate_add hle hfail
      have hsafe : Keeps (fun t => t.Safe ∧ t.Laid ∧ s.Grows t)
          (do let _ ← Layers.add h true : Prog Unit) :=
        Keeps.bind (fun t ht => ((Layers.defined_add h).keeps t ht.1).and
          ((Layers.keepsLaid_add h t ht.2.1).and (Layers.keeps_grows_add s h t ht.2.2)))
          fun _ => .pure _
      have hlayout := Layers.shows_iterate_add hle h n
      have hkeeps := hsafe.iterate s ⟨hs, hl, .refl s⟩ (n := n)
      rw [ht, Outcome.post_ok] at hkeeps
      rw [ht, Shows, Outcome.post_ok] at hlayout
      obtain ⟨ht', hlaid, hgrows⟩ := hkeeps
      rw [ht, Outcome.bind_ok, ← hlayout]
      refine shows_placeInCurrentScene ht' hlaid h ?_ layer column
      obtain ⟨l, m, p, rfl, -⟩ := hgrows
      exact hk
  rw [bind_run, gets_run, Outcome.bind_ok]
  by_cases hlayers : layer > s.nLayers
  · rw [if_pos hlayers, if_pos (show layer > s.layout.nLayers from hlayers), bind_run, gets_run,
      Outcome.bind_ok, intLoop, if_pos hlayer]
    exact hadd _
  · rw [if_neg hlayers, if_neg (show ¬layer > s.layout.nLayers from hlayers)]
    exact hadd 0

theorem shows_addVisualToSceneListInCurrentLayer (hs : s.Safe) (hl : s.Laid) (h : Host)
    (visual layer column : UInt32) :
    Shows (addVisualToSceneListInCurrentLayer h visual layer column s)
      (s.layout.addVisualInCurrentLayer visual layer column) := by
  rw [addVisualToSceneListInCurrentLayer, bind_run, gets_run, Outcome.bind_ok,
    Layout.addVisualInCurrentLayer]
  rcases visuals_get_cases s visual with ⟨hv, hpos⟩ | ⟨v, hv, hk, hpos⟩
  · rw [hv, if_neg hpos]
    exact rfl
  rw [hv, if_pos hpos]
  dsimp only
  by_cases hlayer : layer ≤ 0
  · rw [if_pos hlayer, if_pos hlayer]
    have hreset : (s.resetProperties h).Safe := hs.of_outline rfl
    have hlaid : (s.resetProperties h).Laid := hl.of_cells hreset.wellFormed rfl
    exact shows_placeInCurrentScene hreset hlaid h hk _ column
  · rw [if_neg hlayer, if_neg hlayer]
    exact shows_placeInCurrentScene hs hl h hk _ column

/-- What is in a cell of the current scene is taken out, once its layer may have been stopped. -/
theorem shows_removeVisualFromScene (hs : s.Safe) (hl : s.Laid) (h : Host) (layer column : UInt32) :
    Shows (removeVisualFromScene h layer column s) (s.layout.put (layer, column) none) := by
  have hlast : ∀ t : EngineState, (t.Safe ∧ t.Laid) ∧ t.layout = s.layout →
      Shows (removeFromCurrentScene layer column t) (s.layout.put (layer, column) none) := by
    rintro t ⟨⟨ht, hlaid⟩, hlayout⟩
    obtain ⟨scene, hscene, hcurrent, -⟩ := ht.exists_current
    rw [removeFromCurrentScene, bind_run, derefCurrentScene, bind_run, gets_run, Outcome.bind_ok,
      hcurrent, ofOption_some, pure_run, Outcome.bind_ok,
      removeFromScene_eq ht.wellFormed hscene, ← hlayout]
    exact ht.layout_remove hlaid hscene hcurrent (layer, column)
  have hreset : (s.resetProperties h).Safe := hs.of_outline rfl
  have hlaid : (s.resetProperties h).Laid := hl.of_cells hreset.wellFormed rfl
  rw [removeVisualFromScene, bind_run, isSelectedCell_eq, Outcome.bind_ok]
  split_ifs
  · have hstop := (((DefinedOn.safe fun _ _ => Layers.defined_stopAt layer).keeps _ hreset).and
      ((Layers.keepsSkeleton_stopAt layer).laid _ hlaid)).and
        (Shows.of_keeps (fixes_layout (h := h) (Layers.performs_stopAt layer)) _)
    refine Outcome.Post.bind ((hstop.and (Layers.noThrow_stopAt layer _)).mono
      (fun _ t ht => ht.1) fun _ _ ht => ht.2.elim) fun _ t ht => ?_
    exact hlast t ht
  · exact hlast _ ⟨⟨hreset, hlaid⟩, rfl⟩

/-! ### Sets -/

/-- What `Set::newSet` does once the layers are there. -/
theorem exists_addFirstScene {t : EngineState} (ht : t.scenesList = []) (h : Host) :
    ∃ u, Set.addFirstScene h t = .ok () u ∧ u.layout = { t.layout with
      scenes := [("First Scene", fun _ => none)]
      current := 0 } := by
  have hscenes : (t.pushScene "First Scene").layout =
      { t.layout with scenes := [("First Scene", fun _ => none)] } := by
    rw [EngineState.layout_pushScene, EngineState.layout, ht]
    rfl
  let u : EngineState := { t.pushScene "First Scene" with
    currentSceneNumber := 0
    currentScene := some t.nextAddr }
  have hu : u.layout = { t.layout with
      scenes := [("First Scene", fun _ => none)]
      current := 0 } :=
    congrArg (fun l : Layout => { l with current := 0 }) hscenes
  have hrun : Set.addFirstScene h t = .ok () { u with loaded := true } := by
    cases t
    cases ht
    rfl
  exact ⟨_, hrun, hu⟩

theorem shows_finishSet (h : Host) (path : String) (t : EngineState) :
    Shows (finishSet h path t) (t.layout.setActive 1) := by
  obtain ⟨b, p, hinit⟩ := exists_initBuffer h t
  have hperforms : Performs h True (initBuffer h) := performs_initBuffer
  have hlayout := fixes_layout hperforms _ t rfl
  rw [hinit, Outcome.post_ok] at hlayout
  rw [finishSet, bind_run, hinit, Outcome.bind_ok, ← hlayout]
  exact (Layers.shows_setActive h 1 _).bind_keeps fun _ =>
    .bind (.modify fun _ => rfl) fun _ => .bind (.modify fun _ => rfl) fun _ => .pure _

/-- A set that is created where there is none. -/
theorem shows_createSet (hempty : s.IsEmpty) {h : Host} {n : UInt32} (hn : n.toNat < 2 ^ 31)
    (hadd : h.shaderError = none ∨ n = 0) (hselected : s.properties.selectedLayer = 0)
    (width height : UInt32) :
    Shows (createSet h width height n s) (s.layout.create n) := by
  obtain ⟨hlayers, hvisuals, hscenes⟩ := hempty
  obtain ⟨p, hp, hrun⟩ := exists_createSet_eq h width height n s
  rw [hrun, bind_run, Set.newSet_eq, intLoop, if_pos hn, Nat.sub_zero]
  let u := ({ s with properties := p } : EngineState).sized h width height n
  have hle : u.layersList.length ≤ maximumNumberOfLayers := by
    change s.layersList.length ≤ _
    rw [hlayers]
    exact Nat.zero_le _
  have hu : u.layout = { s.layout with
      visuals := []
      scenes := []
      layers := 0
      selected := 0
      nLayers := n } := by
    rw [EngineState.layout, EngineState.layout]
    change (⟨s.visualsList.map _, s.scenesList.map _, _, s.layersList.length,
      p.selectedLayer.toUInt32, _, _⟩ : Layout) = _
    rw [hlayers, hvisuals, hscenes, hp, hselected]
    rfl
  obtain ⟨t, ht⟩ := Layers.exists_iterate_add (s := u) hle (h := h) (n := n.toNat) fun hfail =>
    hadd.elim hfail.2.2 fun h0 => hfail.1 (by rw [h0]; rfl)
  have hlayout := Layers.shows_iterate_add (s := u) hle h n.toNat
  have hgrows := Keeps.iterate (n := n.toNat) (Keeps.bind (Layers.keeps_grows_add u h)
    fun _ => .pure ()) u (.refl u)
  rw [ht, Outcome.post_ok] at hgrows
  rw [ht, Shows, Outcome.post_ok, hu] at hlayout
  have hcreated : ({ t.layout with
      scenes := [("First Scene", fun _ => none)]
      current := 0 } : Layout).setActive 1 = s.layout.create n := by
    rw [hlayout, Layout.addLayers, Layout.create]
    split_ifs with hsh
    · rw [Nat.zero_add]
    · obtain rfl := hadd.resolve_left hsh
      rfl
  have ht' : t.scenesList = [] := by
    obtain ⟨l, m, q, rfl, -⟩ := hgrows
    exact hscenes
  obtain ⟨v, hv, hlast⟩ := exists_addFirstScene ht' h
  rw [ht, Outcome.bind_ok, hv, Outcome.bind_ok, ← hcreated, ← hlast]
  exact shows_finishSet h "" v

/-- The set that is loaded is replaced by a new one. -/
theorem shows_newSet (hs : s.Safe) {h : Host} (herase : s.Erasable h) {n : UInt32}
    (hn : n.toNat < 2 ^ 31) (hadd : h.shaderError = none ∨ n = 0) (width height : UInt32) :
    Shows (newSet h width height n s) (s.layout.create n) := by
  rw [newSet_eq, bind_run, closeSet_eq hs.wellFormed, if_pos hs.loaded, if_pos herase,
    Outcome.bind_ok]
  exact shows_createSet (s.isEmpty_close h) hn hadd rfl width height

/-- Saving a set reads what is listed, and changes the path. -/
theorem shows_saveSetAs (h : Host) (path : String) (s : EngineState) :
    Shows (Set.saveSetAs h path s) { s.layout with filePath := path } := by
  have hsave : ∀ state, KeepsLayout (JsonSave.save h path state) := fun state =>
    .bind (.ite (.throw _) (.ite (.pure _) (.throw _))) fun _ => .ite (.ite
      (.bind (.modify fun _ => rfl) fun _ => .ite (.pure _) (.throw _)) (.throw _)) (.throw _)
  have hget : KeepsLayout getState := fixes_layout (h := h) performs_getState
  exact Shows.of_keeps (.bind hget fun state => hsave state) { s with filePath := path }

end Engine

/-! ### Events -/

/-- What plays does nothing to a layout. -/
theorem Command.layout_of_isPlayback {c : Command} (hc : c.IsPlayback) (h : Host) (l : Layout) :
    l.command h c = l := by
  cases c with
  | newSet | saveSetAs | addScene | setCurrentScene | addVideo | addVisualToScene |
    removeVisualFromScene => exact hc.elim
  | _ => rfl

theorem Event.layout_of_isPlayback {e : Event} (he : e.IsPlayback) (h : Host) (l : Layout) :
    l.step h e = l := by
  cases e with
  | command c => exact Command.layout_of_isPlayback he h l
  | setActiveVisualInstance | setActiveVisualIntances | playFirstVisualInstanceOnActiveLayer |
    playLastVisualInstanceOnActiveLayer | playPreviousVisualInstanceOnActiveLayer |
    playNextVisualInstanceOnActiveLayer | setMixerResolution | handleAction | beat | render => rfl
  | _ => exact he.elim

theorem Event.shows_of_isPlayback {e : Event} (he : e.IsPlayback) (h : Host) (s : EngineState) :
    Shows (e.run h s) (s.layout.step h e) := by
  rw [Event.layout_of_isPlayback he]
  exact Shows.of_keeps (fixes_layout (Event.performs_run (h := h) he)) s

/-- A careful call does to the layout what the layout says. -/
theorem Command.shows_run (hs : s.Safe) (hl : s.Laid) {h : Host} {c : Command}
    (hc : Event.Careful h s (.command c)) : Shows (c.run h s) (s.layout.command h c) := by
  by_cases hplayback : c.IsPlayback
  · exact Event.shows_of_isPlayback (e := .command c) hplayback h s
  cases c with
  | newSet width height n =>
    obtain ⟨herase, hn, hadd⟩ := hc
    exact (Engine.shows_newSet hs herase hn hadd width height).bind_keeps fun _ => .pure _
  | openSet | closeSet | setState => exact hc.elim
  | saveSet =>
    have hsave : Shows (Set.saveSet h s) s.layout := Engine.shows_saveSetAs h s.filePath s
    exact (hsave.bind_keeps (f := fun _ => pure true) fun _ => .pure _).bind_keeps fun _ => .pure _
  | saveSetAs path =>
    have hpath : KeepsLayout (do
        EngineProperties.update h fun p => { p with currentFilePath := path }
        return true) := .bind (.modify fun _ => rfl) fun _ => .pure _
    exact ((Engine.shows_saveSetAs h path s).bind_keeps fun _ => hpath).bind_keeps fun _ => .pure _
  | addScene => exact s.layout_pushScene "new Scene"
  | setCurrentScene n => exact Set.shows_setCurrentScene hs h n
  | addVideo path => exact (Visuals.shows_addVideo hs h path).bind_keeps fun _ => .pure _
  | addVisualToScene visual layer column => exact Engine.shows_addVisualToScene hs hl h hc.1
  | removeVisualFromScene layer column =>
    exact Engine.shows_removeVisualFromScene hs hl h layer column
  | request r => exact absurd hc.1 hplayback
  | _ => exact absurd trivial hplayback

/-- A careful event does to the layout what the layout says. -/
theorem Event.shows_run (hs : s.Safe) (hl : s.Laid) {h : Host} {e : Event} (he : e.Careful h s) :
    Shows (e.run h s) (s.layout.step h e) := by
  have hle := hs.wellFormed.layers_le
  by_cases hplayback : e.IsPlayback
  · exact Event.shows_of_isPlayback hplayback h s
  cases e with
  | command c => exact Command.shows_run hs hl he
  | gotoNextScene => exact Set.shows_gotoNextScene hs h
  | gotoPreviousScene => exact Set.shows_gotoPreviousScene hs h
  | addVisualVideoToListFromFile path => exact Set.shows_addVisualVideoToListFromFile hs h path
  | addVisualCameraToList listDevices id rate w height =>
    exact Set.shows_addVisualCameraToList hs h listDevices id rate w height
  | addVisualSyphonToList serverName appName =>
    exact hs.layout_pushVisual ⟨s.nextAddr, _, .syphon serverName appName, ""⟩ (p := s.properties) rfl
  | addVisualToSceneListInCurrentLayer visual layer column =>
    exact Engine.shows_addVisualToSceneListInCurrentLayer hs hl h visual layer column
  | addLayer =>
    have hone := Layers.shows_iterate_add hle h 1
    rwa [iterate_succ, iterate_zero, bind_pure_unit] at hone
  | removeLayer n =>
    exact (Layers.remove_post_layout h n s).mono (fun _ _ ht => ht) fun _ _ ht => ht.elim
  | setLayerCount n => exact Layers.shows_setCount hle h n
  | activateLayer n => exact Layers.shows_setActive h n s
  | activateNextLayer =>
    exact Layers.shows_setActive h (s.properties.selectedLayer.toUInt32 + 2) (s.resetProperties h)
  | activatePreviousLayer =>
    exact Layers.shows_setActive h s.properties.selectedLayer.toUInt32 (s.resetProperties h)
  | activateLastLayer => exact Layers.shows_setActive h (Layers.count s) s
  | keyPressed key =>
    rw [Event.run, ControllerGroup.keyPressed_default, Layout.step]
    cases ControllerGroup.layerKeys.lookup key with
    | none => exact rfl
    | some layer => exact (Layers.shows_setActive h layer.toUInt32 s).bind_keeps fun _ => .pure _
  | cleanup => exact Shows.of_keeps (fixes_layout (Engine.performs_cleanup (h := h) trivial)) s
  | _ => exact absurd trivial hplayback

/-! ### Sessions -/

/-- A session of careful events. -/
abbrev CarefulRun (s : EngineState) (cs : List Happening) (t : EngineState) : Prop :=
  RunsTo Happening.run (fun e s => e.2.Careful e.1 s) s cs t

theorem CarefulRun.layout_eq {s t : EngineState} {cs : List Happening} (hs : s.Safe) (hl : s.Laid)
    (h : CarefulRun s cs t) : t.layout = s.layout.steps cs := by
  refine RunsTo.follows EngineState.layout (fun e l => Layout.step e.1 e.2 l)
    (I := fun s => s.Safe ∧ s.Laid) (fun e s he hs => ?_) (fun e s t he hs ht => ?_) ⟨hs, hl⟩ h
  · obtain ⟨t, ht, hsafe⟩ := e.2.defined_run hs.1 he
    refine .of_forall_final? fun u hu => ?_
    obtain rfl := Option.some.inj (ht.symm.trans hu)
    exact ⟨hsafe, (e.2.keepsLaid_run e.1 s hs.2).of_final? ht⟩
  · exact (Event.shows_run hs.1 hs.2 he).of_final? ht

/-- Once a set has been created, every session of careful events shows the layout that its events
make of the layout of a new set. -/
theorem sessions_follow_layout (h : Host) (width height n : UInt32) (hn : n.toNat < 2 ^ 31)
    (hadd : h.shaderError = none ∨ n = 0) :
    ∃ s₀, Engine.newSet h width height n .init = .ok true s₀ ∧
      ∀ cs t, CarefulRun s₀ cs t → t.layout = (EngineState.init.layout.create n).steps cs := by
  obtain ⟨s₀, hs₀, hsafe⟩ := Engine.exists_newSet_init hn hadd width height
  have hlaid := Engine.keepsLaid_newSet h width height n _ EngineState.laid_init
  have hlayout := Engine.shows_createSet ⟨rfl, rfl, rfl⟩ hn hadd rfl width height
    (s := EngineState.init)
  have hrun : Engine.createSet h width height n .init = .ok true s₀ := hs₀
  rw [hs₀, Outcome.post_ok] at hlaid
  rw [hrun, Shows, Outcome.post_ok] at hlayout
  exact ⟨s₀, hs₀, fun cs t ht => hlayout ▸ ht.layout_eq hsafe hlaid⟩

/-- A visual is put into two scenes, played, and taken out of the first one again. -/
theorem sessions_follow_layout_moved : ∃ s₀ t cs, Engine.newSet .plain 640 480 2 .init = .ok true s₀ ∧
    CarefulRun s₀ cs t ∧ t.layout = (EngineState.init.layout.create 2).steps cs ∧
      t.layout.cellAt 0 (1, 0) = none ∧ t.layout.cellAt 1 (1, 0) = some 0 := by
  let cs : List Happening := [(.plain, .command (.addVideo "a.mov")),
    (.plain, .command (.addVisualToScene 0 1 0)), (.plain, .command .addScene),
    (.plain, .gotoNextScene), (.plain, .command (.addVisualToScene 0 1 0)),
    (.plain, .setActiveVisualInstance 1 0), (.plain, .render), (.plain, .gotoPreviousScene),
    (.plain, .command (.removeVisualFromScene 1 0))]
  obtain ⟨s₀, hs₀, hall⟩ := sessions_follow_layout .plain 640 480 2 (by decide) (.inl rfl)
  have hrun : (Engine.newSet .plain 640 480 2 .init).final?.any (fun s => (runAll Happening.run
      (fun e s => e.2.Careful e.1 s) cs s).any fun t =>
        t.layout.cellAt 0 (1, 0) = none ∧ t.layout.cellAt 1 (1, 0) = some 0) = true := by
    decide +kernel
  rw [hs₀, Outcome.final?_ok, Option.any_some] at hrun
  obtain ⟨t, ht, hP⟩ := (Option.any_eq_true _ _).mp hrun
  have hcareful : CarefulRun s₀ cs t := RunsTo.of_runAll .nil ht
  exact ⟨s₀, t, cs, hs₀, hcareful, hall cs t hcareful, of_decide_eq_true hP⟩

/-- A session of careful events that spare a column leaves its visuals in their cells, in every scene
there has been from the beginning. -/
theorem sessions_spare_column {s t : EngineState} {cs : List Happening} {column : UInt32}
    (hs : s.Safe) (hl : s.Laid) (hcs : ∀ e ∈ cs, e.2.Spares column) (h : CarefulRun s cs t) :
    s.layout.visuals <+: t.layout.visuals ∧ ∀ k < s.scenesList.length, k < t.scenesList.length ∧
      ∀ layer, t.layout.cellAt k (layer, column) = s.layout.cellAt k (layer, column) := by
  have hsame := Layout.sameColumn_steps hcs s.layout
  rw [← h.layout_eq hs hl] at hsame
  refine ⟨hsame.1, fun k hk => ?_⟩
  obtain ⟨hlt, hcells⟩ := hsame.2 k (by rwa [EngineState.layout, List.length_map])
  exact ⟨by rwa [EngineState.layout, List.length_map] at hlt, hcells⟩

/-- The cell beside it is cleared and filled again, layers come and go, and scenes are changed. -/
theorem sessions_spare_column_beside : ∃ s t cs, s.Safe ∧ CarefulRun s cs t ∧ cs.length = 8 ∧
    t.layout.cellAt 0 (1, 0) = some 0 := by
  let cs : List Happening := [(.plain, .command (.removeVisualFromScene 1 1)),
    (.plain, .command .addScene), (.plain, .gotoNextScene), (.plain, .setLayerCount 1),
    (.plain, .command (.addVideo "b.mov")), (.plain, .command (.addVisualToScene 1 2 1)),
    (.plain, .gotoPreviousScene), (.plain, .command (.addVisualToScene 1 1 1))]
  obtain ⟨s, hsession, hs, hrun⟩ := exists_safe 3 [(.plain, .command (.addVideo "a.mov")),
      (.plain, .command (.addVisualToScene 0 1 0)), (.plain, .command (.addVisualToScene 0 1 1))]
    (P := fun s => s.layout.cellAt 0 (1, 0) = some 0 ∧ 0 < s.scenesList.length ∧
      (runAll Happening.run (fun e s => e.2.Careful e.1 s) cs s).isSome) (by decide)
    (by decide +kernel)
  obtain ⟨hcell, hscenes, hsome⟩ := hrun
  obtain ⟨t, ht⟩ := Option.isSome_iff_exists.mp hsome
  have hcareful : CarefulRun s cs t := RunsTo.of_runAll .nil ht
  have hl : s.Laid := EngineState.laid_init.of_reaches hsession
  have hcs : ∀ e ∈ cs, e.2.Spares 0 := by decide
  have hspare := (sessions_spare_column hs hl hcs hcareful).2 0 hscenes
  exact ⟨s, t, cs, hs, hcareful, rfl, (hspare.2 1).trans hcell⟩

end ArbutusEngine
