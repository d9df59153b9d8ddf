import ArbutusEngine.AddedVisuals
import ArbutusEngine.Cursor
import ArbutusEngine.LayerRemoval
import ArbutusEngine.Safety
import ArbutusEngine.Sessions

/-!
# Sessions that use nothing that is not there

Once a set has been created, every event of a session returns or throws as long as it is careful
in the state it meets: the instance that an editing event takes out of a cell is held by no layer, a
position is not the one past the end of a list, the visuals of a set that is replaced can be erased
one by one, and a request names only layers and instances that are there. Events may throw, and the
session goes on.

Opening a set, closing one and reading a document are left out, since they delete the scene that the
current scene points to.

## Main definitions

* `EngineState.CellFree`, `EngineState.ColumnFree`: what is there is held by no layer.
* `Event.Careful`.

## Main results

* `Event.defined_run`: a careful event returns or throws in a safe state, and leads to one.
* `careful_sessions`: sessions of careful events.
-/

open Exec

namespace ArbutusEngine

/-! ### What keeps a state safe -/

/-- The scene that is shown is told by the addresses of the scenes. -/
theorem EngineState.atScene_iff {s : EngineState} {i : ℕ} : s.AtScene i ↔
    s.cursor.2.1.toNat = i ∧ ∃ a, s.cursor.2.2 = some a ∧ s.cursor.1[i]? = some a := by
  constructor
  · rintro ⟨hnumber, scene, hscene, hcurrent⟩
    refine ⟨hnumber, scene.addr, hcurrent, ?_⟩
    change (s.scenesList.map Scene.addr)[i]? = some scene.addr
    rw [List.getElem?_map, hscene, Option.map_some]
  · rintro ⟨hnumber, a, hcurrent, haddr⟩
    change (s.scenesList.map Scene.addr)[i]? = some a at haddr
    rw [List.getElem?_map] at haddr
    obtain ⟨scene, hscene, rfl⟩ := Option.map_eq_some_iff.mp haddr
    exact ⟨hnumber, scene, hscene, hcurrent⟩

theorem Scene.map_addr_replace {f : Scene → Scene} (hf : ∀ scene, (f scene).addr = scene.addr)
    (a : Addr) (scenes : List Scene) :
    (Scene.replace a f scenes).map Scene.addr = scenes.map Scene.addr := by
  rw [replace, List.map_map]
  refine List.map_congr_left fun scene _ => ?_
  rw [Function.comp_apply]
  split_ifs
  · exact hf scene
  · rfl

namespace EngineState.Safe

variable {s t : EngineState}

/-- A state whose graph is as it should be, and in which the same scene is shown. -/
theorem of_cursor (hs : s.Safe) (hwf : t.WellFormed) (hi : t.Intact) (hc : s.cursor = t.cursor)
    (hl : s.loaded = t.loaded) : t.Safe where
  wellFormed := hwf
  intact := hi
  atScene := by
    obtain ⟨i, hi⟩ := hs.atScene
    exact ⟨i, atScene_iff.mpr (hc ▸ atScene_iff.mp hi)⟩
  loaded := hl ▸ hs.loaded

/-- A new scene is listed last. -/
theorem pushScene (hs : s.Safe) (name : String) : (s.pushScene name).Safe where
  wellFormed := hs.wellFormed.pushScene name
  intact := hs.intact.pushScene name
  atScene := by
    obtain ⟨i, hnumber, scene, hscene, hcurrent⟩ := hs.atScene
    refine ⟨i, hnumber, scene, ?_, hcurrent⟩
    exact List.getElem?_append_left (List.getElem?_eq_some_iff.mp hscene).1 ▸ hscene
  loaded := hs.loaded

/-- A visual at a fresh address joins the list. -/
theorem pushVisual (hs : s.Safe) {v : Visual} (hv : v.addr = s.nextAddr) (p : EngineProperties) :
    ({ s with visualsList := s.visualsList ++ [v], nextAddr := s.nextAddr + 1, properties := p } :
      EngineState).Safe := by
  refine hs.of_cursor (hs.wellFormed.pushVisual hv p) ⟨hs.intact.held_placed, ?_⟩ rfl rfl
  exact hs.intact.connected.mono (fun _ ha => ha) (fun _ => rfl) fun w hw =>
    ⟨w, List.mem_append_left _ hw, rfl⟩

/-- An instance of a listed visual is put into a cell of the current scene. -/
theorem place (hs : s.Safe) (h : Host) {a : Addr} (hcurrent : s.currentScene = some a)
    {p : Placement} (hv : ∃ v ∈ s.visualsList, v.addr = p.visual)
    (hfree : ∀ b, s.instanceInCell (p.layer, p.column) = some b → b ∉ s.held) :
    (s.place h a p).Safe := by
  refine hs.of_cursor (hs.wellFormed.place h a p)
    (hs.intact.place hs.wellFormed h hcurrent hv hfree) ?_ rfl
  refine Prod.ext (Eq.symm (Scene.map_addr_replace ?_ a _)) rfl
  exact fun _ => rfl

end EngineState.Safe

/-- What is defined whatever the number of layers and the instances. -/
theorem DefinedOn.safe {α : Type} {x : Prog α} (hx : ∀ k p, DefinedOn k p x) :
    Defined EngineState.Safe x := by
  intro s hs
  obtain ⟨t, ht, hr⟩ := hx _ _ s hs.rigged
  exact ⟨t, ht, hr.safe⟩

/-! ### Moving between scenes -/

namespace Set

/-- Moving to a scene loads its videos, once it is the current one. -/
theorem defined_setCurrentScene (h : Host) (n : UInt32) :
    Defined EngineState.Safe (setCurrentScene h n) := by
  intro s hs
  rw [setCurrentScene, bind_run, gets_run, Outcome.bind_ok]
  cases hscenes : s.scenesList with
  | nil => exact absurd hscenes hs.scenes_ne
  | cons first rest =>
    cases hscene : (first :: rest)[n.toNat]? with
    | none => exact ⟨s, rfl, hs⟩
    | some scene =>
      rw [← hscenes] at hscene
      let t : EngineState := { s with currentSceneNumber := n, currentScene := some scene.addr }
      have ht : t.Safe := by
        refine ⟨{ hs.wellFormed with currentScene_ne := fun _ => Option.some_ne_none _ },
          ⟨hs.intact.held_placed, hs.intact.connected⟩, ⟨n.toNat, rfl, scene, hscene, rfl⟩,
          hs.loaded⟩
      have hlist : ∀ b ∈ scene.visualInstances, b ∈ t.placed := fun b hb =>
        EngineState.mem_placed.mpr ⟨scene, List.mem_of_getElem? hscene, hb⟩
      obtain ⟨u, hu, hr⟩ := VisualInstances.defined_loadAll h hlist t ht.rigged
      exact ⟨u, hu, hr.safe⟩

theorem defined_gotoNextScene (h : Host) : Defined EngineState.Safe (gotoNextScene h) :=
  .bind (.gets _) fun _ => .bind (.gets _) fun _ => .ite (defined_setCurrentScene h _) (.pure _)

theorem defined_gotoPreviousScene (h : Host) : Defined EngineState.Safe (gotoPreviousScene h) :=
  .bind (.gets _) fun _ => .ite (defined_setCurrentScene h _) (.pure _)

/-! ### Adding visuals -/

theorem defined_addVisualVideoToListFromFile (h : Host) (filePath : String) :
    Defined EngineState.Safe (addVisualVideoToListFromFile h filePath) := by
  refine .bind (.gets _) fun visuals => .ite (.pure _) fun s hs => ?_
  rw [bind_run, VisualVideo.new_eq]
  dsimp only
  split_ifs
  · exact ⟨s, rfl, hs⟩
  · exact ⟨_, rfl, hs.pushVisual rfl _⟩

/-- The number of a camera is checked, but not against the one past the last device. -/
theorem defined_addVisualCameraToList {listDevices : List String} {id : UInt32}
    (hid : id.toNat ≠ listDevices.length) (rate w h : UInt32) :
    Defined EngineState.Safe (addVisualCameraToList listDevices id rate w h) := by
  intro s hs
  rw [addVisualCameraToList, bind_run, VisualCamera.new]
  split_ifs with hnone hfar
  · exact ⟨s, rfl, hs⟩
  · exact ⟨s, rfl, hs⟩
  · rw [List.getElem?_eq_getElem (by omega)]
    exact ⟨_, rfl, hs.pushVisual rfl s.properties⟩

theorem defined_addVisualSyphonToList (serverName appName : String) :
    Defined EngineState.Safe (addVisualSyphonToList serverName appName) :=
  fun s hs => ⟨_, rfl, hs.pushVisual rfl s.properties⟩

end Set

theorem Visuals.defined_addVideo (h : Host) (path : String) :
    Defined EngineState.Safe (addVideo h path) := by
  intro s hs
  rw [addVideo, bind_run, VisualVideo.new_eq]
  dsimp only
  split_ifs
  · exact ⟨s, rfl, hs⟩
  · exact ⟨_, rfl, hs.pushVisual rfl _⟩

theorem Scenes.defined_newScene (name : String) : Defined EngineState.Safe (newScene name) :=
  fun s hs => ⟨s.pushScene name, rfl, hs.pushScene name⟩

/-! ### Layers -/

/-- A layer is dropped, and what it holds with it. -/
theorem EngineState.Safe.eraseLayer {s : EngineState} (hs : s.Safe) (n : ℕ) :
    ({ s with layersList := s.layersList.eraseIdx n } : EngineState).Safe := by
  refine hs.of_cursor { hs.wellFormed with layers_lt := ?_, layers_le := ?_ }
    ⟨fun a ha => ?_, hs.intact.connected⟩ rfl rfl
  · exact fun layer hlayer => hs.wellFormed.layers_lt layer (List.mem_of_mem_eraseIdx hlayer)
  · exact (List.length_eraseIdx_le _ _).trans hs.wellFormed.layers_le
  · obtain ⟨layer, hlayer, ha⟩ := EngineState.mem_held.mp ha
    exact hs.intact.held_placed a
      (EngineState.mem_held.mpr ⟨layer, List.mem_of_mem_eraseIdx hlayer, ha⟩)

namespace Layers

theorem defined_add (h : Host) : Defined EngineState.Safe (add h true) := by
  refine .of_keeps (fun s hs => ?_) fun s _ => ?_
  · have hcursor : Fixes (fun t : EngineState => (t.cursor, t.loaded)) (add h true) :=
      fixes_add (fun _ _ _ => rfl) (fun _ _ => rfl) h
    have hall := ((keeps_wellFormed_add h s hs.wellFormed).and (keeps_intact_add h s hs.intact)).and
      (hcursor _ s rfl)
    have hsafe : ∀ t : EngineState, (t.WellFormed ∧ t.Intact) ∧
        (t.cursor, t.loaded) = (s.cursor, s.loaded) → t.Safe := fun t ht =>
      hs.of_cursor ht.1.1 ht.1.2 (congrArg Prod.fst ht.2).symm (congrArg Prod.snd ht.2).symm
    exact hall.mono (fun _ => hsafe) fun _ => hsafe
  · rw [add_eq]
    split_ifs
    · exact ⟨s, rfl⟩
    · cases h.shaderError with
      | some what => exact ⟨_, rfl⟩
      | none => exact ⟨_, rfl⟩

theorem defined_setActive (h : Host) (n : UInt32) : Defined EngineState.Safe (setActive h n) := by
  intro s hs
  obtain ⟨p, hp⟩ := exists_setActive h n s
  exact ⟨_, congrArg Outcome.final? hp, hs.of_outline rfl⟩

theorem defined_getCurrentId (h : Host) : Defined EngineState.Safe (getCurrentId h) :=
  DefinedOn.safe fun _ _ => .bind (defined_getInstance h) fun _ => .pure _

/-- The end of `Layers::remove`. -/
theorem defined_reselect (h : Host) : Defined EngineState.Safe (do
    let layerSize ← gets count
    let selected ← getCurrentId h
    if selected ≥ layerSize then setActive h layerSize) :=
  .bind (.gets _) fun _ => .bind (defined_getCurrentId h) fun _ =>
    .ite (defined_setActive h _) (.pure _)

/-- A position is looked for in the list, unless it is the one past the end. -/
theorem final?_remove {s : EngineState} (hs : s.Safe) (h : Host) {n : UInt32}
    (hn : n.toNat ≠ s.layersList.length) : ∃ t, (remove h n s).final? = some t ∧ t.Safe ∧
      t.layersList.length =
        if n.toNat < s.layersList.length then s.layersList.length - 1 else s.layersList.length := by
  have hlist := remove_post_layersList h n s
  obtain ⟨t, ht, hsafe⟩ : ∃ t, (remove h n s).final? = some t ∧ t.Safe := by
    rw [remove, bind_run, gets_run, Outcome.bind_ok]
    split_ifs
    · exact ⟨s, rfl, hs⟩
    · exact defined_reselect h _ (hs.eraseLayer n.toNat)
  refine ⟨t, ht, hsafe, ?_⟩
  rw [hlist.of_final? ht, List.length_eraseIdx]

/-- A run of removals that steps over the end of the list. -/
theorem defined_removeFrom (h : Host) (count : ℕ) : ∀ (first : ℕ) (s : EngineState), s.Safe →
    first + count ≤ 2 ^ 32 → (first ≤ s.layersList.length → (s.layersList.length - first) % 2 = 1) →
      ∃ t, (forEach (List.range' first count) (fun i => remove h (UInt32.ofNat i)) s).final? =
        some t ∧ t.Safe := by
  induction count with
  | zero => exact fun _ s hs _ _ => ⟨s, rfl, hs⟩
  | succ count ih =>
    intro first s hs hbound hodd
    have hnat : (UInt32.ofNat first).toNat = first :=
      UInt32.toNat_ofNat_of_lt' (by change first < 2 ^ 32; omega)
    obtain ⟨t, ht, hsafe, hlen⟩ := final?_remove hs h (n := UInt32.ofNat first) (by
      rw [hnat]
      intro heq
      have := hodd heq.le
      omega)
    rw [hnat] at hlen
    rw [List.range'_succ, forEach_cons, bind_run]
    cases hrun : remove h (UInt32.ofNat first) s with
    | ok a u =>
      rw [hrun] at ht
      obtain rfl : u = t := Option.some.inj ht
      refine ih (first + 1) u hsafe (by omega) fun hle => ?_
      split_ifs at hlen <;> omega
    | threw e u =>
      rw [hrun] at ht
      exact ⟨t, ht, hsafe⟩
    | undefined u =>
      rw [hrun] at ht
      cases ht

/-- The layers of a smaller number are removed from the one before on; the loop meets the end of the
list when an odd number of layers is to go. -/
theorem defined_setCount {s : EngineState} (hs : s.Safe) (h : Host) {val : UInt32}
    (hval : 0 < val.toNat → val.toNat < s.layersList.length →
      (s.layersList.length - val.toNat) % 2 = 0) :
    ∃ t, (setCount h val s).final? = some t ∧ t.Safe := by
  have hcount := toNat_count hs.wellFormed.layers_le
  have hmax : maximumNumberOfLayers = 6 := rfl
  have hle := hs.wellFormed.layers_le
  rw [setCount, bind_run, gets_run, Outcome.bind_ok]
  split_ifs with heq hgt
  · exact ⟨s, rfl, hs⟩
  · have hadd : Defined EngineState.Safe (do let _ ← add h true : Prog Unit) :=
      .bind (defined_add h) fun _ => .pure _
    exact Defined.iterate hadd _ s hs
  · have hlt : val.toNat < s.layersList.length := by
      have hge := UInt32.le_iff_toNat_le.mp (UInt32.not_lt.mp hgt)
      have hne : val.toNat ≠ (count s).toNat := fun h => heq (UInt32.toNat_inj.mp h)
      omega
    change ∃ t, (forEach (List.range' (val - 1).toNat ((count s).toNat - (val - 1).toNat))
      (fun i => remove h (UInt32.ofNat i)) s).final? = some t ∧ t.Safe
    by_cases h0 : val.toNat = 0
    · have hzero : val = 0 := UInt32.toNat_inj.mp h0
      subst hzero
      have hfirst : ((0 : UInt32) - 1).toNat = 2 ^ 32 - 1 := rfl
      have hnone : (count s).toNat - ((0 : UInt32) - 1).toNat = 0 := by omega
      rw [hnone]
      exact ⟨s, rfl, hs⟩
    · have hfirst : (val - 1).toNat = val.toNat - 1 := by
        rw [UInt32.toNat_sub_of_le, UInt32.toNat_one]
        rw [UInt32.le_iff_toNat_le, UInt32.toNat_one]
        omega
      have heven := hval (Nat.pos_of_ne_zero h0) hlt
      exact defined_removeFrom h _ _ s hs (by omega) fun _ => by omega

end Layers

/-! ### The instances of the current scene -/

/-- The program leaves the cursor alone, and whether a set is loaded. -/
theorem KeepsSkeleton.showing {α : Type} {x : Prog α} (hx : KeepsSkeleton x) :
    Fixes (fun s : EngineState => (s.cursor, s.loaded)) x := by
  refine hx.of_eq fun s t h => ?_
  have houtline := congrArg Prod.fst h
  have hscenes : s.scenesList = t.scenesList := congrArg (fun o => o.scenesList) houtline
  have hnumber : s.currentSceneNumber = t.currentSceneNumber :=
    congrArg Outline.currentSceneNumber houtline
  have hcurrent : s.currentScene = t.currentScene := congrArg Outline.currentScene houtline
  have hloaded : s.loaded = t.loaded := congrArg Outline.loaded houtline
  rw [EngineState.cursor, EngineState.cursor, hscenes, hnumber, hcurrent, hloaded]

namespace Engine

theorem fixes_showing_removeVisualFromScene (h : Host) (layer column : UInt32) :
    Fixes (fun s : EngineState => (s.cursor, s.loaded)) (removeVisualFromScene h layer column) := by
  have hremove : Fixes (fun s : EngineState => (s.cursor, s.loaded))
      (removeFromCurrentScene layer column) := by
    refine .bind keepsOutline_derefCurrentScene.skeleton.showing fun a => .bind (.deref _ _)
      fun scene => ?_
    refine .bind (VisualInstances.fixes_remove layer column _) fun list =>
      .bind (.deref _ _) fun _ => .modify fun s => ?_
    have haddr := Scene.map_addr_replace (f := fun scene => { scene with visualInstances := list })
      (fun _ => rfl) a s.scenesList
    exact congrArg (fun l => ((l, s.currentSceneNumber, s.currentScene), s.loaded)) haddr
  refine .bind (keepsOutline_isSelectedCell h layer column).skeleton.showing fun _ =>
    .ite ?_ hremove
  exact .bind (Layers.keepsSkeleton_stopAt layer).showing fun _ => hremove

/-- An instance of a listed visual is put into a cell of the current scene. -/
theorem exists_placeInCurrentScene {s : EngineState} (hs : s.Safe) (h : Host) {v : Visual}
    (hv : v ∈ s.visualsList) {layer column : UInt32}
    (hfree : ∀ a, s.instanceInCell (layer, column) = some a → a ∉ s.held) :
    ∃ t, (placeInCurrentScene h ⟨v.addr, layer, column, ""⟩ s).final? = some t ∧ t.Safe := by
  obtain ⟨scene, hscene, hcurrent, -⟩ := hs.exists_current
  have hrun := placeInCurrentScene_eq hscene hcurrent (.refl s) hs.wellFormed h
    ⟨v.addr, layer, column, ""⟩
  exact ⟨_, congrArg Outcome.final? hrun, hs.place h hcurrent ⟨v, hv, rfl⟩ hfree⟩

theorem exists_addVisualToScene {s : EngineState} (hs : s.Safe) (h : Host)
    {visual layer column : UInt32} (hlayer : layer.toNat + 1 < 2 ^ 31)
    (hfree : ∀ a, s.instanceInCell (layer, column) = some a → a ∉ s.held) :
    ∃ t, (addVisualToScene h visual layer column s).final? = some t ∧ t.Safe := by
  rw [addVisualToScene, bind_run, gets_run, Outcome.bind_ok]
  cases hv : Visuals.get s.visualsList visual.toInt32 with
  | none => exact ⟨s, rfl, hs⟩
  | some v =>
    have hv := Visuals.mem_of_get hv
    dsimp only
    rw [bind_run, gets_run, Outcome.bind_ok]
    split_ifs with hlayers
    swap
    · exact exists_placeInCurrentScene hs h hv hfree
    rw [bind_run, gets_run, Outcome.bind_ok, intLoop, if_pos hlayer]
    have hadd : Defined (fun t => t.Safe ∧ s.Grows t)
        (do let _ ← Layers.add h true : Prog Unit) := by
      refine .bind (fun t ht => ?_) fun _ => .pure _
      obtain ⟨u, hu, hsafe⟩ := Layers.defined_add h t ht.1
      exact ⟨u, hu, hsafe, (Layers.keeps_grows_add s h t ht.2).of_final? hu⟩
    -- the layers that are added hold nothing, so that the cell stays free
    refine (Defined.iterate hadd _).exists_bind (fun _ ht => ht.1) (fun _ t ht => ?_) ⟨hs, .refl s⟩
    obtain ⟨ht, hgrows⟩ := ht
    refine exists_placeInCurrentScene ht h ?_ fun a ha => ?_
    · obtain ⟨l, n, p, rfl, -⟩ := hgrows
      exact hv
    · rw [hgrows.held_eq]
      obtain ⟨l, n, p, rfl, -⟩ := hgrows
      exact hfree a ha

/-- The layer in which the instance lands is a different one for a zero, and past the last layer. -/
theorem exists_addVisualToSceneListInCurrentLayer {s : EngineState} (hs : s.Safe) (h : Host)
    {visual layer column : UInt32}
    (hfree : ∀ l a, s.instanceInCell (l, column) = some a → a ∉ s.held) :
    ∃ t, (addVisualToSceneListInCurrentLayer h visual layer column s).final? = some t ∧ t.Safe := by
  rw [addVisualToSceneListInCurrentLayer, bind_run, gets_run, Outcome.bind_ok]
  cases hv : Visuals.get s.visualsList visual.toInt32 with
  | none => exact ⟨s, rfl, hs⟩
  | some v =>
    have hv := Visuals.mem_of_get hv
    have hreset : (s.resetProperties h).Safe := hs.of_outline rfl
    dsimp only
    split_ifs
    · exact exists_placeInCurrentScene hreset h hv fun a ha => hfree _ a ha
    · exact exists_placeInCurrentScene hs h hv fun a ha => hfree _ a ha

/-- Removing an instance from the current scene, which may have stopped the layer of the cell. -/
theorem exists_removeVisualFromScene {s : EngineState} (hs : s.Safe) (h : Host)
    {layer column : UInt32} (hremove : s.MayRemove layer column) :
    ∃ t, (removeVisualFromScene h layer column s).final? = some t ∧ t.Safe := by
  have hlast : ∀ t : EngineState, t.Rigged s.layersList.length s.placed →
      ∃ u, (removeFromCurrentScene layer column t).final? = some u ∧ True := by
    intro t ht
    obtain ⟨scene, hscene, hcurrent, -⟩ := ht.safe.exists_current
    have hrun := removeFromScene_eq ht.safe.wellFormed hscene layer column
    refine ⟨_, (congrArg Outcome.final? ?_).trans (congrArg Outcome.final? hrun), trivial⟩
    rw [removeFromCurrentScene, bind_run, derefCurrentScene, bind_run, gets_run, Outcome.bind_ok,
      hcurrent, ofOption_some, pure_run, Outcome.bind_ok]
  obtain ⟨t, ht, -⟩ : ∃ t, (removeVisualFromScene h layer column s).final? = some t ∧ True := by
    have hselected : DefinedOn s.layersList.length s.placed (isSelectedCell h layer column) :=
      .bind (defined_getSelectedLayerNumber h) fun _ => .ite
        (.bind (defined_getSelectedColumnNumber h) fun _ => .pure _) (.pure _)
    refine hselected.exists_bind (fun _ _ => trivial) (fun selected t ht => ?_) hs.rigged
    split_ifs
    · exact (Layers.defined_stopAt layer).exists_bind (fun _ _ => trivial)
        (fun _ u hu => hlast u hu) ht
    · exact hlast t ht
  have hwf := keeps_wellFormed_removeVisualFromScene h layer column s hs.wellFormed
  have hi := removeVisualFromScene_post_intact hs.wellFormed hs.intact h hremove
  have hc := (fixes_showing_removeVisualFromScene h layer column _ s rfl).of_final? ht
  exact ⟨t, ht, hs.of_cursor (hwf.of_final? ht) (hi.of_final? ht) (congrArg Prod.fst hc).symm
    (congrArg Prod.snd hc).symm⟩

/-! ### Sets -/

/-- The size of the mixer is that of the buffer and of the layers. -/
theorem defined_setMixerResolution (h : Host) (width height : UInt32) :
    Defined EngineState.Safe (setMixerResolution h width height) := by
  refine DefinedOn.safe fun k p => .bind (.modify fun s hs => ?_) fun _ => ?_
  · exact ⟨hs.safe.of_cursor { hs.safe.wellFormed with }
      ⟨hs.safe.intact.held_placed, hs.safe.intact.connected⟩ rfl rfl, hs.layers, hs.placed⟩
  have hupdate : ∀ f, DefinedOn k p (EngineProperties.update h f) := fun f =>
    .of_keeps (KeepsOutline.rigged (Fixes.updateProperties h f)) fun _ _ => ⟨_, rfl⟩
  refine .bind (hupdate _) fun _ => .bind (hupdate _) fun _ => .bind (fun s hs => ?_) fun _ =>
    Layers.defined_forEach fun n hn => ?_
  · obtain ⟨b, q, hinit⟩ := exists_initBuffer h s
    exact ⟨_, congrArg Outcome.final? hinit, hs.safe.of_cursor { hs.safe.wellFormed with }
      ⟨hs.safe.intact.held_placed, hs.safe.intact.connected⟩ rfl rfl, hs.layers, hs.placed⟩
  · have hlayer : ∀ {f : Layer → Layer}, (∀ layer, (f layer).addr = layer.addr) →
        (∀ layer, (f layer).held = layer.held) → DefinedOn k p (Layer.update n f) := fun ha hh =>
      Layer.defined_update_of_held hn ha hh
    exact .bind (hlayer (fun _ => rfl) fun _ => rfl) fun _ =>
      .bind (hlayer (fun _ => rfl) fun _ => rfl) fun _ =>
        .bind (hlayer (fun _ => rfl) fun _ => rfl) fun _ => hlayer (fun _ => rfl) fun _ => rfl

/-- Saving a set reads what is listed, and may throw. -/
theorem defined_saveSetAs (h : Host) (path : String) :
    Defined EngineState.Safe (Set.saveSetAs h path) := by
  have hwrite : ∀ {f : EngineState → EngineState}, (∀ s, s.Safe → (f s).Safe) →
      Defined EngineState.Safe (modify f : Prog Unit) := fun hf => .modify hf
  refine .bind (hwrite fun s hs => ?_) fun _ => .bind (fun s hs => ?_) fun state => ?_
  · exact hs.of_cursor { hs.wellFormed with } ⟨hs.intact.held_placed, hs.intact.connected⟩ rfl rfl
  · exact ⟨s, congrArg Outcome.final? (getState_of_connected hs.wellFormed hs.intact.connected), hs⟩
  · refine .bind (.ite (.throw _) (.ite (.pure _) (.throw _))) fun _ => ?_
    refine .ite (.ite (.bind (hwrite fun s hs => ?_) fun _ => .ite (.pure _) (.throw _)) (.throw _))
      (.throw _)
    exact hs.of_cursor { hs.wellFormed with } ⟨hs.intact.held_placed, hs.intact.connected⟩ rfl rfl

/-- A set that has been created is loaded. -/
theorem createSet_post_loaded (h : Host) (width height n : UInt32) (s : EngineState) :
    (createSet h width height n s).Post (fun _ t => t.loaded = true) fun _ _ => True := by
  obtain ⟨p, -, hrun⟩ := exists_createSet_eq h width height n s
  have hany : ∀ {α : Type} (x : Prog α) (t : EngineState),
      (x t).Post (fun _ _ => True) fun _ _ => True := fun x t =>
    .of_forall (fun _ _ => trivial) fun _ _ => trivial
  have hset : ∀ t, (Set.newSet h width height n t).Post (fun _ t => t.loaded = true)
      fun _ _ => True := by
    intro t
    rw [Set.newSet_eq]
    refine (hany (intLoop 0 n.toNat (do let _ ← Layers.add h true)) _).bind fun _ u _ => ?_
    rw [Set.addFirstScene, bind_run]
    refine (hany (Scenes.newScene "First Scene") u).bind fun _ u _ => ?_
    rw [bind_run, modify_run, Outcome.bind_ok, bind_run]
    exact (hany (Set.setCurrentScene h 0) _).bind fun _ _ _ => rfl
  rw [hrun]
  refine (hset _).bind fun _ t ht => ?_
  obtain ⟨b, q, -, hfinish⟩ := exists_finishSet h "" t
  dsimp only
  rw [hfinish]
  exact ht

theorem keeps_wellFormed_createSet (h : Host) (width height n : UInt32) :
    Keeps EngineState.WellFormed (createSet h width height n) := by
  refine keeps_createSet_of (fun f => (Fixes.updateProperties h f).wellFormed)
    (Set.keeps_wellFormed_newSet h width height n) fun s hs => ?_
  obtain ⟨b, p, -, hrun⟩ := exists_finishSet h "" s
  rw [hrun]
  exact { hs with }

/-- A new set is safe. -/
theorem exists_createSet_safe {s : EngineState} (hs : s.WellFormed) (hi : s.Intact)
    (hscenes : s.scenesList = []) {h : Host} {n : UInt32} (hc : s.CanAddLayers h n)
    (hadd : h.shaderError = none ∨ n = 0) (width height : UInt32) :
    ∃ t, createSet h width height n s = .ok true t ∧ t.Safe := by
  obtain ⟨t, ht⟩ := exists_createSet hs hc hscenes width height
  have hwf := keeps_wellFormed_createSet h width height n s hs
  have hintact := keeps_intact_createSet h width height n s hi
  have hcursor := createSet_post_cursor h width height (n := n) (s := s) (.inr hadd)
  have hloaded := createSet_post_loaded h width height n s
  have hextends := createSet_post hs h width height n
  rw [ht, Outcome.post_ok] at hwf hintact hcursor hloaded hextends
  obtain ⟨-, -, -, a, -, hcurrent⟩ := hextends
  obtain ⟨scene, hscene, haddr⟩ := hcursor a (hcurrent hscenes)
  exact ⟨t, ht, hwf, hintact, ⟨_, rfl, scene, hscene, haddr ▸ hcurrent hscenes⟩, hloaded⟩

/-- The set that is loaded is replaced by a new one. -/
theorem exists_newSet_safe {s : EngineState} (hs : s.Safe) {h : Host} (herase : s.Erasable h)
    {n : UInt32} (hn : n.toNat < 2 ^ 31) (hadd : h.shaderError = none ∨ n = 0)
    (width height : UInt32) : ∃ t, newSet h width height n s = .ok true t ∧ t.Safe := by
  obtain ⟨t, ht, hsafe⟩ := exists_createSet_safe (hs.wellFormed.close h)
    (.of_isEmpty (s.isEmpty_close h)) rfl ⟨hn, hadd.imp_right .inl⟩ hadd width height
  refine ⟨t, ?_, hsafe⟩
  rw [newSet_eq, bind_run, closeSet_eq hs.wellFormed, if_pos hs.loaded, if_pos herase,
    Outcome.bind_ok]
  exact ht

end Engine

/-! ### Requests and keys -/

/-- A request that is no document and names only what is there. -/
theorem exists_handle {s : EngineState} (hs : s.Safe) {h : Host} {request : Json}
    (hset : requestAction request ≠ some .setState) (hsafe : RequestSafe h s request) :
    ∃ t, (handleJSONRequestForClient h request s).final? = some t ∧ t.Safe := by
  obtain ⟨t, ht⟩ := (handle_defined_iff hs.wellFormed h request).mpr hsafe
  have hwf := handleJSONRequestForClient_keeps_wellFormed h request s hs.wellFormed
  have hi := handle_post_intact hs.wellFormed hs.intact h fun ha => absurd ha hset
  have hshowing : Fixes (fun s : EngineState => (s.cursor, s.loaded))
      (handleJSONRequestForClient h request) := by
    cases ha : requestAction request with
    | none =>
      intro o u hu
      obtain ⟨e, he, -⟩ := handle_of_no_action (h := h) (s := u) ha
      rw [he]
      exact hu
    | some action =>
      rw [handle_of_action ha]
      exact (keepsSkeleton_handleAction h request fun heq => hset (heq ▸ ha)).showing
  have hc := (hshowing _ s rfl).of_final? ht
  exact ⟨t, ht, hs.of_cursor (hwf.of_final? ht) (hi.of_final? ht) (congrArg Prod.fst hc).symm
    (congrArg Prod.snd hc).symm⟩

namespace ControllerGroup

open Controls

variable {κ : Type}

/-- The action has the data that go with its type. -/
def Complete (a : Controls.Action) : Prop :=
  match a.type with
  | .triggerVisual => a.triggerVisualAction ≠ none
  | .changeLayer => a.changeLayerAction ≠ none
  | .changeParameter => True

instance (a : Controls.Action) : Decidable (Complete a) := by
  unfold Complete
  cases a.type <;> infer_instance

/-- A key runs the actions of controllers that are complete, and no callback. -/
theorem defined_handleKeyboardControllers (h : Host) (enginePtr : Bool) (key : Int32)
    {call : κ → Controller κ → Prog Unit} (hcall : ∀ k c, Defined EngineState.Safe (call k c))
    {controllers : List (Controller κ)}
    (hall : ∀ c ∈ controllers, ∀ a ∈ c.action, Complete a) :
    Defined EngineState.Safe (handleKeyboardControllers h enginePtr call key controllers) := by
  have haction : ∀ a : Controls.Action, Complete a →
      Defined EngineState.Safe (a.run h enginePtr) := by
    rintro ⟨type, trigger, change⟩ ha
    cases type with
    | triggerVisual =>
      obtain ⟨action, haction⟩ := Option.ne_none_iff_exists'.mp ha
      obtain rfl : trigger = some action := haction
      exact .bind (.pure _) fun _ => .pure _
    | changeLayer =>
      obtain ⟨action, haction⟩ := Option.ne_none_iff_exists'.mp ha
      obtain rfl : change = some action := haction
      exact .bind (.pure _) fun _ =>
        .ite (.bind (Layers.defined_setActive h _) fun _ => .pure _) (.pure _)
    | changeParameter => exact .pure _
  induction controllers with
  | nil => exact .pure _
  | cons c rest ih =>
    obtain ⟨hc, hrest⟩ := List.forall_mem_cons.mp hall
    have hrun : Defined EngineState.Safe (c.runAction h enginePtr) := by
      rw [Controller.runAction]
      cases ha : c.action with
      | none => exact .pure _
      | some a => exact haction a (hc a ha)
    have hcallback : Defined EngineState.Safe (c.runCallback call) := by
      rw [Controller.runCallback]
      cases c.callback with
      | none => exact .pure _
      | some k => exact hcall k c
    exact .ite (.bind hrun fun _ => .ite (.pure _) (.bind hcallback fun _ => ih hrest)) (ih hrest)

theorem complete_initDefaultControllers : ∀ c ∈ initDefaultControllers (κ := Unit) 0 0,
    ∀ a ∈ c.action, Complete a := by
  decide

end ControllerGroup

/-! ### Careful events -/

namespace EngineState

variable {s : EngineState}

/-- What is in a cell of the current scene is held by no layer. -/
def CellFree (s : EngineState) (cell : UInt32 × UInt32) : Prop :=
  ∀ a ∈ s.instanceInCell cell, a ∉ s.held

instance (cell : UInt32 × UInt32) : Decidable (s.CellFree cell) :=
  inferInstanceAs (Decidable (∀ a ∈ s.instanceInCell cell, _))

/-- No layer holds an instance of the column. -/
def ColumnFree (s : EngineState) (column : UInt32) : Prop :=
  ∀ a ∈ s.held, ∀ i ∈ s.instances.get? a, i.cell.2 ≠ column

instance (column : UInt32) : Decidable (s.ColumnFree column) :=
  inferInstanceAs (Decidable (∀ a ∈ s.held, ∀ i ∈ s.instances.get? a, _))

theorem ColumnFree.cell {column : UInt32} (hs : s.ColumnFree column) (layer : UInt32) :
    s.CellFree (layer, column) := by
  intro a ha hheld
  obtain ⟨b, -, hb⟩ := Option.bind_eq_some_iff.mp ha
  obtain ⟨scene, -, hfind⟩ := Option.bind_eq_some_iff.mp hb
  have hcell := List.find?_some hfind
  rw [VisualInstances.inCell, decide_eq_true_eq, Option.map_eq_some_iff] at hcell
  obtain ⟨i, hi, hcell⟩ := hcell
  exact hs a hheld i hi (congrArg Prod.snd hcell)

instance (layer column : UInt32) : Decidable (s.MayRemove layer column) :=
  decidable_of_iff (∀ a ∈ s.instanceInCell (layer, column), ∀ n < s.layersList.length,
      ∀ l ∈ s.layersList[n]?, a ∈ l.held → n = layer.toNat ∧ l.activeInstance ≠ none ∧
        layer = s.properties.selectedLayer.toUInt32 ∧
          column = s.properties.selectedColumn.toUInt32)
    ⟨fun hs a ha n l hl => hs a ha n (List.getElem?_eq_some_iff.mp hl).1 l hl,
      fun hs a ha n _ l hl => hs a ha n l hl⟩

end EngineState

instance (h : Host) (s : EngineState) (request : Json) : Decidable (RequestSafe h s request) := by
  delta RequestSafe
  generalize requestAction request = action
  exact match action with
    | none | some .ping => .isTrue trivial
    | some .getState => inferInstanceAs (Decidable s.Connected)
    | some .setLayerControl =>
      inferInstanceAs (Decidable (∀ n ∈ requestedLayer (request.field "data"), n < _))
    | some .updateState => inferInstanceAs (Decidable (List.length _ ≤ _ ∨ ∃ e ∈ _, _ = false))
    | some .setState => inferInstanceAs (Decidable (_ = false ∨ ((_ = true → _) ∧ (_ ≠ none ∨ ¬ _))))
    | some .getFullState => inferInstanceAs (Decidable (∃ scene ∈ s.scenesList, _))

/-- What an event must respect in the state it meets. -/
def Event.Careful (h : Host) (s : EngineState) : Event → Prop
  | command (.newSet _ _ layers) =>
    s.Erasable h ∧ layers.toNat < 2 ^ 31 ∧ (h.shaderError = none ∨ layers = 0)
  | command (.openSet _) => False
  | command .closeSet => False
  | command (.setState _) => False
  | command (.addVisualToScene _ layer column) =>
    layer.toNat + 1 < 2 ^ 31 ∧ s.CellFree (layer, column)
  | command (.removeVisualFromScene layer column) => s.MayRemove layer column
  | command (.setBeatSnap a _) => a ∈ s.placed
  | command (.request r) => requestAction r ≠ some .setState ∧ RequestSafe h s r
  | addVisualCameraToList listDevices id _ _ _ => id.toNat ≠ listDevices.length
  | addVisualToSceneListInCurrentLayer _ _ column => s.ColumnFree column
  | removeLayer layerN => layerN.toNat ≠ s.layersList.length
  | setLayerCount val => 0 < val.toNat → val.toNat < s.layersList.length →
    (s.layersList.length - val.toNat) % 2 = 0
  | _ => True

instance (h : Host) (s : EngineState) (e : Event) : Decidable (e.Careful h s) :=
  match e with
  | .command (.newSet _ _ layers) => inferInstanceAs
      (Decidable (s.Erasable h ∧ layers.toNat < 2 ^ 31 ∧ (h.shaderError = none ∨ layers = 0)))
  | .command (.openSet _) | .command .closeSet | .command (.setState _) =>
    inferInstanceAs (Decidable False)
  | .command (.addVisualToScene _ layer column) =>
    inferInstanceAs (Decidable (layer.toNat + 1 < 2 ^ 31 ∧ s.CellFree (layer, column)))
  | .command (.removeVisualFromScene layer column) =>
    inferInstanceAs (Decidable (s.MayRemove layer column))
  | .command (.setBeatSnap a _) => inferInstanceAs (Decidable (a ∈ s.placed))
  | .command (.request r) =>
    inferInstanceAs (Decidable (requestAction r ≠ some .setState ∧ RequestSafe h s r))
  | .addVisualCameraToList listDevices id _ _ _ =>
    inferInstanceAs (Decidable (id.toNat ≠ listDevices.length))
  | .addVisualToSceneListInCurrentLayer _ _ column =>
    inferInstanceAs (Decidable (s.ColumnFree column))
  | .removeLayer layerN => inferInstanceAs (Decidable (layerN.toNat ≠ s.layersList.length))
  | .setLayerCount val => inferInstanceAs (Decidable (0 < val.toNat →
      val.toNat < s.layersList.length → (s.layersList.length - val.toNat) % 2 = 0))
  | .command .saveSet | .command (.saveSetAs _) | .command .addScene
  | .command (.setCurrentScene _) | .command (.addVideo _) | .command (.play _)
  | .command (.stop _) | .command .triggerSchedulledVisualsOnAllLayers
  | .command (.setMetronomeOn _) | .gotoNextScene | .gotoPreviousScene
  | .addVisualVideoToListFromFile _ | .addVisualSyphonToList .. | .setActiveVisualInstance ..
  | .setActiveVisualIntances _ | .playFirstVisualInstanceOnActiveLayer
  | .playLastVisualInstanceOnActiveLayer | .playPreviousVisualInstanceOnActiveLayer
  | .playNextVisualInstanceOnActiveLayer | .addLayer | .activateLayer _ | .activateNextLayer
  | .activatePreviousLayer | .activateLastLayer | .setMixerResolution .. | .handleAction ..
  | .keyPressed _ | .beat | .render | .cleanup => .isTrue trivial

/-- A careful call is defined in a safe state, and leads to one. -/
theorem Command.defined_run {s : EngineState} (hs : s.Safe) {h : Host} (c : Command)
    (hc : Event.Careful h s (.command c)) : ∃ t, (c.run h s).final? = some t ∧ t.Safe := by
  cases c with
  | newSet width height layers =>
    obtain ⟨herase, hlt, hadd⟩ := hc
    obtain ⟨t, ht, hsafe⟩ := Engine.exists_newSet_safe hs herase hlt hadd width height
    refine ⟨t, ?_, hsafe⟩
    rw [run, final?_bind_pure, ht, Outcome.final?_ok]
  | openSet path => exact hc.elim
  | closeSet => exact hc.elim
  | saveSet =>
    have hsave : Defined EngineState.Safe (Set.saveSet h) :=
      .bind (.gets _) fun _ => Engine.defined_saveSetAs h _
    exact (hsave.bind fun _ => .pure _).bind (fun _ => .pure _) s hs
  | saveSetAs path =>
    have hpath : Defined EngineState.Safe
        (EngineProperties.update h fun p => { p with currentFilePath := path }) :=
      fun t ht => ⟨_, rfl, ht.of_outline rfl⟩
    have hsave := (Engine.defined_saveSetAs h path).bind fun _ => hpath.bind fun _ => .pure true
    exact hsave.bind (fun _ => .pure _) s hs
  | setState state => exact hc.elim
  | addScene => exact (Scenes.defined_newScene _).bind (fun _ => .pure _) s hs
  | setCurrentScene n => exact Set.defined_setCurrentScene h n s hs
  | addVideo path => exact (Visuals.defined_addVideo h path).bind (fun _ => .pure _) s hs
  | addVisualToScene visual layer column =>
    exact Engine.exists_addVisualToScene hs h hc.1 hc.2
  | removeVisualFromScene layer column => exact Engine.exists_removeVisualFromScene hs h hc
  | play data => exact DefinedOn.safe (fun _ _ => Engine.defined_play h data) s hs
  | stop data => exact DefinedOn.safe (fun _ _ => Engine.defined_stop data) s hs
  | triggerSchedulledVisualsOnAllLayers =>
    exact DefinedOn.safe (fun _ _ => Engine.defined_trigger h) s hs
  | setMetronomeOn on => exact ⟨_, rfl, hs.of_outline rfl⟩
  | setBeatSnap a on =>
    have hupdate := VisualInstance.defined_update_of (k := s.layersList.length) (p := s.placed)
      (g := fun i => { i with properties := { i.properties with beatSnap := on } }) hc
      (fun _ => rfl) fun _ => rfl
    obtain ⟨t, ht, hr⟩ := hupdate s hs.rigged
    exact ⟨t, ht, hr.safe⟩
  | request r =>
    obtain ⟨t, ht, hsafe⟩ := exists_handle hs hc.1 hc.2
    exact ⟨t, (final?_bind_pure _ _ _).trans ht, hsafe⟩

/-- A careful event is defined in a safe state, and leads to one. -/
theorem Event.defined_run {s : EngineState} (hs : s.Safe) {h : Host} (e : Event)
    (he : e.Careful h s) : ∃ t, (e.run h s).final? = some t ∧ t.Safe := by
  have hplain : ∀ {x : Prog Unit}, (∀ k p, DefinedOn k p x) →
      ∃ t, (x s).final? = some t ∧ t.Safe := fun hx => DefinedOn.safe hx s hs
  cases e with
  | command c => exact c.defined_run hs he
  | gotoNextScene => exact Set.defined_gotoNextScene h s hs
  | gotoPreviousScene => exact Set.defined_gotoPreviousScene h s hs
  | addVisualVideoToListFromFile filePath =>
    exact Set.defined_addVisualVideoToListFromFile h filePath s hs
  | addVisualCameraToList listDevices id rate w height =>
    exact Set.defined_addVisualCameraToList he rate w height s hs
  | addVisualSyphonToList serverName appName =>
    exact Set.defined_addVisualSyphonToList serverName appName s hs
  | addVisualToSceneListInCurrentLayer visual layer column =>
    exact Engine.exists_addVisualToSceneListInCurrentLayer hs h fun l => he.cell l
  | setActiveVisualInstance layerN column =>
    exact hplain fun _ _ =>
      .bind (Engine.defined_setActiveVisualInstance h layerN column) fun _ => .pure _
  | setActiveVisualIntances columnN =>
    exact hplain fun _ _ => Engine.defined_setActiveVisualIntances h columnN
  | playFirstVisualInstanceOnActiveLayer =>
    exact hplain fun _ _ => Engine.defined_setActiveVisualIntanceOnActiveLayer h 0
  | playLastVisualInstanceOnActiveLayer => exact hplain fun _ _ => Engine.defined_playLast h
  | playPreviousVisualInstanceOnActiveLayer =>
    exact hplain fun _ _ => Engine.defined_playPrevious h
  | playNextVisualInstanceOnActiveLayer => exact hplain fun _ _ => Engine.defined_playNext h
  | addLayer => exact (Layers.defined_add h).bind (fun _ => .pure _) s hs
  | removeLayer layerN =>
    obtain ⟨t, ht, hsafe, -⟩ := Layers.final?_remove hs h he
    exact ⟨t, ht, hsafe⟩
  | setLayerCount val => exact Layers.defined_setCount hs h he
  | activateLayer activeLayer => exact Layers.defined_setActive h activeLayer s hs
  | activateNextLayer =>
    exact (Layers.defined_getCurrentId h).bind (fun _ => Layers.defined_setActive h _) s hs
  | activatePreviousLayer =>
    exact (Layers.defined_getCurrentId h).bind (fun _ => Layers.defined_setActive h _) s hs
  | activateLastLayer => exact Defined.bind (.gets _) (fun _ => Layers.defined_setActive h _) s hs
  | setMixerResolution width height => exact Engine.defined_setMixerResolution h width height s hs
  | handleAction parameter data =>
    exact hplain fun _ _ => Engine.defined_handleAction h parameter data
  | keyPressed key =>
    exact ControllerGroup.defined_handleKeyboardControllers h true key (fun _ _ => .pure _)
      ControllerGroup.complete_initDefaultControllers s hs
  | beat => exact ⟨_, rfl, hs.of_outline rfl⟩
  | render => exact hplain fun _ _ => Engine.defined_render h
  | cleanup => exact hplain fun _ _ => Engine.defined_cleanup h

/-- A session of careful events meets safe states only, and can go on with any careful event. -/
theorem EngineState.Safe.of_reaches {s₀ s : EngineState} (h₀ : s₀.Safe)
    (h : Reaches Happening.run (fun e s => e.2.Careful e.1 s) s₀ s) :
    s.Safe ∧ ∀ e : Happening, e.2.Careful e.1 s → ∃ t, (e.run s).final? = some t := by
  refine Reaches.defined (I := EngineState.Safe) (fun e t he ht => ?_) h₀ h
  exact e.2.defined_run ht he

/-- The first set that is created. -/
theorem Engine.exists_newSet_init {h : Host} {n : UInt32} (hn : n.toNat < 2 ^ 31)
    (hadd : h.shaderError = none ∨ n = 0) (width height : UInt32) :
    ∃ s, Engine.newSet h width height n .init = .ok true s ∧ s.Safe :=
  Engine.exists_createSet_safe EngineState.wellFormed_init (.of_isEmpty ⟨rfl, rfl, rfl⟩) rfl
    ⟨hn, hadd.imp_right .inl⟩ hadd width height

/-- A safe state found by computing a session. -/
theorem exists_safe (n : UInt32) (cs : List Happening) {P : EngineState → Prop} [DecidablePred P]
    (hn : n.toNat < 2 ^ 31)
    (h : (Engine.newSet .plain 640 480 n .init).final?.any (fun s => (runAll Happening.run
      (fun e s => e.2.Careful e.1 s) cs s).any fun t => decide (P t)) = true) :
    ∃ s : EngineState, s.InSession ∧ s.Safe ∧ P s := by
  obtain ⟨s₀, hs₀, hsafe⟩ := Engine.exists_newSet_init (h := .plain) hn (.inl rfl) 640 480
  rw [hs₀, Outcome.final?_ok, Option.any_some] at h
  obtain ⟨s, hs, hP⟩ := exists_reaches cs h
  refine ⟨s, ?_, (hsafe.of_reaches hs).1, hP⟩
  refine Reaches.trans (t := s₀) ?_ (hs.mono fun _ _ _ => trivial)
  refine .step (.plain, .command (.newSet 640 480 n)) .refl trivial ?_
  exact (final?_bind_pure _ _ _).trans (congrArg Outcome.final? hs₀)

end ArbutusEngine
