import ArbutusEngine.Opening
import ArbutusEngine.Writes

/-!
# The current scene

`Set` keeps the current scene as a pointer and as a number, while the scenes are owned by `Scenes`.
Every function that replaces or deletes the list of scenes leaves both as they were, so that the
pointer dangles. `Engine::newSet` is the only one that makes the new scene the current one, unless
adding a layer throws before it gets there.

`Set::setCurrentScene` compares the number with the number of scenes minus one, which is unsigned,
and dereferences the end of the list when there are no scenes.

## Main definitions

* `ScenesCall`, `ScenesCall.run`: the calls that change the list of scenes or the current scene.
* `ScenesCall.KeepsScenes`: the call does not delete the current scene.
* `EngineState.Cursor`: the invariant.

## Main results

* `ScenesCall.run_post_cursor`: one call.
* `cursor_valid`: every run.
-/

open Exec

namespace ArbutusEngine

/-- The calls that change the list of scenes or the current scene. -/
inductive ScenesCall where
  | newSet (width height layers : UInt32)
  | closeSet
  | openSet (path : String)
  | setState (state : Json)
  | addScene (sceneName : String)
  | setCurrentScene (sceneNumber : UInt32)
  | gotoNextScene
  | gotoPreviousScene
  | removeCurrentScene

/-- The program of a call. -/
def ScenesCall.run (c : Host × ScenesCall) : Prog Unit :=
  match c with
  | (h, .newSet width height layers) => do let _ ← Engine.newSet h width height layers
  | (h, .closeSet) => Engine.closeSet h
  | (h, .openSet path) => do let _ ← Engine.openSet h path
  | (h, .setState state) => Engine.setState h state
  | (_, .addScene sceneName) => do let _ ← Set.addScene sceneName
  | (h, .setCurrentScene sceneNumber) => Set.setCurrentScene h sceneNumber
  | (h, .gotoNextScene) => Set.gotoNextScene h
  | (h, .gotoPreviousScene) => Set.gotoPreviousScene h
  | (h, .removeCurrentScene) => Set.removeCurrentScene h

/-! ### The invariant -/

namespace EngineState

/-- There is no current scene, or its number is the position of the scene that the pointer points
to. -/
def Cursor (s : EngineState) : Prop :=
  ∀ a, s.currentScene = some a →
    ∃ scene, s.scenesList[s.currentSceneNumber.toNat]? = some scene ∧ scene.addr = a

/-- What the invariant depends on. -/
def cursor (s : EngineState) : List Addr × UInt32 × Option Addr :=
  (s.scenesList.map Scene.addr, s.currentSceneNumber, s.currentScene)

theorem cursor_iff {s : EngineState} : s.Cursor ↔ ∀ a, s.cursor.2.2 = some a →
    s.cursor.1[s.cursor.2.1.toNat]? = some a := by
  refine forall₂_congr fun a _ => ?_
  change _ ↔ (s.scenesList.map Scene.addr)[s.currentSceneNumber.toNat]? = some a
  rw [List.getElem?_map, Option.map_eq_some_iff]

theorem Cursor.of_cursor {s t : EngineState} (h : s.cursor = t.cursor) (hs : s.Cursor) :
    t.Cursor := by
  rw [cursor_iff] at hs ⊢
  rwa [← h]

theorem Cursor.of_eq_none {s : EngineState} (h : s.currentScene = none) : s.Cursor :=
  fun a ha => absurd (h.symm.trans ha) (Option.some_ne_none a).symm

end EngineState

/-- The program leaves the current scene and the addresses of the scenes alone. -/
abbrev KeepsCursor {α : Type} (x : Prog α) : Prop := Fixes EngineState.cursor x

theorem KeepsCursor.valid {α : Type} {x : Prog α} (hx : KeepsCursor x) :
    Keeps EngineState.Cursor x :=
  hx.keeps fun _ _ => EngineState.Cursor.of_cursor

/-! ### Moving to a scene -/

namespace Set

/-- Moving past the last scene changes nothing, unless there are no scenes. -/
theorem setCurrentScene_of_le (h : Host) {n : UInt32} {s : EngineState}
    (hn : s.scenesList.length ≤ n.toNat) :
    setCurrentScene h n s = .ok () s ↔ s.scenesList ≠ [] := by
  rw [setCurrentScene, bind_run, gets_run, Outcome.bind_ok]
  have hnone : s.scenesList[n.toNat]? = none := List.getElem?_eq_none hn
  match hscenes : s.scenesList with
  | [] => exact ⟨fun hok => (by cases hok), fun hne => absurd rfl hne⟩
  | scene :: rest =>
    rw [hscenes] at hnone
    rw [hnone]
    exact ⟨fun _ => List.cons_ne_nil _ _, fun _ => rfl⟩

/-- Moving to a scene makes the scene at that position the current one. -/
theorem setCurrentScene_post_cursor (h : Host) {n : UInt32} {s : EngineState}
    (hs : s.scenesList.length ≤ n.toNat → s.Cursor) :
    (setCurrentScene h n s).Post (fun _ => EngineState.Cursor) fun _ => EngineState.Cursor := by
  rw [setCurrentScene, bind_run, gets_run, Outcome.bind_ok]
  match hscenes : s.scenesList, hscene : s.scenesList[n.toNat]? with
  | [], _ => trivial
  | _ :: _, none => exact hs (List.getElem?_eq_none_iff.mp hscene)
  | _ :: _, some scene =>
    refine (KeepsCursor.valid (VisualInstances.fixes_loadAll (fun _ _ => rfl) h _)) _ ?_
    exact fun a ha => ⟨scene, hscene, Option.some.inj ha⟩

theorem keeps_cursor_setCurrentScene (h : Host) (n : UInt32) :
    Keeps EngineState.Cursor (setCurrentScene h n) :=
  fun _ hs => setCurrentScene_post_cursor h fun _ => hs

theorem keeps_cursor_gotoPreviousScene (h : Host) :
    Keeps EngineState.Cursor (gotoPreviousScene h) :=
  .bind (.gets _) fun _ => .ite (keeps_cursor_setCurrentScene h _) (.pure _)

theorem keeps_cursor_gotoNextScene (h : Host) : Keeps EngineState.Cursor (gotoNextScene h) :=
  .bind (.gets _) fun _ => .bind (.gets _) fun _ =>
    .ite (keeps_cursor_setCurrentScene h _) (.pure _)

/-- The scene is removed from a copy of the list, so the position stays what it was. -/
theorem keeps_cursor_removeCurrentScene (h : Host) :
    Keeps EngineState.Cursor (removeCurrentScene h) := by
  refine .bind (.gets _) fun _ => .bind (.gets _) fun _ => .bind (.ofOption _ _) fun _ => ?_
  refine .bind (KeepsCursor.valid (.deref _ _)) fun scene => ?_
  refine .bind (KeepsCursor.valid (VisualInstances.fixes_empty (fun _ _ => rfl) _)) fun _ => ?_
  exact keeps_cursor_setCurrentScene h _

theorem keeps_cursor_newScene (name : String) :
    Keeps EngineState.Cursor (Scenes.newScene name) := by
  intro s hs a ha
  obtain ⟨scene, hscene, rfl⟩ := hs a ha
  refine ⟨scene, ?_, rfl⟩
  change (s.scenesList ++ _)[s.currentSceneNumber.toNat]? = some scene
  rw [List.getElem?_append_left (List.getElem?_eq_some_iff.mp hscene).1, hscene]

end Set

/-! ### Sets and documents -/

theorem Layers.keepsCursor_add (h : Host) : KeepsCursor (Layers.add h true) :=
  Layers.fixes_add (fun _ _ _ => rfl) (fun _ _ => rfl) h

/-- Adding layers does not throw when the shaders are there. -/
theorem Layers.noThrow_intLoop {h : Host} {n : UInt32} (hn : h.shaderError = none ∨ n = 0) :
    NoThrow (intLoop 0 n.toNat (do let _ ← Layers.add h true)) := by
  rcases hn with hsh | rfl
  · have hadd : NoThrow (do let _ ← Layers.add h true : Prog Unit) := by
      intro s
      rw [bind_run, Layers.add_eq, hsh]
      split_ifs <;> trivial
    exact .ite (.iterate hadd) (.bind (.iterate hadd) fun _ => .undefined _)
  · exact .pure _

/-- Creating a set ends with a move to the first scene, once the layers have been added. -/
theorem Set.newSet_post_cursor (h : Host) (width height : UInt32) {n : UInt32} {s : EngineState}
    (hs : s.Cursor ∨ h.shaderError = none ∨ n = 0) :
    (Set.newSet h width height n s).Post (fun _ => EngineState.Cursor)
      fun _ => EngineState.Cursor := by
  rw [Set.newSet_eq]
  have hlayers : (intLoop 0 n.toNat (do let _ ← Layers.add h true)
      (s.sized h width height n)).Post (fun _ _ => True) fun _ => EngineState.Cursor := by
    rcases hs with hs | hn
    · have hadd : Keeps EngineState.Cursor (do let _ ← Layers.add h true : Prog Unit) :=
        .bind (Layers.keepsCursor_add h).valid fun _ => .pure _
      exact (keeps_intLoop hadd 0 n.toNat (s.sized h width height n) hs).mono
        (fun _ _ _ => trivial) fun _ _ ht => ht
    · exact (Layers.noThrow_intLoop hn _).mono (fun _ _ ht => ht) fun _ _ ht => ht.elim
  refine hlayers.bind fun _ t _ => ?_
  change ((Set.setCurrentScene h 0 { t with
    scenesList := t.scenesList ++ [⟨t.nextAddr, "First Scene", []⟩]
    nextAddr := t.nextAddr + 1
    currentSceneNumber := 1 }).bind _).Post _ _
  refine (Set.setCurrentScene_post_cursor h fun hle => ?_).bind fun _ _ ht => ht
  have hnil := List.length_eq_zero_iff.mp (Nat.le_zero.mp hle)
  exact absurd (List.append_eq_nil_iff.mp hnil).2 (List.cons_ne_nil _ _)

namespace Engine

theorem keepsCursor_finishSet (h : Host) (path : String) : KeepsCursor (finishSet h path) := by
  intro o s hs
  obtain ⟨b, p, -, hrun⟩ := exists_finishSet h path s
  rw [hrun]
  exact hs

theorem createSet_post_cursor (h : Host) (width height : UInt32) {n : UInt32} {s : EngineState}
    (hs : s.Cursor ∨ h.shaderError = none ∨ n = 0) :
    (createSet h width height n s).Post (fun _ => EngineState.Cursor)
      fun _ => EngineState.Cursor := by
  obtain ⟨p, -, hrun⟩ := exists_createSet_eq h width height n s
  rw [hrun]
  exact (Set.newSet_post_cursor (s := { s with properties := p }) h width height hs).bind
    fun _ t ht => (keepsCursor_finishSet h "").valid t ht

/-- Closing a set that is not loaded does nothing. -/
theorem closeSet_of_not_loaded (h : Host) {s : EngineState} (hl : s.loaded = false) :
    closeSet h s = .ok () s := by
  rw [closeSet, bind_run, gets_run, Outcome.bind_ok, hl]
  rfl

theorem noThrow_closeSet (h : Host) : NoThrow (closeSet h) := by
  have hvisuals : NoThrow (Visuals.empty h) := by
    refine .bind (.gets _) fun visuals => ?_
    induction visuals with
    | nil => exact .pure _
    | cons v rest ih =>
      exact .bind (.modify _) fun _ => .bind (.ite (.pure _) (.undefined _)) fun _ => ih
  have hscenes : NoThrow Scenes.empty :=
    .bind (.gets _) fun _ => .bind (.forEach fun _ _ => .forEach fun _ _ =>
      .bind (.deref _ _) fun _ => .modify _) fun _ => .modify _
  refine .bind (.gets _) fun _ => .ite (.bind (.bind (.modify _) fun _ => .modify _) fun _ => ?_)
    (.pure _)
  refine .bind (.bind hvisuals fun _ => .bind hscenes fun _ => .modify _) fun _ => ?_
  exact .bind (.modify _) fun _ => .modify _

theorem newSet_post_cursor (h : Host) (width height : UInt32) {n : UInt32} {s : EngineState}
    (hs : s.Cursor) (hc : s.loaded = false ∨ h.shaderError = none ∨ n = 0) :
    (newSet h width height n s).Post (fun _ => EngineState.Cursor) fun _ => EngineState.Cursor := by
  rw [newSet_eq, bind_run]
  rcases hc with hl | hn
  · rw [closeSet_of_not_loaded h hl]
    exact createSet_post_cursor h width height (.inl hs)
  · refine ((noThrow_closeSet h s).mono (fun _ _ ht => ht) fun _ _ ht => ht.elim).bind
      fun _ t _ => ?_
    exact createSet_post_cursor h width height (.inr hn)

end Engine

/-- The visuals are read first; if this returns, there was no error in them. -/
theorem Visuals.setState_post_cursor (h : Host) (visuals : Json) (s : EngineState) :
    (Visuals.setState h visuals s).Post
      (fun _ t => visualsError h s.filePath visuals = none ∧ t.cursor = s.cursor)
      fun _ t => t.cursor = s.cursor := by
  obtain ⟨v, n, p, hafter⟩ := s.exists_afterVisuals h visuals
  rw [Visuals.setState_eq, hafter]
  split_ifs
  · trivial
  · cases visualsError h s.filePath visuals with
    | some e => exact rfl
    | none => exact ⟨rfl, rfl⟩

/-- The layers are read next. -/
theorem Layers.setStage_post_cursor (h : Host) (layers : Json) (s : EngineState) :
    ((if layers.isArray then Layers.setState h layers else pure ()) s).Post
      (fun _ t => layersError h layers = none ∧ t.cursor = s.cursor)
      fun _ t => t.cursor = s.cursor := by
  obtain ⟨l, n, p, hafter⟩ := s.exists_afterLayers h layers
  rw [Layers.setStage_eq, hafter]
  by_cases ht : TooManyLayers h layers
  · rw [if_pos ht]
    trivial
  · rw [if_neg ht]
    cases layersError h layers with
    | some e => exact rfl
    | none => exact ⟨rfl, rfl⟩

namespace Engine

/-- A document that is not read to its scenes leaves them alone. -/
theorem setState_post_of_not_reachesScenes (h : Host) {document : Json} {s : EngineState}
    (hr : ¬ ReachesScenes h s document) :
    (setState h document s).Post (fun _ t => t.cursor = s.cursor)
      fun _ t => t.cursor = s.cursor := by
  by_cases hi : document.isIndexable = true
  swap
  · rw [setState_of_not_isIndexable (Bool.eq_false_iff.mpr hi)]
    exact rfl
  rw [setState_eq_bind hi]
  refine (Visuals.setState_post_cursor h (document.field "visuals") s).bind fun _ t ⟨hve, ht⟩ => ?_
  rw [← ht]
  refine (Layers.setStage_post_cursor h (document.field "layers") t).bind fun _ u ⟨hle, hu⟩ => ?_
  rw [← hu, if_neg fun hsc => hr ⟨hsc, hve, hle⟩]
  exact rfl

theorem setState_post_cursor (h : Host) {document : Json} {s : EngineState} (hs : s.Cursor)
    (hr : s.currentScene = none ∨ ¬ ReachesScenes h s document) :
    (setState h document s).Post (fun _ => EngineState.Cursor) fun _ => EngineState.Cursor := by
  rcases hr with hnone | hr
  · have hfixes : Fixes EngineState.currentScene (setState h document) :=
      fixes_setState (fun _ _ _ => rfl) (fun _ _ _ => rfl) (fun _ _ _ _ => rfl) (fun _ _ _ => rfl) h
        document
    exact (hfixes none s hnone).mono (fun _ _ => .of_eq_none) fun _ _ => .of_eq_none
  · exact (setState_post_of_not_reachesScenes h hr).mono (fun _ _ ht => hs.of_cursor ht.symm)
      fun _ _ ht => hs.of_cursor ht.symm

/-- Opening a file while no set is loaded leaves the scenes alone until they are read. -/
theorem openSet_post_cursor (h : Host) {path : String} {s : EngineState} (hs : s.Cursor)
    (hl : s.loaded = false)
    (hr : s.currentScene = none ∨ ¬ ReachesScenes h s (JsonLoad.document h path)) :
    (openSet h path s).Post (fun _ => EngineState.Cursor) fun _ => EngineState.Cursor := by
  rw [openSet_eq, bind_run, destroyBuffer, modify_run, Outcome.bind_ok, bind_run,
    closeSet_of_not_loaded h (s := { s with buffer := none }) hl, Outcome.bind_ok, bind_run]
  let t : EngineState := ({ s with buffer := none } : EngineState).clearLayers h
  change ((do
    let state ← JsonLoad.load h path
    setState h state
    finishSet h path : Prog Bool) t).Post _ _
  have ht : t.Cursor := hs
  rw [bind_run]
  rcases JsonLoad.load_cases h path t with hload | ⟨-, e, hload⟩
  · rw [hload, Outcome.bind_ok]
    exact (setState_post_cursor h ht hr).bind fun _ u hu =>
      (keepsCursor_finishSet h path).valid u hu
  · rw [hload]
    exact ht

end Engine

/-! ### Runs -/

namespace ScenesCall

/-- The call does not delete the scene that the current scene points to. The scenes are deleted when
a set is closed that is loaded, and when a document is read up to its scenes. -/
def KeepsScenes (c : Host × ScenesCall) (s : EngineState) : Prop :=
  match c with
  | (h, newSet _ _ layers) => s.loaded = false ∨ h.shaderError = none ∨ layers = 0
  | (_, closeSet) => s.loaded = false
  | (h, openSet path) => s.loaded = false ∧
      (s.currentScene = none ∨ ¬ ReachesScenes h s (JsonLoad.document h path))
  | (h, setState state) => s.currentScene = none ∨ ¬ ReachesScenes h s state
  | _ => True

/-- What a call that does not delete the current scene leaves. -/
theorem run_post_cursor (c : Host × ScenesCall) {s : EngineState} (hs : s.Cursor)
    (hc : KeepsScenes c s) :
    (run c s).Post (fun _ => EngineState.Cursor) fun _ => EngineState.Cursor := by
  match c, hc with
  | (h, newSet width height layers), hc =>
    exact (Engine.newSet_post_cursor h width height hs hc).bind fun _ _ ht => ht
  | (h, closeSet), hc =>
    change (Engine.closeSet h s).Post _ _
    rw [Engine.closeSet_of_not_loaded h hc]
    exact hs
  | (h, openSet path), hc =>
    exact (Engine.openSet_post_cursor h hs hc.1 hc.2).bind fun _ _ ht => ht
  | (h, setState state), hc => exact Engine.setState_post_cursor h hs hc
  | (_, addScene sceneName), _ =>
    exact Keeps.bind (Set.keeps_cursor_newScene sceneName) (fun _ => .pure _) s hs
  | (h, setCurrentScene sceneNumber), _ => exact Set.keeps_cursor_setCurrentScene h sceneNumber s hs
  | (h, gotoNextScene), _ => exact Set.keeps_cursor_gotoNextScene h s hs
  | (h, gotoPreviousScene), _ => exact Set.keeps_cursor_gotoPreviousScene h s hs
  | (h, removeCurrentScene), _ => exact Set.keeps_cursor_removeCurrentScene h s hs

instance : ∀ (c : Host × ScenesCall) (s : EngineState), Decidable (KeepsScenes c s)
  | (_, newSet _ _ _), _ => inferInstanceAs (Decidable (_ ∨ _ ∨ _))
  | (_, closeSet), _ => inferInstanceAs (Decidable (_ = _))
  | (_, openSet _), _ => inferInstanceAs (Decidable (_ ∧ (_ ∨ ¬ _)))
  | (_, setState _), _ => inferInstanceAs (Decidable (_ ∨ ¬ _))
  | (_, addScene _), _ => .isTrue trivial
  | (_, setCurrentScene _), _ => .isTrue trivial
  | (_, gotoNextScene), _ => .isTrue trivial
  | (_, gotoPreviousScene), _ => .isTrue trivial
  | (_, removeCurrentScene), _ => .isTrue trivial

end ScenesCall

/-- In every run in which no call deletes the current scene, it is the scene at the current
position, and moving past the last scene changes nothing exactly when there are scenes. -/
theorem cursor_valid {s : EngineState}
    (hs : Reaches ScenesCall.run ScenesCall.KeepsScenes EngineState.init s) :
    s.Cursor ∧ ∀ h n, s.scenesList.length ≤ n.toNat →
      (Set.setCurrentScene h n s = .ok () s ↔ s.scenesList ≠ []) := by
  refine ⟨?_, fun h n hn => Set.setCurrentScene_of_le h hn⟩
  exact hs.invariant (fun c t hc ht => ScenesCall.run_post_cursor c ht hc) (.of_eq_none rfl)

/-- A set with two scenes, the second of which is the current one. -/
theorem cursor_valid_second : ∃ s : EngineState,
    Reaches ScenesCall.run ScenesCall.KeepsScenes EngineState.init s ∧ s.currentSceneNumber = 1 ∧
      s.Cursor ∧ Set.setCurrentScene Host.plain 2 s = .ok () s := by
  have hrun : ∃ s, Reaches ScenesCall.run ScenesCall.KeepsScenes EngineState.init s ∧
      s.currentSceneNumber = 1 ∧ s.scenesList.length = 2 :=
    exists_reaches [(Host.plain, .newSet 640 480 2), (Host.plain, .addScene "Second Scene"),
      (Host.plain, .gotoNextScene)] (by decide +kernel)
  obtain ⟨s, hs, hnumber, hlength⟩ := hrun
  obtain ⟨hcursor, hpast⟩ := cursor_valid hs
  refine ⟨s, hs, hnumber, hcursor, (hpast Host.plain 2 hlength.le).mpr fun hnil => ?_⟩
  rw [hnil] at hlength
  cases hlength

/-- Once a set has been closed, the current scene is one that has been deleted; and without scenes,
moving to any scene is undefined. -/
theorem cursor_dangles : ∃ s : EngineState,
    Reaches ScenesCall.run (fun _ _ => True) EngineState.init s ∧ s.scenesList = [] ∧
      ¬ s.Cursor ∧ ∀ n, Set.setCurrentScene Host.plain n s = .undefined .pastTheEnd := by
  have hrun : ∃ s, Reaches ScenesCall.run (fun _ _ => True) EngineState.init s ∧
      s.currentScene.isSome = true ∧ s.scenesList = [] :=
    exists_reaches [(Host.plain, .newSet 640 480 2), (Host.plain, .closeSet)] (by decide +kernel)
  obtain ⟨s, hs, hsome, hnil⟩ := hrun
  refine ⟨s, hs, hnil, fun hcursor => ?_, fun n => ?_⟩
  · obtain ⟨a, ha⟩ := Option.isSome_iff_exists.mp hsome
    obtain ⟨scene, hscene, -⟩ := hcursor a ha
    rw [hnil] at hscene
    cases hscene
  · rw [Set.setCurrentScene, bind_run, gets_run, hnil]
    rfl

end ArbutusEngine
