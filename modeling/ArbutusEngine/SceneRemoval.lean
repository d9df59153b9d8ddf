import ArbutusEngine.Cursor

/-!
# Removing the current scene

`Set::removeCurrentScene` takes the scene out of the list that `Scenes::getList` returns, which is a
copy, so the scene stays in the list of scenes. Its instances are deleted all the same, and
`VisualInstances::empty` leaves the pointers to them: the scene can still be reached by
`Set::gotoNextScene` and has instances that no longer exist. The current scene becomes the one
before, or stays the first one.

## Main definitions

* `Set.RemovesCurrentScene`: the contract of `Set::removeCurrentScene`.

## Main results

* `Set.fixes_scenesList_removeCurrentScene`: the list of scenes stays what it is.
* `Set.removeCurrentScene_post_deleted`: the instances of the scene do not.
* `current_scene_never_removed`.
-/

open Exec

namespace ArbutusEngine

namespace Set

/-! ### What happens to the list of scenes -/

theorem fixes_scenesList_setCurrentScene (h : Host) (n : UInt32) :
    Fixes EngineState.scenesList (setCurrentScene h n) :=
  (keepsGraph_setCurrentScene h n).of_eq fun _ _ hgraph => congrArg Graph.scenesList hgraph

/-- The scene is removed from a copy. -/
theorem fixes_scenesList_removeCurrentScene (h : Host) :
    Fixes EngineState.scenesList (removeCurrentScene h) := by
  refine .bind (.gets _) fun _ => .bind (.gets _) fun currentScene => ?_
  refine .bind (.deref _ fun _ => currentScene) fun _ => .bind (.deref _ _) fun scene => ?_
  refine .bind (VisualInstances.fixes_empty (fun _ _ => rfl) _) fun _ => ?_
  exact fixes_scenesList_setCurrentScene h _

/-- The instances of the current scene are deleted, and moving to another scene makes no new ones at
their addresses. -/
theorem removeCurrentScene_post_deleted {s : EngineState} (hs : s.WellFormed) {scene : Scene}
    (hscene : scene ∈ s.scenesList) (hcurrent : s.currentScene = some scene.addr) (h : Host) :
    (removeCurrentScene h s).Post
      (fun _ t => scene ∈ t.scenesList ∧ ∀ a ∈ scene.visualInstances, t.instances.get? a = none)
      fun _ t => scene ∈ t.scenesList ∧ ∀ a ∈ scene.visualInstances, t.instances.get? a = none := by
  have hinstances := VisualInstances.empty_eq (hs.instances_live scene hscene)
    (hs.instances_nodup scene hscene)
  rw [removeCurrentScene, bind_run, gets_run, Outcome.bind_ok, bind_run, gets_run, Outcome.bind_ok,
    hcurrent, ofOption_some, pure_bind, bind_run, Scene.read, hs.find?_scene hscene, ofOption_some,
    pure_run, Outcome.bind_ok, bind_run, hinstances, Outcome.bind_ok]
  have hkeeps := keepsGraph_setCurrentScene h (if s.currentSceneNumber > 0 then
    s.currentSceneNumber - 1 else s.currentSceneNumber) _
      { s with instances := s.instances.freeAll scene.visualInstances } rfl
  have hgone : ∀ t : EngineState, t.graph = ({ s with
      instances := s.instances.freeAll scene.visualInstances } : EngineState).graph →
      scene ∈ t.scenesList ∧ ∀ a ∈ scene.visualInstances, t.instances.get? a = none := by
    intro t ht
    refine ⟨?_, fun a ha => ?_⟩
    · have hlist : t.scenesList = s.scenesList := congrArg Graph.scenesList ht
      rwa [hlist]
    · have hat := congrFun (congrArg Graph.instanceAt ht) a
      change (t.instances.get? a).map _ = ((s.instances.freeAll scene.visualInstances).get? a).map _
        at hat
      rw [Heap.get?_freeAll, if_pos ha, Option.map_none, Option.map_eq_none_iff] at hat
      exact hat
  exact hkeeps.mono (fun _ => hgone) fun _ => hgone

/-! ### The contract -/

/-- The contract of `Set::removeCurrentScene`: the current scene leaves the list, the instances of
the other scenes are still there, and the current scene is the one at the current position. -/
def RemovesCurrentScene (h : Host) (s : EngineState) : Prop :=
  ∃ t, removeCurrentScene h s = .ok () t ∧
    t.scenesList = s.scenesList.eraseIdx s.currentSceneNumber.toNat ∧
    (∀ scene ∈ t.scenesList, t.instances.Live scene.visualInstances) ∧
    t.Cursor ∧ t.currentScene ≠ none

/-- A list of scenes that stays what it is has not lost a scene. -/
theorem not_removesCurrentScene {s : EngineState}
    (hk : s.currentSceneNumber.toNat < s.scenesList.length) (h : Host) :
    ¬RemovesCurrentScene h s := by
  rintro ⟨t, hrun, hlist, -⟩
  have hfixes := fixes_scenesList_removeCurrentScene h _ s rfl
  rw [hrun, Outcome.post_ok] at hfixes
  have hlength := congrArg List.length (hfixes.symm.trans hlist)
  rw [List.length_eraseIdx_of_lt hk] at hlength
  omega

end Set

/-- With a valid current scene, `Set::removeCurrentScene` never meets its contract. -/
theorem current_scene_never_removed {s : EngineState} (hs : s.Cursor)
    (hsome : s.currentScene ≠ none) (h : Host) : ¬Set.RemovesCurrentScene h s := by
  obtain ⟨a, ha⟩ := Option.ne_none_iff_exists'.mp hsome
  obtain ⟨scene, hscene, -⟩ := hs a ha
  exact Set.not_removesCurrentScene (List.getElem?_eq_some_iff.mp hscene).1 h

/-- The number of the current scene is the position that the pointer points to. -/
theorem EngineState.cursor_of_getElem? {s : EngineState}
    (hs : s.scenesList[s.currentSceneNumber.toNat]?.map Scene.addr = s.currentScene) :
    s.Cursor := by
  intro a ha
  rw [ha, Option.map_eq_some_iff] at hs
  exact hs

/-- A set with two scenes, the second of which is the current one. -/
theorem second_scene_never_removed : ∃ s : EngineState,
    Reaches ScenesCall.run (fun _ _ => True) EngineState.init s ∧ s.scenesList.length = 2 ∧
      s.currentSceneNumber = 1 ∧ ¬Set.RemovesCurrentScene .plain s := by
  obtain ⟨s, hs, hlength, hnumber, hat, hsome⟩ : ∃ s : EngineState,
      Reaches ScenesCall.run (fun _ _ => True) EngineState.init s ∧ s.scenesList.length = 2 ∧
        s.currentSceneNumber = 1 ∧
        s.scenesList[s.currentSceneNumber.toNat]?.map Scene.addr = s.currentScene ∧
        s.currentScene ≠ none :=
    exists_reaches [(Host.plain, .newSet 640 480 2), (Host.plain, .addScene "Second Scene"),
      (Host.plain, .gotoNextScene)] (by decide +kernel)
  exact ⟨s, hs, hlength, hnumber,
    current_scene_never_removed (EngineState.cursor_of_getElem? hat) hsome .plain⟩

/-- A set with two scenes, the first of which is the current one: after it has been removed, there
are two scenes, and the current one is still the first. -/
theorem first_scene_stays : ∃ s t : EngineState,
    Reaches ScenesCall.run (fun _ _ => True) EngineState.init s ∧ s.scenesList.length = 2 ∧
      s.Cursor ∧ s.currentScene ≠ none ∧ Set.removeCurrentScene .plain s = .ok () t ∧
      t.scenesList = s.scenesList ∧ t.currentScene = s.currentScene ∧
      ¬Set.RemovesCurrentScene .plain s := by
  obtain ⟨s, hs, hlength, hat, hsome, hrun⟩ : ∃ s : EngineState,
      Reaches ScenesCall.run (fun _ _ => True) EngineState.init s ∧ s.scenesList.length = 2 ∧
        s.scenesList[s.currentSceneNumber.toNat]?.map Scene.addr = s.currentScene ∧
        s.currentScene ≠ none ∧
        (Set.removeCurrentScene .plain s).returns (fun _ t => t.scenesList = s.scenesList ∧
          t.currentScene = s.currentScene) = true :=
    exists_reaches [(Host.plain, .newSet 640 480 2), (Host.plain, .addScene "Second Scene")]
      (by decide +kernel)
  obtain ⟨⟨⟩, t, ht, hkept⟩ := Outcome.exists_of_returns hrun
  obtain ⟨hlist, hcurrent⟩ := of_decide_eq_true hkept
  have hcursor := EngineState.cursor_of_getElem? hat
  obtain ⟨a, ha⟩ := Option.ne_none_iff_exists'.mp hsome
  obtain ⟨scene, hscene, -⟩ := hcursor a ha
  exact ⟨s, t, hs, hlength, hcursor, hsome, ht, hlist, hcurrent,
    Set.not_removesCurrentScene (List.getElem?_eq_some_iff.mp hscene).1 .plain⟩

end ArbutusEngine
