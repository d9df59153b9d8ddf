import ArbutusEngine.Opening
import ArbutusEngine.Requests

/-!
# The visuals of instances

The pointer that an instance has to its visual was handed out before: it is a visual of the list, or
it was one when the instance was made. A visual that is created later is therefore never the visual
of an instance that is there already, however long the pointer has been dangling.

## Main definitions

* `EngineState.Bounded`: the visuals of all instances have addresses that have been handed out.

## Main results

* `EngineState.Reachable.bounded`: this holds of every reachable state.
-/

open Exec

namespace ArbutusEngine

/-- The visual of every allocated instance has an address that has been handed out. -/
def EngineState.Bounded (s : EngineState) : Prop :=
  ∀ a i, s.instances.get? a = some i → i.visual < s.nextAddr

namespace EngineState.Bounded

variable {s t : EngineState}

/-- Allocating other objects and freeing instances keeps the bound. -/
theorem mono (hs : s.Bounded)
    (hinst : ∀ a i, t.instances.get? a = some i → s.instances.get? a = some i)
    (hnext : s.nextAddr ≤ t.nextAddr) : t.Bounded :=
  fun a i hi => lt_of_lt_of_le (hs a i (hinst a i hi)) hnext

/-- The bound depends on the visuals of the instances and the next address. -/
theorem of_instanceAt (hinst : s.graph.instanceAt = t.graph.instanceAt)
    (hnext : s.nextAddr = t.nextAddr) (hs : s.Bounded) : t.Bounded := by
  intro a i hi
  have ha : (s.instances.get? a).map (fun i => (i.visual, i.cell)) =
      (t.instances.get? a).map fun i => (i.visual, i.cell) := congrFun hinst a
  rw [hi, Option.map_some, Option.map_eq_some_iff] at ha
  obtain ⟨j, hj, hji⟩ := ha
  rw [← hnext, ← (Prod.mk.inj hji).1]
  exact hs a j hj

theorem of_graph (h : s.graph = t.graph) (hs : s.Bounded) : t.Bounded :=
  hs.of_instanceAt (congrArg Graph.instanceAt h) (congrArg Graph.nextAddr h)

theorem of_skeleton (h : s.skeleton = t.skeleton) (hs : s.Bounded) : t.Bounded :=
  hs.of_instanceAt (congrArg (fun o => o.1.instanceAt) h) (congrArg (fun o => o.1.nextAddr) h)

/-- An instance of a visual that has been handed out may be added. -/
theorem place (hs : s.Bounded) (h : Host) (a : Addr) {p : Placement} (hp : p.visual < s.nextAddr) :
    (s.place h a p).Bounded := by
  intro b i hi
  rw [EngineState.place, Heap.get?_alloc] at hi
  split_ifs at hi
  · obtain rfl := Option.some.inj hi
    exact hp
  · exact hs b i hi

theorem buildScene (hs : s.Bounded) (h : Host) {scene : String × List Placement}
    (hscene : ∀ p ∈ scene.2, p.visual < s.nextAddr) : (s.buildScene h scene).Bounded := by
  have key : ∀ (ps : List Placement) (t : EngineState), t.Bounded →
      (∀ p ∈ ps, p.visual < t.nextAddr) →
        (ps.foldl (EngineState.place h s.nextAddr) t).Bounded := by
    intro ps
    induction ps with
    | nil => exact fun _ ht _ => ht
    | cons p rest ih =>
      intro t ht hps
      exact ih _ (ht.place h _ (hps p List.mem_cons_self)) fun q hq =>
        hps q (List.mem_cons_of_mem p hq)
  exact key scene.2 _ (hs.mono (fun _ _ hi => hi) (Nat.le_succ _)) fun p hp =>
    Nat.lt_succ_of_lt (hscene p hp)

theorem buildScenes (hs : s.Bounded) (h : Host) {scenes : List (String × List Placement)}
    (hscenes : ∀ scene ∈ scenes, ∀ p ∈ scene.2, p.visual < s.nextAddr) :
    (s.buildScenes h scenes).Bounded := by
  induction scenes generalizing s with
  | nil => exact hs
  | cons scene rest ih =>
    refine ih (hs.buildScene h (hscenes scene List.mem_cons_self)) fun other hother p hp => ?_
    rw [EngineState.nextAddr_buildScene]
    exact Nat.lt_succ_of_lt (hscenes other (List.mem_cons_of_mem scene hother) p hp)

theorem clearScenes (hs : s.Bounded) : s.clearScenes.Bounded := by
  refine hs.mono (fun a i hi => ?_) (Nat.le_refl _)
  rw [EngineState.clearScenes, Heap.get?_freeAll] at hi
  split_ifs at hi
  exact hi

theorem close (hs : s.Bounded) (h : Host) : (s.close h).Bounded := hs.clearScenes

theorem afterVisuals (hs : s.Bounded) (h : Host) (visuals : Json) :
    (s.afterVisuals h visuals).Bounded := by
  have hnext := s.nextAddr_afterVisuals h visuals
  obtain ⟨v, n, p, hv⟩ := s.exists_afterVisuals h visuals
  rw [hv] at hnext ⊢
  exact hs.mono (fun _ _ hi => hi) (hnext ▸ Nat.le_add_right _ _)

theorem afterLayers (hs : s.Bounded) (h : Host) (layers : Json) :
    (s.afterLayers h layers).Bounded := by
  have hnext := s.nextAddr_afterLayers h layers
  obtain ⟨l, n, p, hl⟩ := s.exists_afterLayers h layers
  rw [hl] at hnext ⊢
  exact hs.mono (fun _ _ hi => hi) (hnext ▸ Nat.le_add_right _ _)

theorem afterScenes (hs : s.Bounded) (hwf : s.WellFormed) (h : Host) (scenes : Json) :
    (s.afterScenes h scenes).Bounded := by
  rw [EngineState.afterScenes]
  split_ifs
  · refine hs.clearScenes.buildScenes h fun scene hscene p hp => ?_
    obtain ⟨v, hv, hvp⟩ := Scenes.mem_of_decodeAll hscene hp
    exact hvp ▸ hwf.visuals_lt v hv
  · exact hs

end EngineState.Bounded

theorem KeepsGraph.bounded {α : Type} {x : Prog α} (hx : KeepsGraph x) :
    Keeps EngineState.Bounded x := hx.keeps fun _ _ h hs => hs.of_graph h

theorem KeepsSkeleton.bounded {α : Type} {x : Prog α} (hx : KeepsSkeleton x) :
    Keeps EngineState.Bounded x := hx.keeps fun _ _ h hs => hs.of_skeleton h

/-! ### The calls -/

theorem Layers.keeps_bounded_add (h : Host) : Keeps EngineState.Bounded (Layers.add h true) := by
  intro s hs
  rw [Layers.add_eq]
  split_ifs
  · exact hs
  · cases h.shaderError with
    | some what => exact hs
    | none => exact hs.mono (fun _ _ hi => hi) (Nat.le_succ _)

theorem Scenes.keeps_bounded_newScene (name : String) :
    Keeps EngineState.Bounded (Scenes.newScene name) :=
  fun _ hs => hs.mono (fun _ _ hi => hi) (Nat.le_succ _)

namespace Engine

variable {s : EngineState}

theorem setState_post_bounded (hs : s.WellFormed) (hb : s.Bounded) (h : Host) (document : Json) :
    (setState h document s).Post (fun _ t => t.Bounded) fun _ t => t.Bounded := by
  have hb₁ := hb.afterVisuals h (document.field "visuals")
  have hb₂ := hb₁.afterLayers h (document.field "layers")
  have hb₃ := hb₂.afterScenes ((hs.afterVisuals h _).afterLayers h _) h (document.field "scenes")
  cases hrun : setState h document s with
  | undefined u => trivial
  | ok _ t =>
    obtain ⟨-, -, -, -, -, -, rfl⟩ := (setState_eq_ok_iff hs h document).mp hrun
    exact hb₃
  | threw e t =>
    rcases setState_eq_threw hs hrun with ⟨-, rfl⟩ | ⟨-, rfl⟩ | ⟨-, -, rfl⟩ | ⟨-, -, -, rfl⟩
    · exact hb
    · exact hb₁
    · exact hb₂
    · exact hb₃

theorem closeSet_post_bounded (hs : s.WellFormed) (hb : s.Bounded) (h : Host) :
    (closeSet h s).Post (fun _ t => t.Bounded) fun _ t => t.Bounded := by
  rw [closeSet_eq hs]
  split_ifs
  · exact hb.close h
  · trivial
  · exact hb

theorem openSet_post_bounded (hs : s.WellFormed) (hb : s.Bounded) (h : Host) (path : String) :
    (openSet h path s).Post (fun _ t => t.Bounded) fun _ t => t.Bounded := by
  have hbefore : (s.beforeLoad h).Bounded := by
    rw [EngineState.beforeLoad]
    split_ifs
    · exact hb.close h
    · exact hb
  rw [openSet_run hs]
  split_ifs
  · trivial
  rw [bind_run]
  rcases JsonLoad.load_cases h path (s.beforeLoad h) with hload | ⟨-, e, hload⟩
  · rw [hload, Outcome.bind_ok]
    exact (setState_post_bounded (hs.beforeLoad h) hbefore h _).bind
      fun _ t ht => (keepsGraph_finishSet h path).bounded t ht
  · rw [hload]
    exact hbefore

/-- Adding layers and then an instance of the visual `v` of the list. -/
theorem addVisualToScene_post_bounded (hs : s.WellFormed) (hb : s.Bounded) (h : Host)
    (visual layer column : UInt32) :
    (addVisualToScene h visual layer column s).Post (fun _ t => t.Bounded)
      fun _ t => t.Bounded := by
  rw [addVisualToScene, bind_run, gets_run, Outcome.bind_ok]
  cases hv : Visuals.get s.visualsList visual.toInt32 with
  | none => exact hb
  | some v =>
    let I : EngineState → Prop := fun t => t.WellFormed ∧ t.Bounded ∧ v.addr < t.nextAddr
    have hI : I s := ⟨hs, hb, hs.visuals_lt v (Visuals.mem_of_get hv)⟩
    have hlayer : Keeps I (Layers.add h true) := by
      rintro t ⟨ht, htb, hlt⟩
      refine ((Layers.keeps_wellFormed_add h t ht).and ?_).mono (fun _ _ hu => hu) fun _ _ hu => hu
      refine (Layers.keeps_bounded_add h t htb).and ?_
      rw [Layers.add_eq]
      split_ifs
      · exact hlt
      · cases h.shaderError with
        | some what => exact hlt
        | none => exact Nat.lt_succ_of_lt hlt
    have hadd : Keeps I (placeInCurrentScene h ⟨v.addr, layer, column, ""⟩) := by
      have hderef : Keeps I derefCurrentScene := .bind (.gets _) fun a => .ofOption _ a
      refine .bind hderef fun a t ht => ?_
      obtain ⟨ht, htb, hlt⟩ := ht
      exact Scene.add_post ht h a _ ⟨ht.place h a _, htb.place h a hlt, hlt⟩
    have hall : Keeps I (do
        let nLayers ← gets EngineState.nLayers
        if layer > nLayers then
          let layers ← gets EngineState.layersList
          intLoop layers.length (layer.toNat + 1) (do let _ ← Layers.add h true)
        placeInCurrentScene h ⟨v.addr, layer, column, ""⟩ : Prog Unit) :=
      .bind (.gets _) fun _ => .ite (.bind (.gets _) fun _ =>
        .bind (keeps_intLoop (.bind hlayer fun _ => .pure _) _ _) fun _ => hadd) hadd
    exact (hall s hI).mono (fun _ _ ht => ht.2.1) fun _ _ ht => ht.2.1

theorem keeps_bounded_removeVisualFromScene (h : Host) (layer column : UInt32) :
    Keeps EngineState.Bounded (removeVisualFromScene h layer column) := by
  have hremove : Keeps EngineState.Bounded (removeFromCurrentScene layer column) :=
    .bind keepsOutline_derefCurrentScene.graph.bounded fun a =>
      .bind (Fixes.readScene a).graph.bounded fun scene =>
        .bind (VisualInstances.keepsOutline_remove layer column _).graph.bounded fun _ =>
          .bind (Fixes.readScene a).graph.bounded fun _ => .modify fun _ hs => hs
  refine .bind (keepsOutline_isSelectedCell h layer column).graph.bounded fun _ => .ite ?_ hremove
  exact .bind (Layers.keepsSkeleton_stopAt layer).bounded fun _ => hremove

end Engine

theorem handle_post_bounded {s : EngineState} (hs : s.WellFormed) (hb : s.Bounded) (h : Host)
    (request : Json) :
    (handleJSONRequestForClient h request s).Post (fun _ t => t.Bounded) fun _ t => t.Bounded := by
  cases ha : requestAction request with
  | none =>
    obtain ⟨e, he, -⟩ := handle_of_no_action (h := h) (s := s) ha
    rw [he]
    exact hb
  | some action =>
    by_cases hset : action = .setState
    swap
    · rw [handle_of_action ha]
      exact (keepsSkeleton_handleAction h request hset).bounded s hb
    subst hset
    by_cases ho : (request.field "data").isObject = true
    · rw [handle_setState ha ho]
      exact (Engine.setState_post_bounded hs hb h _).bind fun _ _ ht => ht
    · rw [handle_setState_of_not_isObject ha (by simpa using ho)]
      exact hb

/-- Every call keeps the bound. -/
theorem Call.run_post_bounded (c : Call) {s : EngineState} (hs : s.WellFormed) (hb : s.Bounded) :
    (c.run s).Post (fun _ t => t.Bounded) fun _ t => t.Bounded := by
  obtain ⟨h, c⟩ := c
  cases c with
  | newSet width height layers =>
    refine ((Engine.closeSet_post_bounded hs hb h).bind fun _ t ht => ?_).bind fun _ _ ht => ht
    exact Engine.keeps_createSet (fun _ _ hst hs => hs.of_graph hst) (Layers.keeps_bounded_add h)
      (Scenes.keeps_bounded_newScene _) width height layers t ht
  | openSet path => exact (Engine.openSet_post_bounded hs hb h path).bind fun _ _ ht => ht
  | closeSet => exact Engine.closeSet_post_bounded hs hb h
  | saveSet =>
    exact Keeps.bind (.bind (.bind (.gets _) fun _ => (Set.keepsGraph_saveSetAs h _).bounded)
      fun _ => .pure _) (fun _ => .pure _) s hb
  | saveSetAs path =>
    exact Keeps.bind (.bind (Set.keepsGraph_saveSetAs h path).bounded fun _ =>
      .bind (Fixes.updateProperties h _).graph.bounded fun _ => .pure _) (fun _ => .pure _) s hb
  | setState document => exact Engine.setState_post_bounded hs hb h document
  | addScene => exact Scenes.keeps_bounded_newScene _ s hb
  | setCurrentScene n => exact (Set.keepsGraph_setCurrentScene h n).bounded s hb
  | addVideo path =>
    have hadd : Keeps EngineState.Bounded (Visuals.addVideo h path) := by
      intro s hs
      rw [Visuals.addVideo, bind_run, VisualVideo.new_eq]
      dsimp only
      split_ifs
      · exact hs
      · exact hs.mono (fun _ _ hi => hi) (Nat.le_succ _)
    exact (hadd s hb).bind fun _ _ ht => ht
  | addVisualToScene visual layer column =>
    exact Engine.addVisualToScene_post_bounded hs hb h visual layer column
  | removeVisualFromScene layer column =>
    exact Engine.keeps_bounded_removeVisualFromScene h layer column s hb
  | play data => exact (Engine.keepsSkeleton_play h data).bounded s hb
  | stop data => exact (Engine.keepsSkeleton_stop data).bounded s hb
  | triggerSchedulledVisualsOnAllLayers => exact (Engine.keepsSkeleton_trigger h).bounded s hb
  | setMetronomeOn on =>
    exact (Fixes.updateProperties h fun p => { p with metronomeOn := on }).graph.bounded s hb
  | setBeatSnap a on =>
    exact (VisualInstance.keepsOutline_setBeatSnap a on).graph.bounded s hb
  | request request => exact (handle_post_bounded hs hb h request).bind fun _ _ ht => ht

/-- In every reachable state the visuals of all instances have addresses that have been handed
out. -/
theorem EngineState.Reachable.bounded {s : EngineState} (hs : s.Reachable) : s.Bounded :=
  (Reaches.invariant (I := fun t => t.WellFormed ∧ t.Bounded) (fun c t _ ⟨htwf, htb⟩ =>
    (c.2.keeps_wellFormed c.1 t htwf).and (c.run_post_bounded htwf htb))
    ⟨EngineState.wellFormed_init, fun _ _ hi => absurd hi (Option.some_ne_none _).symm⟩ hs).2

end ArbutusEngine
