import ArbutusEngine.Held
import ArbutusEngine.Model.Session

/-!
# What the steps of a session leave alone

Most of what happens to the engine changes neither its visuals, its scenes and the cells of their
instances nor the list of layers, but only what layers hold, flags of instances, and settings:
controls, columns, keys, frames, and the closing of idle videos.

## Main results

* `Engine.keepsSkeleton_handleAction`, `Engine.keepsSkeleton_setActiveVisualIntances`,
  `Engine.keepsSkeleton_render`: what leaves all but the layers alone.
* `Engine.keepsOutline_cleanup`: what leaves the layers alone, too.
* `ControllerGroup.keeps_handleKeyboardControllers`: keys.
-/

open Exec

namespace ArbutusEngine

namespace Layers

theorem keepsOutline_setActive (h : Host) (n : UInt32) : KeepsOutline (setActive h n) :=
  .ite (.pure _) (.bind (.gets _) fun _ => .updateProperties h _)

theorem keepsOutline_getCurrentId (h : Host) : KeepsOutline (getCurrentId h) :=
  .bind (.getInstance h) fun _ => .pure _

end Layers

/-! ### Controls -/

/-- No control of an instance moves it to another cell. -/
theorem VisualInstance.cell_of_mem_actionCases {c : String ×
    (VisualInstancesProperties → ℚ → VisualInstancesProperties)} (hc : c ∈ actionCases)
    (p : VisualInstancesProperties) (v : ℚ) :
    (c.2 p v).layer = p.layer ∧ (c.2 p v).column = p.column := by
  simp only [actionCases, List.mem_cons, List.not_mem_nil, or_false] at hc
  rcases hc with rfl | rfl | rfl | rfl | rfl | rfl | rfl | rfl | rfl | rfl | rfl | rfl | rfl |
    rfl | rfl | rfl
  all_goals exact ⟨rfl, rfl⟩

theorem VisualInstance.keepsOutline_handleAction (a : Addr) (parameter : List UInt8)
    (data : Json) : KeepsOutline (handleAction a parameter data) := by
  refine .bind (.ofExcept _ _) fun value => ?_
  cases hsetter : hashSwitch (actionCases (N := ℚ)) parameter with
  | none => exact .pure _
  | some setter =>
    obtain ⟨name, hmem, -⟩ := hashSwitch_mem hsetter
    refine .updateInstance (fun _ => rfl) fun i => ?_
    obtain ⟨hlayer, hcolumn⟩ := cell_of_mem_actionCases hmem i.properties value
    exact Prod.ext (congrArg Int32.toUInt32 hlayer) (congrArg Int32.toUInt32 hcolumn)

theorem Layer.keepsSkeleton_handleAction (n : ℕ) (parameter : List UInt8) (data : Json) :
    KeepsSkeleton (handleAction n parameter data) := by
  refine .bind (.ofExcept _ _) fun value => ?_
  cases hashSwitch (actionCases (N := ℚ)) parameter with
  | none => exact .pure _
  | some setter => exact keepsSkeleton_update fun _ => rfl

namespace Engine

theorem keepsOutline_getLayerForActionHandler (h : Host) (data : Json) :
    KeepsOutline (getLayerForActionHandler h data) := by
  have hlast : ∀ n, KeepsOutline (do
      let layer ← gets (Layers.get n)
      return layer.map fun _ => n.toNat : Prog (Option ℕ)) := fun _ => .bind (.gets _) fun _ => .pure _
  refine .bind (.ofExcept _ _) fun layer => .ite (.bind ?_ fun n => hlast n) ?_
  · exact .bind (.ofExcept _ _) fun _ => .pure _
  · exact .bind (Layers.keepsOutline_getCurrentId h) fun n => hlast n

theorem keepsSkeleton_handleAction (h : Host) (parameter : List UInt8) (data : Json) :
    KeepsSkeleton (handleAction h parameter data) := by
  have hlayer := (keepsOutline_getLayerForActionHandler h data).skeleton
  rw [handleAction]
  cases hashSwitch actionCases parameter with
  | none => exact .pure _
  | some target =>
    cases target with
    | layer =>
      refine .bind hlayer fun n => ?_
      cases n with
      | none => exact .pure _
      | some n => exact Layer.keepsSkeleton_handleAction n _ data
    | visual =>
      refine .bind hlayer fun n => ?_
      cases n with
      | none => exact .pure _
      | some n =>
        refine .bind (Fixes.readLayer n).skeleton fun layer => ?_
        cases layer.activeInstance with
        | none => exact .pure _
        | some a => exact (VisualInstance.keepsOutline_handleAction a _ data).skeleton

/-! ### Columns, keys, frames -/

theorem keepsSkeleton_setActiveVisualIntances (h : Host) (columnN : UInt32) :
    KeepsSkeleton (setActiveVisualIntances h columnN) :=
  .bind (.gets _) fun _ => .forEach fun _ _ =>
    .bind (keepsSkeleton_setActiveVisualInstance h _ columnN) fun _ => .pure _

theorem keepsSkeleton_setActiveVisualIntanceOnActiveLayer (h : Host) (n : UInt32) :
    KeepsSkeleton (setActiveVisualIntanceOnActiveLayer h n) :=
  .bind (keepsOutline_getSelectedLayerNumber h).skeleton fun _ =>
    .bind (keepsSkeleton_setActiveVisualInstance h _ n) fun _ => .pure _

theorem keepsOutline_countInSelectedLayer (h : Host) : KeepsOutline (countInSelectedLayer h) := by
  refine .bind keepsOutline_derefCurrentScene fun a => .bind (.readScene a) fun scene => ?_
  refine .bind (keepsOutline_getSelectedLayerNumber h) fun layer => ?_
  have hcount : ∀ (list : List Addr) (n : UInt32),
      KeepsOutline (VisualInstances.countInLayerFrom layer n list) := by
    intro list
    induction list with
    | nil => exact fun _ => .pure _
    | cons b rest ih => exact fun _ => .bind (.readInstance b) fun _ => ih _
  exact hcount scene.visualInstances 0

theorem keepsSkeleton_playLast (h : Host) :
    KeepsSkeleton (playLastVisualInstanceOnActiveLayer h) :=
  .bind (keepsOutline_countInSelectedLayer h).skeleton fun _ =>
    keepsSkeleton_setActiveVisualIntanceOnActiveLayer h _

theorem keepsSkeleton_playPrevious (h : Host) :
    KeepsSkeleton (playPreviousVisualInstanceOnActiveLayer h) :=
  .bind (keepsOutline_getSelectedColumnNumber h).skeleton fun _ => .ite (.pure _)
    (.bind (keepsOutline_getSelectedColumnNumber h).skeleton fun _ =>
      keepsSkeleton_setActiveVisualIntanceOnActiveLayer h _)

theorem keepsSkeleton_playNext (h : Host) :
    KeepsSkeleton (playNextVisualInstanceOnActiveLayer h) :=
  .bind (keepsOutline_getSelectedColumnNumber h).skeleton fun _ =>
    .bind (keepsOutline_countInSelectedLayer h).skeleton fun _ => .ite (.pure _)
      (.bind (keepsOutline_getSelectedColumnNumber h).skeleton fun _ =>
        keepsSkeleton_setActiveVisualIntanceOnActiveLayer h _)

end Engine

namespace VisualInstance

theorem keepsOutline_unload (a : Addr) : KeepsOutline (unload a) := by
  have hvideo : KeepsOutline (unloadVideo a) :=
    .bind (.updateInstance (fun _ => rfl) fun _ => rfl) fun _ => .bind (.readInstance a) fun i =>
      .ite (.bind (keepsOutline_setVideo a _) fun _ => .pure _) (.pure _)
  refine .bind (.readInstance a) fun i => .bind (.readVisual _) fun v => ?_
  cases v.source with
  | video filePath => exact .bind hvideo fun _ => .pure _
  | camera => exact .pure _
  | syphon => exact .pure _

end VisualInstance

theorem VisualInstances.keepsOutline_cleanup (h : Host) (list : List Addr) :
    KeepsOutline (VisualInstances.cleanup h list) :=
  .ite (.pure _) (.forEach fun a _ => .bind (.readInstance a) fun _ =>
    .ite (VisualInstance.keepsOutline_unload a) (.pure _))

theorem Engine.keepsOutline_cleanup (h : Host) : KeepsOutline (Engine.cleanup h) := by
  refine .bind (.gets _) fun currentScene => ?_
  cases currentScene with
  | none => exact .pure _
  | some a =>
    exact .bind (.readScene a) fun _ => VisualInstances.keepsOutline_cleanup h _

theorem Layer.keepsSkeleton_render (h : Host) (n : ℕ) : KeepsSkeleton (Layer.render h n) := by
  refine .bind (keepsSkeleton_update fun _ => rfl) fun _ => ?_
  refine .bind (Fixes.readLayer n).skeleton fun layer => ?_
  match layer.activeInstance, layer.buffer with
  | none, _ => exact .pure _
  | some _, none => exact .pure _
  | some a, some (width, height) =>
    exact (VisualInstance.keepsOutline_draw h a width height).skeleton

theorem Engine.keepsSkeleton_render (h : Host) : KeepsSkeleton (render h) := by
  have hsnap : KeepsSkeleton (renderSnap h) := by
    intro o s hs
    rw [renderSnap_eq]
    exact hs
  refine .bind (.gets _) fun layers => .bind (.gets _) fun _ => .ite (.pure _) ?_
  refine .bind hsnap fun _ => .bind (.forEach fun n _ => Layer.keepsSkeleton_render h n) fun _ => ?_
  exact .forEach fun _ _ => .bind (Fixes.getInstance h).skeleton fun _ =>
    .bind (Fixes.getInstance h).skeleton fun _ => .pure _

namespace ControllerGroup

open Controls

variable {κ : Type}

/-- Whatever the callbacks leave alone, a key leaves alone if selecting a layer does. -/
theorem keeps_handleKeyboardControllers {I : EngineState → Prop} {h : Host}
    (hactive : ∀ n, Keeps I (Layers.setActive h n)) {call : κ → Controller κ → Prog Unit}
    (hcall : ∀ k c, Keeps I (call k c)) (enginePtr : Bool) (key : Int32)
    (controllers : List (Controller κ)) :
    Keeps I (handleKeyboardControllers h enginePtr call key controllers) := by
  have haction : ∀ a : Controls.Action, Keeps I (a.run h enginePtr) := by
    rintro ⟨type, trigger, change⟩
    cases type with
    | triggerVisual => exact .bind (.ofOption _ _) fun _ => .pure _
    | changeLayer =>
      exact .bind (.ofOption _ _) fun _ => .ite (.bind (hactive _) fun _ => .pure _) (.pure _)
    | changeParameter => exact .pure _
  induction controllers with
  | nil => exact .pure _
  | cons c rest ih =>
    have hrun : Keeps I (c.runAction h enginePtr) := by
      rw [Controller.runAction]
      cases c.action with
      | none => exact .pure _
      | some a => exact haction a
    have hcallback : Keeps I (c.runCallback call) := by
      rw [Controller.runCallback]
      cases c.callback with
      | none => exact .pure _
      | some k => exact hcall k c
    exact .ite (.bind hrun fun _ => .ite (.pure _) (.bind hcallback fun _ => ih)) ih

end ControllerGroup

end ArbutusEngine
