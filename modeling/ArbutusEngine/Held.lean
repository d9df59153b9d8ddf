import ArbutusEngine.Frame
import ArbutusEngine.Model.Render

/-!
# What the layers hold

A layer holds its active instance and the one that is scheduled for the next beat. The functions
that play and stop instances change what one layer holds, and leave the other layers alone;
rendering leaves all of them alone.

## Main definitions

* `EngineState.heldAt`, `EngineState.activeAt`, `EngineState.scheduledAt`.
* `KeepsHeldAt`: the program leaves alone what the layer at a position holds.

## Main results

* `Layer.keepsHeldAt_playVisualInstance`: functions of another layer.
* `Engine.keepsHeldAt_render`: rendering.
-/

open Exec

namespace ArbutusEngine

namespace EngineState

/-- The active and the scheduled instance of the layer at a position. -/
def heldAt (n : ℕ) (s : EngineState) : Option (Option Addr × Option Addr) :=
  s.layersList[n]?.map fun layer => (layer.activeInstance, layer.schedulledInstance)

/-- The active instance of the layer at a position. -/
def activeAt (n : ℕ) (s : EngineState) : Option Addr := (s.heldAt n).bind Prod.fst

/-- The scheduled instance of the layer at a position. -/
def scheduledAt (n : ℕ) (s : EngineState) : Option Addr := (s.heldAt n).bind Prod.snd

variable {s t : EngineState} {n : ℕ}

theorem heldAt_of_getElem? {layer : Layer} (hl : s.layersList[n]? = some layer) :
    s.heldAt n = some (layer.activeInstance, layer.schedulledInstance) := by
  rw [heldAt, hl, Option.map_some]

theorem activeAt_of_getElem? {layer : Layer} (hl : s.layersList[n]? = some layer) :
    s.activeAt n = layer.activeInstance := by
  rw [activeAt, heldAt_of_getElem? hl, Option.bind_some]

theorem heldAt_congr (h : s.layersList[n]? = t.layersList[n]?) : s.heldAt n = t.heldAt n := by
  rw [heldAt, heldAt, h]

theorem activeAt_congr (h : s.layersList[n]? = t.layersList[n]?) : s.activeAt n = t.activeAt n := by
  rw [activeAt, activeAt, heldAt_congr h]

end EngineState

/-- The program leaves alone what the layer at a position holds. -/
abbrev KeepsHeldAt {α : Type} (n : ℕ) (x : Prog α) : Prop := Fixes (EngineState.heldAt n) x

theorem KeepsOutline.heldAt {α : Type} {x : Prog α} (hx : KeepsOutline x) {n : ℕ} :
    KeepsHeldAt n x :=
  hx.of_eq fun s t h => by
    have hlayers : s.layersList = t.layersList := congrArg (fun o => o.layersList) h
    exact EngineState.heldAt_congr (by rw [hlayers])

/-! ### Functions of one layer -/

namespace Layer

variable {n m : ℕ}

/-- Changing one layer leaves alone what another one holds. -/
theorem keepsHeldAt_update_of_ne (hnm : m ≠ n) (f : Layer → Layer) :
    KeepsHeldAt n (update m f) := by
  refine .bind (.deref _ _) fun _ => .modify fun s => ?_
  exact congrArg (Option.map _) (List.getElem?_modify_ne _ _ hnm)

/-- Changing something else of a layer leaves alone what it holds. -/
theorem keepsHeldAt_update {f : Layer → Layer}
    (hf : ∀ layer, ((f layer).activeInstance, (f layer).schedulledInstance) =
      (layer.activeInstance, layer.schedulledInstance)) : KeepsHeldAt n (update m f) := by
  refine .bind (.deref _ _) fun _ => .modify fun s => ?_
  rw [EngineState.heldAt, EngineState.heldAt, ← List.getElem?_map, ← List.getElem?_map]
  exact congrArg (fun l => l[n]?) (map_modify_of_eq hf _ _)

theorem keepsHeldAt_playVisualInstance (hnm : m ≠ n) (h : Host) (a : Addr) :
    KeepsHeldAt n (playVisualInstance h m a) :=
  fun o => keeps_playVisualInstance (fun hx => hx.heldAt o) (keepsHeldAt_update_of_ne hnm _ o)
    (keepsHeldAt_update_of_ne hnm _ o) h

end Layer

/-! ### Rendering -/

namespace VisualInstance

theorem keepsOutline_autoLoadAndAutoPlayVideo (h : Host) (a : Addr) :
    KeepsOutline (autoLoadAndAutoPlayVideo h a) := by
  refine .bind (.readInstance a) fun i => .bind (.readVisual _) fun v => ?_
  cases v.source with
  | video filePath =>
    have hplay : KeepsOutline (do
        let i ← read a
        if i.video.isPlaying && i.properties.isPlaying then pure () else play h a false :
          Prog Unit) :=
      .bind (.readInstance a) fun i => .ite (.pure _) (keepsOutline_play h a false)
    exact .ite hplay (.bind (keepsOutline_loadVideo h a) fun _ => hplay)
  | camera => exact .pure _
  | syphon => exact .pure _

theorem keepsOutline_updateVideo (a : Addr) : KeepsOutline (updateVideo a) := by
  have hdirection : KeepsOutline (update a handleDirectionChange) := by
    refine .updateInstance (fun i => ?_) fun i => ?_
    all_goals
      rw [handleDirectionChange]
      split_ifs <;> rfl
  have hloop : KeepsOutline (update a handleLoopModeChange) := by
    refine .updateInstance (fun i => ?_) fun i => ?_
    all_goals
      rw [handleLoopModeChange, setLoopMode]
      split_ifs <;> rfl
  refine .bind (.readInstance a) fun i => .bind (.readVisual _) fun v => ?_
  cases v.source with
  | video filePath => exact .ite (.bind hdirection fun _ => hloop) (.pure _)
  | camera => exact .pure _
  | syphon => exact .pure _

theorem keepsOutline_draw (h : Host) (a : Addr) (width height : UInt32) :
    KeepsOutline (draw h a width height) :=
  .bind (keepsOutline_autoLoadAndAutoPlayVideo h a) fun _ =>
    .bind (keepsOutline_updateVideo a) fun _ => .updateInstance (fun _ => rfl) fun _ => rfl

end VisualInstance

theorem Layer.keepsHeldAt_render (h : Host) (n m : ℕ) : KeepsHeldAt n (Layer.render h m) := by
  refine .bind (Layer.keepsHeldAt_update fun _ => rfl) fun _ => ?_
  refine .bind (Fixes.readLayer m).heldAt fun layer => ?_
  match layer.activeInstance, layer.buffer with
  | none, _ => exact .pure _
  | some _, none => exact .pure _
  | some a, some (width, height) => exact (VisualInstance.keepsOutline_draw h a width height).heldAt

namespace Engine

/-- The flag has been reset by the time it is read. -/
theorem renderSnap_eq (h : Host) (s : EngineState) :
    renderSnap h s = .ok () (s.resetProperties h) := rfl

/-- Rendering activates nothing. -/
theorem keepsHeldAt_render (h : Host) (n : ℕ) : KeepsHeldAt n (render h) := by
  have hsnap : KeepsHeldAt n (renderSnap h) := by
    intro o s hs
    rw [renderSnap_eq]
    exact hs
  refine .bind (.gets _) fun layers => .bind (.gets _) fun _ => .ite (.pure _) ?_
  refine .bind hsnap fun _ => ?_
  refine .bind (.forEach fun m _ => Layer.keepsHeldAt_render h n m) fun _ => .forEach fun _ _ => ?_
  exact .bind (Fixes.getInstance h).heldAt fun _ =>
    .bind (Fixes.getInstance h).heldAt fun _ => .pure _

theorem keepsHeldAt_beat (h : Host) (n : ℕ) : KeepsHeldAt n (beat h) :=
  (Fixes.updateProperties h _).heldAt

end Engine

end ArbutusEngine
