import ArbutusEngine.Frame

/-!
# Which fields a program writes

A part of the state that does not depend on the fields a program writes is left alone by the
program. The fields come in groups that are written together: the visuals, the layers and the
scenes, each with the addresses that new objects take, and those engine properties that every access
resets. `IgnoresVisuals`, `IgnoresLayers`, `IgnoresInstances`, `IgnoresScenes` and `IgnoresReset`
say of a part that it does not depend on a group, `IgnoresSelection` that it does not depend on the
selected layer either, and `IgnoresCurrentScene` that it does not depend on the current scene. For
every function that fills or empties one of the lists there is one lemma, for all parts at once.

## Main definitions

* `IgnoresVisuals`, `IgnoresLayers`, `IgnoresInstances`, `IgnoresScenes`, `IgnoresCurrentScene`,
  `IgnoresReset`, `IgnoresSelection`.

## Main results

* `Visuals.fixes_setState`, `Layers.fixes_setState`, `Scenes.fixes_setState`,
  `Engine.fixes_setState`.
-/

open Exec

namespace ArbutusEngine

variable {γ : Type} {part : EngineState → γ}

/-- The part does not depend on the list of visuals. -/
def IgnoresVisuals (part : EngineState → γ) : Prop :=
  ∀ s v n, part { s with visualsList := v, nextAddr := n } = part s

/-- The part does not depend on the list of layers. -/
def IgnoresLayers (part : EngineState → γ) : Prop :=
  ∀ s l n, part { s with layersList := l, nextAddr := n } = part s

/-- The part does not depend on the instances. -/
def IgnoresInstances (part : EngineState → γ) : Prop :=
  ∀ s i, part { s with instances := i } = part s

/-- The part does not depend on the list of scenes and on the instances. -/
def IgnoresScenes (part : EngineState → γ) : Prop :=
  ∀ s l i n, part { s with scenesList := l, instances := i, nextAddr := n } = part s

/-- The part does not depend on which scene is the current one. -/
def IgnoresCurrentScene (part : EngineState → γ) : Prop :=
  ∀ s n a, part { s with currentSceneNumber := n, currentScene := a } = part s

/-- The part does not depend on the engine properties that every access resets. -/
def IgnoresReset (part : EngineState → γ) : Prop :=
  ∀ (h : Host) s, part { s with properties := s.properties.setDefaults h } = part s

/-- The part does not depend on these properties nor on the selected layer. -/
def IgnoresSelection (part : EngineState → γ) : Prop :=
  ∀ (h : Host) s n, part { s with properties :=
    { s.properties.setDefaults h with selectedLayer := n } } = part s

theorem IgnoresSelection.reset (hp : IgnoresSelection part) : IgnoresReset part :=
  fun h s => hp h s s.properties.selectedLayer

theorem EngineProperties.fixes_getInstance (hp : IgnoresReset part) (h : Host) :
    Fixes part (EngineProperties.getInstance h) := fun _ s hs => (hp h s).trans hs

theorem EngineProperties.fixes_update {f : EngineProperties → EngineProperties} {h : Host}
    (hf : ∀ s, part { s with properties := f (s.properties.setDefaults h) } = part s) :
    Fixes part (EngineProperties.update h f) := .modify hf

/-! ### Visuals -/

namespace Visuals

theorem fixes_emptyLoop (hv : IgnoresVisuals part) (h : Host) (visuals : List Visual) :
    Fixes part (emptyLoop h visuals) := by
  induction visuals with
  | nil => exact .pure _
  | cons v rest ih =>
    refine .bind (.modify fun s => hv s rest s.nextAddr) fun _ => .bind ?_ fun _ => ih
    exact .ite (.pure _) (.undefined _)

theorem fixes_empty (hv : IgnoresVisuals part) (h : Host) : Fixes part (empty h) :=
  .bind (.gets _) fun visuals => fixes_emptyLoop hv h visuals

theorem fixes_setState (hv : IgnoresVisuals part) (hp : IgnoresReset part) (h : Host)
    (state : Json) : Fixes part (setState h state) := by
  have hnew : ∀ path, Fixes part (VisualVideo.new h path) := fun path =>
    .bind (.gets _) fun _ =>
      .bind (.ite (.throw _) (.bind (EngineProperties.fixes_getInstance hp h) fun _ => .pure _))
        fun _ => .bind (.gets _) fun _ =>
          .bind (.modify fun s => hv s s.visualsList (s.nextAddr + 1)) fun _ => .pure _
  refine .ite (.bind (fixes_empty hv h) fun _ => .forEach fun entry _ => ?_) (.pure _)
  refine .bind (.ofExcept _ _) fun type => .ite (.bind (.ofExcept _ _) fun type => ?_) (.pure _)
  refine .ite (.bind (.ofExcept _ _) fun filePath => .ite ?_ (.pure _)) (.pure _)
  refine .bind (.ofExcept _ _) fun filePath => .bind (hnew filePath) fun newVisual => ?_
  exact .bind (.ofExcept _ _) fun newVisual => .modify fun s => hv s _ s.nextAddr

end Visuals

/-! ### Layers -/

namespace Layer

theorem fixes_update (hl : IgnoresLayers part) (n : ℕ) (f : Layer → Layer) :
    Fixes part (update n f) :=
  .bind (.deref _ _) fun _ => .modify fun s => hl s _ s.nextAddr

theorem fixes_setState (hl : IgnoresLayers part) (n : ℕ) (state : Json) :
    Fixes part (setState n state) :=
  .bind (.deref _ _) fun _ => .bind (.ofExcept _ _) fun _ => fixes_update hl n _

end Layer

namespace Layers

theorem fixes_add (hl : IgnoresLayers part) (hp : IgnoresReset part) (h : Host) :
    Fixes part (add h true) := by
  intro o s hs
  rw [add_eq]
  split_ifs
  · exact hs
  · cases h.shaderError with
    | some what => exact (hp h s).trans hs
    | none => exact (hl _ _ _).trans ((hp h s).trans hs)

theorem fixes_setActive (hp : IgnoresSelection part) (h : Host) (n : UInt32) :
    Fixes part (setActive h n) :=
  .ite (.pure _) (.bind (.gets _) fun _ => EngineProperties.fixes_update fun s => hp h s _)

theorem fixes_empty (hl : IgnoresLayers part) (hp : IgnoresSelection part) (h : Host) :
    Fixes part (empty h) :=
  .bind (.modify fun s => hl s _ s.nextAddr) fun _ =>
    EngineProperties.fixes_update fun s => hp h s 0

theorem fixes_setState (hl : IgnoresLayers part) (hp : IgnoresSelection part) (h : Host)
    (state : Json) : Fixes part (setState h state) := by
  refine .bind (fixes_empty hl hp h) fun _ => .forEach fun entry _ => ?_
  refine .bind (fixes_add hl hp.reset h) fun newLayer => ?_
  cases newLayer with
  | none => exact .undefined _
  | some n => exact Layer.fixes_setState hl n entry

end Layers

/-! ### Instances and scenes -/

theorem IgnoresScenes.instances (hsc : IgnoresScenes part) : IgnoresInstances part :=
  fun s i => hsc s s.scenesList i s.nextAddr

namespace VisualInstance

theorem fixes_update (hi : IgnoresInstances part) (a : Addr) (f : VisualInstance → VisualInstance) :
    Fixes part (update a f) :=
  .bind (.deref _ _) fun _ => .modify fun s => hi s _

theorem fixes_loadVideo (hi : IgnoresInstances part) (h : Host) (a : Addr) :
    Fixes part (loadVideo h a) := by
  refine .bind (fixes_update hi a _) fun _ => .bind (.deref _ _) fun i => ?_
  refine .bind (.deref _ _) fun v => ?_
  cases v.source with
  | video filePath =>
    refine .ite (.bind (fixes_update hi a _) fun _ => .ite ?_ (.throw _)) (.throw _)
    exact .bind (fixes_update hi a _) fun _ => .pure _
  | camera => exact .pure _
  | syphon => exact .pure _

end VisualInstance

namespace VisualInstances

theorem fixes_loadAll (hi : IgnoresInstances part) (h : Host) (list : List Addr) :
    Fixes part (loadAll h list) :=
  .forEach fun a _ => .bind (VisualInstance.fixes_loadVideo hi h a) fun _ => .pure _

theorem fixes_empty (hi : IgnoresInstances part) (list : List Addr) : Fixes part (empty list) :=
  .forEach fun _ _ => .bind (.deref _ _) fun _ => .modify fun s => hi s _

theorem fixes_remove (layer column : UInt32) (list : List Addr) :
    Fixes part (remove layer column list) := by
  induction list with
  | nil => exact .pure _
  | cons a rest ih =>
    exact .bind (.deref _ _) fun _ => .ite (.pure _) (.bind ih fun _ => .pure _)

theorem fixes_inColumn (layer column : UInt32) (list : List Addr) :
    Fixes part (inColumn layer column list) := by
  induction list with
  | nil => exact .pure _
  | cons a rest ih => exact .bind (.deref _ _) fun _ => .ite (.pure _) ih

theorem fixes_add (hi : IgnoresInstances part) (hp : IgnoresReset part) (h : Host) (visual : Addr)
    (layer column : UInt32) (name : String) (list : List Addr) :
    Fixes part (add h visual layer column name list) := by
  have hnew : Fixes part (VisualInstance.new h visual layer column) :=
    .bind (EngineProperties.fixes_getInstance hp h) fun _ =>
      .bind (EngineProperties.fixes_getInstance hp h) fun _ => .bind (.gets _) fun _ =>
        .bind (.modify fun s => hi s _) fun _ => .pure _
  have hrest : ∀ list', Fixes part (do
      let a ← VisualInstance.new h visual layer column
      VisualInstance.update a (VisualInstance.setName name)
      return list' ++ [a] : Prog (List Addr)) := fun list' =>
    .bind hnew fun a => .bind (VisualInstance.fixes_update hi a _) fun _ => .pure _
  exact .bind (fixes_inColumn layer column list) fun _ =>
    .ite (.bind (fixes_remove layer column list) fun _ => hrest _) (hrest list)

end VisualInstances

theorem Scene.fixes_update (hsc : IgnoresScenes part) (a : Addr) (f : Scene → Scene) :
    Fixes part (Scene.update a f) :=
  .bind (.deref _ _) fun _ => .modify fun s => hsc s _ s.instances s.nextAddr

theorem Scene.fixes_setState (hsc : IgnoresScenes part) (hp : IgnoresReset part) (h : Host)
    (a : Addr) (state : Json) : Fixes part (Scene.setState h a state) := by
  have hadd : ∀ entry, Fixes part (Scene.addState h a entry) := by
    intro entry
    refine .bind (.gets _) fun visuals => .bind (.ofExcept _ _) fun placement => ?_
    cases placement with
    | none => exact .pure _
    | some p =>
      exact .bind (.deref _ _) fun _ =>
        .bind (VisualInstances.fixes_add hsc.instances hp h _ _ _ _ _) fun _ =>
          Scene.fixes_update hsc a _
  have hinstances : Fixes part (do
      let instances ← Prog.json (state.index "instances")
      if instances.isArray then do
        let scene ← Scene.read a
        VisualInstances.empty scene.visualInstances
        forEach instances.elements (Scene.addState h a) : Prog Unit) :=
    .bind (.ofExcept _ _) fun _ => .ite (.bind (.deref _ _) fun _ =>
      .bind (VisualInstances.fixes_empty hsc.instances _) fun _ =>
        .forEach fun entry _ => hadd entry) (.pure _)
  refine .ite (.bind (.ofExcept _ _) fun name => .ite ?_ hinstances) (.throw _)
  exact .bind (.ofExcept _ _) fun _ => .bind (Scene.fixes_update hsc a _) fun _ => hinstances

namespace Scenes

theorem fixes_newScene (hsc : IgnoresScenes part) (name : String) : Fixes part (newScene name) :=
  .bind (.gets _) fun _ => .bind (.modify fun s => hsc s _ s.instances _) fun _ => .pure _

theorem fixes_empty (hsc : IgnoresScenes part) : Fixes part empty :=
  .bind (.gets _) fun _ =>
    .bind (.forEach fun _ _ => VisualInstances.fixes_empty hsc.instances _) fun _ =>
    .modify fun s => hsc s _ s.instances s.nextAddr

theorem fixes_setState (hsc : IgnoresScenes part) (hp : IgnoresReset part) (h : Host)
    (state : Json) : Fixes part (setState h state) :=
  .bind (fixes_empty hsc) fun _ => .forEach fun entry _ =>
    .bind (.ofExcept _ _) fun _ => .bind (.ofExcept _ _) fun _ =>
      .bind (fixes_newScene hsc _) fun a => Scene.fixes_setState hsc hp h a entry

end Scenes

theorem Set.fixes_setCurrentScene (hc : IgnoresCurrentScene part) (hi : IgnoresInstances part)
    (h : Host) (n : UInt32) : Fixes part (Set.setCurrentScene h n) := by
  refine .bind (.gets _) fun scenes => ?_
  match scenes, scenes[n.toNat]? with
  | [], _ => exact .undefined _
  | _ :: _, none => exact .pure _
  | _ :: _, some scene =>
    exact .bind (.modify fun s => hc s _ _) fun _ => VisualInstances.fixes_loadAll hi h _

/-! ### Documents -/

theorem Engine.fixes_setState (hv : IgnoresVisuals part) (hl : IgnoresLayers part)
    (hsc : IgnoresScenes part) (hp : IgnoresSelection part) (h : Host) (state : Json) :
    Fixes part (Engine.setState h state) := fun o =>
  Engine.keeps_setState (fun visuals => Visuals.fixes_setState hv hp.reset h visuals o)
    (fun layers => Layers.fixes_setState hl hp h layers o)
    (fun scenes => Scenes.fixes_setState hsc hp.reset h scenes o) state

end ArbutusEngine
