import ArbutusEngine.Model.Commands

/-!
# What playing an instance leaves alone

Playing, stopping and loading an instance changes the instance and, for a camera, its visual, but
neither the shape of the object graph nor anything else the engine keeps. `EngineState.outline` is
everything these operations leave alone: all of the state but the contents of instances and visuals
and the engine properties. A layer that plays an instance changes what it holds besides;
`EngineState.skeleton` is what it leaves alone.

## Main definitions

* `Outline`, `EngineState.outline`, `EngineState.skeleton`.
* `KeepsOutline`, `KeepsSkeleton`: programs that leave the outline or the skeleton alone.
* `VisualInstance.playLoaded`, `VisualInstance.retriggerIf`, `Layer.startInstance`,
  `Layer.startSchedulled`: the ends of the functions that play an instance.

## Main results

* `VisualInstance.keepsOutline_play`, `VisualInstance.keepsOutline_stop`,
  `VisualInstance.keepsOutline_retrigger`, `VisualInstances.keepsOutline_loadAll`.
* `Layer.keeps_playVisualInstance`: what a layer keeps when it plays an instance.
* `Layer.keepsSkeleton_stop`, `Layer.keepsSkeleton_playVisualInstance`, `Engine.keepsSkeleton_play`,
  `Engine.keepsSkeleton_stop`, `Engine.keepsSkeleton_trigger`, `keepsSkeleton_handleAction`.
* `Engine.setActiveVisualInstance_post_of`: what holds after playing the instance of a cell.
* `Engine.keeps_setState`: what reading a document keeps.
-/

open Exec

namespace ArbutusEngine

/-- The shape of the object graph. -/
structure Graph where
  visuals : List Addr
  scenesList : List Scene
  layersList : List Layer
  /-- The visual and the cell of the instance at an address. -/
  instanceAt : Addr → Option (Addr × (UInt32 × UInt32))
  nextAddr : Addr

/-- The parts of the state that playing an instance leaves alone. -/
structure Outline extends Graph where
  loaded : Bool
  filePath : String
  nLayers : UInt32
  currentSceneNumber : UInt32
  currentScene : Option Addr
  setOpened : Bool
  buffer : Option (UInt32 × UInt32)
  stopCurrentVisualIfTriggeredInvalid : Bool
  written : List (String × String)

def EngineState.outline (s : EngineState) : Outline where
  visuals := s.visualsList.map Visual.addr
  scenesList := s.scenesList
  layersList := s.layersList
  instanceAt a := (s.instances.get? a).map fun i => (i.visual, i.cell)
  nextAddr := s.nextAddr
  loaded := s.loaded
  filePath := s.filePath
  nLayers := s.nLayers
  currentSceneNumber := s.currentSceneNumber
  currentScene := s.currentScene
  setOpened := s.setOpened
  buffer := s.buffer
  stopCurrentVisualIfTriggeredInvalid := s.stopCurrentVisualIfTriggeredInvalid
  written := s.written

def EngineState.graph (s : EngineState) : Graph := s.outline.toGraph

/-- The program leaves the object graph alone. -/
abbrev KeepsGraph {α : Type} (x : Prog α) : Prop := Fixes EngineState.graph x

/-- The program leaves the outline of the state alone. -/
abbrev KeepsOutline {α : Type} (x : Prog α) : Prop := Fixes EngineState.outline x

theorem KeepsOutline.graph {α : Type} {x : Prog α} (hx : KeepsOutline x) : KeepsGraph x :=
  hx.of_eq fun _ _ h => congrArg Outline.toGraph h

end ArbutusEngine

namespace Exec.Fixes

open ArbutusEngine

theorem getInstance (h : Host) : KeepsOutline (EngineProperties.getInstance h) := fun _ _ hs => hs

theorem updateProperties (h : Host) (g : EngineProperties → EngineProperties) :
    KeepsOutline (EngineProperties.update h g) := fun _ _ hs => hs

theorem readInstance (a : Addr) : KeepsOutline (VisualInstance.read a) := deref _ _

theorem readVisual (a : Addr) : KeepsOutline (Visual.read a) := deref _ _

theorem readLayer (n : ℕ) : KeepsOutline (Layer.read n) := deref _ _

theorem readScene (a : Addr) : KeepsOutline (Scene.read a) := deref _ _

/-- Changing an instance leaves the outline alone when its visual and its cell stay. -/
theorem updateInstance {a : Addr} {g : VisualInstance → VisualInstance}
    (hv : ∀ i, (g i).visual = i.visual) (hc : ∀ i, (g i).cell = i.cell) :
    KeepsOutline (VisualInstance.update a g) := by
  intro o s hs
  cases hi : s.instances.get? a with
  | none => simp [VisualInstance.update, VisualInstance.read, hi]
  | some i =>
    rw [VisualInstance.update_eq hi, Outcome.post_ok, ← hs]
    simp only [EngineState.outline, Outline.mk.injEq, ArbutusEngine.Graph.mk.injEq, true_and, and_true]
    funext b
    rw [Heap.get?_set _ hi]
    split_ifs with hb
    · rw [hb, hi]
      simp [hv, hc]
    · rfl

end Exec.Fixes

namespace ArbutusEngine

/-! ### The functions of instances -/

namespace VisualInstance

variable (h : Host) (a : Addr)

theorem keepsOutline_setBeatSnap (a : Addr) (on : Bool) : KeepsOutline (update a fun i =>
    { i with properties := { i.properties with beatSnap := on } }) :=
  .updateInstance (fun _ => rfl) fun _ => rfl

theorem keepsOutline_setVideo (g : VisualInstance → VideoPlayer) :
    KeepsOutline (update a fun i => { i with video := g i }) :=
  .updateInstance (fun _ => rfl) fun _ => rfl

theorem keepsOutline_loadVideo : KeepsOutline (loadVideo h a) := by
  refine .bind (.updateInstance (fun _ => rfl) fun _ => rfl) fun _ => ?_
  refine .bind (.readInstance a) fun i => .bind (.readVisual _) fun v => ?_
  cases v.source with
  | video filePath =>
    refine .ite (.bind (keepsOutline_setVideo a _) fun _ => .ite ?_ (.throw _)) (.throw _)
    exact .bind (.updateInstance (fun _ => rfl) fun _ => rfl) fun _ => .pure _
  | camera => exact .pure _
  | syphon => exact .pure _

theorem keepsOutline_snapsToBeat (i : VisualInstance) : KeepsOutline (snapsToBeat h i) :=
  .ite (.bind (.getInstance h) fun _ => .pure _) (.pure _)

theorem keepsOutline_openCamera : KeepsOutline (openCamera a) := by
  intro o s hs
  rw [← hs]
  simp only [openCamera, modify_run, Outcome.post_ok, EngineState.outline, Outline.mk.injEq,
    Graph.mk.injEq, and_true, List.map_map, List.map_inj_left, Function.comp_apply]
  intro v _
  split_ifs
  · cases v.source <;> rfl
  · rfl

/-- The end of `VisualInstance::play` on a video, after it has been loaded. -/
def playLoaded (h : Host) (a : Addr) (forcePlay : Bool) : Prog Unit := do
  let i ← read a
  if i.video.isLoaded then
    let snaps ← snapsToBeat h i
    if snaps && !forcePlay then update a (setIsTriggered true)
    else update a fun i => { i with video := i.video.play }
    update a (setIsPlaying true)

theorem keepsOutline_playLoaded (forcePlay : Bool) : KeepsOutline (playLoaded h a forcePlay) := by
  have hplaying : KeepsOutline (update a (setIsPlaying true)) :=
    .updateInstance (fun _ => rfl) fun _ => rfl
  refine .bind (.readInstance a) fun i => .ite ?_ (.pure _)
  refine .bind (keepsOutline_snapsToBeat h i) fun snaps => .ite ?_ ?_
  · exact .bind (.updateInstance (fun _ => rfl) fun _ => rfl) fun _ => hplaying
  · exact .bind (keepsOutline_setVideo a _) fun _ => hplaying

theorem keepsOutline_play (forcePlay : Bool) : KeepsOutline (play h a forcePlay) := by
  refine .bind (.updateInstance (fun _ => rfl) fun _ => rfl) fun _ => ?_
  refine .bind (.updateInstance (fun _ => rfl) fun _ => rfl) fun _ => ?_
  refine .bind (.readInstance a) fun i => .bind (.readVisual _) fun v => ?_
  have hplaying : KeepsOutline (update a (setIsPlaying true)) :=
    .updateInstance (fun _ => rfl) fun _ => rfl
  cases v.source with
  | video filePath =>
    have hrest := keepsOutline_playLoaded h a forcePlay
    exact .ite hrest (.bind (keepsOutline_loadVideo h a) fun _ => hrest)
  | camera => exact .bind (keepsOutline_openCamera _) fun _ => hplaying
  | syphon => exact hplaying

theorem keepsOutline_stop : KeepsOutline (stop a) := by
  refine .bind (.readInstance a) fun i => .bind (.readVisual _) fun v => ?_
  have hstopped : KeepsOutline (update a (setIsPlaying false)) :=
    .updateInstance (fun _ => rfl) fun _ => rfl
  cases v.source with
  | video filePath =>
    exact .ite (.bind (keepsOutline_setVideo a _) fun _ => hstopped) (.pure _)
  | camera => exact hstopped
  | syphon => exact hstopped

theorem keepsOutline_retrigger : KeepsOutline (retrigger h a) := by
  refine .bind (.readInstance a) fun i => .bind (keepsOutline_snapsToBeat h i) fun snaps => ?_
  refine .ite (.updateInstance (fun _ => rfl) fun _ => rfl) ?_
  exact .bind (keepsOutline_setVideo a _) fun _ => .updateInstance (fun _ => rfl) fun _ => rfl

/-- The end of `Layer::playVisualInstance`: an instance is retriggered if it asks for it. -/
def retriggerIf (h : Host) (a : Addr) : Prog Unit := do
  let i ← read a
  if i.properties.retrigger then retrigger h a

theorem keepsOutline_retriggerIf : KeepsOutline (retriggerIf h a) :=
  .bind (.readInstance a) fun _ => .ite (keepsOutline_retrigger h a) (.pure _)

end VisualInstance

theorem VisualInstances.keepsOutline_loadAll (h : Host) (list : List Addr) :
    KeepsOutline (VisualInstances.loadAll h list) :=
  .forEach fun a _ => .bind (VisualInstance.keepsOutline_loadVideo h a) fun _ => .pure _

/-! ### The functions of layers -/

/-- The outline, with the layers only by their addresses. -/
def EngineState.skeleton (s : EngineState) : Outline × List Addr :=
  ({ s.outline with layersList := [] }, s.layersList.map Layer.addr)

/-- The program leaves the outline alone but for what the layers are like. -/
abbrev KeepsSkeleton {α : Type} (x : Prog α) : Prop := Fixes EngineState.skeleton x

theorem EngineState.skeleton_of_outline {s t : EngineState} (h : s.outline = t.outline) :
    s.skeleton = t.skeleton := by
  have hlayers : s.layersList = t.layersList := congrArg (fun o => o.layersList) h
  rw [skeleton, skeleton, h, hlayers]

theorem KeepsOutline.skeleton {α : Type} {x : Prog α} (hx : KeepsOutline x) : KeepsSkeleton x :=
  hx.of_eq fun _ _ => EngineState.skeleton_of_outline

/-- A change of one element that a function does not see. -/
theorem map_modify_of_eq {α β : Type} {f : α → α} {g : α → β} (hf : ∀ x, g (f x) = g x) (l : List α)
    (n : ℕ) : (l.modify n f).map g = l.map g := by
  induction l generalizing n with
  | nil => rw [List.modify_nil]
  | cons x l ih =>
    cases n with
    | zero => rw [List.modify_zero_cons, List.map_cons, List.map_cons, hf]
    | succ n => rw [List.modify_succ_cons, List.map_cons, List.map_cons, ih]

namespace Layer

theorem keepsSkeleton_update {n : ℕ} {f : Layer → Layer} (hf : ∀ l, (f l).addr = l.addr) :
    KeepsSkeleton (update n f) := by
  refine .bind (Fixes.readLayer n).skeleton fun _ o s hs => ?_
  rw [← hs]
  exact Prod.ext rfl (map_modify_of_eq hf _ _)

theorem keepsSkeleton_stop (n : ℕ) : KeepsSkeleton (stop n) := by
  refine .bind (Fixes.readLayer n).skeleton fun layer => ?_
  cases layer.activeInstance with
  | none => exact .pure _
  | some a =>
    exact .bind (VisualInstance.keepsOutline_stop a).skeleton fun _ =>
      keepsSkeleton_update fun _ => rfl

theorem keepsSkeleton_setActiveVisualInstance (n : ℕ) (a : Addr) :
    KeepsSkeleton (setActiveVisualInstance n a) :=
  keepsSkeleton_update fun _ => rfl

/-- The part of `Layer::activateSchedulledInstance` after the active instance has been stopped. -/
def startSchedulled (h : Host) (n : ℕ) (b : Addr) : Prog Unit := do
  setActiveVisualInstance n b
  VisualInstance.play h b true
  VisualInstance.update b fun i => { i with video := i.video.setPosition 0 }

/-- The part of `Layer::playVisualInstance` after the active instance has been stopped. -/
def startInstance (h : Host) (n : ℕ) (a : Addr) : Prog Unit := do
  setActiveVisualInstance n a
  VisualInstance.play h a false
  VisualInstance.retriggerIf h a

theorem keepsOutline_waitsForBeat (h : Host) (i : VisualInstance) :
    KeepsOutline (waitsForBeat h i) := by
  refine .ite (.bind (.getInstance h) fun _ => .ite ?_ (.pure _)) (.pure _)
  exact .bind (.getInstance h) fun _ => .pure _

section pieces

-- Apart from what a layer holds, playing changes nothing outside the outline.
variable {I : EngineState → Prop} {n : ℕ} {a : Addr}
  (hI : ∀ {α : Type} {x : Prog α}, KeepsOutline x → Keeps I x)
  (hactive : Keeps I (setActiveVisualInstance n a))

include hI hactive

theorem keeps_startSchedulled (h : Host) : Keeps I (startSchedulled h n a) :=
  .bind hactive fun _ => .bind (hI (VisualInstance.keepsOutline_play h a true)) fun _ =>
    hI (VisualInstance.keepsOutline_setVideo a _)

theorem keeps_startInstance (h : Host) : Keeps I (startInstance h n a) :=
  .bind hactive fun _ => .bind (hI (VisualInstance.keepsOutline_play h a false)) fun _ =>
    hI (VisualInstance.keepsOutline_retriggerIf h a)

theorem keeps_playVisualInstance (hschedule : Keeps I (schedulleInstance n a)) (h : Host) :
    Keeps I (playVisualInstance h n a) := by
  refine .bind (hI (.readInstance a)) fun i => ?_
  refine .bind (hI (keepsOutline_waitsForBeat h i)) fun waits => .ite hschedule ?_
  refine .bind (hI (.readLayer n)) fun layer => .ite ?_ ?_
  · exact hI (VisualInstance.keepsOutline_retriggerIf h a)
  have hstart := keeps_startInstance hI hactive h
  cases layer.activeInstance with
  | none => exact hstart
  | some b => exact .bind (hI (VisualInstance.keepsOutline_stop b)) fun _ => hstart

end pieces

/-- Activating what is scheduled on a layer. -/
theorem keeps_activateSchedulledInstance {I : EngineState → Prop} {n : ℕ}
    (hI : ∀ {α : Type} {x : Prog α}, KeepsOutline x → Keeps I x)
    (hactive : ∀ a, Keeps I (setActiveVisualInstance n a)) (h : Host) :
    Keeps I (activateSchedulledInstance h n) := by
  refine .bind (hI (.readLayer n)) fun layer => ?_
  cases layer.schedulledInstance with
  | none => exact .pure _
  | some b =>
    have hstart := keeps_startSchedulled hI (hactive b) h
    cases layer.activeInstance with
    | none => exact hstart
    | some a =>
      refine .bind (hI (.readInstance a)) fun i => .ite ?_ hstart
      exact .bind (hI (VisualInstance.keepsOutline_stop a)) fun _ => hstart

theorem keepsSkeleton_playVisualInstance (h : Host) (n : ℕ) (a : Addr) :
    KeepsSkeleton (playVisualInstance h n a) := by
  have hschedule : KeepsSkeleton (schedulleInstance n a) := keepsSkeleton_update fun _ => rfl
  exact fun o => keeps_playVisualInstance (fun hx => hx.skeleton o)
    (keepsSkeleton_setActiveVisualInstance n a o) (hschedule o) h

theorem keepsSkeleton_setState (n : ℕ) (state : Json) :
    KeepsSkeleton (setState n state) :=
  .bind (Fixes.readLayer n).skeleton fun _ => .bind (.ofExcept _ _) fun _ =>
    keepsSkeleton_update fun _ => rfl

end Layer

namespace Layers

theorem keepsSkeleton_stopAt (position : UInt32) : KeepsSkeleton (stopAt position) := by
  refine .bind (.gets _) fun layer => ?_
  cases layer with
  | none => exact .pure _
  | some _ => exact Layer.keepsSkeleton_stop _

end Layers

/-! ### Playing -/

/-- Looking an instance up changes nothing. -/
theorem VisualInstances.keepsOutline_get (layerN column : UInt32) (list : List Addr) :
    KeepsOutline (VisualInstances.get layerN column list) := by
  refine .ite (.pure _) ?_
  induction list with
  | nil => exact .pure _
  | cons a rest ih => exact .bind (.readInstance a) fun _ => .ite (.pure _) ih

theorem VisualInstances.keepsOutline_remove (layer column : UInt32) (list : List Addr) :
    KeepsOutline (VisualInstances.remove layer column list) := by
  induction list with
  | nil => exact .pure _
  | cons a rest ih => exact .bind (.readInstance a) fun _ => .ite (.pure _) (.bind ih fun _ => .pure _)

/-- What a lookup of a cell in the current scene finds. -/
def EngineState.foundInCell (s : EngineState) (cell : UInt32 × UInt32) : Option Addr :=
  s.currentScene.bind fun a => (s.scenesList.find? fun scene => scene.addr = a).bind fun scene =>
    VisualInstances.found s.instances cell scene.visualInstances

theorem EngineState.inCell_of_foundInCell {s : EngineState} {cell : UInt32 × UInt32} {a : Addr}
    (ha : s.foundInCell cell = some a) : VisualInstances.inCell s.instances cell a = true := by
  obtain ⟨b, -, hscene⟩ := Option.bind_eq_some_iff.mp ha
  obtain ⟨scene, -, hfound⟩ := Option.bind_eq_some_iff.mp hscene
  exact List.find?_some (VisualInstances.find?_of_found hfound)

/-- A lookup that comes to an end, the instances being live or not. -/
theorem VisualInstances.getLoop_post (layerN column : UInt32) (list : List Addr) {s : EngineState} :
    (getLoop layerN column list s).Post
      (fun found t => t = s ∧ found = list.find? (inCell s.instances (layerN, column)))
      fun _ _ => False := by
  induction list with
  | nil => exact ⟨rfl, rfl⟩
  | cons a rest ih =>
    rw [getLoop, bind_run, VisualInstance.read]
    cases hi : s.instances.get? a with
    | none => trivial
    | some i =>
      simp only [ofOption_some, pure_run, Outcome.bind_ok]
      by_cases hc : i.cell = (layerN, column)
      · rw [if_pos hc]
        exact ⟨rfl, by simp [inCell, hi, hc]⟩
      · rw [if_neg hc]
        refine ih.mono (fun found t ht => ⟨ht.1, ?_⟩) fun _ _ hf => hf
        rw [ht.2]
        simp [inCell, hi, hc]

/-- Looking for an instance in the current scene. -/
theorem Set.getVisualInstanceInCorrentSet_post (layer column : UInt32) (s : EngineState) :
    (Set.getVisualInstanceInCorrentSet layer column s).Post
      (fun found t => t = s ∧ found = s.foundInCell (layer, column)) fun _ _ => False := by
  rw [Set.getVisualInstanceInCorrentSet, bind_run, gets_run, Outcome.bind_ok,
    EngineState.foundInCell]
  cases s.currentScene with
  | none => exact ⟨rfl, rfl⟩
  | some a =>
    simp only [bind_run, Scene.read, Option.bind_some]
    cases s.scenesList.find? fun scene => scene.addr = a with
    | none => trivial
    | some scene =>
      simp only [ofOption_some, pure_run, Outcome.bind_ok, VisualInstances.get,
        VisualInstances.found, Option.bind_some]
      split_ifs
      · exact ⟨rfl, rfl⟩
      · exact VisualInstances.getLoop_post layer column _

theorem Set.keepsOutline_getVisualInstanceInCorrentSet (layer column : UInt32) :
    KeepsOutline (Set.getVisualInstanceInCorrentSet layer column) := by
  refine .bind (.gets _) fun currentScene => ?_
  cases currentScene with
  | none => exact .pure _
  | some a => exact .bind (.readScene a) fun _ => VisualInstances.keepsOutline_get _ _ _

theorem Layers.get_ne_none_iff {s : EngineState} {layer : UInt32} :
    Layers.get layer s ≠ none ↔ layer.toNat < s.layersList.length := by
  rw [Layers.get, Ne, List.getElem?_eq_none_iff, not_le]

/-- Stopping a layer that exists. -/
theorem Layers.stopAt_of_lt {s : EngineState} {layer : UInt32}
    (hlayer : layer.toNat < s.layersList.length) :
    Layers.stopAt layer s = Layer.stop layer.toNat s := by
  rw [Layers.stopAt, bind_run, gets_run, Outcome.bind_ok, Layers.get,
    List.getElem?_eq_getElem hlayer]

namespace Engine

/-- What `Engine::setActiveVisualInstance` finds in an existing layer, it plays and returns. -/
theorem setActiveVisualInstance_of_found {s : EngineState} (h : Host) {layerN column : UInt32}
    (hlayer : Layers.get layerN s ≠ none) {a : Addr}
    (hfound : Set.getVisualInstanceInCorrentSet layerN column s = .ok (some a) s) :
    setActiveVisualInstance h layerN column s =
      (Layer.playVisualInstance h layerN.toNat a s).bind fun _ t => .ok (some a) t := by
  obtain ⟨layer, hget⟩ := Option.ne_none_iff_exists'.mp hlayer
  rw [setActiveVisualInstance, bind_run, gets_run, Outcome.bind_ok, hget]
  dsimp only
  rw [bind_run, hfound, Outcome.bind_ok]
  rfl

/-- Where it finds nothing, it stops the layer, if the set is to stop it. -/
theorem setActiveVisualInstance_of_not_found {s : EngineState} (h : Host) {layerN column : UInt32}
    (hlayer : Layers.get layerN s ≠ none)
    (hnone : Set.getVisualInstanceInCorrentSet layerN column s = .ok none s) :
    setActiveVisualInstance h layerN column s =
      ((if s.stopCurrentVisualIfTriggeredInvalid then Layers.stopAt layerN else pure () :
        Prog Unit) s).bind fun _ t => .ok none t := by
  obtain ⟨layer, hget⟩ := Option.ne_none_iff_exists'.mp hlayer
  rw [setActiveVisualInstance, bind_run, gets_run, Outcome.bind_ok, hget]
  dsimp only
  rw [bind_run, hnone, Outcome.bind_ok]
  dsimp only
  rw [bind_run, gets_run, Outcome.bind_ok]
  split_ifs <;> rfl

/-- `Engine::setActiveVisualInstance` plays what it finds. Otherwise it stops the layer, if the set
is to stop it, and a layer that does not exist is left alone. -/
theorem setActiveVisualInstance_post_of {s : EngineState} {h : Host} {layerN column : UInt32}
    {Q : Option Addr → EngineState → Prop} {E : Thrown → EngineState → Prop}
    (hlayer : Layers.get layerN s = none → Q none s)
    (hfound : ∀ a, Layers.get layerN s ≠ none → s.foundInCell (layerN, column) = some a →
      (Layer.playVisualInstance h layerN.toNat a s).Post (fun _ t => Q (some a) t) E)
    (hnone : Layers.get layerN s ≠ none → s.foundInCell (layerN, column) = none →
      ((if s.stopCurrentVisualIfTriggeredInvalid then Layers.stopAt layerN else pure () :
        Prog Unit) s).Post (fun _ t => Q none t) E) :
    (setActiveVisualInstance h layerN column s).Post Q E := by
  rw [setActiveVisualInstance, bind_run, gets_run, Outcome.bind_ok]
  cases hget : Layers.get layerN s with
  | none => exact hlayer hget
  | some layer =>
    have hne : Layers.get layerN s ≠ none := hget ▸ Option.some_ne_none layer
    refine ((Set.getVisualInstanceInCorrentSet_post layerN column s).mono (fun _ _ ht => ht)
      fun _ _ => False.elim).bind fun found t ht => ?_
    obtain ⟨rfl, hcell⟩ := ht
    cases found with
    | some a => exact (hfound a hne hcell.symm).bind fun _ _ ht => ht
    | none =>
      have hstop := hnone hne hcell.symm
      dsimp only
      rw [bind_run, gets_run, Outcome.bind_ok]
      split_ifs at hstop ⊢
      · exact hstop.bind fun _ _ ht => ht
      · exact hstop

theorem keepsSkeleton_setActiveVisualInstance (h : Host) (layerN column : UInt32) :
    KeepsSkeleton (setActiveVisualInstance h layerN column) := by
  refine .bind (.gets _) fun layer => ?_
  cases layer with
  | none => exact .pure _
  | some _ =>
    refine .bind (Set.keepsOutline_getVisualInstanceInCorrentSet _ _).skeleton fun found => ?_
    cases found with
    | some a => exact .bind (Layer.keepsSkeleton_playVisualInstance h _ a) fun _ => .pure _
    | none =>
      exact .bind (.gets _) fun _ =>
        .ite (.bind (Layers.keepsSkeleton_stopAt layerN) fun _ => .pure _) (.pure _)

theorem keepsSkeleton_play (h : Host) (data : Json) :
    KeepsSkeleton (play h data) := by
  have hnumber : ∀ message key, KeepsSkeleton (numberOr message key data) :=
    fun _ _ => .bind (.ofExcept _ _) fun _ => .ite (.ofExcept _ _) (.throw _)
  refine .ite (.bind (hnumber _ _) fun layer => .bind (hnumber _ _) fun column => ?_) (.throw _)
  refine .bind (keepsSkeleton_setActiveVisualInstance h layer column) fun found => ?_
  cases found with
  | none => exact .throw _
  | some a => exact (VisualInstance.keepsOutline_play h a false).skeleton

theorem keepsSkeleton_stop (data : Json) : KeepsSkeleton (stop data) :=
  .ite (.bind (.ofExcept _ _) fun layer => Layers.keepsSkeleton_stopAt layer)
    (.bind (.gets _) fun _ => .forEach fun n _ => Layer.keepsSkeleton_stop n)

/-- What a beat to snap to does on one layer. -/
theorem keeps_triggerLayer {I : EngineState → Prop} {n : ℕ}
    (hI : ∀ {α : Type} {x : Prog α}, KeepsOutline x → Keeps I x) {h : Host}
    (hactivate : Keeps I (Layer.activateSchedulledInstance h n)) :
    Keeps I (triggerLayer h n) := by
  refine .bind (hI (.readLayer n)) fun layer => ?_
  match layer.schedulledInstance, layer.activeInstance with
  | some _, _ => exact hactivate
  | none, none => exact .pure _
  | none, some a =>
    have hplay := hI (VisualInstance.keepsOutline_play h a true)
    refine .bind (hI (.readInstance a)) fun i => .ite (.ite ?_ hplay) (.pure _)
    exact .bind (hI (VisualInstance.keepsOutline_setVideo a _)) fun _ => hplay

theorem keepsSkeleton_trigger (h : Host) :
    KeepsSkeleton (triggerSchedulledVisualsOnAllLayers h) := by
  refine .bind (.gets _) fun layers => .forEach fun n _ o => ?_
  refine keeps_triggerLayer (fun hx => hx.skeleton o) ?_
  exact Layer.keeps_activateSchedulledInstance (fun hx => hx.skeleton o)
    (fun a => Layer.keepsSkeleton_setActiveVisualInstance n a o) h

theorem getSelectedLayerNumber_eq (h : Host) (s : EngineState) : getSelectedLayerNumber h s =
    .ok s.properties.selectedLayer.toUInt32 (s.resetProperties h) := rfl

theorem getSelectedColumnNumber_eq (h : Host) (s : EngineState) : getSelectedColumnNumber h s =
    .ok s.properties.selectedColumn.toUInt32 (s.resetProperties h) := rfl

theorem keepsOutline_getSelectedLayerNumber (h : Host) :
    KeepsOutline (getSelectedLayerNumber h) := .bind (.getInstance h) fun _ => .pure _

theorem keepsOutline_getSelectedColumnNumber (h : Host) :
    KeepsOutline (getSelectedColumnNumber h) := .bind (.getInstance h) fun _ => .pure _

theorem keepsOutline_isSelectedCell (h : Host) (layer column : UInt32) :
    KeepsOutline (isSelectedCell h layer column) :=
  .bind (keepsOutline_getSelectedLayerNumber h) fun _ =>
    .ite (.bind (keepsOutline_getSelectedColumnNumber h) fun _ => .pure _) (.pure _)

theorem keepsOutline_derefCurrentScene : KeepsOutline derefCurrentScene :=
  .bind (.gets _) fun a => .deref _ fun _ => a

theorem keepsOutline_getCurrentActiveVisualInstance (h : Host) :
    KeepsOutline (getCurrentActiveVisualInstance h) := by
  refine .bind (keepsOutline_getSelectedLayerNumber h) fun _ => ?_
  refine .bind (keepsOutline_getSelectedColumnNumber h) fun _ => ?_
  refine .bind (.gets _) fun currentScene => ?_
  cases currentScene with
  | none => exact .pure _
  | some a => exact .bind (.readScene a) fun _ => VisualInstances.keepsOutline_get _ _ _

theorem keepsOutline_getFullState (h : Host) : KeepsOutline (getFullState h) :=
  .bind (.gets _) fun _ => .bind (keepsOutline_getCurrentActiveVisualInstance h) fun a =>
    .bind (.deref _ fun _ => a) fun _ => .bind (.readInstance _) fun _ => .pure _

end Engine

/-! ### Encoding and requests -/

/-- Encoding the state changes nothing. -/
theorem VisualInstances.keepsOutline_getStates (all list : List Addr) :
    KeepsOutline (VisualInstances.getStates all list) := by
  induction list with
  | nil => exact .pure _
  | cons a rest ih =>
    exact .bind (.readInstance a) fun _ => .bind (.readVisual _) fun _ => .bind ih fun _ => .pure _

theorem Set.keepsOutline_getScenesStates (scenes : List Scene) :
    KeepsOutline (Set.getScenesStates scenes) := by
  induction scenes with
  | nil => exact .pure _
  | cons scene rest ih =>
    have hscene : KeepsOutline scene.getState :=
      .bind (.bind (VisualInstances.keepsOutline_getStates _ _) fun _ => .pure _) fun _ => .pure _
    exact .bind hscene fun _ => .bind ih fun _ => .pure _

theorem Engine.keepsOutline_getState : KeepsOutline Engine.getState :=
  .bind (.gets _) fun _ => .bind (.gets _) fun _ =>
    .bind (.bind (.gets _) fun _ => .bind (Set.keepsOutline_getScenesStates _) fun _ => .pure _)
      fun _ => .pure _

/-- Every request but `setState` leaves the skeleton alone. -/
theorem keepsSkeleton_handleAction (h : Host) (request : Json) {action : Action}
    (ha : action ≠ .setState) : KeepsSkeleton (handleAction h request action) := by
  cases action with
  | ping => exact .pure _
  | getState => exact .bind Engine.keepsOutline_getState.skeleton fun _ => .pure _
  | setState => exact absurd rfl ha
  | getFullState => exact .bind (Engine.keepsOutline_getFullState h).skeleton fun _ => .pure _
  | setLayerControl =>
    exact .bind (.ofExcept _ _) fun data => .bind (.ofExcept _ _) fun name =>
      .bind (.ofExcept _ _) fun value => .bind (.ofExcept _ _) fun n =>
        .bind (Layer.keepsSkeleton_setState _ _) fun _ =>
          .bind (Fixes.readLayer _).skeleton fun _ => .bind (.ofExcept _ _) fun _ => .pure _
  | updateState =>
    refine .bind (.ofExcept _ _) fun data => .bind (.bind (.ofExcept _ _) fun layers => ?_)
      fun _ => .pure _
    exact .bind (.forEach fun entry _ => Layer.keepsSkeleton_setState _ _) fun _ => .pure _

/-! ### The set -/

theorem Set.keepsGraph_setCurrentScene (h : Host) (n : UInt32) :
    KeepsGraph (Set.setCurrentScene h n) := by
  refine .bind (.gets _) fun scenes => ?_
  match scenes, scenes[n.toNat]? with
  | [], _ => exact fun _ => .undefined _
  | _ :: _, none => exact .pure _
  | _ :: _, some scene =>
    exact .bind (fun _ _ hs => hs) fun _ =>
      (VisualInstances.keepsOutline_loadAll h scene.visualInstances).graph

theorem Set.keepsGraph_saveSetAs (h : Host) (path : String) : KeepsGraph (Set.saveSetAs h path) := by
  refine .bind (fun _ _ hs => hs) fun _ => .bind Engine.keepsOutline_getState.graph fun state => ?_
  refine .bind (.ite (.throw _) (.ite (.pure _) (.throw _))) fun _ => ?_
  refine .ite (.ite (.bind (fun _ _ hs => hs) fun _ => ?_) (.throw _)) (.throw _)
  exact .ite (.pure _) (.throw _)

theorem keeps_intLoop {I : EngineState → Prop} {body : Prog Unit} (hb : Keeps I body)
    (start bound : ℕ) : Keeps I (intLoop start bound body) :=
  .ite (.iterate hb) (.bind (.iterate hb) fun _ => .undefined _)

/-- What `Set::newSet` does to the object graph is to add layers and a scene. -/
theorem Set.keeps_newSet {I : EngineState → Prop} (hI : ∀ s t, s.graph = t.graph → I s → I t)
    {h : Host} (hadd : Keeps I (Layers.add h true))
    (hscene : Keeps I (Scenes.newScene "First Scene")) (width height nLayers : UInt32) :
    Keeps I (Set.newSet h width height nLayers) := by
  have hset : ∀ f, Keeps I (EngineProperties.update h f) := fun f =>
    (Fixes.updateProperties h f).graph.keeps hI
  have hmodify : ∀ f : EngineState → EngineState, (∀ s, (f s).graph = s.graph) →
      Keeps I (modify f : Prog Unit) := fun f hf => .modify fun s hs => hI s _ (hf s).symm hs
  refine .bind (hset _) fun _ => .bind (hset _) fun _ => .bind (hmodify _ fun _ => rfl) fun _ => ?_
  refine .bind (keeps_intLoop (.bind hadd fun _ => .pure _) _ _) fun _ => .bind hscene fun _ => ?_
  refine .bind (hmodify _ fun _ => rfl) fun _ => ?_
  exact .bind ((Set.keepsGraph_setCurrentScene h 0).keeps hI) fun _ => hmodify _ fun _ => rfl

/-- Reading a document fills the three lists, one after the other. -/
theorem Engine.keeps_setState {I : EngineState → Prop} {h : Host}
    (hvisuals : ∀ visuals, Keeps I (Visuals.setState h visuals))
    (hlayers : ∀ layers, Keeps I (Layers.setState h layers))
    (hscenes : ∀ scenes, Keeps I (Scenes.setState h scenes)) (state : Json) :
    Keeps I (Engine.setState h state) := by
  have hlast : Keeps I (do
      let scenes ← Prog.json (state.index "scenes")
      if scenes.isArray then Scenes.setState h scenes : Prog Unit) :=
    .bind (.ofExcept _ _) fun scenes => .ite (hscenes scenes) (.pure _)
  have hrest : Keeps I (do
      let layers ← Prog.json (state.index "layers")
      if layers.isArray then Layers.setState h layers
      let scenes ← Prog.json (state.index "scenes")
      if scenes.isArray then Scenes.setState h scenes : Prog Unit) :=
    .bind (.ofExcept _ _) fun layers => .ite (.bind (hlayers layers) fun _ => hlast) hlast
  exact .bind (.ofExcept _ _) fun visuals => .ite (.bind (hvisuals visuals) fun _ => hrest) hrest

end ArbutusEngine
