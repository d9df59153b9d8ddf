import ArbutusEngine.Lib.Built
import ArbutusEngine.Requests
import ArbutusEngine.SessionFrame

/-!
# What playing is made of

Whatever plays, stops, draws or controls a set is built from six steps: an instance is changed, the
video of an instance that has none open is opened, a layer is changed, a setting is changed, a camera
is opened, and the output buffer is changed. No change of an instance moves it to another cell or
gives it another visual, and none dates it otherwise than to the present; no setting that is changed
is the selected layer. Only the closing of idle videos and the moves between scenes close a video, or
open one again; where that is allowed, opening a video is no step of its own, but a change of the
instance.

What holds of the six steps therefore holds of everything that is played.

## Main definitions

* `PlaybackWrite`, `PlaybackStep`: the steps.
* `Performs`: programs built from them.
* `Event.IsPlayback`: the events that play, stop, draw or control, and do not edit the set.

## Main results

* `Event.performs_run`: these events are built from the steps.
* `Engine.performs_cleanup`, `VisualInstances.performs_loadAll`: so are those that close videos.
-/

open Exec

namespace ArbutusEngine

/-! ### The steps -/

namespace VisualInstance

/-- Open the video of an instance, unless it is open. -/
def loadIfClosed (h : Host) (a : Addr) : Prog Unit := do
  let i ← read a
  if i.video.isLoaded then pure () else do let _ ← loadVideo h a

end VisualInstance

/-- The time of a call, in milliseconds. -/
abbrev Host.now (h : Host) : ℕ := h.ofGetElapsedTimeMillis.toNat

/-- What playing can do to an instance: it stays in its cell, and its dates stay or become the
present. Its video stays open, unless videos may be closed. -/
structure PlaybackWrite (h : Host) (closes : Prop) (g : VisualInstance → VisualInstance) :
    Prop where
  visual : ∀ i, (g i).visual = i.visual
  cell : ∀ i, (g i).cell = i.cell
  opened : ∀ i, (g i).properties.openedTimestamp = i.properties.openedTimestamp ∨
    (g i).properties.openedTimestamp = h.now
  lastPlayed : ∀ i, (g i).properties.lastPlayedTimestamp = i.properties.lastPlayedTimestamp ∨
    (g i).properties.lastPlayedTimestamp = h.now
  isLoaded : closes ∨ ∀ i, (g i).video.isLoaded = i.video.isLoaded

/-- The steps that playing is made of. -/
inductive PlaybackStep (h : Host) (closes : Prop) : Prog Unit → Prop
  | write (a : Addr) {g : VisualInstance → VisualInstance} (hg : PlaybackWrite h closes g) :
    PlaybackStep h closes (VisualInstance.update a g)
  | load (hc : ¬closes) (a : Addr) : PlaybackStep h closes (VisualInstance.loadIfClosed h a)
  | layer (n : ℕ) (f : Layer → Layer) : PlaybackStep h closes (Layer.update n f)
  | setting {f : EngineProperties → EngineProperties}
      (hf : ∀ p, (f p).selectedLayer = p.selectedLayer) :
    PlaybackStep h closes (EngineProperties.update h f)
  | camera (a : Addr) : PlaybackStep h closes (VisualInstance.openCamera a)
  | buffer (b : Option (UInt32 × UInt32)) :
    PlaybackStep h closes (modify fun s => { s with buffer := b })

/-- The program is built from such steps. -/
abbrev Performs (h : Host) (closes : Prop) {α : Type} (x : Prog α) : Prop :=
  Built (PlaybackStep h closes) x

end ArbutusEngine

namespace Exec.Built

open ArbutusEngine

variable {h : Host} {closes : Prop}

theorem readInstance (a : Addr) : Performs h closes (VisualInstance.read a) := deref _ _

theorem readVisual (a : Addr) : Performs h closes (Visual.read a) := deref _ _

theorem readLayer (n : ℕ) : Performs h closes (Layer.read n) := deref _ _

theorem readScene (a : Addr) : Performs h closes (Scene.read a) := deref _ _

theorem getInstance : Performs h closes (EngineProperties.getInstance h) := by
  have hreset : Performs h closes (EngineProperties.update h id) := .basic (.setting fun _ => rfl)
  exact hreset.bind fun _ => gets EngineState.properties

theorem write (a : Addr) {g : VisualInstance → VisualInstance} (hg : PlaybackWrite h closes g) :
    Performs h closes (VisualInstance.update a g) := .basic (.write a hg)

theorem layer (n : ℕ) (f : Layer → Layer) : Performs h closes (Layer.update n f) :=
  .basic (.layer n f)

end Exec.Built

namespace ArbutusEngine

variable {h : Host} {closes : Prop}

/-! ### The functions of instances -/

namespace PlaybackWrite

/-- A change of what is neither dated nor placed. -/
theorem of_plain {g : VisualInstance → VisualInstance} (hv : ∀ i, (g i).visual = i.visual)
    (hc : ∀ i, (g i).cell = i.cell)
    (ho : ∀ i, (g i).properties.openedTimestamp = i.properties.openedTimestamp)
    (hp : ∀ i, (g i).properties.lastPlayedTimestamp = i.properties.lastPlayedTimestamp)
    (hl : ∀ i, (g i).video.isLoaded = i.video.isLoaded) : PlaybackWrite h closes g :=
  ⟨hv, hc, fun i => .inl (ho i), fun i => .inl (hp i), .inr hl⟩

theorem setIsPlaying (on : Bool) : PlaybackWrite h closes (VisualInstance.setIsPlaying on) :=
  .of_plain (fun _ => rfl) (fun _ => rfl) (fun _ => rfl) (fun _ => rfl) fun _ => rfl

theorem setIsTriggered (on : Bool) : PlaybackWrite h closes (VisualInstance.setIsTriggered on) :=
  .of_plain (fun _ => rfl) (fun _ => rfl) (fun _ => rfl) (fun _ => rfl) fun _ => rfl

theorem setLastPlayed : PlaybackWrite h closes (VisualInstance.setLastPlayedTimestampToNow h) :=
  ⟨fun _ => rfl, fun _ => rfl, fun _ => .inl rfl, fun _ => .inr rfl, .inr fun _ => rfl⟩

/-- A change of the player that leaves it open or closed. -/
theorem player {g : VisualInstance → VideoPlayer}
    (hl : ∀ i, (g i).isLoaded = i.video.isLoaded) :
    PlaybackWrite h closes fun i => { i with video := g i } :=
  .of_plain (fun _ => rfl) (fun _ => rfl) (fun _ => rfl) (fun _ => rfl) hl

/-- The player is exchanged. -/
theorem exchange (hc : closes) (g : VisualInstance → VideoPlayer) :
    PlaybackWrite h closes fun i => { i with video := g i } :=
  ⟨fun _ => rfl, fun _ => rfl, fun _ => .inl rfl, fun _ => .inl rfl, .inl hc⟩

theorem setOpened : PlaybackWrite h closes (VisualInstance.setOpenedTimestampToNow h) :=
  ⟨fun _ => rfl, fun _ => rfl, fun _ => .inr rfl, fun _ => .inl rfl, .inr fun _ => rfl⟩

end PlaybackWrite

namespace VisualInstance

variable (a : Addr)

/-- Opening a video closes the one that is open. -/
theorem performs_loadVideo (hc : closes) : Performs h closes (loadVideo h a) := by
  refine .bind (.write a (.setIsPlaying _)) fun _ => .bind (.readInstance a) fun i =>
    .bind (.readVisual _) fun v => ?_
  cases v.source with
  | video filePath =>
    refine .ite (.bind (.write a (.exchange hc _)) fun _ => .ite ?_ (.throw _)) (.throw _)
    exact .bind (.write a .setOpened) fun _ => .pure _
  | camera => exact .pure _
  | syphon => exact .pure _

theorem performs_loadIfClosed : Performs h closes (loadIfClosed h a) := by
  by_cases hc : closes
  · exact .bind (.readInstance a) fun _ =>
      .ite (.pure _) (.bind (performs_loadVideo a hc) fun _ => .pure _)
  · exact .basic (.load hc a)

/-- Nothing happens between two reads. -/
theorem read_again {α : Type} (x : VisualInstance → Visual → Prog α) :
    (do
      let i ← read a
      let visual ← Visual.read i.visual
      x i visual) = (do
      let i ← read a
      let visual ← Visual.read i.visual
      let i ← read a
      x i visual : Prog α) := by
  funext s
  simp only [bind_run, read, Visual.read]
  cases hi : s.instances.get? a with
  | none => rfl
  | some i =>
    simp only [ofOption_some, pure_run, Outcome.bind_ok]
    cases s.visualsList.find? fun v => v.addr = i.visual with
    | none => rfl
    | some v =>
      simp only [ofOption_some, pure_run, Outcome.bind_ok, hi]

/-- What is done with a visual whose video is opened first, unless it is open. -/
theorem performs_loaded {x : Prog Unit} (hx : Performs h closes x) :
    Performs h closes (do
      let i ← read a
      if i.video.isLoaded then x else do
        let _ ← loadVideo h a
        x) := by
  have heq : (do
      let i ← read a
      if i.video.isLoaded then x else do
        let _ ← loadVideo h a
        x) = (do
      loadIfClosed h a
      x : Prog Unit) := by
    rw [loadIfClosed, bind_assoc]
    refine congrArg _ (funext fun i => ?_)
    split_ifs
    · rfl
    · rw [bind_assoc]
      rfl
  rw [heq]
  exact .bind (performs_loadIfClosed a) fun _ => hx

theorem performs_snapsToBeat (i : VisualInstance) : Performs h closes (snapsToBeat h i) :=
  .ite (.bind .getInstance fun _ => .pure _) (.pure _)

theorem performs_playLoaded (forcePlay : Bool) :
    Performs h closes (playLoaded h a forcePlay) := by
  have hplaying : Performs h closes (update a (setIsPlaying true)) := .write a (.setIsPlaying _)
  refine .bind (.readInstance a) fun i => .ite ?_ (.pure _)
  refine .bind (performs_snapsToBeat i) fun _ => .ite ?_ ?_
  · exact .bind (.write a (.setIsTriggered _)) fun _ => hplaying
  · exact .bind (.write a (.player fun _ => rfl)) fun _ => hplaying

theorem performs_play (forcePlay : Bool) : Performs h closes (play h a forcePlay) := by
  refine .bind (.write a (.setIsTriggered _)) fun _ => .bind (.write a .setLastPlayed) fun _ => ?_
  have hplaying : Performs h closes (update a (setIsPlaying true)) := .write a (.setIsPlaying _)
  rw [read_again]
  refine .bind (.readInstance a) fun i => .bind (.readVisual _) fun v => ?_
  cases v.source with
  | video filePath => exact performs_loaded a (performs_playLoaded a forcePlay)
  | camera => exact .bind (.readInstance a) fun i => .bind (.basic (.camera _)) fun _ => hplaying
  | syphon => exact .bind (.readInstance a) fun i => hplaying

theorem performs_stop : Performs h closes (stop a) := by
  refine .bind (.readInstance a) fun i => .bind (.readVisual _) fun v => ?_
  have hstopped : Performs h closes (update a (setIsPlaying false)) := .write a (.setIsPlaying _)
  cases v.source with
  | video filePath =>
    exact .ite (.bind (.write a (.player fun _ => rfl)) fun _ => hstopped) (.pure _)
  | camera => exact hstopped
  | syphon => exact hstopped

theorem performs_retrigger : Performs h closes (retrigger h a) := by
  refine .bind (.readInstance a) fun i => .bind (performs_snapsToBeat i) fun _ => ?_
  refine .ite (.write a (.setIsTriggered _)) ?_
  exact .bind (.write a (.player fun _ => rfl)) fun _ => .write a .setLastPlayed

theorem performs_retriggerIf : Performs h closes (retriggerIf h a) :=
  .bind (.readInstance a) fun _ => .ite (performs_retrigger a) (.pure _)

theorem performs_autoLoadAndAutoPlayVideo :
    Performs h closes (autoLoadAndAutoPlayVideo h a) := by
  have hplay : Performs h closes (do
      let i ← read a
      if i.video.isPlaying && i.properties.isPlaying then pure () else play h a false) :=
    .bind (.readInstance a) fun _ => .ite (.pure _) (performs_play a false)
  rw [autoLoadAndAutoPlayVideo, read_again]
  refine .bind (.readInstance a) fun i => .bind (.readVisual _) fun v => ?_
  cases v.source with
  | video filePath => exact performs_loaded a hplay
  | camera => exact .bind (.readInstance a) fun _ => .pure _
  | syphon => exact .bind (.readInstance a) fun _ => .pure _

theorem performs_updateVideo : Performs h closes (updateVideo a) := by
  have hdirection : PlaybackWrite h closes handleDirectionChange := by
    refine .of_plain (fun i => ?_) (fun i => ?_) (fun i => ?_) (fun i => ?_) fun i => ?_
    all_goals
      rw [handleDirectionChange]
      split_ifs <;> rfl
  have hloop : PlaybackWrite h closes handleLoopModeChange := by
    refine .of_plain (fun i => ?_) (fun i => ?_) (fun i => ?_) (fun i => ?_) fun i => ?_
    all_goals
      rw [handleLoopModeChange, setLoopMode]
      split_ifs <;> rfl
  refine .bind (.readInstance a) fun i => .bind (.readVisual _) fun v => ?_
  cases v.source with
  | video filePath =>
    exact .ite (.bind (.write a hdirection) fun _ => .write a hloop) (.pure _)
  | camera => exact .pure _
  | syphon => exact .pure _

theorem performs_draw (width height : UInt32) : Performs h closes (draw h a width height) :=
  .bind (performs_autoLoadAndAutoPlayVideo a) fun _ => .bind (performs_updateVideo a) fun _ =>
    .write a (.of_plain (fun _ => rfl) (fun _ => rfl) (fun _ => rfl) (fun _ => rfl) fun _ => rfl)

theorem performs_setBeatSnap (on : Bool) : Performs h closes (update a fun i =>
    { i with properties := { i.properties with beatSnap := on } }) :=
  .write a (.of_plain (fun _ => rfl) (fun _ => rfl) (fun _ => rfl) (fun _ => rfl) fun _ => rfl)

/-- No control of an instance dates it. -/
theorem dates_of_mem_actionCases {c : String ×
    (VisualInstancesProperties → ℚ → VisualInstancesProperties)} (hc : c ∈ actionCases)
    (p : VisualInstancesProperties) (v : ℚ) :
    (c.2 p v).openedTimestamp = p.openedTimestamp ∧
      (c.2 p v).lastPlayedTimestamp = p.lastPlayedTimestamp := by
  simp only [actionCases, List.mem_cons, List.not_mem_nil, or_false] at hc
  rcases hc with rfl | rfl | rfl | rfl | rfl | rfl | rfl | rfl | rfl | rfl | rfl | rfl | rfl |
    rfl | rfl | rfl
  all_goals exact ⟨rfl, rfl⟩

theorem performs_handleAction (parameter : List UInt8) (data : Json) :
    Performs h closes (handleAction a parameter data) := by
  refine .bind (.ofExcept _ _) fun value => ?_
  cases hsetter : hashSwitch (actionCases (N := ℚ)) parameter with
  | none => exact .pure _
  | some setter =>
    obtain ⟨name, hmem, -⟩ := hashSwitch_mem hsetter
    refine .write a (.of_plain (fun _ => rfl) (fun i => ?_) (fun i => ?_) (fun i => ?_) fun _ => rfl)
    · obtain ⟨hlayer, hcolumn⟩ := cell_of_mem_actionCases hmem i.properties value
      exact Prod.ext (congrArg Int32.toUInt32 hlayer) (congrArg Int32.toUInt32 hcolumn)
    · exact (dates_of_mem_actionCases hmem i.properties value).1
    · exact (dates_of_mem_actionCases hmem i.properties value).2

end VisualInstance

/-! ### The functions of layers -/

namespace Layer

variable (n : ℕ)

theorem performs_stop : Performs h closes (stop n) := by
  refine .bind (.readLayer n) fun layer => ?_
  cases layer.activeInstance with
  | none => exact .pure _
  | some a => exact .bind (VisualInstance.performs_stop a) fun _ => .layer n _

theorem performs_startSchedulled (a : Addr) : Performs h closes (startSchedulled h n a) :=
  .bind (.layer n _) fun _ => .bind (VisualInstance.performs_play a true) fun _ =>
    .write a (.player fun _ => rfl)

theorem performs_activateSchedulledInstance :
    Performs h closes (activateSchedulledInstance h n) := by
  refine .bind (.readLayer n) fun layer => ?_
  cases layer.schedulledInstance with
  | none => exact .pure _
  | some b =>
    have hstart : Performs h closes (startSchedulled h n b) := performs_startSchedulled n b
    cases layer.activeInstance with
    | none => exact hstart
    | some a =>
      refine .bind (.readInstance a) fun i => .ite ?_ hstart
      exact .bind (VisualInstance.performs_stop a) fun _ => hstart

theorem performs_waitsForBeat (i : VisualInstance) : Performs h closes (waitsForBeat h i) :=
  .ite (.bind .getInstance fun _ => .ite (.bind .getInstance fun _ => .pure _) (.pure _)) (.pure _)

theorem performs_startInstance (a : Addr) : Performs h closes (startInstance h n a) :=
  .bind (.layer n _) fun _ => .bind (VisualInstance.performs_play a false) fun _ =>
    VisualInstance.performs_retriggerIf a

theorem performs_playVisualInstance (a : Addr) :
    Performs h closes (playVisualInstance h n a) := by
  refine .bind (.readInstance a) fun i => .bind (performs_waitsForBeat i) fun waits => ?_
  refine .ite (.layer n _) (.bind (.readLayer n) fun layer => .ite ?_ ?_)
  · exact VisualInstance.performs_retriggerIf a
  have hstart : Performs h closes (startInstance h n a) := performs_startInstance n a
  cases layer.activeInstance with
  | none => exact hstart
  | some b => exact .bind (VisualInstance.performs_stop b) fun _ => hstart

theorem performs_setState (state : Json) : Performs h closes (setState n state) :=
  .bind (.readLayer n) fun _ => .bind (.ofExcept _ _) fun _ => .layer n _

theorem performs_handleAction (parameter : List UInt8) (data : Json) :
    Performs h closes (handleAction n parameter data) := by
  refine .bind (.ofExcept _ _) fun value => ?_
  cases hashSwitch (actionCases (N := ℚ)) parameter with
  | none => exact .pure _
  | some setter => exact .layer n _

theorem performs_render : Performs h closes (render h n) := by
  refine .bind (.layer n _) fun _ => .bind (.readLayer n) fun layer => ?_
  match layer.activeInstance, layer.buffer with
  | none, _ => exact .pure _
  | some _, none => exact .pure _
  | some a, some (width, height) => exact VisualInstance.performs_draw a width height

end Layer

namespace Layers

theorem performs_stopAt (position : UInt32) : Performs h closes (stopAt position) := by
  refine .bind (.gets _) fun layer => ?_
  cases layer with
  | none => exact .pure _
  | some _ => exact Layer.performs_stop _

theorem performs_stopAll : Performs h closes stopAll :=
  .bind (.gets _) fun _ => .forEach fun n _ => Layer.performs_stop n

theorem performs_getCurrentId : Performs h closes (getCurrentId h) :=
  .bind .getInstance fun _ => .pure _

end Layers

/-! ### Looking things up -/

namespace VisualInstances

theorem performs_get (layerN column : UInt32) (list : List Addr) :
    Performs h closes (get layerN column list) := by
  refine .ite (.pure _) ?_
  induction list with
  | nil => exact .pure _
  | cons a rest ih => exact .bind (.readInstance a) fun _ => .ite (.pure _) ih

theorem performs_countInLayer (layer : UInt32) (list : List Addr) :
    Performs h closes (countInLayer layer list) := by
  have hfrom : ∀ n, Performs h closes (countInLayerFrom layer n list) := by
    induction list with
    | nil => exact fun _ => .pure _
    | cons a rest ih => exact fun n => .bind (.readInstance a) fun _ => ih _
  exact hfrom 0

theorem performs_getStates (all list : List Addr) : Performs h closes (getStates all list) := by
  induction list with
  | nil => exact .pure _
  | cons a rest ih =>
    exact .bind (.readInstance a) fun _ => .bind (.readVisual _) fun _ => .bind ih fun _ => .pure _

end VisualInstances

namespace Set

theorem performs_getVisualInstanceInCorrentSet (layer column : UInt32) :
    Performs h closes (getVisualInstanceInCorrentSet layer column) := by
  refine .bind (.gets _) fun currentScene => ?_
  cases currentScene with
  | none => exact .pure _
  | some a => exact .bind (.readScene a) fun _ => VisualInstances.performs_get _ _ _

theorem performs_getScenesStates (scenes : List Scene) :
    Performs h closes (getScenesStates scenes) := by
  induction scenes with
  | nil => exact .pure _
  | cons scene rest ih =>
    have hscene : Performs h closes scene.getState :=
      .bind (.bind (VisualInstances.performs_getStates _ _) fun _ => .pure _) fun _ => .pure _
    exact .bind hscene fun _ => .bind ih fun _ => .pure _

end Set

/-! ### The functions of the engine -/

namespace Engine

theorem performs_getSelectedLayerNumber : Performs h closes (getSelectedLayerNumber h) :=
  .bind .getInstance fun _ => .pure _

theorem performs_getSelectedColumnNumber : Performs h closes (getSelectedColumnNumber h) :=
  .bind .getInstance fun _ => .pure _

theorem performs_derefCurrentScene : Performs h closes derefCurrentScene :=
  .bind (.gets _) fun a => .deref _ fun _ => a

theorem performs_getState : Performs h closes getState :=
  .bind (.gets _) fun _ => .bind (.gets _) fun _ =>
    .bind (.bind (.gets _) fun _ => .bind (Set.performs_getScenesStates _) fun _ => .pure _)
      fun _ => .pure _

theorem performs_getFullState : Performs h closes (getFullState h) := by
  have hfound : Performs h closes (getCurrentActiveVisualInstance h) := by
    refine .bind performs_getSelectedLayerNumber fun _ => ?_
    refine .bind performs_getSelectedColumnNumber fun _ => .bind (.gets _) fun currentScene => ?_
    cases currentScene with
    | none => exact .pure _
    | some a => exact .bind (.readScene a) fun _ => VisualInstances.performs_get _ _ _
  exact .bind (.gets _) fun _ => .bind hfound fun a => .bind (.deref _ fun _ => a) fun _ =>
    .bind (.readInstance _) fun _ => .pure _

theorem performs_setActiveVisualInstance (layerN column : UInt32) :
    Performs h closes (setActiveVisualInstance h layerN column) := by
  refine .bind (.gets _) fun layer => ?_
  cases layer with
  | none => exact .pure _
  | some _ =>
    refine .bind (Set.performs_getVisualInstanceInCorrentSet _ _) fun found => ?_
    cases found with
    | some a => exact .bind (Layer.performs_playVisualInstance _ a) fun _ => .pure _
    | none =>
      exact .bind (.gets _) fun _ =>
        .ite (.bind (Layers.performs_stopAt layerN) fun _ => .pure _) (.pure _)

theorem performs_setActiveVisualIntances (columnN : UInt32) :
    Performs h closes (setActiveVisualIntances h columnN) :=
  .bind (.gets _) fun _ => .forEach fun _ _ =>
    .bind (performs_setActiveVisualInstance _ columnN) fun _ => .pure _

theorem performs_setActiveVisualIntanceOnActiveLayer (n : UInt32) :
    Performs h closes (setActiveVisualIntanceOnActiveLayer h n) :=
  .bind performs_getSelectedLayerNumber fun _ =>
    .bind (performs_setActiveVisualInstance _ n) fun _ => .pure _

theorem performs_countInSelectedLayer : Performs h closes (countInSelectedLayer h) :=
  .bind performs_derefCurrentScene fun a => .bind (.readScene a) fun _ =>
    .bind performs_getSelectedLayerNumber fun _ => VisualInstances.performs_countInLayer _ _

theorem performs_playLast : Performs h closes (playLastVisualInstanceOnActiveLayer h) :=
  .bind performs_countInSelectedLayer fun _ => performs_setActiveVisualIntanceOnActiveLayer _

theorem performs_playPrevious : Performs h closes (playPreviousVisualInstanceOnActiveLayer h) :=
  .bind performs_getSelectedColumnNumber fun _ => .ite (.pure _)
    (.bind performs_getSelectedColumnNumber fun _ => performs_setActiveVisualIntanceOnActiveLayer _)

theorem performs_playNext : Performs h closes (playNextVisualInstanceOnActiveLayer h) :=
  .bind performs_getSelectedColumnNumber fun _ => .bind performs_countInSelectedLayer fun _ =>
    .ite (.pure _) (.bind performs_getSelectedColumnNumber fun _ =>
      performs_setActiveVisualIntanceOnActiveLayer _)

theorem performs_play (data : Json) : Performs h closes (play h data) := by
  have hnumber : ∀ message key, Performs h closes (numberOr message key data) :=
    fun _ _ => .bind (.ofExcept _ _) fun _ => .ite (.ofExcept _ _) (.throw _)
  refine .ite (.bind (hnumber _ _) fun layer => .bind (hnumber _ _) fun column => ?_) (.throw _)
  refine .bind (performs_setActiveVisualInstance layer column) fun found => ?_
  cases found with
  | none => exact .throw _
  | some a => exact VisualInstance.performs_play a false

theorem performs_stop (data : Json) : Performs h closes (stop data) :=
  .ite (.bind (.ofExcept _ _) fun layer => Layers.performs_stopAt layer) Layers.performs_stopAll

theorem performs_triggerLayer (n : ℕ) : Performs h closes (triggerLayer h n) := by
  refine .bind (.readLayer n) fun layer => ?_
  match layer.schedulledInstance, layer.activeInstance with
  | some _, _ => exact Layer.performs_activateSchedulledInstance n
  | none, none => exact .pure _
  | none, some a =>
    have hplay : Performs h closes (VisualInstance.play h a true) :=
      VisualInstance.performs_play a true
    refine .bind (.readInstance a) fun i => .ite (.ite ?_ hplay) (.pure _)
    exact .bind (.write a (.player fun _ => rfl)) fun _ => hplay

theorem performs_trigger : Performs h closes (triggerSchedulledVisualsOnAllLayers h) :=
  .bind (.gets _) fun _ => .forEach fun n _ => performs_triggerLayer n

theorem performs_beat : Performs h closes (beat h) := by
  refine .basic (.setting fun p => ?_)
  rw [EngineProperties.beat]
  dsimp only
  split_ifs <;> rfl

theorem performs_render : Performs h closes (render h) := by
  have hsnap : Performs h closes (renderSnap h) :=
    .bind .getInstance fun p => .ite (.bind performs_trigger fun _ =>
      .basic (.setting fun _ => rfl)) (.pure _)
  refine .bind (.gets _) fun layers => .bind (.gets _) fun _ => .ite (.pure _) ?_
  refine .bind hsnap fun _ => .bind (.forEach fun n _ => Layer.performs_render n) fun _ => ?_
  exact .forEach fun _ _ => .bind .getInstance fun _ => .bind .getInstance fun _ => .pure _

theorem performs_handleAction (parameter : List UInt8) (data : Json) :
    Performs h closes (handleAction h parameter data) := by
  have hlayer : Performs h closes (getLayerForActionHandler h data) := by
    refine .bind (.ofExcept _ _) fun layer => ?_
    have hlast : ∀ n, Performs h closes (do
        let layer ← gets (Layers.get n)
        return layer.map fun _ => n.toNat : Prog (Option ℕ)) :=
      fun _ => .bind (.gets _) fun _ => .pure _
    refine .ite (.bind (.bind (.ofExcept _ _) fun _ => .pure _) fun n => hlast n) ?_
    exact .bind Layers.performs_getCurrentId fun n => hlast n
  rw [handleAction]
  cases hashSwitch actionCases parameter with
  | none => exact .pure _
  | some target =>
    cases target with
    | layer =>
      refine .bind hlayer fun n => ?_
      cases n with
      | none => exact .pure _
      | some n => exact Layer.performs_handleAction n _ data
    | visual =>
      refine .bind hlayer fun n => ?_
      cases n with
      | none => exact .pure _
      | some n =>
        refine .bind (.readLayer n) fun layer => ?_
        cases layer.activeInstance with
        | none => exact .pure _
        | some a => exact VisualInstance.performs_handleAction a _ data

theorem performs_initBuffer : Performs h closes (initBuffer h) := by
  refine .bind (.gets _) fun buffer => ?_
  cases buffer with
  | some _ => exact .pure _
  | none => exact .bind .getInstance fun _ => .bind .getInstance fun _ => .basic (.buffer _)

theorem performs_setMixerResolution (width height : UInt32) :
    Performs h closes (setMixerResolution h width height) := by
  have hsize : ∀ f, (∀ p : EngineProperties, (f p).selectedLayer = p.selectedLayer) →
      Performs h closes (EngineProperties.update h f) := fun _ hf => .basic (.setting hf)
  refine .bind (.basic (.buffer none)) fun _ => .bind (hsize _ fun _ => rfl) fun _ =>
    .bind (hsize _ fun _ => rfl) fun _ => .bind performs_initBuffer fun _ => .bind (.gets _) fun _ =>
      .forEach fun n _ => ?_
  exact .bind (.layer n _) fun _ => .bind (.layer n _) fun _ => .bind (.layer n _) fun _ =>
    .layer n _

end Engine

/-- Every request but `setState`. -/
theorem performs_handleAction {request : Json} {action : Action} (ha : action ≠ .setState) :
    Performs h closes (handleAction h request action) := by
  cases action with
  | ping => exact .pure _
  | getState => exact .bind Engine.performs_getState fun _ => .pure _
  | setState => exact absurd rfl ha
  | getFullState => exact .bind Engine.performs_getFullState fun _ => .pure _
  | setLayerControl =>
    exact .bind (.ofExcept _ _) fun data => .bind (.ofExcept _ _) fun name =>
      .bind (.ofExcept _ _) fun value => .bind (.ofExcept _ _) fun n =>
        .bind (Layer.performs_setState _ _) fun _ =>
          .bind (.readLayer _) fun _ => .bind (.ofExcept _ _) fun _ => .pure _
  | updateState =>
    refine .bind (.ofExcept _ _) fun data => .bind (.bind (.ofExcept _ _) fun layers => ?_)
      fun _ => .pure _
    exact .bind (.forEach fun entry _ => Layer.performs_setState _ _) fun _ => .pure _

theorem performs_handleJSONRequestForClient {request : Json}
    (hset : requestAction request ≠ some .setState) :
    Performs h closes (handleJSONRequestForClient h request) := by
  cases ha : requestAction request with
  | none =>
    refine .look fun s => ?_
    obtain ⟨e, he, -⟩ := handle_of_no_action (h := h) (s := s) ha
    rw [he, Outcome.post_threw]
  | some action =>
    rw [handle_of_action ha]
    exact performs_handleAction fun heq => hset (heq ▸ ha)

/-! ### Closing videos -/

theorem VisualInstance.performs_unload (hc : closes) (a : Addr) : Performs h closes (unload a) := by
  have hvideo : Performs h closes (unloadVideo a) :=
    .bind (.write a (.setIsPlaying _)) fun _ => .bind (.readInstance a) fun _ =>
      .ite (.bind (.write a (.exchange hc _)) fun _ => .pure _) (.pure _)
  refine .bind (.readInstance a) fun i => .bind (.readVisual _) fun v => ?_
  cases v.source with
  | video filePath => exact .bind hvideo fun _ => .pure _
  | camera => exact .pure _
  | syphon => exact .pure _

theorem VisualInstances.performs_loadAll (hc : closes) (list : List Addr) :
    Performs h closes (loadAll h list) :=
  .forEach fun a _ => .bind (VisualInstance.performs_loadVideo a hc) fun _ => .pure _

theorem Engine.performs_cleanup (hc : closes) : Performs h closes (cleanup h) := by
  refine .bind (.gets _) fun currentScene => ?_
  cases currentScene with
  | none => exact .pure _
  | some a =>
    exact .bind (.readScene a) fun scene => .ite (.pure _) (.forEach fun b _ =>
      .bind (.readInstance b) fun _ => .ite (VisualInstance.performs_unload hc b) (.pure _))

/-! ### Events -/

/-- The call plays, stops or controls, and edits nothing. -/
def Command.IsPlayback : Command → Prop
  | play _ => True
  | stop _ => True
  | triggerSchedulledVisualsOnAllLayers => True
  | setMetronomeOn _ => True
  | setBeatSnap _ _ => True
  | request r => requestAction r ≠ some .setState
  | _ => False

instance (c : Command) : Decidable c.IsPlayback := by
  unfold Command.IsPlayback
  split <;> infer_instance

/-- The event plays, stops, draws or controls, and edits nothing. -/
def Event.IsPlayback : Event → Prop
  | command c => c.IsPlayback
  | setActiveVisualInstance _ _ => True
  | setActiveVisualIntances _ => True
  | playFirstVisualInstanceOnActiveLayer => True
  | playLastVisualInstanceOnActiveLayer => True
  | playPreviousVisualInstanceOnActiveLayer => True
  | playNextVisualInstanceOnActiveLayer => True
  | setMixerResolution _ _ => True
  | handleAction _ _ => True
  | beat => True
  | render => True
  | _ => False

instance (e : Event) : Decidable e.IsPlayback :=
  match e with
  | .command c => inferInstanceAs (Decidable c.IsPlayback)
  | .setActiveVisualInstance .. | .setActiveVisualIntances _
  | .playFirstVisualInstanceOnActiveLayer | .playLastVisualInstanceOnActiveLayer
  | .playPreviousVisualInstanceOnActiveLayer | .playNextVisualInstanceOnActiveLayer
  | .setMixerResolution .. | .handleAction .. | .beat | .render => .isTrue trivial
  | .gotoNextScene | .gotoPreviousScene | .addVisualVideoToListFromFile _
  | .addVisualCameraToList .. | .addVisualSyphonToList .. | .addVisualToSceneListInCurrentLayer ..
  | .addLayer | .removeLayer _ | .setLayerCount _ | .activateLayer _ | .activateNextLayer
  | .activatePreviousLayer | .activateLastLayer | .keyPressed _ | .cleanup =>
    inferInstanceAs (Decidable False)

theorem Command.performs_run {c : Command} (hc : c.IsPlayback) : Performs h closes (c.run h) := by
  cases c with
  | play data => exact Engine.performs_play data
  | stop data => exact Engine.performs_stop data
  | triggerSchedulledVisualsOnAllLayers => exact Engine.performs_trigger
  | setMetronomeOn on =>
    have hset : Performs h closes (EngineProperties.update h fun p => { p with metronomeOn := on }) :=
      .basic (.setting fun _ => rfl)
    exact hset
  | setBeatSnap a on => exact VisualInstance.performs_setBeatSnap a on
  | request r => exact .bind (performs_handleJSONRequestForClient hc) fun _ => .pure _
  | _ => exact hc.elim

/-- An event that plays is built from the steps that playing is made of. -/
theorem Event.performs_run {e : Event} (he : e.IsPlayback) : Performs h closes (e.run h) := by
  cases e with
  | command c => exact Command.performs_run he
  | setActiveVisualInstance layerN column =>
    exact .bind (Engine.performs_setActiveVisualInstance layerN column) fun _ => .pure _
  | setActiveVisualIntances columnN => exact Engine.performs_setActiveVisualIntances columnN
  | playFirstVisualInstanceOnActiveLayer =>
    exact Engine.performs_setActiveVisualIntanceOnActiveLayer 0
  | playLastVisualInstanceOnActiveLayer => exact Engine.performs_playLast
  | playPreviousVisualInstanceOnActiveLayer => exact Engine.performs_playPrevious
  | playNextVisualInstanceOnActiveLayer => exact Engine.performs_playNext
  | setMixerResolution width height => exact Engine.performs_setMixerResolution width height
  | handleAction parameter data => exact Engine.performs_handleAction parameter data
  | beat => exact Engine.performs_beat
  | render => exact Engine.performs_render
  | _ => exact he.elim

end ArbutusEngine
