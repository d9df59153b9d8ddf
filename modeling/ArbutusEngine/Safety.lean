import ArbutusEngine.References
import ArbutusEngine.SessionFrame
import ArbutusEngine.Starting

/-!
# Safe states

A state is safe when the object graph is well formed and intact, a set is loaded, and the current
scene is the one at the current position. Then whatever the functions that play, stop, draw and close
dereference is there: a layer holds only instances that some scene lists, a listed instance is
allocated, and its visual is in the list.

The number of layers and the listed instances do not change while a set is played. They are taken for
fixed here, so that what a layer holds is known to be listed in the states that follow as well.

## Main definitions

* `EngineState.AtScene`, `EngineState.Safe`.
* `EngineState.Rigged`: a safe state with a given number of layers and given instances.

## Main results

* `Layer.defined_playVisualInstance`, `Layer.defined_stop`, `Layer.defined_render`,
  `Engine.defined_triggerLayer`: the functions of a layer.
* `Engine.defined_setActiveVisualInstance`, `Set.defined_setCurrentScene`, `Engine.defined_cleanup`:
  functions of the engine.
-/

open Exec

namespace ArbutusEngine

/-! ### Safe states -/

namespace EngineState

/-- The scene at the position is the current one. -/
structure AtScene (s : EngineState) (i : ℕ) : Prop where
  number : s.currentSceneNumber.toNat = i
  scene : ∃ scene, s.scenesList[i]? = some scene ∧ s.currentScene = some scene.addr

/-- Whatever is dereferenced while a set is played is there. -/
structure Safe (s : EngineState) : Prop where
  wellFormed : s.WellFormed
  intact : s.Intact
  atScene : ∃ i, s.AtScene i
  loaded : s.loaded = true

variable {s t : EngineState}

theorem AtScene.of_outline {i : ℕ} (hs : s.AtScene i) (h : s.outline = t.outline) : t.AtScene i := by
  have hnumber : s.currentSceneNumber = t.currentSceneNumber :=
    congrArg Outline.currentSceneNumber h
  have hscenes : s.scenesList = t.scenesList := congrArg (fun o => o.scenesList) h
  have hcurrent : s.currentScene = t.currentScene := congrArg Outline.currentScene h
  exact ⟨hnumber ▸ hs.number, by rw [← hscenes, ← hcurrent]; exact hs.scene⟩

theorem Safe.of_outline (hs : s.Safe) (h : s.outline = t.outline) : t.Safe where
  wellFormed := hs.wellFormed.of_outline h
  intact := hs.intact.of_graph (congrArg Outline.toGraph h)
  atScene := hs.atScene.imp fun _ hi => hi.of_outline h
  loaded := by
    have hloaded : s.loaded = t.loaded := congrArg Outline.loaded h
    exact hloaded ▸ hs.loaded

/-- A listed instance is allocated, and its visual is in the list. -/
theorem Safe.linked (hs : s.Safe) {a : Addr} (ha : a ∈ s.placed) : ∃ v, s.Linked a v := by
  obtain ⟨scene, hscene, hmem⟩ := mem_placed.mp ha
  obtain ⟨i, hi⟩ := hs.wellFormed.instances_live scene hscene a hmem
  exact ⟨i.visual, ⟨i, hi, rfl⟩, connected_iff_known.mp hs.intact.connected a ha i hi⟩

/-- The current scene is in the list, and so are its instances. -/
theorem Safe.exists_current (hs : s.Safe) : ∃ scene ∈ s.scenesList,
    s.currentScene = some scene.addr ∧ ∀ a ∈ scene.visualInstances, a ∈ s.placed := by
  obtain ⟨i, hi⟩ := hs.atScene
  obtain ⟨scene, hscene, hcurrent⟩ := hi.scene
  have hmem := List.mem_of_getElem? hscene
  exact ⟨scene, hmem, hcurrent, fun a ha => mem_placed.mpr ⟨scene, hmem, ha⟩⟩

theorem Safe.scenes_ne (hs : s.Safe) : s.scenesList ≠ [] := by
  obtain ⟨scene, hscene, -⟩ := hs.exists_current
  exact List.ne_nil_of_mem hscene

/-- The state is safe, has `k` layers, and its scenes list the instances of `p`. -/
structure Rigged (k : ℕ) (p : List Addr) (s : EngineState) : Prop where
  safe : s.Safe
  layers : s.layersList.length = k
  placed : s.placed = p

variable {k : ℕ} {p : List Addr}

theorem Safe.rigged (hs : s.Safe) : s.Rigged s.layersList.length s.placed := ⟨hs, rfl, rfl⟩

theorem Rigged.of_outline (hs : s.Rigged k p) (h : s.outline = t.outline) : t.Rigged k p where
  safe := hs.safe.of_outline h
  layers := by
    have hlayers : s.layersList = t.layersList := congrArg (fun o => o.layersList) h
    exact hlayers ▸ hs.layers
  placed := (placed_of_graph (congrArg Outline.toGraph h)).symm.trans hs.placed

theorem Rigged.linked (hs : s.Rigged k p) {a : Addr} (ha : a ∈ p) : ∃ v, s.Linked a v :=
  hs.safe.linked (hs.placed ▸ ha)

theorem Rigged.live (hs : s.Rigged k p) {a : Addr} (ha : a ∈ p) :
    ∃ i, s.instances.get? a = some i := by
  obtain ⟨v, ⟨i, hi, -⟩, -⟩ := hs.linked ha
  exact ⟨i, hi⟩

/-- What a layer holds is listed. -/
theorem Rigged.held (hs : s.Rigged k p) {layer : Layer} (hlayer : layer ∈ s.layersList) :
    ∀ a ∈ layer.held, a ∈ p := fun a ha =>
  hs.placed ▸ hs.safe.intact.held_placed a (mem_held.mpr ⟨layer, hlayer, ha⟩)

end EngineState

/-- From a safe state with `k` layers and the instances of `p`, the behaviour is defined, and leads to
such a state. -/
abbrev DefinedOn {α : Type} (k : ℕ) (p : List Addr) (x : Prog α) : Prop :=
  Defined (EngineState.Rigged k p) x

theorem KeepsOutline.rigged {α : Type} {x : Prog α} (hx : KeepsOutline x) {k : ℕ} {p : List Addr} :
    Keeps (EngineState.Rigged k p) x :=
  hx.keeps fun _ _ h hs => hs.of_outline h

section

variable {k : ℕ} {p : List Addr} {a : Addr}

theorem defined_getInstance (h : Host) : DefinedOn k p (EngineProperties.getInstance h) :=
  .of_keeps (KeepsOutline.rigged (Fixes.getInstance h)) fun _ _ => ⟨_, rfl⟩

/-! ### Instances -/

namespace VisualInstance

/-- Reading a listed instance. -/
theorem defined_bind_read {α : Type} (ha : a ∈ p) {f : VisualInstance → Prog α}
    (hf : ∀ i, DefinedOn k p (f i)) : DefinedOn k p (read a >>= f) := by
  refine .bind_of_ok (P := fun _ => True) (fun s hs => ?_) fun i _ => hf i
  obtain ⟨i, hi⟩ := hs.live ha
  exact ⟨i, by rw [read, hi, ofOption_some, pure_run], trivial⟩

/-- A function of one instance, which is listed. -/
theorem defined_of_placed {α : Type} {x : Prog α} (ha : a ∈ p)
    (hx : ∀ {v : Addr} {I : EngineState → Prop},
      (∀ {β : Type} {y : Prog β}, KeepsStage y → Keeps I y) → (∀ t, I t → t.Linked a v) →
        Defined I x) : DefinedOn k p x := by
  intro s hs
  obtain ⟨v, hv⟩ := hs.linked ha
  obtain ⟨t, ht, hstage⟩ := hx (I := fun t => t.stage = s.stage) (fun hy => hy s.stage)
    (fun t ht => hv.of_stage ht.symm) s rfl
  exact ⟨t, ht, hs.of_outline (EngineState.stage_eq_iff.mp hstage).1.symm⟩

/-- Changing a listed instance, but not where it lies or what it shows. -/
theorem defined_update_of (ha : a ∈ p) {g : VisualInstance → VisualInstance}
    (hv : ∀ i, (g i).visual = i.visual) (hc : ∀ i, (g i).cell = i.cell) :
    DefinedOn k p (update a g) := by
  refine .of_keeps (Fixes.updateInstance hv hc).rigged fun s hs => ?_
  obtain ⟨i, hi⟩ := hs.live ha
  exact ⟨_, congrArg Outcome.final? (update_eq hi g)⟩

end VisualInstance

/-! ### Layers -/

namespace Layer

variable {n : ℕ}

/-- Reading a layer, which holds listed instances. -/
theorem defined_bind_read {α : Type} (hn : n < k) {f : Layer → Prog α}
    (hf : ∀ layer : Layer, (∀ b ∈ layer.held, b ∈ p) → DefinedOn k p (f layer)) :
    DefinedOn k p (read n >>= f) := by
  refine .bind_of_ok (fun s hs => ?_) hf
  have hlt : n < s.layersList.length := hs.layers ▸ hn
  have hlayer : s.layersList[n]? = some s.layersList[n] := List.getElem?_eq_getElem hlt
  exact ⟨_, by rw [read, hlayer, ofOption_some, pure_run], hs.held (List.getElem_mem hlt)⟩

/-- Changing a layer, which may take a listed instance. -/
theorem defined_update (hn : n < k) {f : Layer → Layer} (haddr : ∀ layer, (f layer).addr = layer.addr)
    (hheld : ∀ layer : Layer, ∀ b ∈ (f layer).held, b ∈ layer.held ∨ b ∈ p) :
    DefinedOn k p (update n f) := by
  intro s hs
  have hlayer : s.layersList[n]? = some _ := List.getElem?_eq_getElem (hs.layers ▸ hn)
  have hrun := update_eq hlayer f
  have hwf := (keepsSkeleton_update (n := n) haddr).wellFormed s hs.safe.wellFormed
  rw [hrun, Outcome.post_ok] at hwf
  refine ⟨_, congrArg Outcome.final? hrun, ⟨hwf, ?_, hs.safe.atScene.imp fun _ hi => ⟨hi.1, hi.2⟩,
    hs.safe.loaded⟩, (List.length_modify ..).trans hs.layers, hs.placed⟩
  refine hs.safe.intact.modifyLayer fun layer hmem b hb => ?_
  rcases hheld layer b hb with hb | hb
  · exact hs.safe.intact.held_placed b (EngineState.mem_held.mpr ⟨layer, hmem, hb⟩)
  · exact hs.placed ▸ hb

/-- Changing what a layer is like. -/
theorem defined_update_of_held (hn : n < k) {f : Layer → Layer}
    (haddr : ∀ layer, (f layer).addr = layer.addr) (hheld : ∀ layer, (f layer).held = layer.held) :
    DefinedOn k p (update n f) :=
  defined_update hn haddr fun layer _ hb => .inl (hheld layer ▸ hb)

theorem mem_held_of_activeInstance {layer : Layer} (hactive : layer.activeInstance = some a) :
    a ∈ layer.held :=
  List.mem_append_left _ (by rw [hactive]; exact List.mem_singleton_self a)

theorem mem_held_of_schedulledInstance {layer : Layer} (hs : layer.schedulledInstance = some a) :
    a ∈ layer.held :=
  List.mem_append_right _ (by rw [hs]; exact List.mem_singleton_self a)

theorem defined_setActiveVisualInstance (hn : n < k) (ha : a ∈ p) :
    DefinedOn k p (setActiveVisualInstance n a) :=
  defined_update hn (fun _ => rfl) fun _ b hb => .inr (by
    obtain rfl : b = a := by simpa [held] using hb
    exact ha)

theorem defined_schedulleInstance (hn : n < k) (ha : a ∈ p) :
    DefinedOn k p (schedulleInstance n a) := by
  refine defined_update hn (fun _ => rfl) fun layer b hb => ?_
  rcases List.mem_append.mp hb with hb | hb
  · exact .inl (List.mem_append_left _ hb)
  · obtain rfl : b = a := by simpa using hb
    exact .inr ha

theorem defined_waitsForBeat (h : Host) (i : VisualInstance) : DefinedOn k p (waitsForBeat h i) := by
  refine .ite (.bind (defined_getInstance h) fun _ => .ite ?_ (.pure _)) (.pure _)
  exact .bind (defined_getInstance h) fun _ => .pure _

theorem defined_stop (hn : n < k) : DefinedOn k p (stop n) := by
  refine defined_bind_read hn fun layer hheld => ?_
  cases hactive : layer.activeInstance with
  | none => exact .pure _
  | some b =>
    have hb := hheld b (mem_held_of_activeInstance hactive)
    refine .bind (VisualInstance.defined_of_placed hb fun hI hv =>
      VisualInstance.defined_stop hI hv) fun _ => ?_
    exact defined_update hn (fun _ => rfl) fun _ c hc => absurd hc List.not_mem_nil

/-- A layer is told to play a listed instance. -/
theorem defined_playVisualInstance (hn : n < k) (ha : a ∈ p) (h : Host) :
    DefinedOn k p (playVisualInstance h n a) := by
  have hretrigger : DefinedOn k p (VisualInstance.retriggerIf h a) :=
    VisualInstance.defined_of_placed ha fun hI hv => VisualInstance.defined_retriggerIf hI hv h
  have hplay : DefinedOn k p (VisualInstance.play h a false) :=
    VisualInstance.defined_of_placed ha fun hI hv => VisualInstance.defined_play hI hv h false
  have hstart : DefinedOn k p (startInstance h n a) :=
    .bind (defined_setActiveVisualInstance hn ha) fun _ => .bind hplay fun _ => hretrigger
  refine VisualInstance.defined_bind_read ha fun i => ?_
  refine .bind (defined_waitsForBeat h i) fun _ => .ite (defined_schedulleInstance hn ha) ?_
  refine defined_bind_read hn fun layer hheld => .ite hretrigger ?_
  cases hactive : layer.activeInstance with
  | none => exact hstart
  | some b =>
    have hb := hheld b (mem_held_of_activeInstance hactive)
    exact .bind (VisualInstance.defined_of_placed hb fun hI hv =>
      VisualInstance.defined_stop hI hv) fun _ => hstart

/-- A layer starts what it has scheduled. -/
theorem defined_activateSchedulledInstance (hn : n < k) (h : Host) :
    DefinedOn k p (activateSchedulledInstance h n) := by
  refine defined_bind_read hn fun layer hheld => ?_
  cases hscheduled : layer.schedulledInstance with
  | none => exact .pure _
  | some b =>
    have hb := hheld b (mem_held_of_schedulledInstance hscheduled)
    have hplay : DefinedOn k p (VisualInstance.play h b true) :=
      VisualInstance.defined_of_placed hb fun hI hv => VisualInstance.defined_play hI hv h true
    have hstart : DefinedOn k p (startSchedulled h n b) :=
      .bind (defined_setActiveVisualInstance hn hb) fun _ => .bind hplay fun _ =>
        VisualInstance.defined_update_of hb (fun _ => rfl) fun _ => rfl
    cases hactive : layer.activeInstance with
    | none => exact hstart
    | some a =>
      have ha := hheld a (mem_held_of_activeInstance hactive)
      refine VisualInstance.defined_bind_read ha fun i => .ite ?_ hstart
      exact .bind (VisualInstance.defined_of_placed ha fun hI hv =>
        VisualInstance.defined_stop hI hv) fun _ => hstart

end Layer

/-! ### Drawing -/

namespace VisualInstance

/-- Reading a listed instance and its visual. -/
theorem defined_bind_readBoth {α : Type} (ha : a ∈ p) {f : VisualInstance → Visual → Prog α}
    (hf : ∀ i v, DefinedOn k p (f i v)) :
    DefinedOn k p (do
      let i ← read a
      let visual ← Visual.read i.visual
      f i visual) := by
  intro s hs
  obtain ⟨v, ⟨i, hi, rfl⟩, w, hw, hwv⟩ := hs.linked ha
  obtain ⟨x, hx⟩ : ∃ x, s.visualsList.find? (fun w => w.addr = i.visual) = some x :=
    Option.isSome_iff_exists.mp (List.find?_isSome.mpr ⟨w, hw, decide_eq_true hwv⟩)
  rw [bind_run, read, hi, ofOption_some, pure_run, Outcome.bind_ok, bind_run, Visual.read, hx,
    ofOption_some, pure_run, Outcome.bind_ok]
  exact hf i x s hs

theorem defined_draw (ha : a ∈ p) (h : Host) (width height : UInt32) :
    DefinedOn k p (draw h a width height) := by
  have hplay : DefinedOn k p (do
      let i ← read a
      if i.video.isPlaying && i.properties.isPlaying then pure () else play h a false : Prog Unit) :=
    defined_bind_read ha fun i => .ite (.pure _)
      (defined_of_placed ha fun hI hv => defined_play hI hv h false)
  have hauto : DefinedOn k p (autoLoadAndAutoPlayVideo h a) := by
    refine defined_bind_readBoth ha fun i v => ?_
    cases v.source with
    | video filePath =>
      split_ifs
      · exact hplay
      · exact .bind (defined_of_placed ha fun hI hv => defined_loadVideo hI hv h) fun _ => hplay
    | camera => exact .pure _
    | syphon => exact .pure _
  have hchange : ∀ {g : VisualInstance → VisualInstance}, (∀ i, (g i).visual = i.visual) →
      (∀ i, (g i).cell = i.cell) → DefinedOn k p (update a g) := fun hv hc =>
    defined_update_of ha hv hc
  have hfollow : DefinedOn k p (updateVideo a) := by
    refine defined_bind_readBoth ha fun i v => ?_
    cases v.source with
    | video filePath =>
      refine .ite (.bind (hchange (fun i => ?_) fun i => ?_) fun _ => hchange (fun i => ?_) fun i =>
        ?_) (.pure _)
      · rw [handleDirectionChange]
        split_ifs <;> rfl
      · rw [handleDirectionChange]
        split_ifs <;> rfl
      · rw [handleLoopModeChange, setLoopMode]
        split_ifs <;> rfl
      · rw [handleLoopModeChange, setLoopMode]
        split_ifs <;> rfl
    | camera => exact .pure _
    | syphon => exact .pure _
  exact .bind hauto fun _ => .bind hfollow fun _ => hchange (fun _ => rfl) fun _ => rfl

theorem defined_unload (ha : a ∈ p) : DefinedOn k p (unload a) := by
  have hchange : ∀ {g : VisualInstance → VisualInstance}, (∀ i, (g i).visual = i.visual) →
      (∀ i, (g i).cell = i.cell) → DefinedOn k p (update a g) := fun hv hc =>
    defined_update_of ha hv hc
  refine defined_bind_readBoth ha fun i v => ?_
  cases v.source with
  | video filePath =>
    refine .bind (.bind (hchange (fun _ => rfl) fun _ => rfl) fun _ => ?_) fun _ => .pure _
    refine defined_bind_read ha fun i => .ite ?_ (.pure _)
    exact .bind (hchange (fun _ => rfl) fun _ => rfl) fun _ => .pure _
  | camera => exact .pure _
  | syphon => exact .pure _

end VisualInstance

theorem Layer.defined_render {n : ℕ} (hn : n < k) (h : Host) : DefinedOn k p (render h n) := by
  refine .bind (defined_update_of_held hn (fun _ => rfl) fun _ => rfl) fun _ => ?_
  refine defined_bind_read hn fun layer hheld => ?_
  match hactive : layer.activeInstance, layer.buffer with
  | none, _ => exact .pure _
  | some _, none => exact .pure _
  | some a, some (width, height) =>
    exact VisualInstance.defined_draw (hheld a (mem_held_of_activeInstance hactive)) h width height

/-- What is done on all layers is defined when it is on each. -/
theorem Layers.defined_forEach {body : ℕ → Prog Unit} (hbody : ∀ n < k, DefinedOn k p (body n)) :
    DefinedOn k p (do
      let layers ← gets EngineState.layersList
      forEach (List.range layers.length) body) := by
  intro s hs
  have hloop : DefinedOn k p (forEach (List.range s.layersList.length) body) :=
    .forEach fun n hn => hbody n (hs.layers ▸ List.mem_range.mp hn)
  exact hloop s hs

/-! ### The list of layers and the current scene -/

/-- Taking a layer from the list, or none. -/
theorem Layers.defined_bind_get {α : Type} {l : UInt32} {f : Option Layer → Prog α}
    (hnone : DefinedOn k p (f none)) (hsome : l.toNat < k → ∀ layer, DefinedOn k p (f (some layer))) :
    DefinedOn k p (gets (Layers.get l) >>= f) := by
  refine .bind_of_ok (P := fun layer => layer ≠ none → l.toNat < k) (fun s hs => ?_) fun layer hl => ?_
  · refine ⟨_, rfl, fun hne => ?_⟩
    obtain ⟨layer, hlayer⟩ := Option.ne_none_iff_exists'.mp hne
    exact hs.layers ▸ (List.getElem?_eq_some_iff.mp hlayer).1
  · cases layer with
    | none => exact hnone
    | some layer => exact hsome (hl (Option.some_ne_none layer)) layer

theorem Layers.defined_stopAt (l : UInt32) : DefinedOn k p (Layers.stopAt l) :=
  Layers.defined_bind_get (.pure _) fun hl _ => Layer.defined_stop hl

/-- Reading the current scene, whose instances are listed. -/
theorem Scene.defined_bind_current {α : Type} {f : Scene → Prog α}
    (hf : ∀ scene : Scene, (∀ b ∈ scene.visualInstances, b ∈ p) → DefinedOn k p (f scene)) :
    DefinedOn k p (do
      let a ← Engine.derefCurrentScene
      let scene ← Scene.read a
      f scene) := by
  intro s hs
  obtain ⟨scene, hscene, hcurrent, hplaced⟩ := hs.safe.exists_current
  have hfind := hs.safe.wellFormed.find?_scene hscene
  rw [bind_run, Engine.derefCurrentScene, bind_run, gets_run, Outcome.bind_ok, hcurrent,
    ofOption_some, pure_run, Outcome.bind_ok, bind_run, Scene.read, hfind, ofOption_some, pure_run,
    Outcome.bind_ok]
  exact hf scene (fun b hb => hs.placed ▸ hplaced b hb) s hs

theorem VisualInstances.defined_countInLayer (layer : UInt32) {list : List Addr}
    (hlist : ∀ b ∈ list, b ∈ p) : DefinedOn k p (countInLayer layer list) := by
  have hloop : ∀ n, DefinedOn k p (countInLayerFrom layer n list) := by
    induction list with
    | nil => exact fun _ => .pure _
    | cons b rest ih =>
      intro n
      refine VisualInstance.defined_bind_read (hlist b List.mem_cons_self) fun i => ?_
      exact ih (fun c hc => hlist c (List.mem_cons_of_mem b hc)) _
  exact hloop 0

theorem VisualInstances.defined_loadAll (h : Host) {list : List Addr} (hlist : ∀ b ∈ list, b ∈ p) :
    DefinedOn k p (loadAll h list) := by
  refine .forEach fun b hb => .bind ?_ fun _ => .pure _
  exact VisualInstance.defined_of_placed (hlist b hb) fun hI hv =>
    VisualInstance.defined_loadVideo hI hv h

theorem VisualInstances.defined_cleanup (h : Host) {list : List Addr} (hlist : ∀ b ∈ list, b ∈ p) :
    DefinedOn k p (cleanup h list) :=
  .ite (.pure _) (.forEach fun b hb => VisualInstance.defined_bind_read (hlist b hb) fun _ =>
    .ite (VisualInstance.defined_unload (hlist b hb)) (.pure _))

/-- Looking for an instance in the current scene. -/
theorem Set.defined_getVisualInstanceInCorrentSet (layer column : UInt32) :
    DefinedOn k p (getVisualInstanceInCorrentSet layer column) := by
  intro s hs
  obtain ⟨scene, hscene, hcurrent, -⟩ := hs.safe.exists_current
  refine ⟨s, ?_, hs⟩
  rw [getVisualInstanceInCorrentSet, bind_run, gets_run, Outcome.bind_ok, hcurrent]
  dsimp only
  rw [bind_run, Scene.read, hs.safe.wellFormed.find?_scene hscene, ofOption_some, pure_run,
    Outcome.bind_ok, VisualInstances.get_eq (hs.safe.wellFormed.instances_live scene hscene),
    Outcome.final?_ok]

/-! ### Controls -/

theorem Layer.defined_handleAction {n : ℕ} (hn : n < k) (parameter : List UInt8) (data : Json) :
    DefinedOn k p (handleAction n parameter data) := by
  refine .bind (.ofExcept _ _) fun value => ?_
  cases hashSwitch (actionCases (N := ℚ)) parameter with
  | none => exact .pure _
  | some setter => exact defined_update_of_held hn (fun _ => rfl) fun _ => rfl

theorem VisualInstance.defined_handleAction (ha : a ∈ p) (parameter : List UInt8) (data : Json) :
    DefinedOn k p (handleAction a parameter data) := by
  refine .bind (.ofExcept _ _) fun value => ?_
  cases hsetter : hashSwitch (actionCases (N := ℚ)) parameter with
  | none => exact .pure _
  | some setter =>
    obtain ⟨name, hmem, -⟩ := hashSwitch_mem hsetter
    refine defined_update_of ha (fun _ => rfl) fun i => ?_
    obtain ⟨hlayer, hcolumn⟩ := cell_of_mem_actionCases hmem i.properties value
    exact Prod.ext (congrArg Int32.toUInt32 hlayer) (congrArg Int32.toUInt32 hcolumn)

/-! ### Functions of the engine -/

namespace Engine

theorem defined_getSelectedLayerNumber (h : Host) : DefinedOn k p (getSelectedLayerNumber h) :=
  .bind (defined_getInstance h) fun _ => .pure _

theorem defined_getSelectedColumnNumber (h : Host) : DefinedOn k p (getSelectedColumnNumber h) :=
  .bind (defined_getInstance h) fun _ => .pure _

theorem defined_triggerLayer {n : ℕ} (hn : n < k) (h : Host) : DefinedOn k p (triggerLayer h n) := by
  refine Layer.defined_bind_read hn fun layer hheld => ?_
  match layer.schedulledInstance, hactive : layer.activeInstance with
  | some _, _ => exact Layer.defined_activateSchedulledInstance hn h
  | none, none => exact .pure _
  | none, some a =>
    have ha := hheld a (Layer.mem_held_of_activeInstance hactive)
    have hplay : DefinedOn k p (VisualInstance.play h a true) :=
      VisualInstance.defined_of_placed ha fun hI hv => VisualInstance.defined_play hI hv h true
    refine VisualInstance.defined_bind_read ha fun i => .ite (.ite ?_ hplay) (.pure _)
    exact .bind (VisualInstance.defined_update_of ha (fun _ => rfl) fun _ => rfl) fun _ => hplay

theorem defined_trigger (h : Host) : DefinedOn k p (triggerSchedulledVisualsOnAllLayers h) :=
  Layers.defined_forEach fun _ hn => defined_triggerLayer hn h

theorem defined_setActiveVisualInstance (h : Host) (layerN column : UInt32) :
    DefinedOn k p (setActiveVisualInstance h layerN column) := by
  refine Layers.defined_bind_get (.pure _) fun hl _ => ?_
  refine .bind_of (P := fun found => ∀ a, found = some a → a ∈ p)
    (Set.defined_getVisualInstanceInCorrentSet layerN column) (fun s hs => ?_) fun found hfound => ?_
  · refine (Set.getVisualInstanceInCorrentSet_post layerN column s).mono (fun found _ ht a ha => ?_)
      fun _ _ => False.elim
    exact hs.placed ▸ EngineState.mem_placed_of_instanceInCell
      (EngineState.instanceInCell_of_foundInCell (ht.2.symm.trans ha))
  · cases found with
    | some a =>
      exact .bind (Layer.defined_playVisualInstance hl (hfound a rfl) h) fun _ => .pure _
    | none =>
      exact .bind (.gets _) fun _ =>
        .ite (.bind (Layers.defined_stopAt layerN) fun _ => .pure _) (.pure _)

/-- What is found in a cell is listed. -/
theorem setActiveVisualInstance_post_placed {s : EngineState} (hs : s.Rigged k p) (h : Host)
    (layerN column : UInt32) : (setActiveVisualInstance h layerN column s).Post
      (fun found _ => ∀ a, found = some a → a ∈ p) fun _ _ => True := by
  refine setActiveVisualInstance_post_of (fun _ a ha => nomatch ha) (fun a _ hfound => ?_)
    fun _ _ => .of_forall (fun _ _ a ha => nomatch ha) fun _ _ => trivial
  have hplaced := EngineState.mem_placed_of_instanceInCell
    (EngineState.instanceInCell_of_foundInCell hfound)
  refine .of_forall (fun _ _ b hb => ?_) fun _ _ => trivial
  exact Option.some.inj hb ▸ hs.placed ▸ hplaced

theorem defined_play (h : Host) (data : Json) : DefinedOn k p (play h data) := by
  have hnumber : ∀ message key, DefinedOn k p (numberOr message key data) := fun _ _ =>
    .bind (.ofExcept _ _) fun _ => .ite (.ofExcept _ _) (.throw _)
  refine .ite (.bind (hnumber _ _) fun layer => .bind (hnumber _ _) fun column => ?_) (.throw _)
  refine .bind_of (defined_setActiveVisualInstance h layer column)
    (fun s hs => setActiveVisualInstance_post_placed hs h layer column) fun found hfound => ?_
  cases found with
  | none => exact .throw _
  | some a =>
    exact VisualInstance.defined_of_placed (hfound a rfl) fun hI hv =>
      VisualInstance.defined_play hI hv h false

theorem defined_stop (data : Json) : DefinedOn k p (stop data) :=
  .ite (.bind (.ofExcept _ _) fun l => Layers.defined_stopAt l)
    (Layers.defined_forEach fun _ hn => Layer.defined_stop hn)

theorem defined_setActiveVisualIntances (h : Host) (columnN : UInt32) :
    DefinedOn k p (setActiveVisualIntances h columnN) :=
  Layers.defined_forEach fun _ _ =>
    .bind (defined_setActiveVisualInstance h _ columnN) fun _ => .pure _

theorem defined_setActiveVisualIntanceOnActiveLayer (h : Host) (n : UInt32) :
    DefinedOn k p (setActiveVisualIntanceOnActiveLayer h n) :=
  .bind (defined_getSelectedLayerNumber h) fun _ =>
    .bind (defined_setActiveVisualInstance h _ n) fun _ => .pure _

theorem defined_countInSelectedLayer (h : Host) : DefinedOn k p (countInSelectedLayer h) :=
  Scene.defined_bind_current fun _ hlist => .bind (defined_getSelectedLayerNumber h) fun layer =>
    VisualInstances.defined_countInLayer layer hlist

theorem defined_playLast (h : Host) : DefinedOn k p (playLastVisualInstanceOnActiveLayer h) :=
  .bind (defined_countInSelectedLayer h) fun _ => defined_setActiveVisualIntanceOnActiveLayer h _

theorem defined_playPrevious (h : Host) :
    DefinedOn k p (playPreviousVisualInstanceOnActiveLayer h) :=
  .bind (defined_getSelectedColumnNumber h) fun _ => .ite (.pure _)
    (.bind (defined_getSelectedColumnNumber h) fun _ =>
      defined_setActiveVisualIntanceOnActiveLayer h _)

theorem defined_playNext (h : Host) : DefinedOn k p (playNextVisualInstanceOnActiveLayer h) :=
  .bind (defined_getSelectedColumnNumber h) fun _ => .bind (defined_countInSelectedLayer h) fun _ =>
    .ite (.pure _) (.bind (defined_getSelectedColumnNumber h) fun _ =>
      defined_setActiveVisualIntanceOnActiveLayer h _)

theorem defined_render (h : Host) : DefinedOn k p (render h) := by
  have hsnap : DefinedOn k p (renderSnap h) := fun s hs =>
    ⟨s.resetProperties h, congrArg Outcome.final? (renderSnap_eq h s), hs.of_outline rfl⟩
  have hscreen : ∀ layers : List Layer, DefinedOn k p (forEach layers fun _ => do
      let _ ← EngineProperties.getInstance h
      let _ ← EngineProperties.getInstance h) := fun _ => .forEach fun _ _ =>
    .bind (defined_getInstance h) fun _ => .bind (defined_getInstance h) fun _ => .pure _
  intro s hs
  have hlayers : DefinedOn k p (forEach (List.range s.layersList.length) (Layer.render h)) :=
    .forEach fun n hn => Layer.defined_render (hs.layers ▸ List.mem_range.mp hn) h
  have hrender : DefinedOn k p (if s.layersList = [] ∨ s.buffer = none then pure () else do
      renderSnap h
      forEach (List.range s.layersList.length) (Layer.render h)
      forEach s.layersList fun _ => do
        let _ ← EngineProperties.getInstance h
        let _ ← EngineProperties.getInstance h : Prog Unit) :=
    .ite (.pure _) (.bind hsnap fun _ => .bind hlayers fun _ => hscreen _)
  exact hrender s hs

theorem defined_cleanup (h : Host) : DefinedOn k p (cleanup h) := by
  intro s hs
  obtain ⟨scene, hscene, hcurrent, hplaced⟩ := hs.safe.exists_current
  have hlist : ∀ b ∈ scene.visualInstances, b ∈ p := fun b hb => hs.placed ▸ hplaced b hb
  rw [cleanup, Set.cleanup, bind_run, gets_run, Outcome.bind_ok, hcurrent]
  dsimp only
  rw [Scene.cleanup, bind_run, Scene.read, hs.safe.wellFormed.find?_scene hscene, ofOption_some,
    pure_run, Outcome.bind_ok]
  exact VisualInstances.defined_cleanup h hlist s hs

/-- The layer that an action names is there. -/
theorem getLayerForActionHandler_post {s : EngineState} (hs : s.Rigged k p) (h : Host)
    (data : Json) : (getLayerForActionHandler h data s).Post (fun n _ => ∀ m, n = some m → m < k)
      fun _ _ => True := by
  have hlast : ∀ (n : UInt32) (t : EngineState), t.Rigged k p → ((do
      let layer ← gets (Layers.get n)
      return layer.map fun _ => n.toNat : Prog (Option ℕ)) t).Post
        (fun n _ => ∀ m, n = some m → m < k) fun _ _ => True := by
    intro n t ht m hm
    obtain ⟨layer, hlayer, rfl⟩ := Option.map_eq_some_iff.mp hm
    exact ht.layers ▸ (List.getElem?_eq_some_iff.mp hlayer).1
  have hkeeps : ∀ {α : Type} {x : Prog α}, KeepsOutline x → ∀ t, EngineState.Rigged k p t →
      (x t).Post (fun _ => EngineState.Rigged k p) fun _ _ => True := fun hx t ht =>
    (hx.rigged t ht).mono (fun _ _ hu => hu) fun _ _ _ => trivial
  refine (hkeeps (.ofExcept _ _) s hs).bind fun layer t ht => ?_
  dsimp only
  split_ifs
  · refine (hkeeps (.bind (.ofExcept _ _) fun _ => .pure _) t ht).bind fun n u hu => hlast n u hu
  · exact (hkeeps (Layers.keepsOutline_getCurrentId h) t ht).bind fun n u hu => hlast n u hu

theorem defined_getLayerForActionHandler (h : Host) (data : Json) :
    DefinedOn k p (getLayerForActionHandler h data) := by
  have hlast : ∀ n : UInt32, DefinedOn k p (do
      let layer ← gets (Layers.get n)
      return layer.map fun _ => n.toNat : Prog (Option ℕ)) := fun _ => .bind (.gets _) fun _ => .pure _
  refine .bind (.ofExcept _ _) fun layer => .ite (.bind ?_ hlast) (.bind ?_ hlast)
  · exact .bind (.ofExcept _ _) fun _ => .pure _
  · exact .bind (defined_getInstance h) fun _ => .pure _

theorem defined_handleAction (h : Host) (parameter : List UInt8) (data : Json) :
    DefinedOn k p (handleAction h parameter data) := by
  have hbind : ∀ {f : Option ℕ → Prog Unit}, DefinedOn k p (f none) →
      (∀ n < k, DefinedOn k p (f (some n))) →
        DefinedOn k p (getLayerForActionHandler h data >>= f) := by
    intro f hnone hsome
    refine .bind_of (defined_getLayerForActionHandler h data)
      (fun s hs => getLayerForActionHandler_post hs h data) fun n hn => ?_
    cases n with
    | none => exact hnone
    | some n => exact hsome n (hn n rfl)
  rw [handleAction]
  cases hashSwitch actionCases parameter with
  | none => exact .pure _
  | some target =>
    cases target with
    | layer => exact hbind (.pure _) fun n hn => Layer.defined_handleAction hn _ data
    | visual =>
      refine hbind (.pure _) fun n hn => Layer.defined_bind_read hn fun layer hheld => ?_
      cases hactive : layer.activeInstance with
      | none => exact .pure _
      | some a =>
        exact VisualInstance.defined_handleAction
          (hheld a (Layer.mem_held_of_activeInstance hactive)) _ data

end Engine

end

end ArbutusEngine
