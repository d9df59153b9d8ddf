import ArbutusEngine.Held
import ArbutusEngine.Lib.Confined

/-!
# Regions of the state

A region is a set of layers and a set of instances. The functions that play and stop what one layer
holds change this layer and instances that lie on it, and nothing else but two things that are
shared: a camera that has been opened stays open, and an access to the engine properties resets
them. Both can be done in any order and any number of times. So such a function is confined to the
actions of a region, and blind to those of a region that is disjoint.

Where the instances lie does not change while they are played. It is a parameter, `κ`.

## Main definitions

* `Placing`, `EngineState.placing`: where the instances lie.
* `Region`, `Region.Move`, `Region.actions`: the actions of a region; `Region.Disjoint`.
* `Region.Agree`: two states that a function of the region cannot tell apart.
* `Within`: the layers of a region hold instances of the region.

## Main results

* `Region.comm_actions`: actions of disjoint regions commute.
* `Region.agree_of_mem_actions`: what the actions of another region leave alone.
-/

open Exec

namespace ArbutusEngine

/-! ### Opened cameras -/

/-- A camera that has been opened. -/
def VisualSource.opened : VisualSource → VisualSource
  | .camera deviceId frameRate width height _ => .camera deviceId frameRate width height true
  | source => source

@[simp] theorem VisualSource.opened_opened (source : VisualSource) :
    source.opened.opened = source.opened := by
  cases source <;> rfl

/-- A program that asks for the class of a visual does not see whether a camera is open. -/
theorem VisualSource.eq_or_of_opened {x y : VisualSource} (hxy : x.opened = y.opened) :
    x = y ∨ ∃ deviceId frameRate width height isOpened isOpened',
      x = .camera deviceId frameRate width height isOpened ∧
        y = .camera deviceId frameRate width height isOpened' := by
  cases x <;> cases y <;> simp_all [VisualSource.opened]

namespace Visual

/-- The visual after the camera at an address has been opened. -/
def openIf (a : Addr) (v : Visual) : Visual :=
  if v.addr = a then { v with source := v.source.opened } else v

@[simp] theorem addr_openIf (a : Addr) (v : Visual) : (v.openIf a).addr = v.addr := by
  rw [openIf]
  split_ifs <;> rfl

@[simp] theorem opened_source_openIf (a : Addr) (v : Visual) :
    (v.openIf a).source.opened = v.source.opened := by
  rw [openIf]
  split_ifs
  · exact v.source.opened_opened
  · rfl

theorem openIf_of_ne {a : Addr} {v : Visual} (hv : v.addr ≠ a) : v.openIf a = v := if_neg hv

theorem openIf_openIf (a b : Addr) (v : Visual) :
    (v.openIf b).openIf a = (v.openIf a).openIf b := by
  by_cases ha : v.addr = a
  · by_cases hb : v.addr = b
    · rw [← ha, ← hb]
    · rw [openIf_of_ne hb, openIf_of_ne (a := b) ((v.addr_openIf a).symm ▸ hb)]
  · rw [openIf_of_ne ha, openIf_of_ne ((v.addr_openIf b).symm ▸ ha)]

end Visual

namespace EngineState

/-- The state after a camera has been opened. -/
def openCamera (a : Addr) (s : EngineState) : EngineState :=
  { s with visualsList := s.visualsList.map (Visual.openIf a) }

/-- The source of the visual at an address, a camera being open or not. -/
def sourceAt (a : Addr) (s : EngineState) : Option VisualSource :=
  (s.visualsList.find? fun v => v.addr = a).map fun v => v.source.opened

theorem sourceAt_openCamera (a b : Addr) (s : EngineState) :
    (s.openCamera a).sourceAt b = s.sourceAt b := by
  simp only [sourceAt, openCamera, List.find?_map, Option.map_map, Function.comp_def,
    Visual.addr_openIf, Visual.opened_source_openIf]

theorem openCamera_openCamera (a b : Addr) (s : EngineState) :
    (s.openCamera b).openCamera a = (s.openCamera a).openCamera b := by
  simp only [openCamera, List.map_map]
  congr 2
  exact funext fun v => v.openIf_openIf a b

end EngineState

theorem VisualInstance.openCamera_eq (a : Addr) :
    VisualInstance.openCamera a = modify (EngineState.openCamera a) := by
  funext s
  rw [VisualInstance.openCamera, modify_run, modify_run, EngineState.openCamera]
  congr 3
  funext v
  rw [Visual.openIf]
  split_ifs
  · obtain ⟨addr, caption, source⟩ := v
    cases source <;> rfl
  · rfl

/-! ### Regions -/

/-- The visual and the cell of the instance at an address. -/
abbrev Placing : Type := Addr → Option (Addr × (UInt32 × UInt32))

def EngineState.placing (s : EngineState) : Placing := s.outline.instanceAt

/-- A set of layers, given by their positions, and a set of instances. -/
structure Region where
  layers : Set ℕ
  instances : Set Addr

namespace Region

/-- What a function of the region may do at once. An instance keeps its visual and its cell. -/
inductive Move (h : Host) (κ : Placing) (R : Region) : Function.End EngineState → Prop
  | layer {n : ℕ} (hn : n ∈ R.layers) (f : Layer → Layer) :
    Move h κ R fun s => { s with layersList := s.layersList.modify n f }
  | visualInstance {a : Addr} (ha : a ∈ R.instances) {i : VisualInstance}
      (hi : κ a = some (i.visual, i.cell)) :
    Move h κ R fun s => { s with instances := s.instances.set a i }
  | camera (a : Addr) : Move h κ R (EngineState.openCamera a)
  | reset : Move h κ R (EngineState.resetProperties h)

/-- The actions of a region. -/
def actions (h : Host) (κ : Placing) (R : Region) : Submonoid (Function.End EngineState) :=
  Submonoid.closure {f | R.Move h κ f}

/-- The regions have no layer and no live instance in common. -/
def Disjoint (κ : Placing) (R S : Region) : Prop :=
  (∀ n ∈ R.layers, n ∉ S.layers) ∧ ∀ a ∈ R.instances, κ a ≠ none → a ∉ S.instances

theorem Disjoint.symm {κ : Placing} {R S : Region} (hd : R.Disjoint κ S) : S.Disjoint κ R :=
  ⟨fun n hS hR => hd.1 n hR hS, fun a hS ha hR => hd.2 a hR ha hS⟩

theorem Move.mem {h : Host} {κ : Placing} {R : Region} {f : Function.End EngineState}
    (hf : R.Move h κ f) : f ∈ R.actions h κ := Submonoid.subset_closure hf

variable {h : Host} {κ : Placing} {R S : Region}

theorem move_comm (hd : R.Disjoint κ S) {f g : Function.End EngineState} (hf : R.Move h κ f)
    (hg : S.Move h κ g) (s : EngineState) : f (g s) = g (f s) := by
  cases hf with
  | @layer n hn φ =>
    cases hg with
    | @layer m hm ψ =>
      have hne : n ≠ m := fun heq => hd.1 n hn (heq ▸ hm)
      exact congrArg (fun l => { s with layersList := l }) (List.modify_modify_ne _ _ _ hne.symm)
    | visualInstance => rfl
    | camera => rfl
    | reset => rfl
  | @visualInstance a ha i hi =>
    cases hg with
    | layer => rfl
    | @visualInstance b hb j hj =>
      have hlive : κ a ≠ none := by
        rw [hi]
        exact Option.some_ne_none _
      have hne : a ≠ b := fun heq => hd.2 a ha hlive (heq ▸ hb)
      exact congrArg (fun i => { s with instances := i }) (Heap.set_set_of_ne _ _ hne.symm)
    | camera => rfl
    | reset => rfl
  | camera a =>
    cases hg with
    | layer => rfl
    | visualInstance => rfl
    | camera b => exact EngineState.openCamera_openCamera a b s
    | reset => rfl
  | reset => cases hg <;> rfl

/-- Actions of disjoint regions commute. -/
theorem comm_actions (hd : R.Disjoint κ S) {f g : Function.End EngineState}
    (hf : f ∈ R.actions h κ) (hg : g ∈ S.actions h κ) (s : EngineState) : f (g s) = g (f s) :=
  comm_of_closure (fun _ hf _ hg => move_comm hd hf hg) hf hg s

/-- Two states that a function of the region cannot tell apart. -/
structure Agree (h : Host) (R : Region) (s t : EngineState) : Prop where
  scenesList : s.scenesList = t.scenesList
  currentScene : s.currentScene = t.currentScene
  stops : s.stopCurrentVisualIfTriggeredInvalid = t.stopCurrentVisualIfTriggeredInvalid
  properties : s.properties.setDefaults h = t.properties.setDefaults h
  sourceAt : ∀ a, s.sourceAt a = t.sourceAt a
  placing : s.placing = t.placing
  layers : ∀ n ∈ R.layers, s.layersList[n]? = t.layersList[n]?
  instances : ∀ a ∈ R.instances, s.instances.get? a = t.instances.get? a

namespace Agree

theorem refl (s : EngineState) : R.Agree h s s :=
  ⟨rfl, rfl, rfl, rfl, fun _ => rfl, rfl, fun _ _ => rfl, fun _ _ => rfl⟩

theorem trans {s t u : EngineState} (hst : R.Agree h s t) (htu : R.Agree h t u) :
    R.Agree h s u where
  scenesList := hst.scenesList.trans htu.scenesList
  currentScene := hst.currentScene.trans htu.currentScene
  stops := hst.stops.trans htu.stops
  properties := hst.properties.trans htu.properties
  sourceAt a := (hst.sourceAt a).trans (htu.sourceAt a)
  placing := hst.placing.trans htu.placing
  layers n hn := (hst.layers n hn).trans (htu.layers n hn)
  instances a ha := (hst.instances a ha).trans (htu.instances a ha)

end Agree

/-- Overwriting an instance by one with the same visual and the same cell. -/
theorem placing_set {s : EngineState} {a : Addr} {i : VisualInstance}
    (hi : s.placing a = some (i.visual, i.cell)) :
    ({ s with instances := s.instances.set a i } : EngineState).placing = s.placing := by
  obtain ⟨j, hj, -⟩ := Option.map_eq_some_iff.mp hi
  funext b
  change ((s.instances.set a i).get? b).map _ = (s.instances.get? b).map _
  rw [Heap.get?_set _ hj]
  split_ifs with hb
  · rw [hb]
    exact hi.symm
  · rfl

/-- A single action of a disjoint region. -/
theorem agree_of_move (hd : R.Disjoint κ S) {f : Function.End EngineState} (hf : S.Move h κ f)
    {s : EngineState} (hs : s.placing = κ) : R.Agree h (f s) s := by
  cases hf with
  | @layer n hn φ =>
    refine { Agree.refl s with layers := fun m hm => ?_ }
    have hne : n ≠ m := fun heq => hd.1 m hm (heq ▸ hn)
    exact List.getElem?_modify_ne _ _ hne
  | @visualInstance a ha i hi =>
    have hlive : κ a ≠ none := by
      rw [hi]
      exact Option.some_ne_none _
    rw [← hs] at hi
    refine { Agree.refl s with placing := placing_set hi, instances := fun b hb => ?_ }
    obtain ⟨j, hj, -⟩ := Option.map_eq_some_iff.mp hi
    have hne : b ≠ a := fun heq => hd.2 a (heq ▸ hb) hlive ha
    exact (Heap.get?_set _ hj _ _).trans (if_neg hne)
  | camera a => exact { Agree.refl s with sourceAt := s.sourceAt_openCamera a }
  | reset => exact { Agree.refl s with }

/-- What the actions of a disjoint region leave alone. -/
theorem agree_of_mem_actions (hd : R.Disjoint κ S) {f : Function.End EngineState}
    (hf : f ∈ S.actions h κ) {s : EngineState} (hs : s.placing = κ) : R.Agree h (f s) s := by
  induction hf using Submonoid.closure_induction generalizing s with
  | mem f hf => exact agree_of_move hd hf hs
  | one => exact .refl s
  | mul f g _ _ ihf ihg =>
    have hg := ihg hs
    exact (ihf (hg.placing.trans hs)).trans hg

end Region

/-! ### Programs of a region -/

/-- The layer holds instances of the set only. -/
def Layer.HeldIn (C : Set Addr) (layer : Layer) : Prop :=
  (∀ a, layer.activeInstance = some a → a ∈ C) ∧ ∀ a, layer.schedulledInstance = some a → a ∈ C

/-- The instances lie where `κ` says, and the layers of the region hold instances of the region. -/
def Within (κ : Placing) (R : Region) (s : EngineState) : Prop :=
  s.placing = κ ∧ ∀ n ∈ R.layers, ∀ layer, s.layersList[n]? = some layer → layer.HeldIn R.instances

/-- The program is one of the region `R`, and does not notice what happens in the region `S`. -/
abbrev ConfinedTo {α : Type} (h : Host) (κ : Placing) (R S : Region) (x : Prog α) : Prop :=
  Confined (R.actions h κ) (S.actions h κ) (Within κ R) x

end ArbutusEngine

namespace Exec.Confined

open ArbutusEngine

variable {α : Type} {h : Host} {κ : Placing} {R S : Region}

theorem readInstance (hd : R.Disjoint κ S) {a : Addr} (ha : a ∈ R.instances) :
    ConfinedTo h κ R S (VisualInstance.read a) :=
  .deref _ fun _ hg _ hs => (Region.agree_of_mem_actions hd hg hs.1).instances a ha

theorem readLayer (hd : R.Disjoint κ S) {n : ℕ} (hn : n ∈ R.layers) :
    ConfinedTo h κ R S (Layer.read n) :=
  .deref _ fun _ hg _ hs => (Region.agree_of_mem_actions hd hg hs.1).layers n hn

/-- What is read satisfies the invariant, so that the rest may rely on it. -/
theorem bind_readInstance (hd : R.Disjoint κ S) {a : Addr} (ha : a ∈ R.instances)
    {f : VisualInstance → Prog α}
    (hf : ∀ i, κ a = some (i.visual, i.cell) → ConfinedTo h κ R S (f i)) :
    ConfinedTo h κ R S (VisualInstance.read a >>= f) := by
  refine (readInstance hd ha).bind_of (V := fun i => κ a = some (i.visual, i.cell))
    (fun s hs => ?_) hf
  rw [VisualInstance.read, ← hs.1]
  cases hi : s.instances.get? a with
  | none => trivial
  | some i => exact congrArg (Option.map fun i : VisualInstance => (i.visual, i.cell)) hi

theorem bind_readLayer (hd : R.Disjoint κ S) {n : ℕ} (hn : n ∈ R.layers) {f : Layer → Prog α}
    (hf : ∀ layer, layer.HeldIn R.instances → ConfinedTo h κ R S (f layer)) :
    ConfinedTo h κ R S (Layer.read n >>= f) := by
  refine (readLayer hd hn).bind_of (V := fun layer => layer.HeldIn R.instances) (fun s hs => ?_) hf
  rw [Layer.read]
  cases hl : s.layersList[n]? with
  | none => trivial
  | some layer => exact hs.2 n hn layer hl

/-- Of an instance anywhere the cell may be read. -/
theorem bind_readCell (hd : R.Disjoint κ S) {a : Addr} {f : VisualInstance → Prog α}
    (hcell : ∀ i j : VisualInstance, i.cell = j.cell → f i = f j)
    (hf : ∀ i, ConfinedTo h κ R S (f i)) : ConfinedTo h κ R S (VisualInstance.read a >>= f) where
  acts s hs := by
    rw [bind_run, VisualInstance.read]
    cases s.instances.get? a with
    | none => trivial
    | some i => exact (hf i).acts s hs
  blind g hg s hs := by
    have hplacing : (g s).placing a = s.placing a :=
      congrFun (Region.agree_of_mem_actions hd hg hs.1).placing a
    change ((g s).instances.get? a).map (fun i : VisualInstance => (i.visual, i.cell)) =
      (s.instances.get? a).map fun i => (i.visual, i.cell) at hplacing
    rw [bind_run, bind_run, VisualInstance.read, VisualInstance.read]
    cases hi : s.instances.get? a with
    | none =>
      rw [hi, Option.map_none, Option.map_eq_none_iff] at hplacing
      rw [hplacing]
      rfl
    | some i =>
      rw [hi, Option.map_some] at hplacing
      obtain ⟨j, hj, hji⟩ := Option.map_eq_some_iff.mp hplacing
      rw [hj]
      change f j (g s) = (f i s).mapState g
      rw [hcell j i (Prod.mk.inj hji).2]
      exact (hf i).blind g hg s hs

/-- A camera may have been opened before the visual is read. -/
theorem bind_readVisual (hd : R.Disjoint κ S) {a : Addr} {f : Visual → Prog α}
    (hopened : ∀ v w : Visual, v.source.opened = w.source.opened → f v = f w)
    (hf : ∀ v, ConfinedTo h κ R S (f v)) : ConfinedTo h κ R S (Visual.read a >>= f) where
  acts s hs := by
    rw [bind_run, Visual.read]
    cases s.visualsList.find? fun v => v.addr = a with
    | none => trivial
    | some v => exact (hf v).acts s hs
  blind g hg s hs := by
    have hsource := (Region.agree_of_mem_actions hd hg hs.1).sourceAt a
    rw [EngineState.sourceAt, EngineState.sourceAt] at hsource
    rw [bind_run, bind_run, Visual.read, Visual.read]
    cases hv : s.visualsList.find? fun v => v.addr = a with
    | none =>
      rw [hv, Option.map_none, Option.map_eq_none_iff] at hsource
      rw [hsource]
      rfl
    | some v =>
      rw [hv, Option.map_some] at hsource
      obtain ⟨w, hw, hwv⟩ := Option.map_eq_some_iff.mp hsource
      rw [hw]
      change f w (g s) = (f v s).mapState g
      rw [hopened w v hwv]
      exact (hf v).blind g hg s hs

theorem updateInstance (hd : R.Disjoint κ S) {a : Addr} (ha : a ∈ R.instances)
    {f : VisualInstance → VisualInstance} (hv : ∀ i, (f i).visual = i.visual)
    (hc : ∀ i, (f i).cell = i.cell) : ConfinedTo h κ R S (VisualInstance.update a f) := by
  refine bind_readInstance hd ha fun i hi => ?_
  have hi' : κ a = some ((f i).visual, (f i).cell) := by rw [hv, hc, hi]
  have hmove : R.Move h κ fun s => { s with instances := s.instances.set a (f i) } :=
    .visualInstance ha hi'
  refine .modify hmove.mem (fun s hs => ⟨?_, hs.2⟩)
    fun g hg s => Region.comm_actions hd hmove.mem hg s
  rw [← hs.1] at hi'
  exact (Region.placing_set hi').trans hs.1

theorem updateLayer (hd : R.Disjoint κ S) {n : ℕ} (hn : n ∈ R.layers) {f : Layer → Layer}
    (hf : ∀ layer, layer.HeldIn R.instances → (f layer).HeldIn R.instances) :
    ConfinedTo h κ R S (Layer.update n f) := by
  refine .bind (readLayer hd hn) fun _ => ?_
  have hmove : R.Move h κ fun s => { s with layersList := s.layersList.modify n f } := .layer hn f
  refine .modify hmove.mem (fun s hs => ⟨hs.1, fun m hm layer hlayer => ?_⟩)
    fun g hg s => Region.comm_actions hd hmove.mem hg s
  rw [List.getElem?_modify] at hlayer
  obtain ⟨old, hold, rfl⟩ := Option.map_eq_some_iff.mp hlayer
  split_ifs
  · exact hf old (hs.2 m hm old hold)
  · exact hs.2 m hm old hold

theorem openCamera (hd : R.Disjoint κ S) (a : Addr) :
    ConfinedTo h κ R S (VisualInstance.openCamera a) := by
  have hmove : R.Move h κ (EngineState.openCamera a) := .camera a
  rw [VisualInstance.openCamera_eq]
  exact .modify hmove.mem (fun _ hs => hs) fun g hg s => Region.comm_actions hd hmove.mem hg s

theorem getInstance (hd : R.Disjoint κ S) :
    ConfinedTo h κ R S (EngineProperties.getInstance h) := by
  have hmove : R.Move h κ (EngineState.resetProperties h) := .reset
  have heq : EngineProperties.getInstance h = (do
      let p ← Exec.gets fun s => s.properties.setDefaults h
      Exec.modify (EngineState.resetProperties h)
      return p) := rfl
  rw [heq]
  refine .bind (.gets fun g hg s hs => (Region.agree_of_mem_actions hd hg hs.1).properties)
    fun _ => ?_
  refine .bind (.modify hmove.mem (fun _ hs => hs) fun g hg s => ?_) fun _ => .pure _
  exact Region.comm_actions hd hmove.mem hg s

end Exec.Confined

namespace ArbutusEngine

/-! ### Functions of one instance -/

namespace VisualInstance

variable {h : Host} {κ : Placing} {R S : Region} {a : Addr}

theorem confined_loadVideo (hd : R.Disjoint κ S) (ha : a ∈ R.instances) :
    ConfinedTo h κ R S (loadVideo h a) := by
  have hset : ∀ f : VisualInstance → VisualInstance, (∀ i, (f i).visual = i.visual) →
      (∀ i, (f i).cell = i.cell) → ConfinedTo h κ R S (update a f) := fun _ hv hc =>
    .updateInstance hd ha hv hc
  refine .bind (hset _ (fun _ => rfl) fun _ => rfl) fun _ => .bind (.readInstance hd ha) fun i => ?_
  refine .bind_readVisual hd (fun v w hvw => ?_) fun v => ?_
  · rcases VisualSource.eq_or_of_opened hvw with heq | ⟨_, _, _, _, _, _, hv, hw⟩
    · simp only [heq]
    · simp only [hv, hw]
  cases v.source with
  | video filePath =>
    refine .ite (.bind (hset _ (fun _ => rfl) fun _ => rfl) fun _ => .ite ?_ (.throw _)) (.throw _)
    exact .bind (hset _ (fun _ => rfl) fun _ => rfl) fun _ => .pure _
  | camera => exact .pure _
  | syphon => exact .pure _

theorem confined_snapsToBeat (hd : R.Disjoint κ S) (i : VisualInstance) :
    ConfinedTo h κ R S (snapsToBeat h i) :=
  .ite (.bind (.getInstance hd) fun _ => .pure _) (.pure _)

theorem confined_playLoaded (hd : R.Disjoint κ S) (ha : a ∈ R.instances) (forcePlay : Bool) :
    ConfinedTo h κ R S (playLoaded h a forcePlay) := by
  have hset : ∀ f : VisualInstance → VisualInstance, (∀ i, (f i).visual = i.visual) →
      (∀ i, (f i).cell = i.cell) → ConfinedTo h κ R S (update a f) := fun _ hv hc =>
    .updateInstance hd ha hv hc
  have hplaying := hset (setIsPlaying true) (fun _ => rfl) fun _ => rfl
  refine .bind (.readInstance hd ha) fun i => .ite ?_ (.pure _)
  refine .bind (confined_snapsToBeat hd i) fun snaps => .ite ?_ ?_
  · exact .bind (hset _ (fun _ => rfl) fun _ => rfl) fun _ => hplaying
  · exact .bind (hset _ (fun _ => rfl) fun _ => rfl) fun _ => hplaying

theorem confined_play (hd : R.Disjoint κ S) (ha : a ∈ R.instances) (forcePlay : Bool) :
    ConfinedTo h κ R S (play h a forcePlay) := by
  have hset : ∀ f : VisualInstance → VisualInstance, (∀ i, (f i).visual = i.visual) →
      (∀ i, (f i).cell = i.cell) → ConfinedTo h κ R S (update a f) := fun _ hv hc =>
    .updateInstance hd ha hv hc
  have hplaying := hset (setIsPlaying true) (fun _ => rfl) fun _ => rfl
  refine .bind (hset _ (fun _ => rfl) fun _ => rfl) fun _ => ?_
  refine .bind (hset _ (fun _ => rfl) fun _ => rfl) fun _ => .bind (.readInstance hd ha) fun i => ?_
  refine .bind_readVisual hd (fun v w hvw => ?_) fun v => ?_
  · rcases VisualSource.eq_or_of_opened hvw with heq | ⟨_, _, _, _, _, _, hv, hw⟩
    · simp only [heq]
    · simp only [hv, hw]
  cases v.source with
  | video filePath =>
    have hrest := confined_playLoaded (h := h) hd ha forcePlay
    exact .ite hrest (.bind (confined_loadVideo hd ha) fun _ => hrest)
  | camera => exact .bind (.openCamera hd _) fun _ => hplaying
  | syphon => exact hplaying

theorem confined_stop (hd : R.Disjoint κ S) (ha : a ∈ R.instances) :
    ConfinedTo h κ R S (stop a) := by
  have hstopped : ConfinedTo h κ R S (update a (setIsPlaying false)) :=
    .updateInstance hd ha (fun _ => rfl) fun _ => rfl
  refine .bind (.readInstance hd ha) fun i => .bind_readVisual hd (fun v w hvw => ?_) fun v => ?_
  · rcases VisualSource.eq_or_of_opened hvw with heq | ⟨_, _, _, _, _, _, hv, hw⟩
    · simp only [heq]
    · simp only [hv, hw]
  cases v.source with
  | video filePath =>
    refine .ite (.bind (.updateInstance hd ha ?_ ?_) fun _ => hstopped) (.pure _)
    · exact fun _ => rfl
    · exact fun _ => rfl
  | camera => exact hstopped
  | syphon => exact hstopped

theorem confined_retrigger (hd : R.Disjoint κ S) (ha : a ∈ R.instances) :
    ConfinedTo h κ R S (retrigger h a) := by
  have hset : ∀ f : VisualInstance → VisualInstance, (∀ i, (f i).visual = i.visual) →
      (∀ i, (f i).cell = i.cell) → ConfinedTo h κ R S (update a f) := fun _ hv hc =>
    .updateInstance hd ha hv hc
  refine .bind (.readInstance hd ha) fun i => .bind (confined_snapsToBeat hd i) fun snaps => ?_
  refine .ite (hset _ (fun _ => rfl) fun _ => rfl) ?_
  exact .bind (hset _ (fun _ => rfl) fun _ => rfl) fun _ => hset _ (fun _ => rfl) fun _ => rfl

end VisualInstance

/-! ### Functions of one layer -/

namespace Layer

variable {h : Host} {κ : Placing} {R S : Region} {n : ℕ} {a : Addr}

theorem confined_setActiveVisualInstance (hd : R.Disjoint κ S) (hn : n ∈ R.layers)
    (ha : a ∈ R.instances) : ConfinedTo h κ R S (setActiveVisualInstance n a) := by
  refine .updateLayer hd hn fun layer _ => ⟨?_, ?_⟩
  · rintro b ⟨⟩
    exact ha
  · exact fun b hb => absurd hb (Option.some_ne_none b).symm

theorem confined_stop (hd : R.Disjoint κ S) (hn : n ∈ R.layers) : ConfinedTo h κ R S (stop n) := by
  refine .bind_readLayer hd hn fun layer hheld => ?_
  cases hactive : layer.activeInstance with
  | none => exact .pure _
  | some a =>
    refine .bind (VisualInstance.confined_stop hd (hheld.1 a hactive)) fun _ => ?_
    refine .updateLayer hd hn fun layer _ => ⟨?_, ?_⟩
    · exact fun b hb => absurd hb (Option.some_ne_none b).symm
    · exact fun b hb => absurd hb (Option.some_ne_none b).symm

theorem confined_activateSchedulledInstance (hd : R.Disjoint κ S) (hn : n ∈ R.layers) :
    ConfinedTo h κ R S (activateSchedulledInstance h n) := by
  refine .bind_readLayer hd hn fun layer hheld => ?_
  cases hsched : layer.schedulledInstance with
  | none => exact .pure _
  | some b =>
    have hb := hheld.2 b hsched
    have hrest : ConfinedTo h κ R S (startSchedulled h n b) :=
      .bind (confined_setActiveVisualInstance hd hn hb) fun _ =>
        .bind (VisualInstance.confined_play hd hb true) fun _ =>
          .updateInstance hd hb (fun _ => rfl) fun _ => rfl
    cases hactive : layer.activeInstance with
    | none => exact hrest
    | some a =>
      have ha := hheld.1 a hactive
      refine .bind (.readInstance hd ha) fun i => .ite ?_ hrest
      exact .bind (VisualInstance.confined_stop hd ha) fun _ => hrest

theorem confined_waitsForBeat (hd : R.Disjoint κ S) (i : VisualInstance) :
    ConfinedTo h κ R S (waitsForBeat h i) := by
  refine .ite (.bind (.getInstance hd) fun _ => .ite ?_ (.pure _)) (.pure _)
  exact .bind (.getInstance hd) fun _ => .pure _

theorem confined_playVisualInstance (hd : R.Disjoint κ S) (hn : n ∈ R.layers)
    (ha : a ∈ R.instances) : ConfinedTo h κ R S (playVisualInstance h n a) := by
  refine .bind (.readInstance hd ha) fun i => .bind (confined_waitsForBeat hd i) fun waits => ?_
  refine .ite ?_ ?_
  · refine .updateLayer hd hn fun layer hheld => ⟨hheld.1, ?_⟩
    rintro b ⟨⟩
    exact ha
  have hretrigger : ConfinedTo h κ R S (VisualInstance.retriggerIf h a) :=
    .bind (.readInstance hd ha) fun _ =>
      .ite (VisualInstance.confined_retrigger hd ha) (.pure _)
  refine .bind_readLayer hd hn fun layer hheld => .ite hretrigger ?_
  have hplay : ConfinedTo h κ R S (startInstance h n a) :=
    .bind (confined_setActiveVisualInstance hd hn ha) fun _ =>
      .bind (VisualInstance.confined_play hd ha false) fun _ => hretrigger
  cases hactive : layer.activeInstance with
  | none => exact hplay
  | some b =>
    exact .bind (VisualInstance.confined_stop hd (hheld.1 b hactive)) fun _ => hplay

/-- What a trigger does on one layer. -/
theorem confined_triggerLayer (hd : R.Disjoint κ S) (hn : n ∈ R.layers) :
    ConfinedTo h κ R S (Engine.triggerLayer h n) := by
  refine .bind_readLayer hd hn fun layer hheld => ?_
  match layer.schedulledInstance, hactive : layer.activeInstance with
  | some _, _ => exact confined_activateSchedulledInstance hd hn
  | none, none => exact .pure _
  | none, some a =>
    have ha := hheld.1 a hactive
    have hplay := VisualInstance.confined_play (h := h) hd ha true
    refine .bind (.readInstance hd ha) fun i => .ite (.ite ?_ hplay) (.pure _)
    exact .bind (.updateInstance hd ha (fun _ => rfl) fun _ => rfl) fun _ => hplay

end Layer

/-! ### The region of a layer -/

/-- The instance at the address, if there is one, lies on the layer at the position. -/
def OnLayer (κ : Placing) (n : ℕ) (a : Addr) : Prop := ∀ p, κ a = some p → p.2.1.toNat = n

/-- A layer and the instances that lie on it. -/
def Region.ofLayer (κ : Placing) (n : ℕ) : Region := ⟨{n}, {a | OnLayer κ n a}⟩

theorem Region.disjoint_ofLayer {κ : Placing} {n m : ℕ} (hnm : n ≠ m) :
    (Region.ofLayer κ n).Disjoint κ (Region.ofLayer κ m) := by
  refine ⟨fun k hk hk' => hnm (hk.symm.trans hk'), fun a ha hlive ha' => ?_⟩
  obtain ⟨p, hp⟩ := Option.ne_none_iff_exists'.mp hlive
  exact hnm ((ha p hp).symm.trans (ha' p hp))

/-- Every layer holds only instances that lie on it. -/
def EngineState.Placed (s : EngineState) : Prop :=
  ∀ n, Within s.placing (Region.ofLayer s.placing n) s

namespace EngineState.Placed

/-- A state that differs in the region of one layer. -/
theorem of_acts {s t : EngineState} (hs : s.Placed) {h : Host} {n : ℕ}
    (ht : Within s.placing (.ofLayer s.placing n) t)
    (hst : Acts ((Region.ofLayer s.placing n).actions h s.placing) s t) : t.Placed := by
  obtain ⟨f, hf, rfl⟩ := hst
  intro m
  rw [ht.1]
  by_cases hmn : m = n
  · rw [hmn]
    exact ht
  · have hagree := Region.agree_of_mem_actions (Region.disjoint_ofLayer hmn) hf rfl
    refine ⟨ht.1, fun k hk layer hlayer => ?_⟩
    rw [hagree.layers k hk] at hlayer
    exact (hs m).2 k hk layer hlayer

/-- An active instance lies on its layer. -/
theorem onLayer_of_activeAt {s : EngineState} (hs : s.Placed) {n : ℕ} {a : Addr}
    (ha : s.activeAt n = some a) : OnLayer s.placing n a := by
  obtain ⟨held, hheld, hactive⟩ := Option.bind_eq_some_iff.mp ha
  obtain ⟨layer, hlayer, rfl⟩ := Option.map_eq_some_iff.mp hheld
  exact ((hs n).2 n rfl layer hlayer).1 a hactive

/-- A program of one layer. -/
theorem post_of_confined {α : Type} {s : EngineState} (hs : s.Placed) {h : Host} {n : ℕ}
    {S : Region} {x : Prog α} (hx : ConfinedTo h s.placing (.ofLayer s.placing n) S x) :
    (x s).Post (fun _ => EngineState.Placed) fun _ => EngineState.Placed :=
  (hx.acts s (hs n)).mono (fun _ _ ht => hs.of_acts ht.1 ht.2) fun _ _ ht => hs.of_acts ht.1 ht.2

end EngineState.Placed

/-! ### Functions of the engine -/

/-- The instances of the current scene. -/
def EngineState.currentInstances (s : EngineState) : List Addr :=
  match s.currentScene with
  | none => []
  | some a => ((s.scenesList.find? fun scene => scene.addr = a).map Scene.visualInstances).getD []

section lookup

variable {h : Host} {κ : Placing} {R S : Region}

theorem VisualInstances.confined_getLoop (hd : R.Disjoint κ S) (layerN column : UInt32)
    (list : List Addr) : ConfinedTo h κ R S (VisualInstances.getLoop layerN column list) := by
  induction list with
  | nil => exact .pure _
  | cons a rest ih =>
    refine .bind_readCell hd (fun i j hij => ?_) fun i => .ite (.pure _) ih
    simp only [hij]

/-- Looking an instance up reads where all of them lie. -/
theorem Set.confined_getVisualInstanceInCorrentSet (hd : R.Disjoint κ S) (layerN column : UInt32) :
    ConfinedTo h κ R S (Set.getVisualInstanceInCorrentSet layerN column) := by
  refine .bind (.gets fun g hg s hs => (Region.agree_of_mem_actions hd hg hs.1).currentScene) ?_
  intro currentScene
  cases currentScene with
  | none => exact .pure _
  | some a =>
    refine .bind (.deref _ fun g hg s hs => ?_) fun scene => .ite (.pure _)
      (VisualInstances.confined_getLoop hd layerN column _)
    rw [(Region.agree_of_mem_actions hd hg hs.1).scenesList]

/-- The instance that is found lies in the cell. -/
theorem EngineState.onLayer_of_foundInCell {s : EngineState} {a : Addr} {cell : UInt32 × UInt32}
    (ha : s.foundInCell cell = some a) : OnLayer s.placing cell.1.toNat a := by
  have hcell := EngineState.inCell_of_foundInCell ha
  rw [VisualInstances.inCell, decide_eq_true_eq] at hcell
  obtain ⟨i, hi, hc⟩ := Option.map_eq_some_iff.mp hcell
  intro p hp
  change (s.instances.get? a).map (fun i : VisualInstance => (i.visual, i.cell)) = some p at hp
  rw [hi] at hp
  obtain rfl := Option.some.inj hp
  exact congrArg (fun cell : UInt32 × UInt32 => cell.1.toNat) hc

end lookup

section engine

variable {h : Host} {κ : Placing} {S : Region} {l : UInt32}

theorem Layers.confined_stopAt (hd : (Region.ofLayer κ l.toNat).Disjoint κ S) :
    ConfinedTo h κ (.ofLayer κ l.toNat) S (Layers.stopAt l) := by
  refine .bind (.gets fun g hg s hs => ?_) fun layer => ?_
  · exact (Region.agree_of_mem_actions hd hg hs.1).layers _ rfl
  cases layer with
  | none => exact .pure _
  | some _ => exact Layer.confined_stop hd rfl

theorem Engine.confined_setActiveVisualInstance (hd : (Region.ofLayer κ l.toNat).Disjoint κ S)
    (column : UInt32) :
    ConfinedTo h κ (.ofLayer κ l.toNat) S (Engine.setActiveVisualInstance h l column) := by
  refine .bind (.gets fun g hg s hs => ?_) fun layer => ?_
  · exact (Region.agree_of_mem_actions hd hg hs.1).layers _ rfl
  cases layer with
  | none => exact .pure _
  | some _ =>
    have hfound : ∀ s, Within κ (.ofLayer κ l.toNat) s →
        (Set.getVisualInstanceInCorrentSet l column s).Post
          (fun found _ => ∀ a, found = some a → OnLayer κ l.toNat a) fun _ _ => True := by
      intro s hs
      refine (Set.getVisualInstanceInCorrentSet_post l column s).mono (fun found _ hf a ha => ?_)
        fun _ _ _ => trivial
      have hon := EngineState.onLayer_of_foundInCell (hf.2.symm.trans ha)
      rwa [hs.1] at hon
    refine (Set.confined_getVisualInstanceInCorrentSet hd l column).bind_of hfound
      fun found hon => ?_
    cases found with
    | some a => exact .bind (Layer.confined_playVisualInstance hd rfl (hon a rfl)) fun _ => .pure _
    | none =>
      have hstop := Layers.confined_stopAt (h := h) hd
      refine .bind (.gets fun g hg s hs => ?_) fun _ =>
        .ite (.bind hstop fun _ => .pure _) (.pure _)
      exact (Region.agree_of_mem_actions hd hg hs.1).stops

end engine

/-! ### What keeps the layers placed -/

theorem Region.disjoint_empty {κ : Placing} (R : Region) : R.Disjoint κ ⟨∅, ∅⟩ :=
  ⟨fun _ _ h => h, fun _ _ _ h => h⟩

/-- A state with the same layers, in which the instances lie where they lay. -/
theorem EngineState.Placed.of_layersList {s t : EngineState} (hplacing : t.placing = s.placing)
    (hlayers : t.layersList = s.layersList) (hs : s.Placed) : t.Placed := by
  intro n
  rw [hplacing]
  exact ⟨hplacing, fun m hm layer hlayer => (hs n).2 m hm layer (hlayers ▸ hlayer)⟩

theorem EngineState.Placed.of_graph {s t : EngineState} (hst : s.graph = t.graph) (hs : s.Placed) :
    t.Placed :=
  hs.of_layersList (congrArg (fun g => g.instanceAt) hst.symm)
    (congrArg (fun g => g.layersList) hst.symm)

/-- The program keeps every layer holding only instances that lie on it. -/
abbrev KeepsPlaced {α : Type} (x : Prog α) : Prop := Keeps EngineState.Placed x

theorem KeepsOutline.placed {α : Type} {x : Prog α} (hx : KeepsOutline x) : KeepsPlaced x :=
  hx.graph.keeps fun _ _ h hs => hs.of_graph h

theorem Layer.keepsPlaced_stop (n : ℕ) : KeepsPlaced (Layer.stop n) :=
  fun _ hs => hs.post_of_confined (h := .plain) (Layer.confined_stop (Region.disjoint_empty _) rfl)

theorem Layers.keepsPlaced_stopAt (l : UInt32) : KeepsPlaced (Layers.stopAt l) :=
  fun _ hs => hs.post_of_confined (h := .plain) (Layers.confined_stopAt (Region.disjoint_empty _))

namespace Engine

theorem keepsPlaced_setActiveVisualInstance (h : Host) (l column : UInt32) :
    KeepsPlaced (setActiveVisualInstance h l column) :=
  fun _ hs => hs.post_of_confined
    (confined_setActiveVisualInstance (Region.disjoint_empty _) column)

theorem keepsPlaced_play (h : Host) (data : Json) : KeepsPlaced (play h data) := by
  have hnumber : ∀ message key, KeepsPlaced (numberOr message key data) :=
    fun _ _ => .bind (.ofExcept _ _) fun _ => .ite (.ofExcept _ _) (.throw _)
  refine .ite (.bind (hnumber _ _) fun layer => .bind (hnumber _ _) fun column => ?_) (.throw _)
  refine .bind (keepsPlaced_setActiveVisualInstance h layer column) fun found => ?_
  cases found with
  | none => exact .throw _
  | some a => exact (VisualInstance.keepsOutline_play h a false).placed

theorem keepsPlaced_stop (data : Json) : KeepsPlaced (stop data) :=
  .ite (.bind (.ofExcept _ _) fun layer => Layers.keepsPlaced_stopAt layer)
    (.bind (.gets _) fun _ => .forEach fun n _ => Layer.keepsPlaced_stop n)

end Engine

end ArbutusEngine
