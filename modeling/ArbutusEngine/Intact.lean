import ArbutusEngine.Lifecycle

/-!
# Intact states

A layer holds pointers to instances of the scenes, and an instance a pointer to its visual. The
lists that own the objects are emptied and edited on their own, so nothing ties these pointers to
them. The state is intact when every instance that a layer plays or has scheduled is listed by some
scene, and the visual of every listed instance is in the list of visuals.

This file has the calls that keep every state intact: those that add to a list, those that empty all
lists at once, and those that stop or trigger what a layer holds already.

## Main definitions

* `EngineState.held`, `EngineState.Intact`.
* `EngineState.Grows`: the state after layers that hold nothing have been added.

## Main results

* `EngineState.Intact.of_graph`: being intact depends on the object graph only.
* `Layer.keeps_intact_playVisualInstance`, `Layer.keeps_intact_activateSchedulledInstance`.
* `Engine.closeSet_post_intact`, `Engine.keeps_intact_createSet`, `Engine.keeps_intact_stop`,
  `Engine.keeps_intact_trigger`.
-/

open Exec

namespace ArbutusEngine

/-! ### Intact states -/

/-- The instances that a layer plays or has scheduled. -/
def Layer.held (layer : Layer) : List Addr :=
  layer.activeInstance.toList ++ layer.schedulledInstance.toList

namespace EngineState

/-- The instances that the layers play or have scheduled. -/
def held (s : EngineState) : List Addr := s.layersList.flatMap Layer.held

/-- Every instance that a layer holds is listed by a scene, and the visual of every instance of
every scene is in the list of visuals. -/
structure Intact (s : EngineState) : Prop where
  held_placed : ∀ a ∈ s.held, a ∈ s.placed
  connected : s.Connected

instance (s : EngineState) : Decidable s.Intact :=
  decidable_of_iff ((∀ a ∈ s.held, a ∈ s.placed) ∧ s.Connected)
    ⟨fun h => ⟨h.1, h.2⟩, fun h => ⟨h.1, h.2⟩⟩

variable {s t : EngineState}

theorem mem_held {a : Addr} : a ∈ s.held ↔ ∃ layer ∈ s.layersList, a ∈ layer.held :=
  List.mem_flatMap

theorem mem_placed {a : Addr} :
    a ∈ s.placed ↔ ∃ scene ∈ s.scenesList, a ∈ scene.visualInstances :=
  List.mem_flatMap

theorem connected_iff_known : s.Connected ↔ ∀ a ∈ s.placed, VisualInstances.Known s a := by
  rw [connected_iff]
  constructor
  · intro hc a ha
    obtain ⟨scene, hscene, ha⟩ := mem_placed.mp ha
    exact forall_known_iff.mpr (hc scene hscene) a ha
  · intro hk scene hscene
    exact forall_known_iff.mp fun a ha => hk a (mem_placed.mpr ⟨scene, hscene, ha⟩)

/-- A state without layers and scenes is intact. -/
theorem Intact.of_isEmpty (hs : s.IsEmpty) : s.Intact where
  held_placed := by
    rw [held, hs.1]
    exact fun _ ha => absurd ha List.not_mem_nil
  connected := by
    rw [Connected, views, hs.2.2]
    exact fun _ hview => absurd hview List.not_mem_nil

/-- The instances keep their visuals when no scene gets another instance and no visual is lost. -/
theorem Connected.mono (hs : s.Connected) (hplaced : ∀ a ∈ t.placed, a ∈ s.placed)
    (hinst : ∀ a, (t.instances.get? a).map VisualInstance.visual =
      (s.instances.get? a).map VisualInstance.visual)
    (hvisuals : ∀ v ∈ s.visualsList, ∃ w ∈ t.visualsList, w.addr = v.addr) : t.Connected := by
  rw [connected_iff_known] at hs ⊢
  intro a ha i hi
  have hvisual := hinst a
  rw [hi, Option.map_some, eq_comm, Option.map_eq_some_iff] at hvisual
  obtain ⟨j, hj, hji⟩ := hvisual
  obtain ⟨v, hv, hvj⟩ := hs a (hplaced a ha) j hj
  obtain ⟨w, hw, hwv⟩ := hvisuals v hv
  exact ⟨w, hw, by rw [hwv, hvj, hji]⟩

theorem placed_of_graph (h : s.graph = t.graph) : s.placed = t.placed :=
  congrArg (List.flatMap Scene.visualInstances) (congrArg (fun o => o.scenesList) h)

theorem held_of_graph (h : s.graph = t.graph) : s.held = t.held :=
  congrArg (List.flatMap Layer.held) (congrArg (fun o => o.layersList) h)

/-- Being intact depends on the object graph only. -/
theorem Intact.of_graph (h : s.graph = t.graph) (hs : s.Intact) : t.Intact where
  held_placed := by
    rw [← held_of_graph h, ← placed_of_graph h]
    exact hs.held_placed
  connected := by
    refine hs.connected.mono (fun a ha => placed_of_graph h ▸ ha) (fun a => ?_) fun v hv => ?_
    · have ha := congrArg (Option.map Prod.fst) (congrFun (congrArg (fun o => o.instanceAt) h) a)
      simpa [graph, outline, Function.comp_def] using ha.symm
    · have hvisuals : s.visualsList.map Visual.addr = t.visualsList.map Visual.addr :=
        congrArg (fun o => o.visuals) h
      exact List.mem_map.mp (hvisuals ▸ List.mem_map_of_mem hv)

end EngineState

theorem KeepsGraph.intact {α : Type} {x : Prog α} (hx : KeepsGraph x) :
    Keeps EngineState.Intact x :=
  hx.keeps fun _ _ h hs => hs.of_graph h

theorem KeepsOutline.intact {α : Type} {x : Prog α} (hx : KeepsOutline x) :
    Keeps EngineState.Intact x := hx.graph.intact

/-- A program that leaves the outline alone also leaves an instance in its scene. -/
theorem KeepsOutline.intact_placed {α : Type} {x : Prog α} (hx : KeepsOutline x) (a : Addr) :
    Keeps (fun s => s.Intact ∧ a ∈ s.placed) x :=
  hx.graph.keeps fun _ _ h hs => ⟨hs.1.of_graph h, EngineState.placed_of_graph h ▸ hs.2⟩

/-! ### Layers -/

/-- A change of one layer keeps the state intact when the layer then holds only listed instances. -/
theorem EngineState.Intact.modifyLayer {s : EngineState} (hs : s.Intact) {n : ℕ} {f : Layer → Layer}
    (hf : ∀ layer ∈ s.layersList, ∀ a ∈ (f layer).held, a ∈ s.placed) :
    ({ s with layersList := s.layersList.modify n f } : EngineState).Intact where
  held_placed a ha := by
    obtain ⟨layer, hlayer, ha⟩ := mem_held.mp ha
    obtain ⟨old, hold, rfl | rfl⟩ := exists_of_mem_modify hlayer
    · exact hs.held_placed a (mem_held.mpr ⟨layer, hold, ha⟩)
    · exact hf old hold a ha
  connected := hs.connected

namespace Layer

theorem keeps_intact_update {n : ℕ} {f : Layer → Layer}
    (hf : ∀ layer : Layer, ∀ a ∈ (f layer).held, a ∈ layer.held) :
    Keeps EngineState.Intact (update n f) := by
  refine .bind (Fixes.readLayer n).intact fun _ => .modify fun s hs => ?_
  exact hs.modifyLayer fun layer hlayer a ha =>
    hs.held_placed a (EngineState.mem_held.mpr ⟨layer, hlayer, hf layer a ha⟩)

/-- A layer may take an instance that a scene lists. -/
theorem keeps_intact_hold {n : ℕ} {a : Addr} {f : Layer → Layer}
    (hf : ∀ layer : Layer, ∀ b ∈ (f layer).held, b ∈ layer.held ∨ b = a) :
    Keeps (fun s => s.Intact ∧ a ∈ s.placed) (update n f) := by
  refine .bind ((Fixes.readLayer n).intact_placed a) fun _ => .modify fun s ⟨hs, ha⟩ => ?_
  refine ⟨hs.modifyLayer fun layer hlayer b hb => ?_, ha⟩
  rcases hf layer b hb with hb | rfl
  · exact hs.held_placed b (EngineState.mem_held.mpr ⟨layer, hlayer, hb⟩)
  · exact ha

theorem keeps_intact_stop (n : ℕ) : Keeps EngineState.Intact (stop n) := by
  refine .bind (Fixes.readLayer n).intact fun layer => ?_
  cases layer.activeInstance with
  | none => exact .pure _
  | some a =>
    exact .bind (VisualInstance.keepsOutline_stop a).intact fun _ =>
      keeps_intact_update fun _ b hb => absurd hb List.not_mem_nil

theorem keeps_intact_setState (n : ℕ) (state : Json) :
    Keeps EngineState.Intact (setState n state) :=
  .bind (Fixes.readLayer n).intact fun _ => .bind (.ofExcept _ _) fun _ =>
    keeps_intact_update fun _ _ hb => hb

theorem keeps_intact_setActiveVisualInstance (n : ℕ) (a : Addr) :
    Keeps (fun s => s.Intact ∧ a ∈ s.placed) (setActiveVisualInstance n a) :=
  keeps_intact_hold fun _ b hb => .inr (by simpa [held] using hb)

theorem keeps_intact_schedulleInstance (n : ℕ) (a : Addr) :
    Keeps (fun s => s.Intact ∧ a ∈ s.placed) (schedulleInstance n a) := by
  refine keeps_intact_hold fun layer b hb => ?_
  rcases List.mem_append.mp hb with hb | hb
  · exact .inl (List.mem_append_left _ hb)
  · exact .inr (by simpa using hb)

/-- Playing an instance that a scene lists. -/
theorem keeps_intact_playVisualInstance (h : Host) (n : ℕ) (a : Addr) :
    Keeps (fun s => s.Intact ∧ a ∈ s.placed) (playVisualInstance h n a) :=
  keeps_playVisualInstance (fun hx => hx.intact_placed a) (keeps_intact_setActiveVisualInstance n a)
    (keeps_intact_schedulleInstance n a) h

/-- Activating a scheduled instance: the layer holds it already, so a scene lists it. -/
theorem keeps_intact_activateSchedulledInstance (h : Host) (n : ℕ) :
    Keeps EngineState.Intact (activateSchedulledInstance h n) := by
  intro s hs
  cases hl : s.layersList[n]? with
  | none => simp [activateSchedulledInstance, read, hl]
  | some layer =>
    simp only [activateSchedulledInstance, bind_run, read, hl, ofOption_some, pure_run,
      Outcome.bind_ok]
    cases hb : layer.schedulledInstance with
    | none => exact hs
    | some b =>
      have hplaced : b ∈ s.placed := hs.held_placed b <| EngineState.mem_held.mpr
        ⟨layer, List.mem_of_getElem? hl, List.mem_append_right _ (by simp [hb])⟩
      have hrest : Keeps (fun s => s.Intact ∧ b ∈ s.placed) (startSchedulled h n b) :=
        keeps_startSchedulled (fun hx => hx.intact_placed b)
          (keeps_intact_setActiveVisualInstance n b) h
      refine Outcome.Post.mono (Q := fun _ t => t.Intact ∧ b ∈ t.placed)
        (E := fun _ t => t.Intact ∧ b ∈ t.placed) ?_ (fun _ _ ht => ht.1) fun _ _ ht => ht.1
      cases layer.activeInstance with
      | none => exact hrest s ⟨hs, hplaced⟩
      | some a =>
        have hstop : Keeps (fun s => s.Intact ∧ b ∈ s.placed) (VisualInstance.stop a) :=
          (VisualInstance.keepsOutline_stop a).intact_placed b
        exact Keeps.bind ((Fixes.readInstance a).intact_placed b)
          (fun i => .ite (.bind hstop fun _ => hrest) hrest) s ⟨hs, hplaced⟩

end Layer

/-- The state `t` is the state `s` after layers that hold no instance have been added. -/
def EngineState.Grows (s t : EngineState) : Prop :=
  ∃ l n p, t = { s with layersList := s.layersList ++ l, nextAddr := n, properties := p } ∧
    ∀ layer ∈ l, layer.held = []

namespace EngineState.Grows

variable {s t : EngineState}

theorem refl (s : EngineState) : s.Grows s :=
  ⟨[], s.nextAddr, s.properties, by rw [List.append_nil], fun _ hl => absurd hl List.not_mem_nil⟩

theorem held_eq (ht : s.Grows t) : t.held = s.held := by
  obtain ⟨l, n, p, rfl, hl⟩ := ht
  rw [held, List.flatMap_append, List.flatMap_eq_nil_iff.mpr hl, List.append_nil, held]

theorem intact (ht : s.Grows t) (hs : s.Intact) : t.Intact where
  held_placed := by
    rw [ht.held_eq]
    obtain ⟨l, n, p, rfl, -⟩ := ht
    exact hs.held_placed
  connected := by
    obtain ⟨l, n, p, rfl, -⟩ := ht
    exact hs.connected

end EngineState.Grows

namespace Layers

theorem keeps_grows_add (s : EngineState) (h : Host) : Keeps s.Grows (add h true) := by
  rintro t ⟨l, n, p, rfl, hl⟩
  rw [add_eq]
  split_ifs
  · exact ⟨l, n, p, rfl, hl⟩
  · cases h.shaderError with
    | some what => exact ⟨l, n, _, rfl, hl⟩
    | none =>
      refine ⟨l ++ [_], _, _, by rw [EngineState.pushLayer, List.append_assoc], fun layer hlayer => ?_⟩
      rcases List.mem_append.mp hlayer with hlayer | hlayer
      · exact hl layer hlayer
      · rw [List.mem_singleton.mp hlayer]
        rfl

theorem keeps_grows_intLoop (s : EngineState) (h : Host) (start bound : ℕ) :
    Keeps s.Grows (intLoop start bound (do let _ ← add h true)) :=
  keeps_intLoop (.bind (keeps_grows_add s h) fun _ => .pure _) start bound

theorem keeps_intact_add (h : Host) : Keeps EngineState.Intact (add h true) := fun s hs =>
  (keeps_grows_add s h s (.refl s)).mono (fun _ _ ht => ht.intact hs) fun _ _ ht => ht.intact hs

theorem keeps_intact_stopAt (position : UInt32) : Keeps EngineState.Intact (stopAt position) := by
  refine .bind (.gets _) fun layer => ?_
  cases layer with
  | none => exact .pure _
  | some _ => exact Layer.keeps_intact_stop _

end Layers

/-! ### Calls that never break a reference -/

theorem EngineState.Intact.pushScene {s : EngineState} (hs : s.Intact) (name : String) :
    (s.pushScene name).Intact := by
  have hplaced : (s.pushScene name).placed = s.placed := by
    simp [placed, EngineState.pushScene]
  refine ⟨fun a ha => hplaced ▸ hs.held_placed a ha, ?_⟩
  exact hs.connected.mono (fun a ha => hplaced ▸ ha) (fun _ => rfl) fun v hv => ⟨v, hv, rfl⟩

theorem EngineState.Intact.pushVideo {s : EngineState} (hs : s.Intact) (h : Host)
    (video : String × String) : (s.pushVideo h video).Intact :=
  ⟨hs.held_placed, hs.connected.mono (fun _ ha => ha) (fun _ => rfl) fun v hv =>
    ⟨v, List.mem_append_left _ hv, rfl⟩⟩

theorem Visuals.keeps_intact_addVideo (h : Host) (path : String) :
    Keeps EngineState.Intact (addVideo h path) := by
  intro s hs
  rw [addVideo, bind_run, VisualVideo.new_eq]
  dsimp only
  split_ifs
  · exact hs
  · exact hs.pushVideo h (_, _)

namespace Engine

theorem keeps_intact_createSet (h : Host) (width height layers : UInt32) :
    Keeps EngineState.Intact (createSet h width height layers) :=
  keeps_createSet (fun _ _ hst hs => hs.of_graph hst) (Layers.keeps_intact_add h)
    (fun _ hs => hs.pushScene "First Scene") width height layers

/-- Closing a set empties all lists or does nothing. -/
theorem closeSet_post_intact {s : EngineState} (hs : s.WellFormed) (hi : s.Intact) (h : Host) :
    (closeSet h s).Post (fun _ t => t.Intact) fun _ t => t.Intact := by
  rw [closeSet_eq hs]
  split_ifs
  · exact .of_isEmpty (s.isEmpty_close h)
  · trivial
  · exact hi

theorem keeps_intact_stop (data : Json) : Keeps EngineState.Intact (stop data) :=
  .ite (.bind (.ofExcept _ _) fun layer => Layers.keeps_intact_stopAt layer)
    (.bind (.gets _) fun _ => .forEach fun n _ => Layer.keeps_intact_stop n)

theorem keeps_intact_trigger (h : Host) :
    Keeps EngineState.Intact (triggerSchedulledVisualsOnAllLayers h) :=
  .bind (.gets _) fun _ => .forEach fun n _ => keeps_triggerLayer (fun hx => hx.intact)
    (Layer.keeps_intact_activateSchedulledInstance h n)

end Engine

end ArbutusEngine
