import ArbutusEngine.Paths
import ArbutusEngine.Writes

/-!
# Sizes and buffers

The size of the mixer is requested when a set is created and when the resolution is set. The engine
asks the engine properties for it when it allocates its buffer, and by then it has been reset: the
buffer always has the default size. The buffer of a layer is allocated when the layer is constructed
and when the resolution is set; `Layer::setState` changes the size in the properties of the layer
and leaves its buffer alone.

The size requested last is not kept anywhere. It is a component of the state of its own here, beside
the state of the engine.

## Main definitions

* `Size`, `BuffersCall`, `BuffersCall.step`: the calls, with the size that they request.
* `KeepsSize`: the entry of a layer gives it the size it has.
* `BuffersMatch`: what is to hold in every state, and the invariant `EngineState.Fits` behind it.
* `BuffersCall.KeepsSizes`: the call requests the default size, and changes that of no layer.

## Main results

* `LayerProperties.toSizeProperties_setState`: an entry that names no other size keeps the size.
* `buffers_match`: every run.
-/

open Exec

namespace ArbutusEngine

/-- A width and a height. -/
abbrev Size : Type := UInt32 × UInt32

/-- The size of the mixer after a reset. -/
def Size.default : Size := (640, 480)

/-- The calls that set sizes or allocate buffers. -/
inductive BuffersCall where
  | newSet (width height layers : UInt32)
  | openSet (path : String)
  | closeSet
  | setMixerResolution (width height : UInt32)
  | setLayersState (state : Json)
  | setLayerState (layer : ℕ) (state : Json)

namespace BuffersCall

/-- The program of a call. -/
def run (c : Host × BuffersCall) : Prog Unit :=
  match c with
  | (h, newSet width height layers) => do let _ ← Engine.newSet h width height layers
  | (h, openSet path) => do let _ ← Engine.openSet h path
  | (h, closeSet) => Engine.closeSet h
  | (h, setMixerResolution width height) => Engine.setMixerResolution h width height
  | (h, setLayersState state) => Layers.setState h state
  | (_, setLayerState n state) => Layer.setState n state

/-- The size requested last, after a call. -/
def requested (c : BuffersCall) (size : Size) : Size :=
  match c with
  | newSet width height _ =>
    (if width > 0 then width else size.1, if height > 0 then height else size.2)
  | setMixerResolution width height => (width, height)
  | _ => size

/-- A call on the state of the engine and the size requested last. -/
def step (c : Host × BuffersCall) : Exec (EngineState × Size) Thrown Undefined Unit :=
  (run c).alongside c.2.requested

end BuffersCall

/-! ### The size of a layer -/

/-- The size in the properties of a layer. -/
def LayerProperties.size (p : LayerProperties) : Size := (p.width, p.height)

/-- The entry gives a layer of the given size this very size, or none. -/
def KeepsSize (size : SizeProperties) (entry : Json) : Prop :=
  ((entry.field "width").isNumber = true →
    ∀ n ∈ (entry.field "width").getInt.toOption, size.setWidth n.toUInt32 = size) ∧
  ((entry.field "height").isNumber = true →
    ∀ n ∈ (entry.field "height").getInt.toOption, size.setHeight n.toUInt32 = size)

-- the values are of finite types, and are not to be enumerated
instance (size : SizeProperties) (entry : Json) : Decidable (KeepsSize size entry) :=
  haveI := Option.decidableForallMem (p := fun n : Int32 => size.setWidth n.toUInt32 = size)
    (entry.field "width").getInt.toOption
  haveI := Option.decidableForallMem (p := fun n : Int32 => size.setHeight n.toUInt32 = size)
    (entry.field "height").getInt.toOption
  inferInstanceAs (Decidable ((_ → ∀ n ∈ _, _) ∧ (_ → ∀ n ∈ _, _)))

namespace LayerProperties

/-- A guarded assignment keeps the size when its setter does. -/
theorem toSizeProperties_assignWhen {test : Json → Bool} {key : String}
    {set : LayerProperties → Json → Except String LayerProperties} {state : Json}
    {p p' : LayerProperties} (hrun : assignWhen test key set state p = .ok p')
    (hset : test (state.field key) = true → ∀ q, set p (state.field key) = .ok q →
      q.toSizeProperties = p.toSizeProperties) : p'.toSizeProperties = p.toSizeProperties := by
  by_cases hs : state.isIndexable = true
  · rw [assignWhen, Json.index_of_isIndexable hs, Except.bind] at hrun
    split_ifs at hrun with ht
    · exact hset ht p' hrun
    · obtain rfl := Except.ok.inj hrun
      rfl
  · rw [assignWhen, Json.index_of_not_isIndexable (Bool.eq_false_iff.mpr hs)] at hrun
    cases hrun

theorem toSizeProperties_map {α : Type} {r : Except String α} {f : α → LayerProperties}
    {p q : LayerProperties} (hq : r.map f = .ok q)
    (hf : ∀ a, r = .ok a → (f a).toSizeProperties = p.toSizeProperties) :
    q.toSizeProperties = p.toSizeProperties := by
  cases r with
  | ok a =>
    obtain rfl := Except.ok.inj hq
    exact hf a rfl
  | error what => cases hq

/-- Only the first two assignments touch the size. -/
theorem toSizeProperties_assignments {state : Json} {p p' : LayerProperties}
    (hk : KeepsSize p.toSizeProperties state)
    {assign : Json → LayerProperties → Except String LayerProperties} (ha : assign ∈ assignments)
    (hrun : assign state p = .ok p') : p'.toSizeProperties = p.toSizeProperties := by
  simp only [assignments, List.mem_cons, List.not_mem_nil, or_false] at ha
  rcases ha with rfl | rfl | rfl | rfl | rfl | rfl | rfl | rfl | rfl | rfl | rfl | rfl | rfl
  all_goals refine toSizeProperties_assignWhen hrun fun ht q hq => ?_
  · exact toSizeProperties_map hq fun n hn => hk.1 ht n (by rw [hn]; rfl)
  · exact toSizeProperties_map hq fun n hn => hk.2 ht n (by rw [hn]; rfl)
  all_goals exact toSizeProperties_map hq fun _ _ => rfl

/-- Reading an entry keeps the size when the entry does. -/
theorem toSizeProperties_setState {state : Json} {p p' : LayerProperties}
    (hk : KeepsSize p.toSizeProperties state) (hrun : p.setState state = .ok p') :
    p'.toSizeProperties = p.toSizeProperties := by
  have key : ∀ l : List (Json → LayerProperties → Except String LayerProperties),
      (∀ a ∈ l, a ∈ assignments) → ∀ q, q.toSizeProperties = p.toSizeProperties →
        l.foldlM (fun p assign => assign state p) q = .ok p' →
        p'.toSizeProperties = p.toSizeProperties := by
    intro l
    induction l with
    | nil =>
      intro _ q hq hrun
      obtain rfl := Except.ok.inj hrun
      exact hq
    | cons a l ih =>
      intro hl q hq hrun
      rw [List.foldlM_cons] at hrun
      cases ha : a state q with
      | error what =>
        rw [ha] at hrun
        cases hrun
      | ok q' =>
        rw [ha] at hrun
        have hq' := toSizeProperties_assignments (hq.symm ▸ hk) (hl a List.mem_cons_self) ha
        exact ih (fun b hb => hl b (List.mem_cons_of_mem a hb)) q' (hq'.trans hq) hrun
  exact key assignments (fun _ ha => ha) p rfl hrun

end LayerProperties

/-! ### What the calls keep -/

/-- The buffer of every layer has the size in the properties of the layer. -/
def EngineState.LayersFit (s : EngineState) : Prop :=
  ∀ layer ∈ s.layersList, layer.buffer = some layer.properties.size

/-- The output buffer, when it is allocated, has the size requested last, and the buffers of the
layers have the sizes of the layers. -/
def BuffersMatch (s : EngineState × Size) : Prop :=
  (∀ size, s.1.buffer = some size → size = s.2) ∧ s.1.LayersFit

instance (s : EngineState) : Decidable s.LayersFit :=
  inferInstanceAs (Decidable (∀ layer ∈ s.layersList, _))

instance (s : EngineState × Size) : Decidable (BuffersMatch s) :=
  haveI := Option.decidableForallMem (p := fun size => size = s.2) s.1.buffer
  inferInstanceAs (Decidable ((∀ size ∈ s.1.buffer, size = s.2) ∧ s.1.LayersFit))

/-- The invariant: the output buffer has the default size. -/
def EngineState.Fits (s : EngineState) : Prop :=
  (∀ size, s.buffer = some size → size = Size.default) ∧ s.LayersFit

/-- The part of the state that `EngineState.Fits` is about. -/
def EngineState.buffers (s : EngineState) : Option Size × List Layer := (s.buffer, s.layersList)

theorem EngineState.Fits.of_buffers {s t : EngineState} (h : s.buffers = t.buffers) (hs : s.Fits) :
    t.Fits := by
  obtain ⟨hb, hl⟩ := Prod.mk.inj h
  refine ⟨fun size hsize => hs.1 size (hb.trans hsize), fun layer hlayer => ?_⟩
  exact hs.2 layer (hl.symm ▸ hlayer)

/-- A program keeps the buffers right. -/
abbrev KeepsFits {α : Type} (x : Prog α) : Prop := Keeps EngineState.Fits x

theorem KeepsFits.of_fixes {α : Type} {x : Prog α} (hx : Fixes EngineState.buffers x) :
    KeepsFits x :=
  hx.keeps fun _ _ h hs => hs.of_buffers h

/-- A change of one layer. -/
theorem Layer.post_update {s : EngineState} (hs : s.Fits) (n : ℕ) {f : Layer → Layer}
    (hf : ∀ layer, s.layersList[n]? = some layer →
      (f layer).buffer = some (f layer).properties.size) :
    (Layer.update n f s).Post (fun _ => EngineState.Fits) fun _ => EngineState.Fits := by
  rw [Layer.update, bind_run, Layer.read]
  cases hn : s.layersList[n]? with
  | none => trivial
  | some layer =>
    refine ⟨hs.1, fun layer' hlayer' => ?_⟩
    obtain ⟨m, hm⟩ := List.mem_iff_getElem?.mp hlayer'
    rw [List.getElem?_modify] at hm
    obtain ⟨old, hold, rfl⟩ := Option.map_eq_some_iff.mp hm
    split_ifs with hnm
    · subst hnm
      exact hf old hold
    · exact hs.2 old (List.mem_of_getElem? hold)

theorem Layer.update_update (n : ℕ) (f g : Layer → Layer) :
    (do Layer.update n f; Layer.update n g : Prog Unit) = Layer.update n (g ∘ f) := by
  funext s
  simp only [Layer.update, bind_run, Layer.read]
  cases hn : s.layersList[n]? with
  | none => rfl
  | some layer => simp [hn, List.modify_modify_eq]

/-- `Layer::setState` on an entry that gives the layer the size it has. It returns only when the
entry can be read. -/
theorem Layer.post_setState {s : EngineState} (hs : s.Fits) (n : ℕ) {state : Json}
    (hk : state.isIndexable = true → ∀ layer, s.layersList[n]? = some layer →
      KeepsSize layer.properties.toSizeProperties state) :
    (Layer.setState n state s).Post (fun _ t => t.Fits ∧ state.isIndexable = true)
      fun _ t => t.Fits := by
  rw [Layer.setState, bind_run, Layer.read]
  cases hn : s.layersList[n]? with
  | none => trivial
  | some layer =>
    simp only [ofOption_some, pure_run, Outcome.bind_ok, bind_run]
    by_cases hi : state.isIndexable = true
    · cases hp : layer.properties.setState state with
      | error what => exact hs
      | ok p =>
        refine (Layer.post_update hs n fun layer' hlayer' => ?_).mono (fun _ t ht => ⟨ht, hi⟩)
          fun _ _ ht => ht
        obtain rfl := Option.some.inj (hn.symm.trans hlayer')
        have hsize := LayerProperties.toSizeProperties_setState (hk hi layer hn) hp
        rw [hs.2 layer (List.mem_of_getElem? hn)]
        exact congrArg (fun size : SizeProperties => some (size.width, size.height)) hsize.symm
    · rw [LayerProperties.setState_eq_error (Bool.eq_false_iff.mpr hi)]
      exact hs

namespace Layers

theorem keepsFits_empty (h : Host) : KeepsFits (empty h) :=
  .bind (.modify fun _ hs => ⟨hs.1, fun _ hl => absurd hl List.not_mem_nil⟩) fun _ =>
    .modify fun _ hs => hs

theorem keepsFits_add (h : Host) : KeepsFits (add h true) := by
  intro s hs
  rw [add_eq]
  split_ifs
  · exact hs
  · cases h.shaderError with
    | some what => exact hs
    | none =>
      refine ⟨hs.1, fun layer hlayer => ?_⟩
      rcases List.mem_append.mp hlayer with hlayer | hlayer
      · exact hs.2 layer hlayer
      · obtain rfl := List.mem_singleton.mp hlayer
        rfl

/-- The entries that `Layers::setState` gets to give the layers the size they are constructed
with. -/
def EntriesKeepSize (h : Host) (entries : List Json) : Prop :=
  h.shaderError = none →
    ∀ entry ∈ entries.takeWhile Json.isIndexable, KeepsSize newProperties.toSizeProperties entry

instance (h : Host) (entries : List Json) : Decidable (EntriesKeepSize h entries) :=
  inferInstanceAs (Decidable (_ → ∀ entry ∈ entries.takeWhile Json.isIndexable, _))

/-- One turn of the loop. It returns only when the entry can be read. -/
theorem post_addState {s : EngineState} (hs : s.Fits) {h : Host} {entry : Json}
    (hk : h.shaderError = none → entry.isIndexable = true →
      KeepsSize newProperties.toSizeProperties entry) :
    (addState h entry s).Post (fun _ t => t.Fits ∧ entry.isIndexable = true) fun _ t => t.Fits := by
  have hadd := keepsFits_add h s hs
  rw [addState, bind_run]
  rw [add_eq] at hadd ⊢
  split_ifs with hfull
  · trivial
  rw [if_neg hfull] at hadd
  cases hsh : h.shaderError with
  | some what =>
    rw [hsh] at hadd
    exact hadd
  | none =>
    rw [hsh] at hadd
    rw [Outcome.bind_ok]
    refine Layer.post_setState hadd _ fun hi layer hlayer => ?_
    rw [EngineState.pushLayer, List.getElem?_concat_length] at hlayer
    obtain rfl := Option.some.inj hlayer
    exact hk hsh hi

/-- The loop of `Layers::setState`. -/
theorem post_forEach_addState {h : Host} {entries : List Json} (hk : EntriesKeepSize h entries) :
    KeepsFits (forEach entries (addState h)) := by
  induction entries with
  | nil => exact .pure _
  | cons entry rest ih =>
    intro s hs
    rw [forEach_cons, bind_run]
    have hfirst : h.shaderError = none → entry.isIndexable = true →
        KeepsSize newProperties.toSizeProperties entry := by
      intro hsh hi
      exact hk hsh entry (by simp [hi])
    refine (post_addState hs hfirst).bind fun _ t ht => ih (fun hsh e he => ?_) t ht.1
    refine hk hsh e ?_
    rw [List.takeWhile_cons, if_pos ht.2]
    exact List.mem_cons_of_mem entry he

theorem keepsFits_setState {h : Host} {state : Json} (hk : EntriesKeepSize h state.elements) :
    KeepsFits (setState h state) :=
  .bind (keepsFits_empty h) fun _ => post_forEach_addState hk

end Layers

namespace Engine

theorem keepsFits_destroyBuffer : KeepsFits destroyBuffer :=
  .modify fun _ hs => ⟨fun size hsize => absurd hsize (Option.some_ne_none size).symm, hs.2⟩

/-- The size is asked for after it has been reset. -/
theorem keepsFits_initBuffer (h : Host) : KeepsFits (initBuffer h) := by
  intro s hs
  rw [initBuffer, bind_run, gets_run, Outcome.bind_ok]
  cases hb : s.buffer with
  | some size => exact hs
  | none => exact ⟨fun size hsize => (Option.some.inj hsize).symm, hs.2⟩

/-- All layers are given one size, and buffers of it. -/
theorem keepsFits_setMixerResolution (h : Host) (width height : UInt32) :
    KeepsFits (setMixerResolution h width height) := by
  refine .bind keepsFits_destroyBuffer fun _ => .bind (.modify fun _ hs => hs) fun _ => ?_
  refine .bind (.modify fun _ hs => hs) fun _ => .bind (keepsFits_initBuffer h) fun _ => ?_
  refine .bind (.gets _) fun layers => .forEach fun n _ => ?_
  rw [Layer.updateSize, Layer.updateSize, Layer.destroyBuffer, Layer.initBuffer,
    Layer.update_update, Layer.update_update, Layer.update_update]
  exact fun s hs => Layer.post_update hs n fun _ _ => rfl

theorem keepsFits_closeSet (h : Host) : KeepsFits (closeSet h) := by
  have hset : Fixes EngineState.buffers (Set.closeSet h) :=
    .bind (Visuals.fixes_empty (fun _ _ _ => rfl) h) fun _ =>
      .bind (Scenes.fixes_empty fun _ _ _ _ => rfl) fun _ => .modify fun _ => rfl
  refine .bind (.gets _) fun loaded => .ite ?_ (.pure _)
  refine .bind (Layers.keepsFits_empty h) fun _ => .bind (KeepsFits.of_fixes hset) fun _ => ?_
  exact .bind (.modify fun _ hs => hs) fun _ => .modify fun _ hs => hs

theorem keepsFits_finishSet (h : Host) (path : String) : KeepsFits (finishSet h path) := by
  have hactive : Fixes EngineState.buffers (Layers.setActive h 1) :=
    Layers.fixes_setActive (fun _ _ _ => rfl) h 1
  refine .bind (keepsFits_initBuffer h) fun _ => .bind (KeepsFits.of_fixes hactive) fun _ => ?_
  exact .bind (.modify fun _ hs => hs) fun _ => .bind (.modify fun _ hs => hs) fun _ => .pure _

theorem keepsFits_newSet (h : Host) (width height layers : UInt32) :
    KeepsFits (newSet h width height layers) := by
  have hscene : Fixes EngineState.buffers (Set.setCurrentScene h 0) :=
    Set.fixes_setCurrentScene (fun _ _ _ => rfl) (fun _ _ => rfl) h 0
  have hset : KeepsFits (Set.newSet h width height layers) := by
    refine .bind (.modify fun _ hs => hs) fun _ => .bind (.modify fun _ hs => hs) fun _ => ?_
    refine .bind (.modify fun _ hs => hs) fun _ => ?_
    refine .bind (keeps_intLoop (.bind (Layers.keepsFits_add h) fun _ => .pure _) _ _) fun _ => ?_
    refine .bind (KeepsFits.of_fixes (Scenes.fixes_newScene (fun _ _ _ _ => rfl) _)) fun _ => ?_
    refine .bind (.modify fun _ hs => hs) fun _ => .bind (KeepsFits.of_fixes hscene) fun _ => ?_
    exact .modify fun _ hs => hs
  refine .bind (keepsFits_closeSet h) fun _ => ?_
  exact keeps_createSet_of (fun _ => .modify fun _ hs => hs) hset (keepsFits_finishSet h "")

/-- The layers of a document are read only after its visuals have been read. -/
theorem setState_post_fits {s : EngineState} (hs : s.Fits) {h : Host} {document : Json}
    (hk : visualsError h s.filePath (document.field "visuals") = none →
      (document.field "layers").isArray = true →
        Layers.EntriesKeepSize h (document.field "layers").elements) :
    (setState h document s).Post (fun _ => EngineState.Fits) fun _ => EngineState.Fits := by
  by_cases hi : document.isIndexable = true
  swap
  · rw [setState_of_not_isIndexable (Bool.eq_false_iff.mpr hi)]
    exact hs
  have hvisuals := KeepsFits.of_fixes (Visuals.fixes_setState (fun _ _ _ => rfl) (fun _ _ => rfl) h
    (document.field "visuals")) s hs
  have hscenes := KeepsFits.of_fixes (Scenes.fixes_setState (fun _ _ _ _ => rfl) (fun _ _ => rfl) h
    (document.field "scenes"))
  rw [setState_eq_bind hi]
  rw [Visuals.setState_eq] at hvisuals ⊢
  by_cases he : (document.field "visuals").isArray = true ∧ ¬ s.Erasable h
  · rw [if_pos he]
    trivial
  rw [if_neg he] at hvisuals ⊢
  cases hv : visualsError h s.filePath (document.field "visuals") with
  | some e =>
    rw [hv] at hvisuals
    exact hvisuals
  | none =>
    rw [hv] at hvisuals
    have hlayers : KeepsFits (if (document.field "layers").isArray then
        Layers.setState h (document.field "layers") else pure () : Prog Unit) := by
      by_cases hl : (document.field "layers").isArray = true
      · rw [if_pos hl]
        exact Layers.keepsFits_setState (hk hv hl)
      · rw [if_neg hl]
        exact .pure _
    exact (hlayers _ hvisuals).bind fun _ t ht => Keeps.ite hscenes (.pure _) t ht

/-- Opening a file whose layers have the default size. -/
theorem openSet_post_fits {s : EngineState} (hs : s.Fits) {h : Host} {path : String}
    (hk : visualsError h s.filePath ((JsonLoad.document h path).field "visuals") = none →
      ((JsonLoad.document h path).field "layers").isArray = true →
        Layers.EntriesKeepSize h ((JsonLoad.document h path).field "layers").elements) :
    (openSet h path s).Post (fun _ => EngineState.Fits) fun _ => EngineState.Fits := by
  have hclose : KeepsFits (do destroyBuffer; closeSet h; Layers.empty h : Prog Unit) :=
    .bind keepsFits_destroyBuffer fun _ => .bind (keepsFits_closeSet h) fun _ =>
      Layers.keepsFits_empty h
  have hempty : Fixes EngineState.filePath (Layers.empty h) :=
    Layers.fixes_empty (fun _ _ _ => rfl) (fun _ _ _ => rfl) h
  have hpath :
      Fixes EngineState.filePath (do destroyBuffer; closeSet h; Layers.empty h : Prog Unit) := by
    refine .bind (.modify fun _ => rfl) fun _ => .bind ?_ fun _ => hempty
    refine .bind (.gets _) fun _ => .ite (.bind hempty fun _ => .bind ?_ fun _ => ?_) (.pure _)
    · exact .bind (Visuals.fixes_empty (fun _ _ _ => rfl) h) fun _ =>
        .bind (Scenes.fixes_empty fun _ _ _ _ => rfl) fun _ => .modify fun _ => rfl
    · exact .bind (.modify fun _ => rfl) fun _ => .modify fun _ => rfl
  have heq : openSet h path = ((do destroyBuffer; closeSet h; Layers.empty h : Prog Unit) >>= fun _ =>
      JsonLoad.load h path >>= fun document =>
        setState h document >>= fun _ => finishSet h path) := by
    rw [openSet_eq]
    simp only [bind_assoc]
  rw [heq, bind_run]
  refine (((hclose s hs).and (hpath _ s rfl)).mono (fun _ _ ht => ht) fun _ _ ht => ht.1).bind
    fun _ t ⟨ht, htpath⟩ => ?_
  rcases JsonLoad.load_cases h path t with hload | ⟨-, e, hload⟩
  · rw [bind_run, hload, Outcome.bind_ok, bind_run]
    rw [← htpath] at hk
    exact (setState_post_fits ht hk).bind fun _ u hu => keepsFits_finishSet h path u hu
  · rw [bind_run, hload]
    exact ht

end Engine

/-! ### Runs -/

namespace BuffersCall

/-- The call requests the default size, and changes the size of no layer. -/
def KeepsSizes (c : Host × BuffersCall) (s : EngineState × Size) : Prop :=
  match c with
  | (_, newSet width height _) => (width = 0 ∨ width = 640) ∧ (height = 0 ∨ height = 480)
  | (h, openSet path) =>
    visualsError h s.1.filePath ((JsonLoad.document h path).field "visuals") = none →
      ((JsonLoad.document h path).field "layers").isArray = true →
        Layers.EntriesKeepSize h ((JsonLoad.document h path).field "layers").elements
  | (_, closeSet) => True
  | (_, setMixerResolution width height) => (width, height) = Size.default
  | (h, setLayersState state) => Layers.EntriesKeepSize h state.elements
  | (_, setLayerState n state) => state.isIndexable = true →
    ∀ layer ∈ s.1.layersList[n]?, KeepsSize layer.properties.toSizeProperties state

instance (c : Host × BuffersCall) (s : EngineState × Size) : Decidable (KeepsSizes c s) :=
  match c with
  | (_, newSet ..) => inferInstanceAs (Decidable ((_ ∨ _) ∧ (_ ∨ _)))
  | (_, openSet _) => inferInstanceAs (Decidable (_ → _ → _))
  | (_, closeSet) => .isTrue trivial
  | (_, setMixerResolution ..) => inferInstanceAs (Decidable (_ = _))
  | (h, setLayersState state) =>
    inferInstanceAs (Decidable (Layers.EntriesKeepSize h state.elements))
  | (_, setLayerState n _) => inferInstanceAs (Decidable (_ → ∀ layer ∈ s.1.layersList[n]?, _))

theorem post_run {c : Host × BuffersCall} {s : EngineState × Size} (hc : KeepsSizes c s)
    (hs : s.1.Fits) : (run c s.1).Post (fun _ => EngineState.Fits) fun _ => EngineState.Fits := by
  obtain ⟨h, c⟩ := c
  cases c with
  | newSet width height layers =>
    exact Keeps.bind (Engine.keepsFits_newSet h width height layers) (fun _ => .pure _) s.1 hs
  | openSet path => exact (Engine.openSet_post_fits hs hc).bind fun _ _ ht => ht
  | closeSet => exact Engine.keepsFits_closeSet h s.1 hs
  | setMixerResolution width height =>
    exact Engine.keepsFits_setMixerResolution h width height s.1 hs
  | setLayersState state => exact Layers.keepsFits_setState hc s.1 hs
  | setLayerState n state =>
    exact (Layer.post_setState hs n hc).mono (fun _ _ ht => ht.1) fun _ _ ht => ht

theorem requested_of_keepsSizes {c : Host × BuffersCall} {s : EngineState × Size}
    (hc : KeepsSizes c s) (hs : s.2 = Size.default) : c.2.requested s.2 = Size.default := by
  obtain ⟨h, c⟩ := c
  cases c with
  | newSet width height layers =>
    obtain ⟨rfl | rfl, rfl | rfl⟩ := hc <;> rw [hs] <;> rfl
  | setMixerResolution width height => exact hc
  | openSet => exact hs
  | closeSet => exact hs
  | setLayersState => exact hs
  | setLayerState => exact hs

end BuffersCall

/-- In every run of calls that request the default size and change the size of no layer, the buffers
match. -/
theorem buffers_match {s : EngineState × Size}
    (hrun : Reaches BuffersCall.step BuffersCall.KeepsSizes (.init, Size.default) s) :
    BuffersMatch s := by
  have hinv : s.2 = Size.default ∧ s.1.Fits := by
    refine hrun.invariant (I := fun s => s.2 = Size.default ∧ s.1.Fits) ?_ ⟨rfl, ?_⟩
    · rintro c s hc ⟨hsize, hfits⟩
      refine alongside_post (I := fun (t : EngineState) size => size = Size.default ∧ t.Fits) ?_
      have hreq := BuffersCall.requested_of_keepsSizes hc hsize
      exact (BuffersCall.post_run hc hfits).mono (fun _ _ ht => ⟨hreq, ht⟩) fun _ _ ht => ⟨hreq, ht⟩
    · exact ⟨fun size hsize => absurd hsize (Option.some_ne_none size).symm,
        fun _ hl => absurd hl List.not_mem_nil⟩
  obtain ⟨hsize, hbuffer, hlayers⟩ := hinv
  exact ⟨fun size hb => (hbuffer size hb).trans hsize.symm, hlayers⟩

/-- A set with a layer, which is given the size it has. -/
theorem buffers_match_layer : ∃ s : EngineState × Size,
    Reaches BuffersCall.step BuffersCall.KeepsSizes (.init, Size.default) s ∧
      s.1.buffer ≠ none ∧ s.1.layersList ≠ [] ∧ BuffersMatch s := by
  have hrun : ∃ s : EngineState × Size,
      Reaches BuffersCall.step BuffersCall.KeepsSizes (.init, Size.default) s ∧
        s.1.buffer ≠ none ∧ s.1.layersList ≠ [] :=
    exists_reaches [(Host.plain, .newSet 0 480 1), (Host.plain, .setMixerResolution 640 480),
      (Host.plain, .setLayerState 0 (.obj [("width", .int 640), ("alpha", .int 1)]))]
      (by decide +kernel)
  obtain ⟨s, hs, hbuffer, hlayers⟩ := hrun
  exact ⟨s, hs, hbuffer, hlayers, buffers_match hs⟩

/-- A mixer of `800` by `600` is requested and the output buffer has the default size; and a layer
is given another width and keeps its buffer. -/
theorem buffers_differ :
    (∃ s : EngineState × Size,
      Reaches BuffersCall.step (fun _ _ => True) (.init, Size.default) s ∧
        s.2 = (800, 600) ∧ s.1.buffer = some (640, 480) ∧ ¬ BuffersMatch s) ∧
    ∃ s : EngineState × Size,
      Reaches BuffersCall.step (fun _ _ => True) (.init, Size.default) s ∧
        s.1.layersList.map (fun layer => (layer.properties.size, layer.buffer)) =
          [((320, 480), some (640, 480))] ∧ ¬ BuffersMatch s := by
  constructor
  · exact exists_reaches [(Host.plain, .newSet 800 600 1)] (by decide +kernel)
  · exact exists_reaches [(Host.plain, .newSet 640 480 1),
      (Host.plain, .setLayerState 0 (.obj [("width", .int 320)]))] (by decide +kernel)

end ArbutusEngine
