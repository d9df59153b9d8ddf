import ArbutusEngine.Regions
import ArbutusEngine.Lifecycle
import ArbutusEngine.Writes

/-!
# Layers do not disturb each other

An instance is played by the layer whose position is its layer number. As long as every layer holds
instances that carry its own position, no instance is held by two layers, and the functions of
different layers are confined to disjoint regions: each leaves alone what the other layers hold, and
they can be called in either order.

The position of a layer changes when a layer before it is removed, the layer numbers of the
instances do not. `Layers::remove` therefore keeps the layers apart only when no layer behind the
removed one holds an instance.

## Main definitions

* `IsolationCall`, `IsolationCall.KeepsPositions`: the calls, and when a removal moves no layer that
  holds an instance.
* `LayerOp`: what is called on one layer.
* `EngineState.KeptAt`: what another layer is to keep.

## Main results

* `IsolationCall.run_post_placed`: what each call keeps.
* `layers_isolated`: every reachable state.
-/

open Exec

namespace ArbutusEngine

/-! ### Calls -/

/-- The calls that lead to a state. -/
inductive IsolationCall where
  | newSet (width height layers : UInt32)
  | openSet (path : String)
  | add
  | remove (layerN : UInt32)
  | play (data : Json)
  | stop (data : Json)

namespace IsolationCall

/-- The program of a call. -/
def run (c : Host × IsolationCall) : Prog Unit :=
  match c with
  | (h, newSet width height layers) => do let _ ← Engine.newSet h width height layers
  | (h, openSet path) => do let _ ← Engine.openSet h path
  | (h, add) => do let _ ← Layers.add h true
  | (h, remove layerN) => Layers.remove h layerN
  | (h, play data) => Engine.play h data
  | (_, stop data) => Engine.stop data

/-- A layer that is removed is in the list. -/
def InRange (c : Host × IsolationCall) (s : EngineState) : Prop :=
  match c with
  | (_, remove layerN) => layerN.toNat < s.layersList.length
  | _ => True

/-- No layer behind the one that is removed holds an instance. -/
def KeepsPositions (c : Host × IsolationCall) (s : EngineState) : Prop :=
  match c with
  | (_, remove layerN) => layerN.toNat < s.layersList.length ∧
    ∀ layer ∈ s.layersList.drop (layerN.toNat + 1),
      (layer.activeInstance, layer.schedulledInstance) = (none, none)
  | _ => True

instance (c : Host × IsolationCall) (s : EngineState) : Decidable (InRange c s) :=
  match c with
  | (_, newSet ..) => .isTrue trivial
  | (_, openSet _) => .isTrue trivial
  | (_, add) => .isTrue trivial
  | (_, remove layerN) => inferInstanceAs (Decidable (layerN.toNat < s.layersList.length))
  | (_, play _) => .isTrue trivial
  | (_, stop _) => .isTrue trivial

instance (c : Host × IsolationCall) (s : EngineState) : Decidable (KeepsPositions c s) :=
  match c with
  | (_, newSet ..) => .isTrue trivial
  | (_, openSet _) => .isTrue trivial
  | (_, add) => .isTrue trivial
  | (_, remove _) => inferInstanceAs (Decidable (_ ∧ ∀ layer ∈ _, _ = _))
  | (_, play _) => .isTrue trivial
  | (_, stop _) => .isTrue trivial

end IsolationCall

/-- What is called on one layer. -/
inductive LayerOp where
  | setActiveVisualInstance (column : UInt32)
  | stop

/-- The program of a call on the layer at a position. -/
def LayerOp.run (h : Host) (l : UInt32) : LayerOp → Prog Unit
  | setActiveVisualInstance column => do let _ ← Engine.setActiveVisualInstance h l column
  | stop => Engine.stop (.obj [("layer", .int l.toNat)])

/-- The layer at a position holds in `t` what it holds in `s`, and its active instance has the same
flags. -/
def EngineState.KeptAt (l : UInt32) (s t : EngineState) : Prop :=
  t.heldAt l.toNat = s.heldAt l.toNat ∧ ∀ a, s.activeAt l.toNat = some a →
    (t.instances.get? a).map (fun i => (i.properties.isPlaying, i.properties.isTriggered)) =
      (s.instances.get? a).map fun i => (i.properties.isPlaying, i.properties.isTriggered)

instance (l : UInt32) (s t : EngineState) : Decidable (s.KeptAt l t) :=
  inferInstanceAs (Decidable (_ ∧ ∀ a ∈ s.activeAt l.toNat, _))

/-! ### Calls on different layers -/

theorem Engine.stop_layer (l : UInt32) :
    Engine.stop (.obj [("layer", .int l.toNat)]) = Layers.stopAt l := by
  have hfield : (Json.obj [("layer", .int l.toNat)] : Json).field "layer" = .int l.toNat := rfl
  rw [Engine.stop, hfield, Json.getUnsigned_int_toNat]
  rfl

theorem LayerOp.confined {h : Host} {κ : Placing} {S : Region} {l : UInt32}
    (hd : (Region.ofLayer κ l.toNat).Disjoint κ S) (op : LayerOp) :
    ConfinedTo h κ (.ofLayer κ l.toNat) S (op.run h l) := by
  cases op with
  | setActiveVisualInstance column =>
    exact .bind (Engine.confined_setActiveVisualInstance hd column) fun _ => .pure _
  | stop =>
    rw [LayerOp.run, Engine.stop_layer]
    exact Layers.confined_stopAt hd

/-- What happens in the region of one layer leaves alone what another one holds. -/
theorem EngineState.Placed.keptAt_of_acts {s t : EngineState} (hs : s.Placed) {h : Host} {n : ℕ}
    {l : UInt32} (hne : l.toNat ≠ n)
    (hst : Acts ((Region.ofLayer s.placing n).actions h s.placing) s t) : s.KeptAt l t := by
  obtain ⟨f, hf, rfl⟩ := hst
  have hagree := Region.agree_of_mem_actions (Region.disjoint_ofLayer hne) hf rfl
  refine ⟨EngineState.heldAt_congr (hagree.layers _ rfl), fun a ha => ?_⟩
  rw [hagree.instances a (hs.onLayer_of_activeAt ha)]

/-- What a call on one layer leaves alone of another. -/
theorem LayerOp.post_keptAt {s : EngineState} (hs : s.Placed) (h : Host) {l₁ l₂ : UInt32}
    (hl : l₁ ≠ l₂) (op : LayerOp) :
    (op.run h l₁ s).Post (fun _ t => s.KeptAt l₂ t) fun _ t => s.KeptAt l₂ t := by
  have hne : l₂.toNat ≠ l₁.toNat := fun heq => hl (UInt32.toNat_inj.mp heq.symm)
  have hacts := (op.confined (h := h) (Region.disjoint_ofLayer hne.symm)).acts s (hs l₁.toNat)
  exact hacts.mono (fun _ _ ht => hs.keptAt_of_acts hne ht.2) fun _ _ ht =>
    hs.keptAt_of_acts hne ht.2

/-- Calls on different layers commute. -/
theorem LayerOp.comm {s : EngineState} (hs : s.Placed) (h : Host) {l₁ l₂ : UInt32} (hl : l₁ ≠ l₂)
    (op op' : LayerOp) :
    ((op.run h l₁ s).final?.bind fun t => (op'.run h l₂ t).final?) =
      (op'.run h l₂ s).final?.bind fun t => (op.run h l₁ t).final? := by
  have hne : l₁.toNat ≠ l₂.toNat := fun heq => hl (UInt32.toNat_inj.mp heq)
  have hd := Region.disjoint_ofLayer (κ := s.placing) hne
  exact (op.confined hd).comm (op'.confined hd.symm) (fun f hf g hg => Region.comm_actions hd hf hg)
    (hs l₁.toNat) (hs l₂.toNat)

/-! ### Reachable states -/

/-- What the layers hold, one after the other. -/
def EngineState.heldList (s : EngineState) : List (Option Addr × Option Addr) :=
  s.layersList.map fun layer => (layer.activeInstance, layer.schedulledInstance)

/-- No layer holds an instance. -/
def EngineState.HoldsNone (s : EngineState) : Prop := ∀ p ∈ s.heldList, p = (none, none)

theorem Layer.heldIn_of_eq {layer : Layer}
    (hlayer : (layer.activeInstance, layer.schedulledInstance) = (none, none)) (C : Set Addr) :
    layer.HeldIn C := by
  obtain ⟨hactive, hscheduled⟩ := Prod.mk.inj hlayer
  exact ⟨fun a ha => absurd (hactive.symm.trans ha) (Option.some_ne_none a).symm,
    fun a ha => absurd (hscheduled.symm.trans ha) (Option.some_ne_none a).symm⟩

theorem EngineState.HoldsNone.placed {s : EngineState} (hs : s.HoldsNone) : s.Placed := by
  refine fun n => ⟨rfl, fun m _ layer hlayer => Layer.heldIn_of_eq ?_ _⟩
  exact hs _ (List.mem_map_of_mem (List.mem_of_getElem? hlayer))

/-- The program leaves alone what the layers hold, so that they hold none if they held none. -/
theorem keeps_holdsNone_of_fixes {α : Type} {x : Prog α} (hx : Fixes EngineState.heldList x) :
    Keeps EngineState.HoldsNone x :=
  hx.keeps fun s t (hst : s.heldList = t.heldList) hs p hp => hs p (by rw [hst]; exact hp)

namespace Layers

theorem keeps_holdsNone_add (h : Host) : Keeps EngineState.HoldsNone (add h true) := by
  intro s hs
  rw [add_eq]
  split_ifs
  · exact hs
  · cases h.shaderError with
    | some what => exact hs
    | none =>
      intro p hp
      rw [EngineState.heldList, EngineState.pushLayer, List.map_append] at hp
      rcases List.mem_append.mp hp with hp | hp
      · exact hs p hp
      · exact List.mem_singleton.mp hp

theorem keepsPlaced_add (h : Host) : KeepsPlaced (add h true) := by
  intro s hs
  rw [add_eq]
  split_ifs
  · exact hs
  · cases h.shaderError with
    | some what => exact hs.of_graph rfl
    | none =>
      refine fun n => ⟨rfl, fun m hm layer hlayer => ?_⟩
      change (s.layersList ++ [_])[m]? = some layer at hlayer
      by_cases hlt : m < s.layersList.length
      · rw [List.getElem?_append_left hlt] at hlayer
        exact (hs n).2 m hm layer hlayer
      · rw [List.getElem?_append_right (Nat.le_of_not_lt hlt)] at hlayer
        obtain rfl := List.mem_singleton.mp (List.mem_of_getElem? hlayer)
        exact Layer.heldIn_of_eq rfl _

/-- A layer is removed, and the ones behind it hold nothing. -/
theorem remove_post_placed {s : EngineState} (hs : s.Placed) (h : Host) {n : UInt32}
    (hn : n.toNat < s.layersList.length)
    (hbehind : ∀ layer ∈ s.layersList.drop (n.toNat + 1),
      (layer.activeInstance, layer.schedulledInstance) = (none, none)) :
    (remove h n s).Post (fun _ => EngineState.Placed) fun _ => EngineState.Placed := by
  have herase : ({ s with layersList := s.layersList.eraseIdx n.toNat } : EngineState).Placed := by
    refine fun k => ⟨rfl, fun m hm layer hlayer => ?_⟩
    change (s.layersList.eraseIdx n.toNat)[m]? = some layer at hlayer
    rw [List.getElem?_eraseIdx] at hlayer
    split_ifs at hlayer with hlt
    · exact (hs k).2 m hm layer hlayer
    · have hmem : layer ∈ s.layersList.drop (n.toNat + 1) := by
        refine List.mem_of_getElem? (i := m - n.toNat) ?_
        rw [List.getElem?_drop, ← hlayer]
        congr 1
        omega
      exact Layer.heldIn_of_eq (hbehind layer hmem) _
  have hlast : KeepsPlaced (do
      let layerSize ← gets count
      let selected ← getCurrentId h
      if selected ≥ layerSize then setActive h layerSize : Prog Unit) := by
    refine .bind (.gets _) fun _ => .bind (.bind (Fixes.getInstance h).placed fun _ => .pure _)
      fun _ => .ite ?_ (.pure _)
    exact .ite (.pure _) (.bind (.gets _) fun _ => (Fixes.updateProperties h _).placed)
  rw [remove, bind_run, gets_run, Outcome.bind_ok, if_neg (Nat.not_lt.mpr hn.le), if_neg hn.ne,
    bind_run, modify_run, Outcome.bind_ok]
  exact hlast _ herase

theorem fixes_heldList_setState (n : ℕ) (state : Json) :
    Fixes EngineState.heldList (Layer.setState n state) := by
  refine .bind (.deref _ _) fun _ => .bind (.ofExcept _ _) fun p => .bind (.deref _ _) fun _ => ?_
  refine .modify fun s => ?_
  exact map_modify_of_eq (f := fun layer : Layer => { layer with properties := p })
    (fun _ => rfl) _ _

theorem keeps_holdsNone_empty (h : Host) : Keeps EngineState.HoldsNone (empty h) :=
  .bind (.modify fun _ _ => List.forall_mem_nil _) fun _ => .modify fun _ hs => hs

theorem keeps_holdsNone_setState (h : Host) (state : Json) :
    Keeps EngineState.HoldsNone (setState h state) := by
  refine .bind (keeps_holdsNone_empty h) fun _ => .forEach fun entry _ => ?_
  refine .bind (keeps_holdsNone_add h) fun newLayer => ?_
  cases newLayer with
  | none => exact .undefined _
  | some n => exact keeps_holdsNone_of_fixes (fixes_heldList_setState n entry)

end Layers

namespace Engine

/-- Closing a set drops the layers, if it does anything. -/
theorem keepsPlaced_closeSet (h : Host) : KeepsPlaced (closeSet h) := by
  intro s hs
  rw [closeSet, bind_run, gets_run, Outcome.bind_ok]
  split_ifs
  swap
  · exact hs
  have hclose : Keeps EngineState.HoldsNone (do
      Set.closeSet h
      modify fun s => { s with setOpened := false }
      EngineProperties.update h fun p => { p with currentFilePath := "" } : Prog Unit) := by
    refine keeps_holdsNone_of_fixes (.bind ?_ fun _ =>
      .bind (.modify fun _ => rfl) fun _ => .modify fun _ => rfl)
    exact .bind (Visuals.fixes_empty (fun _ _ _ => rfl) h) fun _ =>
      .bind (Scenes.fixes_empty fun _ _ _ _ => rfl) fun _ => .modify fun _ => rfl
  have hempty : ({ s with layersList := [], properties := { s.properties.setDefaults h with
      selectedLayer := 0 } } : EngineState).HoldsNone := List.forall_mem_nil _
  exact (hclose _ hempty).mono (fun _ _ ht => ht.placed) fun _ _ ht => ht.placed

theorem keepsPlaced_newSet (h : Host) (width height layers : UInt32) :
    KeepsPlaced (newSet h width height layers) := by
  have hscene : KeepsPlaced (Scenes.newScene "First Scene") :=
    .bind (.gets _) fun _ => .bind (.modify fun _ hs => hs) fun _ => .pure _
  exact .bind (keepsPlaced_closeSet h) fun _ =>
    keeps_createSet (fun _ _ hst hs => hs.of_graph hst) (Layers.keepsPlaced_add h) hscene _ _ _

/-- Reading a document adds layers that hold nothing. -/
theorem keeps_holdsNone_setState (h : Host) (state : Json) :
    Keeps EngineState.HoldsNone (setState h state) := by
  have hvisuals : ∀ visuals, Keeps EngineState.HoldsNone (Visuals.setState h visuals) :=
    fun visuals => keeps_holdsNone_of_fixes
      (Visuals.fixes_setState (fun _ _ _ => rfl) (fun _ _ => rfl) h visuals)
  have hscenes : ∀ scenes, Keeps EngineState.HoldsNone (Scenes.setState h scenes) := fun scenes =>
    keeps_holdsNone_of_fixes (Scenes.fixes_setState (fun _ _ _ _ => rfl) (fun _ _ => rfl) h scenes)
  exact keeps_setState hvisuals (Layers.keeps_holdsNone_setState h) hscenes state

/-- Opening a file drops the layers. -/
theorem keepsPlaced_openSet (h : Host) (path : String) : KeepsPlaced (openSet h path) := by
  have hload : Keeps EngineState.HoldsNone (JsonLoad.load h path) :=
    .ite (.ofExcept _ _) (.throw _)
  have hfinish : Keeps EngineState.HoldsNone (finishSet h path) :=
    (keepsGraph_finishSet h path).keeps fun s t hst hs p hp => by
      have hlayers : s.layersList = t.layersList := congrArg (fun g => g.layersList) hst
      exact hs p (by rw [EngineState.heldList, hlayers]; exact hp)
  have hrest : Keeps EngineState.HoldsNone (do
      let state ← JsonLoad.load h path
      setState h state
      finishSet h path : Prog Bool) :=
    .bind hload fun state => .bind (keeps_holdsNone_setState h state) fun _ => hfinish
  rw [openSet_eq]
  refine .bind (.modify fun _ hs => hs.of_graph rfl) fun _ =>
    .bind (keepsPlaced_closeSet h) fun _ => ?_
  intro s _
  have hempty : (s.clearLayers h).HoldsNone := List.forall_mem_nil _
  exact (hrest _ hempty).mono (fun _ _ ht => ht.placed) fun _ _ ht => ht.placed

end Engine

namespace IsolationCall

theorem run_post_placed {c : Host × IsolationCall} {s : EngineState} (hc : KeepsPositions c s)
    (hs : s.Placed) : (run c s).Post (fun _ => EngineState.Placed) fun _ => EngineState.Placed := by
  match c, hc with
  | (h, newSet width height layers), _ =>
    exact Keeps.bind (Engine.keepsPlaced_newSet h width height layers) (fun _ => .pure _) s hs
  | (h, openSet path), _ =>
    exact Keeps.bind (Engine.keepsPlaced_openSet h path) (fun _ => .pure _) s hs
  | (h, add), _ => exact Keeps.bind (Layers.keepsPlaced_add h) (fun _ => .pure _) s hs
  | (h, remove layerN), hc => exact Layers.remove_post_placed hs h hc.1 hc.2
  | (h, play data), _ => exact Engine.keepsPlaced_play h data s hs
  | (_, stop data), _ => exact Engine.keepsPlaced_stop data s hs

end IsolationCall

/-- In every state that is reached without moving a layer that holds an instance, a call on one
layer leaves alone what another one holds, and calls on different layers commute. -/
theorem layers_isolated {s : EngineState}
    (hs : Reaches IsolationCall.run IsolationCall.KeepsPositions EngineState.init s) (h : Host)
    {l₁ l₂ : UInt32} (hl : l₁ ≠ l₂) (op : LayerOp) :
    (op.run h l₁ s).Post (fun _ t => s.KeptAt l₂ t) (fun _ t => s.KeptAt l₂ t) ∧
      ∀ op' : LayerOp, ((op.run h l₁ s).final?.bind fun t => (op'.run h l₂ t).final?) =
        (op'.run h l₂ s).final?.bind fun t => (op.run h l₁ t).final? := by
  have hplaced : s.Placed :=
    hs.invariant (fun c t hc ht => IsolationCall.run_post_placed hc ht)
      (EngineState.HoldsNone.placed (s := .init) (List.forall_mem_nil _))
  exact ⟨op.post_keptAt hplaced h hl, fun op' => op.comm hplaced h hl op'⟩

/-- A file with a scene in which a video lies on the second layer:
`{"visuals":[{"type":0,"filePath":"a.mov","caption":"a"}],"scenes":[{"name":"Intro",`
`"instances":[{"index":0,"properties":{"layer":1,"column":0,"name":"a"}}]}]}`. -/
def secondLayerFile : Host :=
  .withFile ("\x7b\"visuals\":[\x7b\"type\":0,\"filePath\":\"a.mov\",\"caption\":\"a\"\x7d]," ++
      "\"scenes\":[\x7b\"name\":\"Intro\",\"instances\":[\x7b\"index\":0,\"properties\":" ++
      "\x7b\"layer\":1,\"column\":0,\"name\":\"a\"\x7d\x7d]\x7d]\x7d")
    (.obj [("visuals", .arr [.obj [("type", .int 0), ("filePath", .str "a.mov"),
        ("caption", .str "a")]]),
      ("scenes", .arr [.obj [("name", .str "Intro"), ("instances", .arr [.obj [("index", .int 0),
        ("properties", .obj [("layer", .int 1), ("column", .int 0), ("name", .str "a")])]])]])])

/-- The video is started on the second layer of three. -/
def playSecondLayer : List (Host × IsolationCall) :=
  [(secondLayerFile, .openSet "set.json"), (.plain, .newSet 640 480 3),
    (.plain, .play (.obj [("layer", .int 1), ("column", .int 0)]))]

/-- The document of `twoLayersFile`, in which a video lies on the first and on the second layer. -/
def twoLayersDocument : Json :=
  .obj [("visuals", .arr [.obj [("type", .int 0), ("filePath", .str "a.mov"),
      ("caption", .str "a")]]),
    ("scenes", .arr [.obj [("name", .str "Intro"), ("instances", .arr [
      .obj [("index", .int 0), ("properties",
        .obj [("layer", .int 0), ("column", .int 0), ("name", .str "a")])],
      .obj [("index", .int 0), ("properties",
        .obj [("layer", .int 1), ("column", .int 0), ("name", .str "a")])]])]])]

def twoLayersFile : Host :=
  .withFile ("\x7b\"visuals\":[\x7b\"type\":0,\"filePath\":\"a.mov\",\"caption\":\"a\"\x7d]," ++
      "\"scenes\":[\x7b\"name\":\"Intro\",\"instances\":[\x7b\"index\":0,\"properties\":" ++
      "\x7b\"layer\":0,\"column\":0,\"name\":\"a\"\x7d\x7d,\x7b\"index\":0,\"properties\":" ++
      "\x7b\"layer\":1,\"column\":0,\"name\":\"a\"\x7d\x7d]\x7d]\x7d") twoLayersDocument

/-- The video is started on the first two of three layers, the third one is removed, and the first
one is stopped while the second one plays on. -/
theorem layers_isolated_stop : ∃ s : EngineState,
    Reaches IsolationCall.run IsolationCall.KeepsPositions EngineState.init s ∧
      s.layersList.length = 2 ∧ s.activeAt 0 = some 0 ∧ s.activeAt 1 = some 1 ∧
      (LayerOp.stop.run .plain 0 s).Post (fun _ t => s.KeptAt 1 t) fun _ t => s.KeptAt 1 t := by
  obtain ⟨s, hs, hlayers, hfirst, hsecond⟩ : ∃ s : EngineState,
      Reaches IsolationCall.run IsolationCall.KeepsPositions EngineState.init s ∧
        s.layersList.length = 2 ∧ s.activeAt 0 = some 0 ∧ s.activeAt 1 = some 1 :=
    exists_reaches [(twoLayersFile, .openSet "set.json"), (.plain, .newSet 640 480 3),
      (.plain, .play (.obj [("layer", .int 0), ("column", .int 0)])),
      (.plain, .play (.obj [("layer", .int 1), ("column", .int 0)])), (.plain, .remove 2)]
      (by decide +kernel)
  exact ⟨s, hs, hlayers, hfirst, hsecond, (layers_isolated hs .plain (by decide) .stop).1⟩

/-- The first layer is removed, and the video started again: two layers hold it, and stopping one
stops it on the other. -/
theorem layers_not_isolated : ∃ s : EngineState,
    Reaches IsolationCall.run IsolationCall.InRange EngineState.init s ∧
      s.activeAt 0 = some 0 ∧ s.activeAt 1 = some 0 ∧
      ∃ t, LayerOp.stop.run .plain 1 s = .ok () t ∧ ¬ s.KeptAt 0 t := by
  obtain ⟨s, hs, hfirst, hsecond, hstop⟩ : ∃ s : EngineState,
      Reaches IsolationCall.run IsolationCall.InRange EngineState.init s ∧
        s.activeAt 0 = some 0 ∧ s.activeAt 1 = some 0 ∧
        (LayerOp.stop.run .plain 1 s).returns (fun _ t => decide (¬ s.KeptAt 0 t)) = true :=
    exists_reaches (playSecondLayer ++ [(.plain, .remove 0),
      (.plain, .play (.obj [("layer", .int 1), ("column", .int 0)]))]) (by decide +kernel)
  obtain ⟨_, t, ht, hkept⟩ := Outcome.exists_of_returns hstop
  exact ⟨s, hs, hfirst, hsecond, t, ht, of_decide_eq_true hkept⟩

end ArbutusEngine
