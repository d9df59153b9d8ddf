import ArbutusEngine.Keys
import ArbutusEngine.Layout
import ArbutusEngine.Playback

/-!
# The layout of a state

The state of the engine shows a layout: the visuals with their captions, the scenes with the visuals
in their cells, and the layers by their number. What plays, draws or controls does nothing to it. An
edit of the state changes it as the same edit changes a layout: here for the cells of the current
scene, the lists, and the layers.

## Main definitions

* `EngineState.layout`: the layout that a state shows.
* `Shows`: an outcome leaves a state that shows a layout.

## Main results

* `fixes_layout`: playing leaves the layout alone.
* `EngineState.Safe.layout_place`, `EngineState.Safe.layout_remove`: editing a cell.
* `Layers.shows_iterate_add`, `Layers.shows_setActive`, `Layers.shows_setCount`: editing the layers.
-/

open Exec

namespace ArbutusEngine

/-! ### The layout of a state -/

namespace EngineState

/-- The visual of an instance, by its position in the list. -/
def visualAt (s : EngineState) (a : Addr) : Option ℕ :=
  (s.instances.get? a).bind fun i => (s.visualsList.map Visual.addr).findIdx? fun b => b = i.visual

/-- The visuals in the cells of a scene. -/
def cellMap (s : EngineState) (scene : Scene) (cell : UInt32 × UInt32) : Option ℕ :=
  (scene.visualInstances.find? (VisualInstances.inCell s.instances cell)).bind s.visualAt

/-- The layout that a state shows. -/
def layout (s : EngineState) : Layout where
  visuals := s.visualsList.map fun v => (v.caption, v.source.opened)
  scenes := s.scenesList.map fun scene => (scene.sceneName, s.cellMap scene)
  current := s.currentSceneNumber
  layers := s.layersList.length
  selected := s.properties.selectedLayer.toUInt32
  nLayers := s.nLayers
  filePath := s.filePath

variable {s t : EngineState}

/-- The cells of a scene are told by the cells of its instances, and by their visuals. -/
theorem cellMap_congr {scene : Scene}
    (hat : ∀ a ∈ scene.visualInstances, (s.instances.get? a).map VisualInstance.cell =
      (t.instances.get? a).map VisualInstance.cell)
    (hv : ∀ a ∈ scene.visualInstances, s.visualAt a = t.visualAt a) :
    s.cellMap scene = t.cellMap scene := by
  funext cell
  rw [cellMap, cellMap]
  have hfind : scene.visualInstances.find? (VisualInstances.inCell s.instances cell) =
      scene.visualInstances.find? (VisualInstances.inCell t.instances cell) :=
    List.find?_congr fun a ha => by rw [VisualInstances.inCell, VisualInstances.inCell, hat a ha]
  rw [hfind]
  cases ha : scene.visualInstances.find? (VisualInstances.inCell t.instances cell) with
  | none => rfl
  | some a => exact hv a (List.mem_of_find?_eq_some ha)

/-- The scenes are told by where the instances and the visuals are. -/
theorem cellMap_of_outline (hat : s.outline.instanceAt = t.outline.instanceAt)
    (hv : s.outline.visuals = t.outline.visuals) : s.cellMap = t.cellMap := by
  have hpair : ∀ a, (s.instances.get? a).map (fun i => (i.visual, i.cell)) =
      (t.instances.get? a).map fun i => (i.visual, i.cell) := fun a => congrFun hat a
  funext scene
  refine cellMap_congr (fun a _ => ?_) fun a _ => ?_
  · have hcell := congrArg (Option.map Prod.snd) (hpair a)
    simpa only [Option.map_map, Function.comp_def] using hcell
  · have hvisual := congrArg (Option.map Prod.fst) (hpair a)
    simp only [Option.map_map, Function.comp_def] at hvisual
    have hlist : s.visualsList.map Visual.addr = t.visualsList.map Visual.addr := hv
    have hbind : ∀ u : EngineState, u.visualAt a = ((u.instances.get? a).map
        VisualInstance.visual).bind fun b => (u.visualsList.map Visual.addr).findIdx? (· = b) := by
      intro u
      rw [visualAt, Option.bind_map]
      rfl
    rw [hbind s, hbind t, hlist]
    exact congrArg (fun o => Option.bind o _) hvisual

end EngineState

/-! ### Playing -/

/-- The program leaves the layout alone. -/
abbrev KeepsLayout {α : Type} (x : Prog α) : Prop := Fixes EngineState.layout x

theorem keepsLayout_updateInstance (a : Addr) {g : VisualInstance → VisualInstance}
    (hv : ∀ i, (g i).visual = i.visual) (hc : ∀ i, (g i).cell = i.cell) :
    KeepsLayout (VisualInstance.update a g) := by
  intro o s hs
  have houtline : KeepsOutline (VisualInstance.update a g) := .updateInstance hv hc
  have hat := houtline _ s rfl
  cases hi : s.instances.get? a with
  | none => simp [VisualInstance.update, VisualInstance.read, hi]
  | some i =>
    rw [VisualInstance.update_eq hi, Outcome.post_ok] at hat ⊢
    have hmap := EngineState.cellMap_of_outline
      (s := { s with instances := s.instances.set a (g i) }) (t := s)
      (congrArg (fun o => o.instanceAt) hat) rfl
    rw [← hs, EngineState.layout, EngineState.layout, hmap]

theorem keepsLayout_openCamera (a : Addr) : KeepsLayout (VisualInstance.openCamera a) := by
  rw [VisualInstance.openCamera_eq]
  refine .modify fun s => ?_
  have haddr : (s.openCamera a).outline.visuals = s.outline.visuals := by
    simp [EngineState.openCamera, EngineState.outline]
  have hmap : (s.openCamera a).cellMap = s.cellMap := EngineState.cellMap_of_outline rfl haddr
  rw [EngineState.layout, EngineState.layout, hmap]
  simp only [EngineState.openCamera, List.map_map]
  refine congrArg (fun visuals => ({ s.layout with visuals := visuals } : Layout))
    (List.map_congr_left fun v _ => Prod.ext ?_ ?_)
  · rw [Function.comp_apply, Visual.openIf]
    split_ifs <;> rfl
  · exact v.opened_source_openIf a

/-- Playing leaves the layout alone. -/
theorem fixes_layout {h : Host} {α : Type} {x : Prog α} (hx : Performs h True x) :
    KeepsLayout x := by
  refine hx.fixes fun y hy => ?_
  cases hy with
  | write a hg => exact keepsLayout_updateInstance a hg.visual hg.cell
  | load hc a => exact absurd trivial hc
  | layer n f =>
    refine .bind (.deref _ _) fun _ => .modify fun s => ?_
    rw [EngineState.layout, EngineState.layout, List.length_modify]
    rfl
  | setting hf =>
    refine .modify fun s => ?_
    rw [EngineState.layout, EngineState.layout, hf]
    rfl
  | camera a => exact keepsLayout_openCamera a
  | buffer b => exact .modify fun s => rfl

/-! ### Editing a cell -/

/-- Erasing an element does not change what is searched for elsewhere. -/
theorem find?_eraseP_of_not {α : Type} {p q : α → Bool} {l : List α}
    (hpq : ∀ a ∈ l, q a = true → p a = false) : (l.eraseP p).find? q = l.find? q := by
  induction l with
  | nil => rfl
  | cons a rest ih =>
    obtain ⟨ha, hrest⟩ := List.forall_mem_cons.mp hpq
    cases hp : p a with
    | true =>
      have hq : q a = false := by
        by_contra hq
        exact Bool.noConfusion (hp.symm.trans (ha (Bool.eq_true_of_not_eq_false hq)))
      rw [List.eraseP_cons_of_pos hp, List.find?_cons_of_neg (by rw [hq]; exact Bool.false_ne_true)]
    | false =>
      rw [List.eraseP_cons_of_neg (by rw [hp]; exact Bool.false_ne_true), List.find?_cons,
        List.find?_cons, ih hrest]

namespace EngineState

variable {s : EngineState} {scene : Scene}

/-- What is left of a scene after the instance in a cell has gone. -/
theorem Laid.find?_erase (hs : s.Laid) (hscene : scene ∈ s.scenesList)
    (cell cell' : UInt32 × UInt32) :
    (scene.visualInstances.eraseP (VisualInstances.inCell s.instances cell)).find?
        (VisualInstances.inCell s.instances cell') =
      if cell' = cell then none
      else scene.visualInstances.find? (VisualInstances.inCell s.instances cell') := by
  split_ifs with heq
  · subst heq
    rw [List.find?_eq_none]
    intro a ha hin
    rw [VisualInstances.inCell, decide_eq_true_eq] at hin
    exact key_ne_of_mem_eraseP (hs.apart scene hscene) ha hin
  · refine find?_eraseP_of_not fun a _ hin => ?_
    rw [VisualInstances.inCell, decide_eq_true_eq] at hin
    rw [VisualInstances.inCell, hin, decide_eq_false_iff_not]
    exact fun h => heq (Option.some.inj h)

/-- A scene has one position in the list. -/
theorem WellFormed.index_eq (hs : s.WellFormed) {i j : ℕ} {scene scene' : Scene}
    (hi : s.scenesList[i]? = some scene) (hj : s.scenesList[j]? = some scene')
    (haddr : scene.addr = scene'.addr) : i = j := by
  have hne := hs.scenes_ne.imp fun h => h.1
  obtain ⟨hlt, rfl⟩ := List.getElem?_eq_some_iff.mp hi
  obtain ⟨hlt', rfl⟩ := List.getElem?_eq_some_iff.mp hj
  rcases lt_trichotomy i j with hij | hij | hij
  · exact absurd haddr (List.pairwise_iff_getElem.mp hne i j hlt hlt' hij)
  · exact hij
  · exact absurd haddr.symm (List.pairwise_iff_getElem.mp hne j i hlt' hlt hij)

/-- Changing the current scene changes the layout at its position. -/
theorem Safe.scenes_replace (hs : s.Safe) {t : EngineState} {a : Addr}
    (hcurrent : s.currentScene = some a) {f : Scene → Scene}
    {g : (UInt32 × UInt32 → Option ℕ) → UInt32 × UInt32 → Option ℕ}
    (hname : ∀ scene, (f scene).sceneName = scene.sceneName)
    (hf : ∀ scene ∈ s.scenesList, scene.addr = a → t.cellMap (f scene) = g (s.cellMap scene))
    (hrest : ∀ scene ∈ s.scenesList, scene.addr ≠ a → t.cellMap scene = s.cellMap scene) :
    (Scene.replace a f s.scenesList).map (fun scene => (scene.sceneName, t.cellMap scene)) =
      s.layout.scenes.modify s.currentSceneNumber.toNat fun scene => (scene.1, g scene.2) := by
  obtain ⟨i, hnumber, scene, hscene, hcurrent'⟩ := hs.atScene
  obtain rfl : scene.addr = a := Option.some.inj (hcurrent'.symm.trans hcurrent)
  refine List.ext_getElem? fun j => ?_
  rw [Scene.replace, List.map_map, List.getElem?_map, List.getElem?_modify, layout,
    List.getElem?_map, hnumber]
  cases hj : s.scenesList[j]? with
  | none => rfl
  | some scene' =>
    have hmem := List.mem_of_getElem? hj
    by_cases haddr : scene'.addr = scene.addr
    · have hij := hs.wellFormed.index_eq hscene hj haddr.symm
      simp [haddr, hij, hname, hf scene' hmem haddr]
    · have hij : i ≠ j := fun hij => haddr (by
        rw [← hij, hscene] at hj
        rw [Option.some.inj hj])
      simp [haddr, hij, hrest scene' hmem haddr]

/-- A visual is put into a cell of the current scene. -/
theorem Safe.layout_place (hs : s.Safe) (hl : s.Laid) (h : Host) {a : Addr}
    (hcurrent : s.currentScene = some a) {p : Placement} {k : ℕ}
    (hk : (s.visualsList.map Visual.addr).findIdx? (fun b => b = p.visual) = some k) :
    (s.place h a p).layout = s.layout.put (p.layer, p.column) (some k) := by
  have hold : ∀ scene ∈ s.scenesList, ∀ b ∈ scene.visualInstances,
      (s.place h a p).instances.get? b = s.instances.get? b := by
    intro scene hscene b hb
    obtain ⟨i, hi⟩ := hs.wellFormed.instances_live scene hscene b hb
    exact (s.instances.get?_alloc_of_some hi).trans hi.symm
  have hvisual : ∀ scene ∈ s.scenesList, ∀ b ∈ scene.visualInstances,
      (s.place h a p).visualAt b = s.visualAt b := fun scene hscene b hb => by
    rw [visualAt, visualAt, hold scene hscene b hb]
    rfl
  have hnew : (s.place h a p).instances.get? s.instances.next =
      some (.fresh h s.instances.next p.visual p.layer p.column p.name) :=
    s.instances.get?_alloc_next _
  have hscenes := hs.scenes_replace (t := s.place h a p) (a := a)
    (f := fun scene => { scene with
      visualInstances := scene.visualInstances.eraseP
        (VisualInstances.inCell s.instances (p.layer, p.column)) ++ [s.instances.next] })
    (g := fun m => Function.update m (p.layer, p.column) (some k)) hcurrent (fun _ => rfl)
    (fun scene hscene _ => ?_) fun scene hscene _ => ?_
  · exact congrArg (fun scenes => ({ s.layout with scenes := scenes } : Layout)) hscenes
  · funext cell
    have hin : ∀ b ∈ scene.visualInstances.eraseP
        (VisualInstances.inCell s.instances (p.layer, p.column)),
        VisualInstances.inCell (s.place h a p).instances cell b =
          VisualInstances.inCell s.instances cell b := fun b hb => by
      rw [VisualInstances.inCell, VisualInstances.inCell,
        hold scene hscene b (List.mem_of_mem_eraseP hb)]
    rw [cellMap, List.find?_append, List.find?_congr hin, hl.find?_erase hscene]
    by_cases hcell : cell = (p.layer, p.column)
    · have hfind : VisualInstances.inCell (s.place h a p).instances cell s.instances.next = true := by
        rw [VisualInstances.inCell, hnew, Option.map_some, VisualInstance.cell_fresh, hcell]
        exact decide_eq_true rfl
      rw [if_pos hcell, Option.none_or, List.find?_cons_of_pos hfind, Option.bind_some, visualAt,
        hnew, Option.bind_some, hcell, Function.update_self]
      exact hk
    · have hfind : ¬VisualInstances.inCell (s.place h a p).instances cell s.instances.next = true := by
        rw [VisualInstances.inCell, hnew, Option.map_some, VisualInstance.cell_fresh,
          decide_eq_true_eq]
        exact fun h => hcell (Option.some.inj h).symm
      rw [if_neg hcell, List.find?_cons_of_neg hfind, List.find?_nil, Option.or_none,
        Function.update_of_ne hcell, cellMap]
      cases hb : scene.visualInstances.find? (VisualInstances.inCell s.instances cell) with
      | none => rfl
      | some b => exact hvisual scene hscene b (List.mem_of_find?_eq_some hb)
  · refine cellMap_congr (fun b hb => ?_) fun b hb => hvisual scene hscene b hb
    rw [hold scene hscene b hb]

/-- What is in a cell of the current scene is taken out. -/
theorem Safe.layout_remove (hs : s.Safe) (hl : s.Laid) {scene : Scene} (hscene : scene ∈ s.scenesList)
    (hcurrent : s.currentScene = some scene.addr) (cell : UInt32 × UInt32) :
    ({ s with scenesList := Scene.replace scene.addr (fun old => { old with
      visualInstances := scene.visualInstances.eraseP
        (VisualInstances.inCell s.instances cell) }) s.scenesList } : EngineState).layout =
      s.layout.put cell none := by
  have hscenes := hs.scenes_replace (t := s) (g := fun m => Function.update m cell none) hcurrent
    (f := fun old => { old with
      visualInstances := scene.visualInstances.eraseP (VisualInstances.inCell s.instances cell) })
    (fun _ => rfl) (fun old hold haddr => ?_) fun _ _ _ => rfl
  · exact congrArg (fun scenes => ({ s.layout with scenes := scenes } : Layout)) hscenes
  · obtain rfl := hs.wellFormed.scene_eq hold hscene haddr
    funext cell'
    rw [cellMap, hl.find?_erase hscene]
    by_cases hcell : cell' = cell
    · rw [if_pos hcell, hcell, Function.update_self, Option.bind_none]
    · rw [if_neg hcell, Function.update_of_ne hcell, cellMap]

theorem layout_pushScene (s : EngineState) (name : String) : (s.pushScene name).layout =
    { s.layout with scenes := s.layout.scenes ++ [(name, fun _ => none)] } := by
  rw [pushScene, layout, List.map_append]
  rfl

/-- A visual joins the list behind those that the scenes show. -/
theorem Safe.layout_pushVisual (hs : s.Safe) (v : Visual) {p : EngineProperties}
    (hp : p.selectedLayer = s.properties.selectedLayer) :
    ({ s with visualsList := s.visualsList ++ [v], nextAddr := s.nextAddr + 1, properties := p } :
      EngineState).layout = s.layout.list (v.caption, v.source.opened) := by
  have hvisual : ∀ scene ∈ s.scenesList, ∀ a ∈ scene.visualInstances,
      ({ s with visualsList := s.visualsList ++ [v], nextAddr := s.nextAddr + 1, properties := p } :
        EngineState).visualAt a = s.visualAt a := by
    intro scene hscene a ha
    obtain ⟨_, ⟨i, hi, rfl⟩, w, hw, hwi⟩ := hs.linked (mem_placed.mpr ⟨scene, hscene, ha⟩)
    have hfound : ((s.visualsList.map Visual.addr).findIdx? fun b => b = i.visual) ≠ none := by
      rw [Ne, List.findIdx?_eq_none_iff]
      exact fun hnone => by simpa [hwi] using hnone w.addr (List.mem_map_of_mem hw)
    obtain ⟨k, hk⟩ := Option.ne_none_iff_exists'.mp hfound
    rw [visualAt, visualAt, hi, Option.bind_some, Option.bind_some, List.map_append,
      List.findIdx?_append, hk, Option.some_or]
  have hscenes : s.scenesList.map (fun scene => (scene.sceneName,
      ({ s with visualsList := s.visualsList ++ [v], nextAddr := s.nextAddr + 1, properties := p } :
        EngineState).cellMap scene)) = s.layout.scenes :=
    List.map_congr_left fun scene hscene =>
      Prod.ext rfl (cellMap_congr (fun _ _ => rfl) (hvisual scene hscene))
  rw [layout, hscenes, hp, List.map_append]
  rfl

/-! ### Layers -/

theorem layout_pushLayers (h : Host) (s : EngineState) (layers : List LayerProperties) :
    (s.pushLayers h layers).layout =
      { s.layout with layers := s.layersList.length + layers.length } := by
  induction layers generalizing s with
  | nil => rfl
  | cons p rest ih =>
    change ((s.pushLayer h p).pushLayers h rest).layout = _
    rw [ih, length_pushLayer, List.length_cons, Nat.add_right_comm, Nat.add_assoc]
    rfl

end EngineState

/-- The outcome leaves a state that shows the layout. -/
def Shows {α : Type} (o : Outcome EngineState Thrown Undefined α) (l : Layout) : Prop :=
  o.Post (fun _ t => t.layout = l) fun _ t => t.layout = l

namespace Layers

variable {s : EngineState}

theorem shows_iterate_add (hle : s.layersList.length ≤ maximumNumberOfLayers) (h : Host) (n : ℕ) :
    Shows (iterate n (do let _ ← add h true) s) (s.layout.addLayers h n) := by
  cases hsh : h.shaderError with
  | none =>
    rw [iterate_add h hsh n s hle, Layout.addLayers, if_pos hsh]
    refine (s.layout_pushLayers h _).trans ?_
    have hlen : s.layersList.length + (List.replicate
        (min n (maximumNumberOfLayers - s.layersList.length)) newProperties).length =
          min (s.layersList.length + n) maximumNumberOfLayers := by
      rw [List.length_replicate]
      omega
    rw [hlen]
    rfl
  | some what =>
    rw [Layout.addLayers, if_neg (hsh ▸ Option.some_ne_none what)]
    by_cases hn : n = 0
    · subst hn
      exact rfl
    by_cases hfull : s.layersList.length = maximumNumberOfLayers
    · rw [iterate_add_of_full hfull]
      exact rfl
    · rw [iterate_add_of_shaderError hsh hn hfull]
      exact rfl

theorem shows_setActive (h : Host) (n : UInt32) (s : EngineState) :
    Shows (setActive h n s) (s.layout.setActive n) := by
  rw [setActive, Layout.setActive]
  split_ifs
  · exact rfl
  · exact rfl

/-- A removal either goes wrong at the end of the list, or returns. -/
theorem remove_post_layout (h : Host) (n : UInt32) (s : EngineState) :
    (remove h n s).Post (fun _ t => t.layout = s.layout.removeLayer n) fun _ _ => False := by
  have hlayers : s.layout.layers = s.layersList.length := rfl
  rw [Layout.removeLayer, hlayers]
  rcases lt_trichotomy n.toNat s.layersList.length with hlt | heq | hgt
  · let t : EngineState :=
      { s with layersList := s.layersList.eraseIdx n.toNat }.resetProperties h
    have hlen : t.layersList.length = s.layersList.length - 1 := List.length_eraseIdx_of_lt hlt
    have hrun : remove h n s =
        (if s.properties.selectedLayer.toUInt32 ≥ count t then setActive h (count t)
          else pure ()) t := by
      rw [remove, bind_run, gets_run, Outcome.bind_ok, if_neg (by omega), if_neg (by omega)]
      rfl
    have ht : t.layout = { s.layout with layers := s.layersList.length - 1 } := by
      rw [EngineState.layout, hlen]
      rfl
    have hcount : count t = UInt32.ofNat (s.layersList.length - 1) := congrArg UInt32.ofNat hlen
    rw [hrun, hcount, if_pos hlt]
    dsimp only
    split_ifs with hselected hselected' hselected'
    · have hactive := shows_setActive h (UInt32.ofNat (s.layersList.length - 1)) t
      rw [ht] at hactive
      obtain ⟨p, hp⟩ := exists_setActive h (UInt32.ofNat (s.layersList.length - 1)) t
      rw [hp] at hactive ⊢
      exact hactive
    · exact absurd hselected hselected'
    · exact absurd hselected' hselected
    · exact ht
  · rw [remove_of_eq_length heq]
    trivial
  · rw [remove_of_length_lt hgt, if_neg hgt.le.not_gt]
    exact rfl

theorem shows_setCount (hle : s.layersList.length ≤ maximumNumberOfLayers) (h : Host) (n : UInt32) :
    Shows (setCount h n s) (s.layout.setLayerCount h n) := by
  have hremoves : ∀ (list : List ℕ) (u : EngineState),
      (forEach list (fun i => remove h (UInt32.ofNat i)) u).Post
        (fun _ t => t.layout = list.foldl (fun l i => l.removeLayer (UInt32.ofNat i)) u.layout)
        fun _ _ => False := by
    intro list
    induction list with
    | nil => exact fun _ => rfl
    | cons i rest ih =>
      intro u
      refine (remove_post_layout h _ u).bind fun _ t ht => ?_
      rw [List.foldl_cons, ← ht]
      exact ih t
  have hcount : UInt32.ofNat s.layout.layers = count s := rfl
  rw [setCount, bind_run, gets_run, Outcome.bind_ok]
  simp only [Layout.setLayerCount, hcount]
  split_ifs with heq hgt
  · exact rfl
  · exact shows_iterate_add hle h _
  · exact (hremoves _ s).mono (fun _ _ ht => ht) fun _ _ hf => hf.elim

end Layers

end ArbutusEngine
