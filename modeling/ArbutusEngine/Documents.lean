import ArbutusEngine.WellFormed

/-!
# Documents and what they restore

`Engine::getState` writes the engine as a document and `Engine::setState` reads one. This file says
what both do in terms of the contents of the scenes, `EngineState.views`, in which an instance is
given by what it contains and not by its address.

Encoding reads the visual of every instance, so it is defined exactly when all these visuals still
exist (`EngineState.Connected`). Decoding a scene adds instances one by one, each replacing the one
in its cell; `instancesOf` is what a list of entries adds up to.

## Main definitions

* `EngineState.views`, `EngineState.Connected`, `addInstance`, `instancesOf`, `contentsOf`.
* `sceneState`, `scenesState`, `EngineState.document`: the encoding of the contents of scenes, and
  of the engine.

## Main results

* `EngineState.views_buildScenes`: the contents of the scenes that are built.
* `Set.getScenesState_of_connected`, `Set.getScenesState_of_not_connected`.
* `Scene.readInstance_instanceState`: what an encoded instance is read as.
-/

open Exec

namespace ArbutusEngine

/-! ### The contents of scenes -/

/-- The instances of a scene that are allocated. -/
def EngineState.contents (s : EngineState) (scene : Scene) : List VisualInstance :=
  scene.visualInstances.filterMap s.instances.get?

/-- The scenes, by name and contents. -/
def EngineState.views (s : EngineState) : List (String × List VisualInstance) :=
  s.scenesList.map fun scene => (scene.sceneName, s.contents scene)

/-- The list of instances after one has been added in the place of the one in its cell. -/
def addInstance (l : List VisualInstance) (i : VisualInstance) : List VisualInstance :=
  l.eraseP (fun j => j.cell = i.cell) ++ [i]

/-- The instance that `Scene::setState` makes at the address `a`. -/
def Placement.toInstance (h : Host) (a : Addr) (p : Placement) : VisualInstance :=
  .fresh h a p.visual p.layer p.column p.name

/-- The instances that a list of entries adds up to, allocated from the address `n` on. -/
def instancesOf (h : Host) (n : Addr) (placements : List Placement) : List VisualInstance :=
  (placements.zipIdx n).foldl (fun l p => addInstance l (p.1.toInstance h p.2)) []

/-- The contents of the scenes that are built one after the other. -/
def contentsOf (h : Host) : Addr → List (String × List Placement) →
    List (String × List VisualInstance)
  | _, [] => []
  | n, scene :: rest =>
    (scene.1, instancesOf h n scene.2) :: contentsOf h (n + scene.2.length) rest

section views

variable {s : EngineState} {h : Host}

theorem filterMap_alloc {heap : Heap VisualInstance} {l : List Addr} (hl : heap.Live l)
    (i : VisualInstance) : l.filterMap (heap.alloc i).get? = l.filterMap heap.get? := by
  refine List.filterMap_congr fun a ha => ?_
  obtain ⟨j, hj⟩ := hl a ha
  rw [hj, heap.get?_alloc_of_some hj]

theorem filterMap_eraseP {heap : Heap VisualInstance} {l : List Addr} (hl : heap.Live l)
    (cell : UInt32 × UInt32) :
    (l.eraseP (VisualInstances.inCell heap cell)).filterMap heap.get? =
      (l.filterMap heap.get?).eraseP fun j => j.cell = cell := by
  induction l with
  | nil => rfl
  | cons a rest ih =>
    obtain ⟨i, hi⟩ := hl a List.mem_cons_self
    have ih := ih (hl.mono fun b hb => List.mem_cons_of_mem a hb)
    by_cases hc : i.cell = cell
    · simp [VisualInstances.inCell, hi, hc]
    · rw [List.eraseP_cons_of_neg (by simp [VisualInstances.inCell, hi, hc]),
        List.filterMap_cons_some hi, List.filterMap_cons_some hi,
        List.eraseP_cons_of_neg (by simpa using hc), ih]

/-- The contents of a scene to which an instance has been added. -/
theorem EngineState.contents_place (hs : s.WellFormed) {scene : Scene}
    (hscene : scene ∈ s.scenesList) (a : Addr) (p : Placement) :
    (s.place h a p).contents { scene with
      visualInstances := scene.visualInstances.eraseP
        (VisualInstances.inCell s.instances (p.layer, p.column)) ++ [s.instances.next] } =
      addInstance (s.contents scene) (p.toInstance h s.instances.next) := by
  have hlive := hs.instances_live scene hscene
  have hnew : (s.instances.alloc (p.toInstance h s.instances.next)).get? s.instances.next =
      some (p.toInstance h s.instances.next) := s.instances.get?_alloc_next _
  simp only [contents, EngineState.place, List.filterMap_append, addInstance]
  congr 1
  · have hsub := hlive.mono fun b
        (hb : b ∈ scene.visualInstances.eraseP
          (VisualInstances.inCell s.instances (p.layer, p.column))) => List.mem_of_mem_eraseP hb
    rw [filterMap_alloc hsub, filterMap_eraseP hlive]
    simp [Placement.toInstance]
  · exact List.filterMap_cons_some hnew

/-- Adding an instance to the scene at `a` changes the contents of that scene and of no other. -/
theorem EngineState.views_place (hs : s.WellFormed) (a : Addr) (p : Placement) :
    (s.place h a p).views = s.scenesList.map fun scene =>
      (scene.sceneName, if scene.addr = a then
        addInstance (s.contents scene) (p.toInstance h s.instances.next) else s.contents scene) := by
  simp only [views, EngineState.place, Scene.replace, List.map_map]
  refine List.map_congr_left fun scene hscene => ?_
  simp only [Function.comp_apply]
  split_ifs
  · exact Prod.ext rfl (contents_place hs hscene a p)
  · exact Prod.ext rfl (filterMap_alloc (hs.instances_live scene hscene) _)

/-- The scene at the address `a` is the last one, and the only one at `a`. -/
def EngineState.LastScene (s : EngineState) (a : Addr) : Prop :=
  ∃ init, s.scenesList.map Scene.addr = init ++ [a] ∧ a ∉ init

theorem EngineState.LastScene.place {a : Addr} (ha : s.LastScene a) (p : Placement) :
    (s.place h a p).LastScene a := by
  obtain ⟨init, hscenes, hinit⟩ := ha
  refine ⟨init, ?_, hinit⟩
  rw [← hscenes, EngineState.place, Scene.replace, List.map_map]
  refine List.map_congr_left fun scene _ => ?_
  simp only [Function.comp_apply]
  split_ifs <;> rfl

/-- The instances that are placed in the last scene end up as its contents. -/
theorem EngineState.views_foldl_place {a : Addr} (placements : List Placement) :
    ∀ {s : EngineState} {V : List (String × List VisualInstance)} {name : String}
      {l : List VisualInstance}, s.WellFormed → s.LastScene a → s.views = V ++ [(name, l)] →
      (placements.foldl (EngineState.place h a) s).views =
        V ++ [(name, (placements.zipIdx s.instances.next).foldl
          (fun l p => addInstance l (p.1.toInstance h p.2)) l)] := by
  induction placements with
  | nil => exact fun _ _ hV => hV
  | cons p rest ih =>
    intro s V name l hs ha hV
    have hnext : (s.place h a p).instances.next = s.instances.next + 1 := s.instances.next_alloc _
    rw [List.foldl_cons, List.zipIdx_cons, List.foldl_cons, ← hnext]
    refine ih (hs.place h a p) (ha.place p) ?_
    obtain ⟨addrs, haddrs, hnot⟩ := ha
    obtain ⟨init, tail, hscenes, rfl, htail⟩ := List.map_eq_append_iff.mp haddrs
    obtain ⟨last, rfl, hlast⟩ := List.map_eq_singleton_iff.mp htail
    have hinit : ∀ scene ∈ init, scene.addr ≠ a := fun scene hscene haddr =>
      hnot (haddr ▸ List.mem_map_of_mem hscene)
    rw [views, hscenes, List.map_append, List.map_cons, List.map_nil] at hV
    obtain ⟨hV₁, hV₂⟩ := List.append_inj' hV rfl
    rw [views_place hs, hscenes, List.map_append, List.map_cons, List.map_nil, ← hV₁]
    have hinit' : ∀ scene ∈ init, (scene.sceneName, if scene.addr = a then
        addInstance (s.contents scene) (p.toInstance h s.instances.next) else s.contents scene) =
          (scene.sceneName, s.contents scene) := by
      intro scene hscene
      rw [if_neg (hinit scene hscene)]
    rw [List.map_congr_left hinit', if_pos hlast]
    obtain ⟨rfl, rfl⟩ := Prod.mk.inj (List.singleton_inj.mp hV₂)
    rfl

theorem EngineState.views_pushScene (s : EngineState) (name : String) :
    (s.pushScene name).views = s.views ++ [(name, [])] := by
  simp [views, EngineState.pushScene, contents]

/-- A scene that is built has the contents its entries add up to; the other scenes keep theirs. -/
theorem EngineState.views_buildScene (hs : s.WellFormed) (scene : String × List Placement) :
    (s.buildScene h scene).views =
      s.views ++ [(scene.1, instancesOf h s.instances.next scene.2)] := by
  refine views_foldl_place scene.2 (hs.pushScene scene.1) ?_ (s.views_pushScene scene.1)
  refine ⟨s.scenesList.map Scene.addr, by simp [EngineState.pushScene], fun hmem => ?_⟩
  obtain ⟨old, hold, haddr⟩ := List.mem_map.mp hmem
  exact Nat.ne_of_lt (hs.scenes_lt old hold) haddr

/-- A scene that is built allocates an instance for each of its entries. -/
theorem EngineState.next_buildScene (s : EngineState) (scene : String × List Placement) :
    (s.buildScene h scene).instances.next = s.instances.next + scene.2.length := by
  have key : ∀ (ps : List Placement) (t : EngineState),
      (ps.foldl (EngineState.place h s.nextAddr) t).instances.next =
        t.instances.next + ps.length := by
    intro ps
    induction ps with
    | nil => exact fun _ => rfl
    | cons p rest ih =>
      intro t
      have hnext : (t.place h s.nextAddr p).instances.next = t.instances.next + 1 :=
        t.instances.next_alloc _
      rw [List.foldl_cons, ih, hnext, List.length_cons, Nat.add_assoc, Nat.add_comm 1]
  exact key scene.2 (s.pushScene scene.1)

theorem EngineState.views_buildScenes (scenes : List (String × List Placement)) :
    ∀ {s : EngineState}, s.WellFormed → (s.buildScenes h scenes).views =
      s.views ++ contentsOf h s.instances.next scenes := by
  induction scenes with
  | nil => exact fun _ => (List.append_nil _).symm
  | cons scene rest ih =>
    intro s hs
    change ((s.buildScene h scene).buildScenes h rest).views = _
    rw [ih (hs.buildScene h scene), views_buildScene hs, next_buildScene, List.append_assoc]
    rfl

end views

/-- Every instance that a list of entries adds up to comes from one of them. -/
theorem exists_of_mem_instancesOf {h : Host} {n : Addr} {placements : List Placement}
    {i : VisualInstance} (hi : i ∈ instancesOf h n placements) :
    ∃ p ∈ placements, ∃ a, p.toInstance h a = i := by
  have key : ∀ (ps : List Placement) (n : Addr) (l : List VisualInstance),
      i ∈ (ps.zipIdx n).foldl (fun l p => addInstance l (p.1.toInstance h p.2)) l →
      i ∈ l ∨ ∃ p ∈ ps, ∃ a, p.toInstance h a = i := by
    intro ps
    induction ps with
    | nil => exact fun _ _ hi => .inl hi
    | cons p rest ih =>
      intro n l hi
      rcases ih _ _ hi with hi | ⟨q, hq, hqi⟩
      · rcases List.mem_append.mp hi with hi | hi
        · exact .inl (List.mem_of_mem_eraseP hi)
        · exact .inr ⟨p, List.mem_cons_self, n, (List.mem_singleton.mp hi).symm⟩
      · exact .inr ⟨q, List.mem_cons_of_mem p hq, hqi⟩
  rcases key placements n [] hi with hi | hi
  · exact absurd hi List.not_mem_nil
  · exact hi

theorem addInstance_map {f : VisualInstance → VisualInstance} (hcell : ∀ i, (f i).cell = i.cell)
    (l : List VisualInstance) (i : VisualInstance) :
    addInstance (l.map f) (f i) = (addInstance l i).map f := by
  rw [addInstance, addInstance, List.map_append, List.eraseP_map]
  simp only [Function.comp_def, hcell]
  rfl

/-- A change of the instances that leaves them in their cells, and that a change of the entries and
of the memory accounts for. -/
theorem map_instancesOf {h h' : Host} {n n' : Addr} {f : VisualInstance → VisualInstance}
    {r : Placement → Placement} (hcell : ∀ i, (f i).cell = i.cell)
    (placements : List Placement)
    (hf : ∀ p, ∀ k < placements.length,
      f (p.toInstance h (n + k)) = (r p).toInstance h' (n' + k)) :
    (instancesOf h n placements).map f = instancesOf h' n' (placements.map r) := by
  have key : ∀ (ps : List Placement) (n n' : Addr) (l : List VisualInstance),
      (∀ p, ∀ k < ps.length, f (p.toInstance h (n + k)) = (r p).toInstance h' (n' + k)) →
      ((ps.zipIdx n).foldl (fun l p => addInstance l (p.1.toInstance h p.2)) l).map f =
        ((ps.map r).zipIdx n').foldl (fun l p => addInstance l (p.1.toInstance h' p.2))
          (l.map f) := by
    intro ps
    induction ps with
    | nil => exact fun _ _ _ _ => rfl
    | cons p rest ih =>
      intro n n' l hps
      have hp : f (p.toInstance h n) = (r p).toInstance h' n' := hps p 0 (Nat.zero_lt_succ _)
      rw [List.map_cons, List.zipIdx_cons, List.zipIdx_cons, List.foldl_cons, List.foldl_cons,
        ih (n + 1) (n' + 1) _ fun q k hk => ?_, ← hp, addInstance_map hcell]
      rw [Nat.add_right_comm, Nat.add_right_comm n']
      exact hps q (k + 1) (Nat.succ_lt_succ hk)
  exact key placements n n' [] hf

/-- The instance as it would be in memory full of zeros: its unset members are forgotten. -/
def VisualInstance.forget (i : VisualInstance) : VisualInstance :=
  { i with
    properties := { i.properties with openedTimestamp := 0, lastPlayedTimestamp := 0 }
    videoX := 0
    videoY := 0
    videoWidth := 0
    videoHeight := 0 }

/-- But for their unset members, the instances do not depend on the memory. -/
theorem map_forget_instancesOf (h : Host) (n : Addr) (placements : List Placement) :
    (instancesOf h n placements).map VisualInstance.forget = instancesOf .plain 0 placements := by
  have hmap : (instancesOf h n placements).map VisualInstance.forget =
      instancesOf .plain 0 (placements.map id) :=
    map_instancesOf (f := VisualInstance.forget) (r := id) (fun _ => rfl) placements fun _ _ _ => rfl
  rwa [List.map_id] at hmap

theorem map_instancesOf_congr {γ : Type} {g : VisualInstance → γ} (hg : ∀ i, g i.forget = g i)
    (h h' : Host) (n n' : Addr) (placements : List Placement) :
    (instancesOf h n placements).map g = (instancesOf h' n' placements).map g := by
  have hforget : ∀ l : List VisualInstance, l.map g = (l.map VisualInstance.forget).map g := by
    intro l
    rw [List.map_map]
    exact List.map_congr_left fun i _ => (hg i).symm
  rw [hforget, hforget (instancesOf h' n' placements), map_forget_instancesOf,
    map_forget_instancesOf]

theorem length_instancesOf_eq (h : Host) (n : Addr) (placements : List Placement) :
    (instancesOf h n placements).length = (instancesOf .plain 0 placements).length := by
  rw [← map_forget_instancesOf h n, List.length_map]

theorem exists_of_mem_contentsOf {h : Host} {n : Addr} {scenes : List (String × List Placement)}
    {view : String × List VisualInstance} (hview : view ∈ contentsOf h n scenes) :
    ∃ scene ∈ scenes, ∃ m, view = (scene.1, instancesOf h m scene.2) := by
  induction scenes generalizing n with
  | nil => exact absurd hview List.not_mem_nil
  | cons scene rest ih =>
    rcases List.mem_cons.mp hview with rfl | hview
    · exact ⟨scene, List.mem_cons_self, n, rfl⟩
    · obtain ⟨scene', hmem, m, rfl⟩ := ih hview
      exact ⟨scene', List.mem_cons_of_mem scene hmem, m, rfl⟩

/-- What does not depend on where the instances of a scene are allocated does not depend on where the
scenes are built. -/
theorem map_contentsOf_eq {β : Type} {F : List VisualInstance → β} {G : List Placement → β} {h : Host}
    {scenes : List (String × List Placement)}
    (hF : ∀ scene ∈ scenes, ∀ n, F (instancesOf h n scene.2) = G scene.2) (n : Addr) :
    ((contentsOf h n scenes).map fun view => (view.1, F view.2)) =
      scenes.map fun scene => (scene.1, G scene.2) := by
  induction scenes generalizing n with
  | nil => rfl
  | cons scene rest ih =>
    obtain ⟨hscene, hrest⟩ := List.forall_mem_cons.mp hF
    rw [contentsOf, List.map_cons, List.map_cons, ih hrest, hscene]

/-- What does not depend on the unset members of the instances. -/
theorem map_contentsOf {γ : Type} {g : VisualInstance → γ} (hg : ∀ i, g i.forget = g i) (h : Host)
    (n : Addr) (scenes : List (String × List Placement)) :
    ((contentsOf h n scenes).map fun view => (view.1, view.2.map g)) =
      scenes.map fun scene => (scene.1, (instancesOf h 0 scene.2).map g) :=
  map_contentsOf_eq (F := List.map g) (G := fun placements => (instancesOf h 0 placements).map g)
    (fun scene _ m => map_instancesOf_congr hg h h m 0 scene.2) n

/-! ### Reading an entry -/

/-- The position an entry of an instance names. -/
def entryIndex (e : Json) : Except String Int32 := (e.index "index").bind Json.getInt

/-- What an entry of an instance that does not throw has been read as: the visual at its position,
or nothing. -/
theorem Scene.decode_of_snd_eq_none {visuals : List Visual} {e : Json}
    (he : (Scene.decode visuals e).2 = none) :
    ∃ n, entryIndex e = .ok n ∧
      ((Scene.decode visuals e).1.map Placement.visual =
        (Visuals.get visuals n).map Visual.addr) := by
  cases hr : Scene.readInstance visuals e with
  | error what => simp [Scene.decode, hr] at he
  | ok placement =>
    obtain ⟨index, hindex, hr'⟩ := Json.bind_eq_ok_iff.mp hr
    obtain ⟨n, hn, hr'⟩ := Json.bind_eq_ok_iff.mp hr'
    refine ⟨n, Json.bind_eq_ok_iff.mpr ⟨index, hindex, hn⟩, ?_⟩
    simp only [Scene.decode, hr]
    cases hv : Visuals.get visuals n with
    | none =>
      rw [hv] at hr'
      obtain rfl := Except.ok.inj hr'
      rfl
    | some v =>
      rw [hv] at hr'
      obtain ⟨_, -, hr'⟩ := Json.bind_eq_ok_iff.mp hr'
      obtain ⟨_, -, hr'⟩ := Json.bind_eq_ok_iff.mp hr'
      obtain ⟨_, -, hr'⟩ := Json.bind_eq_ok_iff.mp hr'
      obtain ⟨_, -, hr'⟩ := Json.bind_eq_ok_iff.mp hr'
      obtain ⟨_, -, hr'⟩ := Json.bind_eq_ok_iff.mp hr'
      obtain ⟨_, -, hr'⟩ := Json.bind_eq_ok_iff.mp hr'
      obtain ⟨_, -, hr'⟩ := Json.bind_eq_ok_iff.mp hr'
      obtain rfl := Except.ok.inj hr'
      rfl

/-- An instance that is read is one of a visual of the list. -/
theorem Scene.exists_of_decode {visuals : List Visual} {e : Json} {p : Placement}
    (hp : (Scene.decode visuals e).1 = some p) : ∃ v ∈ visuals, v.addr = p.visual := by
  have hok : (Scene.decode visuals e).2 = none := by
    revert hp
    rw [Scene.decode]
    cases Scene.readInstance visuals e with
    | ok placement => exact fun _ => rfl
    | error what => exact fun hp => absurd hp.symm (Option.some_ne_none p)
  obtain ⟨n, -, hn⟩ := Scene.decode_of_snd_eq_none hok
  rw [hp, Option.map_some, eq_comm, Option.map_eq_some_iff] at hn
  obtain ⟨v, hv, hvp⟩ := hn
  exact ⟨v, Visuals.mem_of_get hv, hvp⟩

/-- The entries of a scenes array are instances of visuals of the list. -/
theorem Scenes.mem_of_decodeAll {visuals : List Visual} {entries : List Json}
    {scene : String × List Placement} (hscene : scene ∈ (Scenes.decodeAll visuals entries).1)
    {p : Placement} (hp : p ∈ scene.2) : ∃ v ∈ visuals, v.addr = p.visual := by
  obtain ⟨e, -, he⟩ := exists_of_mem_collect hscene
  revert he
  rw [Scenes.decode]
  split_ifs
  swap
  · rintro ⟨⟩
  cases e.field "name" with
  | str name =>
    rintro ⟨⟩
    cases hinst : e.field "instances" with
    | arr entries =>
      rw [hinst, Scene.decodeAll] at hp
      obtain ⟨entry, -, hentry⟩ := exists_of_mem_collect hp
      exact Scene.exists_of_decode hentry
    | _ =>
      rw [hinst] at hp
      exact absurd hp List.not_mem_nil
  | _ => rintro ⟨⟩

/-! ### Encoding -/

/-- The state of the visual at an address. -/
def visualState (visuals : List Visual) (a : Addr) : Json :=
  match visuals.find? fun v => v.addr = a with
  | some v => v.getState
  | none => .null

/-- The state of an instance, with its position. -/
def instanceState (visuals : List Visual) (n : ℕ) (i : VisualInstance) : Json :=
  (i.getState (visualState visuals i.visual)).insert "index" (.int n)

/-- The state of a scene. -/
def sceneState (visuals : List Visual) (view : String × List VisualInstance) : Json :=
  .obj [("name", .str view.1), ("instances", .pushAll (view.2.mapIdx (instanceState visuals)))]

/-- The state of a list of scenes. -/
def scenesState (visuals : List Visual) (views : List (String × List VisualInstance)) : Json :=
  .pushAll (views.map (sceneState visuals))

/-- The document of a state. -/
def EngineState.document (s : EngineState) : Json :=
  .obj [("visuals", Visuals.getState s), ("layers", Layers.getState s),
    ("scenes", scenesState s.visualsList s.views)]

/-- The visual of every instance of every scene is in the list of visuals. -/
def EngineState.Connected (s : EngineState) : Prop :=
  ∀ view ∈ s.views, ∀ i ∈ view.2, ∃ v ∈ s.visualsList, v.addr = i.visual

instance (s : EngineState) : Decidable s.Connected :=
  inferInstanceAs (Decidable (∀ view ∈ s.views, ∀ i ∈ view.2, ∃ v ∈ s.visualsList, v.addr = i.visual))

section encoding

variable {s : EngineState}

theorem getElem?_filterMap_of_live {heap : Heap VisualInstance} {l : List Addr} (hl : heap.Live l)
    (n : ℕ) : (l.filterMap heap.get?)[n]? = l[n]?.bind heap.get? := by
  induction l generalizing n with
  | nil => rfl
  | cons a rest ih =>
    obtain ⟨i, hi⟩ := hl a List.mem_cons_self
    have ih := ih (hl.mono fun b hb => List.mem_cons_of_mem a hb)
    rw [List.filterMap_cons_some hi]
    cases n with
    | zero => simp [hi]
    | succ n => simp [ih]

/-- The visuals of the instances of a scene exist when those of its contents do. -/
theorem forall_known_iff {scene : Scene} :
    (∀ a ∈ scene.visualInstances, VisualInstances.Known s a) ↔
      ∀ i ∈ s.contents scene, ∃ v ∈ s.visualsList, v.addr = i.visual := by
  constructor
  · intro hk i hi
    obtain ⟨a, ha, hai⟩ := List.mem_filterMap.mp hi
    exact hk a ha i hai
  · intro hc a ha i hi
    exact hc i (List.mem_filterMap.mpr ⟨a, ha, hi⟩)

theorem Scene.getState_of_known {scene : Scene} (hlive : s.instances.Live scene.visualInstances)
    (hnodup : scene.visualInstances.Nodup)
    (hk : ∀ i ∈ s.contents scene, ∃ v ∈ s.visualsList, v.addr = i.visual) :
    scene.getState s = .ok (sceneState s.visualsList (scene.sceneName, s.contents scene)) s := by
  have hstates : (scene.visualInstances.map fun a => (VisualInstances.stateAt s a).insert "index"
      (.int (VisualInstances.getIndex a scene.visualInstances))) =
        (s.contents scene).mapIdx (instanceState s.visualsList) := by
    refine List.ext_getElem? fun n => ?_
    rw [List.getElem?_map, List.getElem?_mapIdx, EngineState.contents,
      getElem?_filterMap_of_live hlive]
    cases ha : scene.visualInstances[n]? with
    | none => rfl
    | some a =>
      obtain ⟨i, hi⟩ := hlive a (List.mem_of_getElem? ha)
      rw [Option.map_some, Option.bind_some, hi, Option.map_some,
        VisualInstances.getIndex_getElem hnodup ha, VisualInstances.stateAt, hi]
      obtain ⟨v, hv, hva⟩ := forall_known_iff.mpr hk a (List.mem_of_getElem? ha) i hi
      obtain ⟨w, hw⟩ : ∃ w, s.visualsList.find? (fun v => v.addr = i.visual) = some w :=
        Option.isSome_iff_exists.mp (List.find?_isSome.mpr ⟨v, hv, by simpa using hva⟩)
      simp only [hw, instanceState, visualState]
  simp only [Scene.getState, VisualInstances.getState, bind_run, pure_run,
    VisualInstances.getStates_of_known hlive (forall_known_iff.mpr hk), Outcome.bind_ok,
    hstates, sceneState]

theorem Scene.getState_of_not_known {scene : Scene}
    (hlive : s.instances.Live scene.visualInstances)
    (hk : ¬ ∀ i ∈ s.contents scene, ∃ v ∈ s.visualsList, v.addr = i.visual) :
    scene.getState s = .undefined .danglingPointer := by
  simp only [Scene.getState, VisualInstances.getState, bind_run,
    VisualInstances.getStates_of_not_known hlive (mt forall_known_iff.mp hk),
    Outcome.bind_undefined]

private theorem getScenesStates_eq (scenes : List Scene)
    (hlive : ∀ scene ∈ scenes, s.instances.Live scene.visualInstances)
    (hnodup : ∀ scene ∈ scenes, scene.visualInstances.Nodup)
    (hk : ∀ scene ∈ scenes, ∀ i ∈ s.contents scene, ∃ v ∈ s.visualsList, v.addr = i.visual) :
    Set.getScenesStates scenes s = .ok
      ((scenes.map fun scene => (scene.sceneName, s.contents scene)).map
        (sceneState s.visualsList)) s := by
  induction scenes with
  | nil => rfl
  | cons scene rest ih =>
    have hrest := ih (fun x hx => hlive x (List.mem_cons_of_mem _ hx))
      (fun x hx => hnodup x (List.mem_cons_of_mem _ hx))
      fun x hx => hk x (List.mem_cons_of_mem _ hx)
    rw [Set.getScenesStates, bind_run, Scene.getState_of_known (hlive scene List.mem_cons_self)
      (hnodup scene List.mem_cons_self) (hk scene List.mem_cons_self), Outcome.bind_ok, bind_run,
      hrest]
    rfl

private theorem getScenesStates_of_not (scenes : List Scene)
    (hlive : ∀ scene ∈ scenes, s.instances.Live scene.visualInstances)
    (hnodup : ∀ scene ∈ scenes, scene.visualInstances.Nodup)
    (hk : ¬ ∀ scene ∈ scenes, ∀ i ∈ s.contents scene, ∃ v ∈ s.visualsList, v.addr = i.visual) :
    Set.getScenesStates scenes s = .undefined .danglingPointer := by
  induction scenes with
  | nil => exact absurd (by simp) hk
  | cons scene rest ih =>
    rw [Set.getScenesStates, bind_run]
    by_cases hscene : ∀ i ∈ s.contents scene, ∃ v ∈ s.visualsList, v.addr = i.visual
    · have hrest := ih (fun x hx => hlive x (List.mem_cons_of_mem _ hx))
        (fun x hx => hnodup x (List.mem_cons_of_mem _ hx))
        fun hall => hk (List.forall_mem_cons.mpr ⟨hscene, hall⟩)
      rw [Scene.getState_of_known (hlive scene List.mem_cons_self)
        (hnodup scene List.mem_cons_self) hscene, Outcome.bind_ok, bind_run, hrest]
      rfl
    · rw [Scene.getState_of_not_known (hlive scene List.mem_cons_self) hscene]
      rfl

theorem EngineState.connected_iff :
    s.Connected ↔ ∀ scene ∈ s.scenesList, ∀ i ∈ s.contents scene,
      ∃ v ∈ s.visualsList, v.addr = i.visual := by
  simp [Connected, views]

/-- The scenes are encoded by their contents. -/
theorem Set.getScenesState_of_connected (hs : s.WellFormed) (hc : s.Connected) :
    Set.getScenesState s = .ok (scenesState s.visualsList s.views) s := by
  rw [Set.getScenesState, bind_run, gets_run, Outcome.bind_ok, bind_run,
    getScenesStates_eq _ hs.instances_live hs.instances_nodup (EngineState.connected_iff.mp hc)]
  rfl

/-- Encoding is undefined when an instance has lost its visual. -/
theorem Set.getScenesState_of_not_connected (hs : s.WellFormed) (hc : ¬ s.Connected) :
    Set.getScenesState s = .undefined .danglingPointer := by
  rw [Set.getScenesState, bind_run, gets_run, Outcome.bind_ok, bind_run,
    getScenesStates_of_not _ hs.instances_live hs.instances_nodup
      (mt EngineState.connected_iff.mpr hc)]
  rfl

/-- The engine is encoded by its visuals, its layers and the contents of its scenes. -/
theorem Engine.getState_of_connected (hs : s.WellFormed) (hc : s.Connected) :
    Engine.getState s = .ok s.document s := by
  simp only [Engine.getState, bind_run, gets_run, Outcome.bind_ok,
    Set.getScenesState_of_connected hs hc, pure_run, EngineState.document]

theorem Engine.getState_of_not_connected (hs : s.WellFormed) (hc : ¬ s.Connected) :
    Engine.getState s = .undefined .danglingPointer := by
  simp only [Engine.getState, bind_run, gets_run, Outcome.bind_ok,
    Set.getScenesState_of_not_connected hs hc, Outcome.bind_undefined]

end encoding

/-! ### Decoding what has been encoded -/

namespace VisualInstancesProperties

variable (p : VisualInstancesProperties)

theorem isIndexable_getState : p.getState.isIndexable = true := by
  rw [getState, ownState]
  simp only [List.foldl_cons, List.foldl_nil, Json.isIndexable_insert]

theorem field_layer_getState : p.getState.field "layer" = .int p.layer.toInt := by
  simp [getState, ownState, Json.field_insert]

theorem field_column_getState : p.getState.field "column" = .int p.column.toInt := by
  simp [getState, ownState, Json.field_insert]

theorem field_name_getState : p.getState.field "name" = .str p.name := by
  simp only [getState, ownState, SizeProperties.getState, List.foldl_cons, List.foldl_nil,
    Json.field_insert]
  rfl

end VisualInstancesProperties

/-- The arguments with which an encoded instance is added again, for the visual at `a`. -/
def VisualInstance.toPlacement (a : Addr) (i : VisualInstance) : Placement :=
  ⟨a, i.properties.layer.toUInt32, i.properties.column.toUInt32, i.properties.name⟩

/-- An encoded instance is read as the instance of the visual at its own position among the
instances, or passed over when there is no visual there. -/
theorem Scene.readInstance_instanceState (visuals visuals' : List Visual) (n : ℕ)
    (i : VisualInstance) :
    Scene.readInstance visuals' (instanceState visuals n i) =
      .ok ((Visuals.get visuals' (Int32.ofInt n)).map fun v => i.toPlacement v.addr) := by
  have hindex : (instanceState visuals n i).index "index" = .ok (.int n) := by
    rw [instanceState, Json.index_of_isIndexable (Json.isIndexable_insert _ _ _), Json.field_insert,
      if_pos rfl]
  have hprops : (instanceState visuals n i).index "properties" = .ok i.properties.getState := by
    rw [instanceState, Json.index_of_isIndexable (Json.isIndexable_insert _ _ _), Json.field_insert]
    rfl
  have hfield := Json.index_of_isIndexable i.properties.isIndexable_getState
  simp only [Scene.readInstance, hindex, Except.bind, Json.getInt]
  cases Visuals.get visuals' (Int32.ofInt n) with
  | none => rfl
  | some v =>
    simp only [hprops, hfield, i.properties.field_layer_getState,
      i.properties.field_column_getState, i.properties.field_name_getState,
      Json.getUnsigned_int_toInt, Json.getString]
    rfl

/-- The arguments with which the encoded instances of a scene are added again. -/
def placementsOf (visuals : List Visual) (instances : List VisualInstance) : List Placement :=
  instances.zipIdx.filterMap fun i =>
    (Visuals.get visuals (Int32.ofInt i.2)).map fun v => i.1.toPlacement v.addr

theorem Scene.decode_instanceState (visuals visuals' : List Visual) (n : ℕ) (i : VisualInstance) :
    Scene.decode visuals' (instanceState visuals n i) =
      ((Visuals.get visuals' (Int32.ofInt n)).map fun v => i.toPlacement v.addr, none) := by
  rw [Scene.decode, Scene.readInstance_instanceState]

theorem Scene.decodeAll_pushAll (visuals : List Visual) (entries : List Json) :
    Scene.decodeAll visuals (.pushAll entries) = collect (Scene.decode visuals) entries := by
  cases entries <;> rfl

/-- An encoded scene is read without an exception. -/
theorem Scenes.decode_sceneState (visuals visuals' : List Visual)
    (view : String × List VisualInstance) :
    Scenes.decode visuals' (sceneState visuals view) =
      (some (view.1, placementsOf visuals' view.2), none) := by
  have hcollect : collect (Scene.decode visuals') (view.2.mapIdx (instanceState visuals)) =
      (placementsOf visuals' view.2, none) := by
    rw [List.mapIdx_eq_zipIdx_map]
    exact collect_map_of_forall fun i _ => Scene.decode_instanceState visuals visuals' i.2 i.1
  have hinst : (sceneState visuals view).field "instances" =
      .pushAll (view.2.mapIdx (instanceState visuals)) := rfl
  have hname : (sceneState visuals view).field "name" = .str view.1 := rfl
  have hindex : (sceneState visuals view).isIndexable = true := rfl
  simp only [Scenes.decode, hindex, ↓reduceIte, hname, hinst, Scene.decodeAll_pushAll, hcollect]

/-- Encoded scenes are read without an exception. -/
theorem Scenes.decodeAll_scenesState (visuals visuals' : List Visual)
    (views : List (String × List VisualInstance)) :
    Scenes.decodeAll visuals' (scenesState visuals views).elements =
      (views.map fun view => (view.1, placementsOf visuals' view.2), none) := by
  rw [scenesState, Json.elements_pushAll]
  exact collect_map_of_forall_some fun view _ => Scenes.decode_sceneState visuals visuals' view

/-- Restoring encoded scenes rebuilds every scene from the visuals at the positions of its
instances. -/
theorem Scenes.setState_scenesState {s : EngineState} (hs : s.WellFormed) (h : Host)
    (visuals : List Visual) (views : List (String × List VisualInstance)) :
    Scenes.setState h (scenesState visuals views) s = .ok ()
      (s.clearScenes.buildScenes h
        (views.map fun view => (view.1, placementsOf s.visualsList view.2))) := by
  rw [Scenes.setState_eq hs, Scenes.decodeAll_scenesState]
  rfl

/-- The contents of the scenes that are rebuilt. -/
theorem EngineState.views_clearScenes_buildScenes {s : EngineState} (hs : s.WellFormed) (h : Host)
    (scenes : List (String × List Placement)) :
    (s.clearScenes.buildScenes h scenes).views = contentsOf h s.instances.next scenes := by
  rw [views_buildScenes _ hs.clearScenes, clearScenes, Heap.next_freeAll]
  rfl

/-- Instances in different cells are added one after the other. -/
theorem instancesOf_of_pairwise (h : Host) (n : Addr) {placements : List Placement}
    (hp : placements.Pairwise fun p q => (p.layer, p.column) ≠ (q.layer, q.column)) :
    instancesOf h n placements = (placements.zipIdx n).map fun p => p.1.toInstance h p.2 := by
  have key : ∀ (ps : List Placement) (n : Addr) (l : List VisualInstance),
      ps.Pairwise (fun p q => (p.layer, p.column) ≠ (q.layer, q.column)) →
      (∀ i ∈ l, ∀ p ∈ ps, i.cell ≠ (p.layer, p.column)) →
      (ps.zipIdx n).foldl (fun l p => addInstance l (p.1.toInstance h p.2)) l =
        l ++ (ps.zipIdx n).map fun p => p.1.toInstance h p.2 := by
    intro ps
    induction ps with
    | nil => exact fun _ l _ _ => (List.append_nil l).symm
    | cons p rest ih =>
      intro n l hpair hl
      obtain ⟨hp, hrest⟩ := List.pairwise_cons.mp hpair
      have hnew : addInstance l (p.toInstance h n) = l ++ [p.toInstance h n] := by
        rw [addInstance, List.eraseP_of_forall_not]
        intro i hi
        simpa [Placement.toInstance] using hl i hi p List.mem_cons_self
      rw [List.zipIdx_cons, List.foldl_cons, hnew, ih _ _ hrest, List.map_cons, List.append_assoc]
      · rfl
      · intro i hi q hq
        rcases List.mem_append.mp hi with hi | hi
        · exact hl i hi q (List.mem_cons_of_mem p hq)
        · rw [List.mem_singleton.mp hi, Placement.toInstance, VisualInstance.cell_fresh]
          exact hp q hq
  exact key placements n [] hp fun _ hi => absurd hi List.not_mem_nil

theorem map_instancesOf_of_pairwise {γ : Type} {g : VisualInstance → γ}
    (hg : ∀ i, g i.forget = g i) (h : Host) (n : Addr) {placements : List Placement}
    (hp : placements.Pairwise fun p q => (p.layer, p.column) ≠ (q.layer, q.column)) :
    (instancesOf h n placements).map g = placements.map fun p => g (p.toInstance .plain 0) := by
  have hfst : placements.map (fun p => g (p.toInstance .plain 0)) =
      ((placements.zipIdx 0).map Prod.fst).map fun p => g (p.toInstance .plain 0) := by
    rw [List.zipIdx_map_fst]
  rw [map_instancesOf_congr hg h .plain n 0, instancesOf_of_pairwise .plain 0 hp, List.map_map,
    hfst, List.map_map]
  rfl

end ArbutusEngine
