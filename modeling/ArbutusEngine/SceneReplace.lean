import ArbutusEngine.SceneDecoder

/-!
# Setting the state of a scene that has instances

`Scene::setState` empties the list of instances of the scene and then adds those of the document, so
the scene should end up with the instances that a scene constructed for the purpose gets. It does
not if there were instances: `VisualInstances::empty` deletes them and then calls the query
`empty()` of the list where `clear()` is meant. The list still holds the pointers. A document
without instances leaves them there, and one with an instance makes `VisualInstances::add` read
them.

What a list is compared by are the objects behind its pointers, where a pointer to a deleted object
has none.

## Main definitions

* `EngineState.pointees`, `EngineState.Shows`.
* `Scene.Replaces`: the contract of `Scene::setState`.

## Main results

* `Scene.setState_of_nil`: what `Scene::setState` does to a scene without instances.
* `Scene.keeps_addState_of_dangling`: a loop over a list that dangles changes nothing.
* `scene_replaces_iff`.
-/

open Exec

namespace ArbutusEngine

variable {s : EngineState} {h : Host} {a : Addr}

/-! ### The list of a scene -/

/-- The objects behind the pointers in the list of the scene at an address. -/
def EngineState.pointees (s : EngineState) (a : Addr) : Option (List (Option VisualInstance)) :=
  (s.scenesList.find? fun scene => scene.addr = a).map fun scene =>
    scene.visualInstances.map s.instances.get?

/-- The scene at an address has these instances. -/
def EngineState.Shows (s : EngineState) (a : Addr) (l : List VisualInstance) : Prop :=
  ∃ scene ∈ s.scenesList, scene.addr = a ∧ s.contents scene = l

namespace EngineState.Shows

variable {l : List VisualInstance}

/-- In a well-formed state no pointer of a scene dangles. -/
theorem pointees_eq (hs : s.WellFormed) (hl : s.Shows a l) : s.pointees a = some (l.map some) := by
  obtain ⟨scene, hscene, rfl, rfl⟩ := hl
  have hlive := hs.instances_live scene hscene
  rw [pointees, hs.find?_scene hscene, Option.map_some, contents]
  congr 1
  generalize scene.visualInstances = list at hlive
  induction list with
  | nil => rfl
  | cons b rest ih =>
    obtain ⟨i, hi⟩ := hlive b List.mem_cons_self
    rw [List.map_cons, List.filterMap_cons_some hi, List.map_cons, hi,
      ih (hlive.mono fun c hc => List.mem_cons_of_mem b hc)]

theorem place (hs : s.WellFormed) (hl : s.Shows a l) (p : Placement) :
    (s.place h a p).Shows a (addInstance l (p.toInstance h s.instances.next)) := by
  obtain ⟨scene, hscene, rfl, rfl⟩ := hl
  refine ⟨_, List.mem_map_of_mem hscene, ?_, ?_⟩
  · rw [if_pos rfl]
  · rw [if_pos rfl]
    exact contents_place hs hscene scene.addr p

theorem foldl_place (placements : List Placement) {s : EngineState} {l : List VisualInstance}
    (hs : s.WellFormed) (hl : s.Shows a l) :
    (placements.foldl (EngineState.place h a) s).Shows a
      ((placements.zipIdx s.instances.next).foldl
        (fun l p => addInstance l (p.1.toInstance h p.2)) l) := by
  induction placements generalizing s l with
  | nil => exact hl
  | cons p rest ih =>
    have hnext : (s.place h a p).instances.next = s.instances.next + 1 := s.instances.next_alloc _
    rw [List.zipIdx_cons, List.foldl_cons, List.foldl_cons, ← hnext]
    exact ih (hs.place h a p) (hl.place hs p)

end EngineState.Shows

/-! ### The name -/

/-- The scene after `Scene::setState` has read the name. -/
def Scene.entitle (state : Json) (scene : Scene) : Scene :=
  match state.field "name" with
  | .str name => scene.setName name
  | _ => scene

@[simp] theorem Scene.addr_entitle (state : Json) (scene : Scene) :
    (scene.entitle state).addr = scene.addr := by
  rw [entitle]
  cases state.field "name" <;> rfl

@[simp] theorem Scene.visualInstances_entitle (state : Json) (scene : Scene) :
    (scene.entitle state).visualInstances = scene.visualInstances := by
  rw [entitle]
  cases state.field "name" <;> rfl

/-- The state after `Scene::setState` has read the name. -/
def EngineState.entitle (s : EngineState) (a : Addr) (state : Json) : EngineState :=
  { s with scenesList := Scene.replace a (Scene.entitle state) s.scenesList }

theorem EngineState.exists_of_mem_entitle {state : Json} {scene : Scene}
    (hscene : scene ∈ (s.entitle a state).scenesList) : ∃ old ∈ s.scenesList,
      scene.addr = old.addr ∧ scene.visualInstances = old.visualInstances := by
  obtain ⟨old, hold, rfl⟩ := Scene.mem_replace hscene
  refine ⟨old, hold, ?_⟩
  split_ifs
  · exact ⟨Scene.addr_entitle state old, Scene.visualInstances_entitle state old⟩
  · exact ⟨rfl, rfl⟩

theorem EngineState.mem_entitle {scene : Scene} (hscene : scene ∈ s.scenesList) (state : Json) :
    scene.entitle state ∈ (s.entitle scene.addr state).scenesList :=
  List.mem_map.mpr ⟨scene, hscene, if_pos rfl⟩

/-- A name is not part of the object graph. -/
theorem EngineState.WellFormed.entitle (hs : s.WellFormed) (a : Addr) (state : Json) :
    (s.entitle a state).WellFormed where
  visuals_lt := hs.visuals_lt
  visuals_ne := hs.visuals_ne
  scenes_lt scene hscene := by
    obtain ⟨old, hold, haddr, -⟩ := exists_of_mem_entitle hscene
    rw [haddr]
    exact hs.scenes_lt old hold
  scenes_ne := by
    refine hs.scenes_replace (Scene.addr_entitle state) fun scene _ _ b hb => ?_
    rw [Scene.visualInstances_entitle] at hb
    exact .inl hb
  instances_nodup scene hscene := by
    obtain ⟨old, hold, -, hlist⟩ := exists_of_mem_entitle hscene
    rw [hlist]
    exact hs.instances_nodup old hold
  instances_live scene hscene := by
    obtain ⟨old, hold, -, hlist⟩ := exists_of_mem_entitle hscene
    rw [hlist]
    exact hs.instances_live old hold
  layers_lt := hs.layers_lt
  layers_le := hs.layers_le
  currentScene_ne := hs.currentScene_ne

namespace Scene

/-! ### What `Scene::setState` does -/

/-- On a document with an array of instances, the old instances are deleted and the loop runs over
the array. -/
theorem setState_run (hs : s.WellFormed) {scene : Scene} (hscene : scene ∈ s.scenesList) (h : Host)
    {state : Json} {entries : List Json} (hinstances : state.field "instances" = .arr entries) :
    setState h scene.addr state s = (do
      VisualInstances.empty scene.visualInstances
      forEach entries (addState h scene.addr)) (s.entitle scene.addr state) := by
  have hobj : state.isObject = true := by
    cases state <;> first | rfl | exact Json.noConfusion rfl (heq_of_eq hinstances)
  have hx := Json.index_of_isIndexable (Json.isIndexable_of_isObject hobj)
  have hfind := (hs.entitle scene.addr state).find?_scene (EngineState.mem_entitle hscene state)
  rw [addr_entitle] at hfind
  have hname : ∀ rest : Prog Unit, (if (state.field "name").isString then do
        let name ← Prog.json (state.field "name").getString
        update scene.addr (setName name)
        rest
      else rest : Prog Unit) s = rest (s.entitle scene.addr state) := by
    intro rest
    rw [EngineState.entitle]
    cases hstr : state.field "name" with
    | str name =>
      have hset : replace scene.addr (setName name) s.scenesList =
          replace scene.addr (entitle state) s.scenesList :=
        replace_congr fun old _ _ => by rw [entitle, hstr]
      simp [Json.isString, Json.getString, update, read, hs.find?_scene hscene, hset]
    | _ =>
      rw [replace_eq_self fun old _ _ => by rw [entitle, hstr]]
      rfl
  simp only [setState, hobj, ↓reduceIte, hx, ofExcept_ok, pure_bind]
  rw [hname]
  simp only [hinstances, Json.isArray, Json.elements, ↓reduceIte]
  rw [bind_run, read, hfind, ofOption_some, pure_run, Outcome.bind_ok,
    visualInstances_entitle]

section entries

variable {state : Json} {entries : List Json}

/-- A scene without instances gets those of the entries. -/
theorem setState_of_nil (hs : s.WellFormed) {scene : Scene} (hscene : scene ∈ s.scenesList)
    (hnil : scene.visualInstances = []) (h : Host)
    (hinstances : state.field "instances" = .arr entries)
    (hvalid : ∀ e ∈ entries, (decode s.visualsList e).2 = none) :
    ∃ t, setState h scene.addr state s = .ok () t ∧ t.pointees scene.addr = some
      ((instancesOf h s.instances.next
        (entries.filterMap fun e => (decode s.visualsList e).1)).map some) := by
  have hwf := hs.entitle scene.addr state
  have hmem := EngineState.mem_entitle hscene state
  have hscene' : (s.entitle scene.addr state).HasScene scene.addr :=
    ⟨_, hmem, addr_entitle state scene⟩
  have hshows : (s.entitle scene.addr state).Shows scene.addr [] := by
    refine ⟨_, hmem, addr_entitle state scene, ?_⟩
    rw [EngineState.contents, visualInstances_entitle, hnil, List.filterMap_nil]
  have hrun := forEach_addState hwf hscene' h entries
  change _ = Outcome.raiseIf (collect (decode s.visualsList) entries).2
    ((collect (decode s.visualsList) entries).1.foldl _ _) at hrun
  rw [collect_snd_eq_none.mpr hvalid, collect_fst_of_forall hvalid] at hrun
  refine ⟨(entries.filterMap fun e => (decode s.visualsList e).1).foldl
    (EngineState.place h scene.addr) (s.entitle scene.addr state), ?_, ?_⟩
  · rw [setState_run hs hscene h hinstances, hnil, VisualInstances.empty, forEach_nil, pure_bind,
      hrun, Outcome.raiseIf_none]
  · refine EngineState.Shows.pointees_eq ?_ (EngineState.Shows.foldl_place _ hwf hshows)
    exact foldl_push _ EngineState.WellFormed (fun _ p ht => ht.place h _ p) _ hwf

/-- Reading a list that begins with a pointer to a deleted instance is undefined, so that a turn of
the loop either adds nothing or does not return. -/
theorem keeps_addState_of_dangling {scene : Scene}
    (hfind : s.scenesList.find? (fun scene => scene.addr = a) = some scene) {b : Addr}
    {rest : List Addr} (hlist : scene.visualInstances = b :: rest)
    (hb : s.instances.get? b = none) (h : Host) (e : Json) :
    Keeps (fun t => t = s) (addState h a e) := by
  intro t ht
  rw [ht, addState, bind_run, gets_run, Outcome.bind_ok]
  cases readInstance s.visualsList e with
  | error what => exact Outcome.post_threw.mpr rfl
  | ok placement =>
    cases placement with
    | none => exact Outcome.post_ok.mpr rfl
    | some p =>
      simp [read, hfind, hlist, VisualInstances.add, VisualInstances.inColumn, VisualInstance.read,
        hb]

/-- After the instances have been deleted, the loop leaves the list with the dangling pointers, or
does not return. -/
theorem pointees_setState_of_cons (hs : s.WellFormed) {scene : Scene}
    (hscene : scene ∈ s.scenesList) {b : Addr} {rest : List Addr}
    (hlist : scene.visualInstances = b :: rest) (h : Host)
    (hinstances : state.field "instances" = .arr entries) {t : EngineState}
    (hrun : setState h scene.addr state s = .ok () t) :
    ∃ tail, t.pointees scene.addr = some (none :: tail) := by
  have hwf := hs.entitle scene.addr state
  have hmem := EngineState.mem_entitle hscene state
  have hlive := hwf.instances_live _ hmem
  have hnodup := hwf.instances_nodup _ hmem
  have hfind := hwf.find?_scene hmem
  rw [visualInstances_entitle] at hlive hnodup
  rw [addr_entitle] at hfind
  rw [setState_run hs hscene h hinstances, bind_run, VisualInstances.empty_eq hlive hnodup,
    Outcome.bind_ok] at hrun
  have hgone : ∀ c ∈ scene.visualInstances, ((s.entitle scene.addr state).instances.freeAll
      scene.visualInstances).get? c = none := fun c hc => by rw [Heap.get?_freeAll, if_pos hc]
  have hkeeps := Keeps.forEach (l := entries) fun e _ => keeps_addState_of_dangling
    (s := { s.entitle scene.addr state with
      instances := (s.entitle scene.addr state).instances.freeAll scene.visualInstances })
    hfind ((visualInstances_entitle state scene).trans hlist)
    (hgone b (hlist ▸ List.mem_cons_self)) h e
  have hpost := hkeeps _ rfl
  rw [hrun, Outcome.post_ok] at hpost
  refine ⟨rest.map fun _ => none, ?_⟩
  rw [hpost, EngineState.pointees, hfind, Option.map_some, visualInstances_entitle,
    List.map_congr_left hgone, hlist, List.map_cons]

end entries

/-! ### The contract -/

/-- `Scene::setState` on a scene that has just been constructed. -/
def setStateOfNew (h : Host) (sceneTitle : String) (state : Json) : Prog Addr := do
  let a ← Scenes.newScene sceneTitle
  setState h a state
  return a

/-- The contract of `Scene::setState` and of `VisualInstances::empty`: the scene gets the instances
that a new scene gets, and emptying leaves nothing to be counted or found. -/
structure Replaces (h : Host) (scene : Scene) (state : Json) (s : EngineState) : Prop where
  eq_new : ∀ sceneTitle, ∃ t b u, setState h scene.addr state s = .ok () t ∧
    setStateOfNew h sceneTitle state s = .ok b u ∧ t.pointees scene.addr = u.pointees b
  empty_eq : ∃ t, VisualInstances.empty scene.visualInstances s = .ok () t ∧
    VisualInstances.count scene.visualInstances = 0 ∧ ∀ layer column,
      VisualInstances.get layer column scene.visualInstances t = .ok none t

theorem setStateOfNew_eq (hs : s.WellFormed) (h : Host) (sceneTitle : String) {state : Json}
    {entries : List Json} (hinstances : state.field "instances" = .arr entries)
    (hvalid : ∀ e ∈ entries, (decode s.visualsList e).2 = none) :
    ∃ u, setStateOfNew h sceneTitle state s = .ok s.nextAddr u ∧ u.pointees s.nextAddr = some
      ((instancesOf h s.instances.next
        (entries.filterMap fun e => (decode s.visualsList e).1)).map some) := by
  have hscene : (⟨s.nextAddr, sceneTitle, []⟩ : Scene) ∈ (s.pushScene sceneTitle).scenesList :=
    List.mem_append_right _ (List.mem_singleton_self _)
  obtain ⟨u, hu, hpointees⟩ :=
    setState_of_nil (hs.pushScene sceneTitle) hscene rfl h hinstances hvalid
  refine ⟨u, ?_, hpointees⟩
  change Outcome.bind (setState h s.nextAddr state (s.pushScene sceneTitle)) _ = _
  rw [hu]
  rfl

/-- A scene with an instance is left with a pointer to it, which no new scene has. -/
theorem not_replaces_of_cons (hs : s.WellFormed) {scene : Scene} (hscene : scene ∈ s.scenesList)
    {b : Addr} {rest : List Addr} (hlist : scene.visualInstances = b :: rest) (h : Host)
    {state : Json} {entries : List Json} (hinstances : state.field "instances" = .arr entries)
    (hvalid : ∀ e ∈ entries, (decode s.visualsList e).2 = none) : ¬Replaces h scene state s := by
  intro hreplaces
  obtain ⟨t, c, u, ht, hu, heq⟩ := hreplaces.eq_new ""
  obtain ⟨u', hu', hnew⟩ := setStateOfNew_eq hs h "" hinstances hvalid
  obtain ⟨rfl, rfl⟩ := Outcome.ok.inj (hu.symm.trans hu')
  obtain ⟨tail, htail⟩ := pointees_setState_of_cons hs hscene hlist h hinstances ht
  rw [heq, hnew] at htail
  have hmem : none ∈ (instancesOf h s.instances.next (entries.filterMap fun e =>
      (decode s.visualsList e).1)).map some := by
    rw [Option.some.inj htail]
    exact List.mem_cons_self
  obtain ⟨i, -, hi⟩ := List.mem_map.mp hmem
  exact Option.some_ne_none i hi

end Scene

/-- In a well-formed state and on a document with an array of valid instances, `Scene::setState` and
`VisualInstances::empty` meet their contract exactly if the scene has no instances. -/
theorem scene_replaces_iff (hs : s.WellFormed) {scene : Scene} (hscene : scene ∈ s.scenesList)
    (h : Host) {state : Json} {entries : List Json}
    (hinstances : state.field "instances" = .arr entries)
    (hvalid : ∀ e ∈ entries, (Scene.decode s.visualsList e).2 = none) :
    Scene.Replaces h scene state s ↔ scene.visualInstances = [] := by
  constructor
  · intro hreplaces
    cases hlist : scene.visualInstances with
    | nil => rfl
    | cons b rest =>
      exact absurd hreplaces (Scene.not_replaces_of_cons hs hscene hlist h hinstances hvalid)
  · intro hnil
    obtain ⟨t, ht, hpointees⟩ := Scene.setState_of_nil hs hscene hnil h hinstances hvalid
    refine ⟨fun sceneTitle => ?_, ?_⟩
    · obtain ⟨u, hu, hnew⟩ := Scene.setStateOfNew_eq hs h sceneTitle hinstances hvalid
      exact ⟨t, _, u, ht, hu, hpointees.trans hnew.symm⟩
    · rw [hnil]
      exact ⟨s, rfl, rfl, fun _ _ => rfl⟩

/-- A document with one instance, of the visual at a position, in the cell `(1, 2)`. -/
def oneInstance (index : ℕ) : Json := SceneEntry.toJson ⟨"Outro", [⟨index, 1, 2, "new"⟩]⟩

/-- A scene without instances. -/
theorem scene_replaces_nothing :
    Scene.Replaces .plain ⟨2, "Intro", []⟩ (oneInstance 1) (twoVideos []) :=
  (scene_replaces_iff (twoVideos_wellFormed []) (by decide) .plain rfl (by decide)).mpr rfl

/-- A scene with one instance: a document without instances leaves the pointer to it in the list,
and with a document with an instance the behaviour is undefined. -/
theorem scene_keeps_deleted_instance :
    ¬Scene.Replaces .plain ⟨2, "Intro", [0]⟩ (.obj [("instances", .arr [])]) (twoVideos [0]) ∧
      ¬Scene.Replaces .plain ⟨2, "Intro", [0]⟩ (oneInstance 1) (twoVideos [0]) := by
  have hs := twoVideos_wellFormed [0]
  exact ⟨Scene.not_replaces_of_cons hs (by decide) rfl .plain rfl (by decide),
    Scene.not_replaces_of_cons hs (by decide) rfl .plain rfl (by decide)⟩

end ArbutusEngine
