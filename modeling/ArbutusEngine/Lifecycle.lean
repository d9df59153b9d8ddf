import ArbutusEngine.Decoding

/-!
# Opening and closing sets

`Engine::closeSet` empties the lists of layers, visuals and scenes, but only when `Set::loaded` is
set. `Engine::newSet` sets this flag; `Engine::openSet` does not. After a set has been opened from a
file, closing it does nothing, and a new set is added to what is there. The results of this file say
exactly from which states `closeSet` and `newSet` do what their names promise.

## Main definitions

* `EngineState.close`: the state after a loaded set has been closed.
* `EngineState.IsEmpty`, `EngineState.IsNewSet`: what closing and creating a set should leave.
* `Set.addFirstScene`: what `Set::newSet` does once the layers are there.
* `Engine.createSet`, `Engine.finishSet`: what `newSet` and `openSet` do after closing the old set.

## Main results

* `Engine.closeSet_eq`, `Engine.newSet_eq`, `Engine.openSet_eq`.
* `closeSet_clean_iff`, `newSet_clean_iff`.
-/

open Exec

namespace ArbutusEngine

/-! ### Closing -/

/-- The state after a loaded set has been closed. -/
def EngineState.close (h : Host) (s : EngineState) : EngineState :=
  { s with
    visualsList := []
    scenesList := []
    layersList := []
    instances := s.instances.freeAll s.placed
    loaded := false
    setOpened := false
    properties := { s.properties.setDefaults h with selectedLayer := 0 } }

theorem Engine.closeSet_eq {s : EngineState} (hs : s.WellFormed) (h : Host) :
    Engine.closeSet h s =
      if s.loaded = true then
        if s.Erasable h then .ok () (s.close h) else .undefined .erasedIterator
      else .ok () s := by
  rw [Engine.closeSet, bind_run, gets_run, Outcome.bind_ok]
  by_cases hl : s.loaded = true
  swap
  · simp [hl]
  rw [if_pos hl, if_pos hl, bind_run, show Layers.empty h s = .ok () (s.clearLayers h) from rfl,
    Outcome.bind_ok, bind_run, Set.closeSet, bind_run, Visuals.empty_eq]
  by_cases he : s.Erasable h
  · have he' : (s.clearLayers h).visualsList = [] ∨ h.erasedIteratorAdvances = true := he
    rw [if_pos he', if_pos he, Outcome.bind_ok, bind_run,
      Scenes.empty_eq (hs.clearLayers h).clearVisuals]
    rfl
  · have he' : ¬ ((s.clearLayers h).visualsList = [] ∨ h.erasedIteratorAdvances = true) := he
    rw [if_neg he', if_neg he]
    rfl

/-- There are no layers, no visuals and no scenes. -/
def EngineState.IsEmpty (s : EngineState) : Prop :=
  s.layersList = [] ∧ s.visualsList = [] ∧ s.scenesList = []

instance (s : EngineState) : Decidable s.IsEmpty := inferInstanceAs (Decidable (_ ∧ _ ∧ _))

theorem EngineState.isEmpty_close (h : Host) (s : EngineState) : (s.close h).IsEmpty :=
  ⟨rfl, rfl, rfl⟩

theorem EngineState.WellFormed.close {s : EngineState} (hs : s.WellFormed) (h : Host) :
    (s.close h).WellFormed :=
  { hs with
    visuals_lt := fun _ hv => absurd hv List.not_mem_nil
    visuals_ne := .nil
    scenes_lt := fun _ hscene => absurd hscene List.not_mem_nil
    scenes_ne := .nil
    instances_nodup := fun _ hscene => absurd hscene List.not_mem_nil
    instances_live := fun _ hscene => absurd hscene List.not_mem_nil
    layers_lt := fun _ hl => absurd hl List.not_mem_nil
    layers_le := Nat.zero_le _
    currentScene_ne := fun hl => Bool.noConfusion hl }

/-! ### Creating -/

/-- There are `min n 6` layers, no visuals, and one scene, which is the current one, is named
`First Scene` and has no instances. -/
def EngineState.IsNewSet (n : ℕ) (s : EngineState) : Prop :=
  s.layersList.length = min n maximumNumberOfLayers ∧ s.visualsList = [] ∧
    ∃ scene, s.scenesList = [scene] ∧ scene.sceneName = "First Scene" ∧
      scene.visualInstances = [] ∧ s.currentScene = some scene.addr

/-- The layers of a new set can be added: the counter does not overflow, and the shaders are there
unless no layer is added. -/
def EngineState.CanAddLayers (h : Host) (n : UInt32) (s : EngineState) : Prop :=
  n.toNat < 2 ^ 31 ∧
    (h.shaderError = none ∨ n = 0 ∨ s.layersList.length = maximumNumberOfLayers)

/-- Adding the layers of a new set returns exactly when they can be added, and changes nothing but
the layers and the engine properties. -/
theorem intLoop_add_post {s : EngineState} (hs : s.WellFormed) (h : Host) (n : UInt32) :
    (intLoop 0 n.toNat (do let _ ← Layers.add h true) s).Post
      (fun _ t => s.CanAddLayers h n ∧
        t.layersList.length = min (s.layersList.length + n.toNat) maximumNumberOfLayers ∧
        ∃ l a p, t = { s with layersList := l, nextAddr := a, properties := p })
      fun _ _ => True := by
  rw [intLoop]
  by_cases hn : n.toNat < 2 ^ 31
  swap
  · rw [if_neg hn]
    refine Outcome.Post.bind (Q := fun _ _ => True) ?_ fun _ _ _ => trivial
    cases iterate (2 ^ 31 - 0) (do let _ ← Layers.add h true) s <;> trivial
  rw [if_pos hn, Nat.sub_zero]
  have hle := hs.layers_le
  by_cases hfull : s.layersList.length = maximumNumberOfLayers
  · rw [Layers.iterate_add_of_full hfull]
    refine ⟨⟨hn, .inr (.inr hfull)⟩, ?_, _, _, _, rfl⟩
    omega
  cases hsh : h.shaderError with
  | none =>
    rw [Layers.iterate_add h hsh n.toNat s hle]
    refine ⟨⟨hn, .inl hsh⟩, ?_, s.exists_pushLayers h _⟩
    rw [EngineState.length_pushLayers, List.length_replicate]
    omega
  | some what =>
    by_cases h0 : n = 0
    · subst h0
      exact ⟨⟨hn, .inr (.inl rfl)⟩, (Nat.min_eq_left hle).symm, _, _, _, rfl⟩
    · have h0' : n.toNat ≠ 0 := fun h => h0 (UInt32.toNat_inj.mp h)
      rw [Layers.iterate_add_of_shaderError hsh h0' hfull]
      trivial

/-- When the layers can be added, adding them returns. -/
theorem exists_intLoop_add {s : EngineState} (hs : s.WellFormed) {h : Host} {n : UInt32}
    (hc : s.CanAddLayers h n) :
    ∃ t, intLoop 0 n.toNat (do let _ ← Layers.add h true) s = .ok () t := by
  obtain ⟨hn, hsh⟩ := hc
  rw [intLoop, if_pos hn, Nat.sub_zero]
  rcases hsh with hsh | h0 | hfull
  · exact ⟨_, Layers.iterate_add h hsh n.toNat s hs.layers_le⟩
  · subst h0
    exact ⟨_, rfl⟩
  · exact ⟨_, Layers.iterate_add_of_full hfull _⟩

/-- The state in which `Set::newSet` adds the layers. -/
def EngineState.sized (s : EngineState) (h : Host) (width height n : UInt32) : EngineState :=
  { s with
    nLayers := n
    properties := { ({ s.properties.setDefaults h with mixerWidth := width } :
      EngineProperties).setDefaults h with mixerHeight := height } }

theorem EngineState.WellFormed.sized {s : EngineState} (hs : s.WellFormed) (h : Host)
    (width height n : UInt32) : (s.sized h width height n).WellFormed := { hs with }

/-- What `Set::newSet` does once the layers are there. -/
def Set.addFirstScene (h : Host) : Prog Unit := do
  let _ ← Scenes.newScene "First Scene"
  modify fun s => { s with currentSceneNumber := 1 }
  Set.setCurrentScene h 0
  modify fun s => { s with loaded := true }

theorem Set.newSet_eq (h : Host) (width height n : UInt32) (s : EngineState) :
    Set.newSet h width height n s =
      (intLoop 0 n.toNat (do let _ ← Layers.add h true) (s.sized h width height n)).bind
        fun _ t => Set.addFirstScene h t := rfl

/-- What creating a set in the state `s` leads to: layers and a scene `First Scene` are added to
what is there. -/
def EngineState.Extends (h : Host) (n : UInt32) (s t : EngineState) : Prop :=
  s.CanAddLayers h n ∧
    t.layersList.length = min (s.layersList.length + n.toNat) maximumNumberOfLayers ∧
    t.visualsList.map Visual.addr = s.visualsList.map Visual.addr ∧
    ∃ a, t.scenesList = s.scenesList ++ [⟨a, "First Scene", []⟩] ∧
      (s.scenesList = [] → t.currentScene = some a)

/-- What `Set::newSet` leaves when it returns. -/
theorem Set.newSet_post {s : EngineState} (hs : s.WellFormed) (h : Host)
    (width height n : UInt32) :
    (Set.newSet h width height n s).Post (fun _ t => s.Extends h n t) fun _ _ => True := by
  rw [Set.newSet_eq]
  refine (intLoop_add_post (hs.sized h width height n) h n).bind fun _ t₁ ht₁ => ?_
  obtain ⟨hc, hlen, l, a, p, rfl⟩ := ht₁
  have hscenes : s.scenesList ++ [⟨a, "First Scene", []⟩] ≠ [] :=
    List.append_ne_nil_of_right_ne_nil _ (List.cons_ne_nil _ _)
  obtain ⟨scene, rest, hcons⟩ := List.exists_cons_of_ne_nil hscenes
  let s₂ : EngineState := { s.sized h width height n with
    layersList := l
    scenesList := s.scenesList ++ [⟨a, "First Scene", []⟩]
    nextAddr := a + 1
    properties := p
    currentSceneNumber := 1 }
  change ((Set.setCurrentScene h 0 s₂).bind _).Post _ _
  refine Outcome.Post.bind ((Set.setCurrentScene_zero_outline h (s := s₂) hcons).mono
    (fun _ _ ht => ht) fun _ _ _ => trivial) fun _ t ht => ?_
  have hlayers : t.layersList = l := congrArg (fun o => o.layersList) ht
  have hcurrent : t.currentScene = some scene.addr := congrArg Outline.currentScene ht
  refine ⟨hc, hlayers ▸ hlen, congrArg (fun o => o.visuals) ht, a,
    congrArg (fun o => o.scenesList) ht, ?_⟩
  intro hnil
  rw [hnil, List.nil_append] at hcons
  obtain rfl := (List.cons.inj hcons).1
  exact hcurrent

/-- When the layers can be added and there are no scenes yet, `Set::newSet` returns. -/
theorem Set.exists_newSet {s : EngineState} (hs : s.WellFormed) {h : Host} {n : UInt32}
    (hc : s.CanAddLayers h n) (hscenes : s.scenesList = []) (width height : UInt32) :
    ∃ t, Set.newSet h width height n s = .ok () t := by
  obtain ⟨t₁, ht₁⟩ := exists_intLoop_add (hs.sized h width height n) hc
  have hpost := intLoop_add_post (hs.sized h width height n) h n
  rw [ht₁] at hpost
  obtain ⟨-, -, l, a, p, rfl⟩ := hpost
  rw [Set.newSet_eq, ht₁, Outcome.bind_ok]
  cases s
  cases hscenes
  exact ⟨_, rfl⟩

/-- What `Engine::newSet` and `Engine::openSet` end with. -/
def Engine.finishSet (h : Host) (path : String) : Prog Bool := do
  Engine.initBuffer h
  Layers.setActive h 1
  EngineProperties.update h fun p => { p with currentFilePath := path }
  modify fun s => { s with setOpened := true }
  return true

/-- What `Engine::newSet` does after it has closed the old set. -/
def Engine.createSet (h : Host) (width height layers : UInt32) : Prog Bool := do
  if width > 0 then EngineProperties.update h fun p => { p with mixerWidth := width }
  if height > 0 then EngineProperties.update h fun p => { p with mixerHeight := height }
  if layers > 0 then EngineProperties.update h fun p => { p with mixerNLayers := layers }
  Set.newSet h width height layers
  Engine.finishSet h ""

theorem Engine.newSet_eq (h : Host) (width height layers : UInt32) :
    Engine.newSet h width height layers = (do
      Engine.closeSet h
      Engine.createSet h width height layers) := rfl

/-- Creating a set writes engine properties, besides what the set and its buffer need. -/
theorem Engine.keeps_createSet_of {I : EngineState → Prop} {h : Host}
    (hupdate : ∀ f, Keeps I (EngineProperties.update h f)) {width height layers : UInt32}
    (hset : Keeps I (Set.newSet h width height layers))
    (hfinish : Keeps I (Engine.finishSet h "")) :
    Keeps I (Engine.createSet h width height layers) := by
  have hlast := hset.bind fun _ => hfinish
  have hlayers := Keeps.ite (c := layers > 0)
    ((hupdate fun p => { p with mixerNLayers := layers }).bind fun _ => hlast) hlast
  have hheight := Keeps.ite (c := height > 0)
    ((hupdate fun p => { p with mixerHeight := height }).bind fun _ => hlayers) hlayers
  exact .ite ((hupdate fun p => { p with mixerWidth := width }).bind fun _ => hheight) hheight

theorem Engine.openSet_eq (h : Host) (path : String) :
    Engine.openSet h path = (do
      Engine.destroyBuffer
      Engine.closeSet h
      Layers.empty h
      let state ← JsonLoad.load h path
      Engine.setState h state
      Engine.finishSet h path) := by
  simp only [Engine.openSet, Set.openSet, bind_assoc, pure_bind, ↓reduceIte]
  rfl

theorem Engine.exists_initBuffer (h : Host) (s : EngineState) :
    ∃ b p, Engine.initBuffer h s = .ok () { s with buffer := some b, properties := p } := by
  cases hb : s.buffer with
  | none =>
    cases s
    cases hb
    exact ⟨_, _, rfl⟩
  | some b =>
    cases s
    cases hb
    exact ⟨_, _, rfl⟩

theorem Layers.exists_setActive (h : Host) (n : UInt32) (s : EngineState) :
    ∃ p, Layers.setActive h n s = .ok () { s with properties := p } := by
  rw [Layers.setActive]
  split_ifs
  · exact ⟨_, rfl⟩
  · exact ⟨_, rfl⟩

/-- The last steps return, and leave the lists alone. -/
theorem Engine.exists_finishSet (h : Host) (path : String) (s : EngineState) :
    ∃ b p, p.currentFilePath = path ∧ Engine.finishSet h path s =
      .ok true { s with buffer := some b, properties := p, setOpened := true } := by
  obtain ⟨b, p, hinit⟩ := Engine.exists_initBuffer h s
  obtain ⟨p', hactive⟩ :=
    Layers.exists_setActive h 1 { s with buffer := some b, properties := p }
  refine ⟨b, { p'.setDefaults h with currentFilePath := path }, rfl, ?_⟩
  rw [Engine.finishSet, bind_run, hinit, Outcome.bind_ok, bind_run, hactive]
  rfl

theorem Engine.keepsGraph_finishSet (h : Host) (path : String) :
    KeepsGraph (Engine.finishSet h path) := by
  intro o s hs
  obtain ⟨b, p, -, hrun⟩ := Engine.exists_finishSet h path s
  rw [hrun]
  exact hs

/-- What creating a set does to the object graph is to add layers and a scene. -/
theorem Engine.keeps_createSet {I : EngineState → Prop}
    (hI : ∀ s t, s.graph = t.graph → I s → I t) {h : Host} (hadd : Keeps I (Layers.add h true))
    (hscene : Keeps I (Scenes.newScene "First Scene")) (width height layers : UInt32) :
    Keeps I (Engine.createSet h width height layers) := by
  have hset : ∀ f, Keeps I (EngineProperties.update h f) := fun f =>
    (Fixes.updateProperties h f).graph.keeps hI
  exact Engine.keeps_createSet_of hset (Set.keeps_newSet hI hadd hscene _ _ _)
    ((Engine.keepsGraph_finishSet h "").keeps hI)

/-- Setting the three sizes changes nothing but the engine properties. -/
theorem Engine.exists_createSet_eq (h : Host) (width height layers : UInt32) (s : EngineState) :
    ∃ p, p.selectedLayer = s.properties.selectedLayer ∧
      Engine.createSet h width height layers s = (do
        Set.newSet h width height layers
        Engine.finishSet h "" : Prog Bool) { s with properties := p } := by
  rw [Engine.createSet]
  split_ifs <;> exact ⟨_, rfl, rfl⟩

/-- What `Engine::newSet` leaves, after it has closed the old set, when it returns. -/
theorem Engine.createSet_post {s : EngineState} (hs : s.WellFormed) (h : Host)
    (width height n : UInt32) :
    (Engine.createSet h width height n s).Post (fun _ t => s.Extends h n t) fun _ _ => True := by
  obtain ⟨p, -, hp⟩ := Engine.exists_createSet_eq h width height n s
  rw [hp]
  refine (Set.newSet_post (s := { s with properties := p }) { hs with } h width height n).bind
    fun _ t ht => ?_
  obtain ⟨b, q, -, hfinish⟩ := Engine.exists_finishSet h "" t
  dsimp only
  rw [hfinish]
  exact ht

/-- `Engine::newSet` returns when the layers can be added and there are no scenes left. -/
theorem Engine.exists_createSet {s : EngineState} (hs : s.WellFormed) {h : Host} {n : UInt32}
    (hc : s.CanAddLayers h n) (hscenes : s.scenesList = []) (width height : UInt32) :
    ∃ t, Engine.createSet h width height n s = .ok true t := by
  obtain ⟨p, -, hp⟩ := Engine.exists_createSet_eq h width height n s
  obtain ⟨t, ht⟩ := Set.exists_newSet (s := { s with properties := p }) { hs with } hc hscenes
    width height
  obtain ⟨b, q, -, hfinish⟩ := Engine.exists_finishSet h "" t
  refine ⟨{ t with buffer := some b, properties := q, setOpened := true }, ?_⟩
  rw [hp, bind_run, ht, Outcome.bind_ok, hfinish]

/-! ### When sets are clean -/

/-- From a reachable state, closing the set leaves no layers, no visuals and no scenes exactly when
the set is loaded and its visuals can be erased, or it is not loaded and there is nothing there. -/
theorem closeSet_clean_iff {s : EngineState} (hs : s.WellFormed) (h : Host) :
    (∃ t, Engine.closeSet h s = .ok () t ∧ t.IsEmpty) ↔
      (s.loaded = true ∧ s.Erasable h) ∨ (s.loaded = false ∧ s.IsEmpty) := by
  rw [Engine.closeSet_eq hs]
  by_cases hl : s.loaded = true
  · rw [if_pos hl]
    by_cases he : s.Erasable h
    · simp [he, hl, s.isEmpty_close h]
    · simp [he, hl]
  · simp [hl]

/-- What a set extends to is a new set exactly when there was nothing before, up to layers that the
new ones push out of the count. -/
theorem EngineState.Extends.isNewSet_iff {h : Host} {n : UInt32} {s t : EngineState}
    (ht : s.Extends h n t) :
    t.IsNewSet n.toNat ↔ s.visualsList = [] ∧ s.scenesList = [] ∧
      (s.layersList = [] ∨ maximumNumberOfLayers ≤ n.toNat) := by
  obtain ⟨-, hlen, hvisuals, a, hscenes, hcurrent⟩ := ht
  have hlayers : s.layersList = [] ↔ s.layersList.length = 0 := List.length_eq_zero_iff.symm
  constructor
  · rintro ⟨hcount, hnil, scene, hscene, -, -, -⟩
    refine ⟨?_, ?_, ?_⟩
    · rw [hnil, List.map_nil, eq_comm, List.map_eq_nil_iff] at hvisuals
      exact hvisuals
    · rw [hscene] at hscenes
      have := congrArg List.length hscenes
      simpa using this
    · rw [hlayers]
      omega
  · rintro ⟨hnil, hscene, hcount⟩
    rw [hlayers] at hcount
    refine ⟨by omega, ?_, _, by rw [hscenes, hscene, List.nil_append], rfl, rfl, hcurrent hscene⟩
    rw [hnil, List.map_nil, List.map_eq_nil_iff] at hvisuals
    exact hvisuals

/-- After the old set has been closed, a new set is created cleanly exactly when its layers can be
added, no visuals and no scenes are left, and no layers either, unless six or more are asked for. -/
theorem createSet_clean_iff {s : EngineState} (hs : s.WellFormed) (h : Host)
    (width height n : UInt32) :
    (∃ b t, Engine.createSet h width height n s = .ok b t ∧ t.IsNewSet n.toNat) ↔
      s.CanAddLayers h n ∧ s.visualsList = [] ∧ s.scenesList = [] ∧
        (s.layersList = [] ∨ maximumNumberOfLayers ≤ n.toNat) := by
  have hpost := Engine.createSet_post hs h width height n
  constructor
  · rintro ⟨b, t, ht, hnew⟩
    rw [ht] at hpost
    exact ⟨hpost.1, hpost.isNewSet_iff.mp hnew⟩
  · rintro ⟨hc, hnil⟩
    obtain ⟨t, ht⟩ := Engine.exists_createSet hs hc hnil.2.1 width height
    rw [ht] at hpost
    exact ⟨true, t, ht, hpost.isNewSet_iff.mpr hnil⟩

/-- A new set is clean exactly when the old one was loaded, and its visuals can be erased, or there
was nothing there that a new set does not have; its layers must be addable in both cases. -/
theorem newSet_clean_iff {s : EngineState} (hs : s.WellFormed) (h : Host)
    (width height n : UInt32) :
    (∃ b t, Engine.newSet h width height n s = .ok b t ∧ t.IsNewSet n.toNat) ↔
      n.toNat < 2 ^ 31 ∧
        ((s.loaded = true ∧ s.Erasable h ∧ (h.shaderError = none ∨ n = 0)) ∨
          (s.loaded = false ∧ s.visualsList = [] ∧ s.scenesList = [] ∧
            (s.layersList = [] ∨ maximumNumberOfLayers ≤ n.toNat) ∧
            (h.shaderError = none ∨ n = 0 ∨ s.layersList.length = maximumNumberOfLayers))) := by
  simp only [Engine.newSet_eq, bind_run, Engine.closeSet_eq hs]
  by_cases hl : s.loaded = true
  · by_cases he : s.Erasable h
    · have hlen : (0 : ℕ) ≠ maximumNumberOfLayers := by decide
      simp only [hl, he, ↓reduceIte, Outcome.bind_ok, createSet_clean_iff (hs.close h),
        EngineState.CanAddLayers]
      simp [EngineState.close, hlen]
    · simp [hl, he]
  · simp only [hl, Bool.false_eq_true, ↓reduceIte, Outcome.bind_ok, createSet_clean_iff hs,
      EngineState.CanAddLayers, false_and, false_or, true_and]
    tauto

/-- From every reachable state, closing the set and creating a new one leave what they promise
exactly when the set is loaded, or there is nothing there to be left over. -/
theorem lifecycle_clean_iff {s : EngineState} (hs : s.Reachable) (h : Host)
    (width height n : UInt32) :
    ((∃ t, Engine.closeSet h s = .ok () t ∧ t.IsEmpty) ↔
      (s.loaded = true ∧ s.Erasable h) ∨ (s.loaded = false ∧ s.IsEmpty)) ∧
    ((∃ b t, Engine.newSet h width height n s = .ok b t ∧ t.IsNewSet n.toNat) ↔
      n.toNat < 2 ^ 31 ∧
        ((s.loaded = true ∧ s.Erasable h ∧ (h.shaderError = none ∨ n = 0)) ∨
          (s.loaded = false ∧ s.visualsList = [] ∧ s.scenesList = [] ∧
            (s.layersList = [] ∨ maximumNumberOfLayers ≤ n.toNat) ∧
            (h.shaderError = none ∨ n = 0 ∨ s.layersList.length = maximumNumberOfLayers)))) :=
  ⟨closeSet_clean_iff hs.wellFormed h, newSet_clean_iff hs.wellFormed h width height n⟩

/-- A set made by `newSet` is closed cleanly, and followed cleanly by a new one. -/
theorem lifecycle_clean_newSet : ∃ s : EngineState, s.Reachable ∧ s.loaded = true ∧
    (∃ t, Engine.closeSet Host.plain s = .ok () t ∧ t.IsEmpty) ∧
    ∃ b t, Engine.newSet Host.plain 640 480 2 s = .ok b t ∧ t.IsNewSet 2 := by
  obtain ⟨s, hs, hl⟩ : ∃ s : EngineState, s.Reachable ∧ s.loaded = true :=
    exists_reaches [(Host.plain, .newSet 640 480 2)] (by decide +kernel)
  have hclean := lifecycle_clean_iff hs Host.plain 640 480 2
  exact ⟨s, hs, hl, hclean.1.mpr (.inl ⟨hl, .inr rfl⟩),
    hclean.2.mpr ⟨by decide, .inl ⟨hl, .inr rfl, .inl rfl⟩⟩⟩

/-- A file with the text `{"scenes":[{"name":"Intro"}]}`. -/
def introFile : Host :=
  .withFile "\x7b\"scenes\":[\x7b\"name\":\"Intro\"\x7d]\x7d"
    (.obj [("scenes", .arr [.obj [("name", .str "Intro")]])])

/-- A set that has been opened from a file is neither closed by `closeSet` nor replaced by
`newSet`. -/
theorem lifecycle_clean_openSet : ∃ s : EngineState, s.Reachable ∧
    (∃ t, Engine.closeSet Host.plain s = .ok () t ∧ ¬ t.IsEmpty) ∧
    ∃ b t, Engine.newSet Host.plain 640 480 2 s = .ok b t ∧ ¬ t.IsNewSet 2 := by
  obtain ⟨s, hs, hclose, hnew⟩ : ∃ s : EngineState, s.Reachable ∧
      (Engine.closeSet Host.plain s).returns (fun _ t => decide (¬ t.IsEmpty)) = true ∧
      (Engine.newSet Host.plain 640 480 2 s).returns
        (fun _ t => decide (t.scenesList.length = 2)) = true :=
    exists_reaches [(introFile, .openSet "set.json")] (by decide +kernel)
  obtain ⟨_, t, ht, hempty⟩ := Outcome.exists_of_returns hclose
  obtain ⟨b, t', ht', hlen⟩ := Outcome.exists_of_returns hnew
  refine ⟨s, hs, ⟨t, ht, of_decide_eq_true hempty⟩, b, t', ht', ?_⟩
  rintro ⟨-, -, scene, hscenes, -⟩
  have hlen := of_decide_eq_true hlen
  rw [hscenes] at hlen
  cases hlen

end ArbutusEngine
