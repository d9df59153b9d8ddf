import ArbutusEngine.Documents

/-!
# What reading a document does

`Engine::setState` runs in three stages, for the visuals, the layers and the scenes; a stage runs
when the document has an array for it. `Engine.setState_eq` gives the outcome of the whole call:
each stage replaces its list by what the entries up to the first exception come to, an exception
ends the call and leaves the lists as the stages so far have made them, and there are two ways for
the behaviour to be undefined: an erased iterator that cannot be advanced, and a seventh layer.

## Main definitions

* `visualsError`, `layersError`, `scenesError`: the exception of a stage.
* `EngineState.afterVisuals`, `EngineState.afterLayers`, `EngineState.afterScenes`.
* `EngineState.Erasable`, `TooManyLayers`: when the behaviour of a stage is defined.

## Main results

* `Engine.setState_eq`, `Engine.setState_of_not_isIndexable`.
* `Engine.setState_eq_ok_iff`, `Engine.setState_eq_threw`: when the call returns, and where it
  throws.
* `EngineState.exists_afterVisuals`, `EngineState.exists_afterLayers`,
  `EngineState.exists_afterScenes`: what a stage leaves alone.
-/

open Exec

namespace ArbutusEngine

/-! ### The stages -/

/-- The exception of the stage of the visuals. -/
def visualsError (h : Host) (setPath : String) (visuals : Json) : Option Thrown :=
  if visuals.isArray then (Visuals.decodeAll h setPath visuals.elements).2 else none

/-- The exception of the stage of the layers, as long as the list has room. -/
def layersError (h : Host) (layers : Json) : Option Thrown :=
  if layers.isArray then
    (collect (Layers.decode h) (layers.elements.take maximumNumberOfLayers)).2
  else none

/-- The exception of the stage of the scenes. -/
def scenesError (visuals : List Visual) (scenes : Json) : Option Thrown :=
  if scenes.isArray then (Scenes.decodeAll visuals scenes.elements).2 else none

/-- The list of visuals can be emptied: an erased iterator can be advanced, or there is nothing to
erase. -/
def EngineState.Erasable (h : Host) (s : EngineState) : Prop :=
  s.visualsList = [] ∨ h.erasedIteratorAdvances = true

/-- The document gets to a seventh layer. -/
def TooManyLayers (h : Host) (layers : Json) : Prop :=
  layers.isArray = true ∧ layersError h layers = none ∧
    maximumNumberOfLayers < layers.elements.length

instance (h : Host) (s : EngineState) : Decidable (s.Erasable h) :=
  inferInstanceAs (Decidable (_ ∨ _))

instance (h : Host) (layers : Json) : Decidable (TooManyLayers h layers) :=
  inferInstanceAs (Decidable (_ ∧ _ ∧ _))

namespace EngineState

/-- The state after the stage of the visuals. -/
def afterVisuals (h : Host) (visuals : Json) (s : EngineState) : EngineState :=
  if visuals.isArray then
    ({ s with visualsList := [] } : EngineState).pushVideos h
      (Visuals.decodeAll h s.filePath visuals.elements).1
  else s

/-- The state after the stage of the layers. -/
def afterLayers (h : Host) (layers : Json) (s : EngineState) : EngineState :=
  if layers.isArray then
    (s.clearLayers h).pushLayers h
      (collect (Layers.decode h) (layers.elements.take maximumNumberOfLayers)).1
  else s

/-- The state after the stage of the scenes. -/
def afterScenes (h : Host) (scenes : Json) (s : EngineState) : EngineState :=
  if scenes.isArray then
    s.clearScenes.buildScenes h (Scenes.decodeAll s.visualsList scenes.elements).1
  else s

end EngineState

theorem Visuals.setState_eq (h : Host) (visuals : Json) (s : EngineState) :
    Visuals.setState h visuals s =
      if visuals.isArray = true ∧ ¬ s.Erasable h then .undefined .erasedIterator
      else .raiseIf (visualsError h s.filePath visuals) (s.afterVisuals h visuals) := by
  cases visuals with
  | arr entries =>
    by_cases he : s.Erasable h
    · rw [if_neg fun hne => hne.2 he, Visuals.setState_arr h entries s he]
      rfl
    · rw [if_pos ⟨rfl, he⟩, Visuals.setState]
      simp only [Json.isArray, ↓reduceIte, bind_run]
      rw [Visuals.empty_eq, if_neg (show ¬ (_ ∨ _) from he), Outcome.bind_undefined]
  | _ => simp [Visuals.setState, Json.isArray, visualsError, EngineState.afterVisuals]

theorem Layers.setStage_eq (h : Host) (layers : Json) (s : EngineState) :
    (if layers.isArray then Layers.setState h layers else pure ()) s =
      if TooManyLayers h layers then .undefined .nullPointer
      else .raiseIf (layersError h layers) (s.afterLayers h layers) := by
  cases layers with
  | arr entries =>
    simp only [Json.isArray, ↓reduceIte, Layers.setState_arr, TooManyLayers, layersError,
      EngineState.afterLayers, Json.elements, true_and]
  | _ => simp [Json.isArray, TooManyLayers, layersError, EngineState.afterLayers]

theorem Scenes.setStage_eq {s : EngineState} (hs : s.WellFormed) (h : Host) (scenes : Json) :
    (if scenes.isArray then Scenes.setState h scenes else pure ()) s =
      .raiseIf (scenesError s.visualsList scenes) (s.afterScenes h scenes) := by
  cases scenes with
  | arr entries => exact Scenes.setState_eq hs h _
  | _ => rfl

/-! ### What the stages leave alone -/

namespace EngineState

variable (h : Host) (s : EngineState)

theorem exists_afterVisuals (visuals : Json) : ∃ v n p,
    s.afterVisuals h visuals = { s with visualsList := v, nextAddr := n, properties := p } := by
  rw [afterVisuals]
  split_ifs
  · rw [pushVideos_eq]
    exact ⟨_, _, _, rfl⟩
  · exact ⟨_, _, _, rfl⟩

theorem exists_pushLayers (layers : List LayerProperties) : ∃ l n p,
    s.pushLayers h layers = { s with layersList := l, nextAddr := n, properties := p } :=
  foldl_push (EngineState.pushLayer h)
    (fun t => ∃ l n p, t = { s with layersList := l, nextAddr := n, properties := p })
    (fun t b ⟨_, _, _, ht⟩ => by subst ht; exact ⟨_, _, _, rfl⟩) layers ⟨_, _, _, rfl⟩

theorem exists_afterLayers (layers : Json) : ∃ l n p,
    s.afterLayers h layers = { s with layersList := l, nextAddr := n, properties := p } := by
  rw [afterLayers]
  split_ifs
  · obtain ⟨l, n, p, ht⟩ := (s.clearLayers h).exists_pushLayers h
      (collect (Layers.decode h) (layers.elements.take maximumNumberOfLayers)).1
    exact ⟨l, n, p, ht⟩
  · exact ⟨_, _, _, rfl⟩

theorem afterVisuals_arr (entries : List Json) :
    s.afterVisuals h (.arr entries) = ({ s with visualsList := [] } : EngineState).pushVideos h
      (Visuals.decodeAll h s.filePath entries).1 := rfl

theorem afterScenes_arr (entries : List Json) :
    s.afterScenes h (.arr entries) =
      s.clearScenes.buildScenes h (Scenes.decodeAll s.visualsList entries).1 := rfl

theorem exists_buildScenes (scenes : List (String × List Placement)) : ∃ l i n p,
    s.buildScenes h scenes =
      { s with scenesList := l, instances := i, nextAddr := n, properties := p } := by
  refine foldl_push (EngineState.buildScene h)
    (fun t => ∃ l i n p, t = { s with scenesList := l, instances := i, nextAddr := n, properties := p })
    (fun t scene ht => ?_) scenes ⟨_, _, _, _, rfl⟩
  refine foldl_push (EngineState.place h t.nextAddr)
    (fun t => ∃ l i n p, t = { s with scenesList := l, instances := i, nextAddr := n, properties := p })
    (fun t p ⟨_, _, _, _, ht⟩ => by subst ht; exact ⟨_, _, _, _, rfl⟩) scene.2 ?_
  obtain ⟨_, _, _, _, rfl⟩ := ht
  exact ⟨_, _, _, _, rfl⟩

theorem exists_afterScenes (scenes : Json) : ∃ l i n p,
    s.afterScenes h scenes =
      { s with scenesList := l, instances := i, nextAddr := n, properties := p } := by
  rw [afterScenes]
  split_ifs
  · obtain ⟨l, i, n, p, ht⟩ := s.clearScenes.exists_buildScenes h
      (Scenes.decodeAll s.visualsList scenes.elements).1
    exact ⟨l, i, n, p, ht⟩
  · exact ⟨_, _, _, _, rfl⟩

@[simp] theorem visualsList_afterLayers (layers : Json) :
    (s.afterLayers h layers).visualsList = s.visualsList := by
  obtain ⟨l, n, p, hl⟩ := s.exists_afterLayers h layers
  rw [hl]

/-- Neither visuals nor layers allocate instances. -/
@[simp] theorem instances_afterLayers (layers visuals : Json) :
    ((s.afterVisuals h visuals).afterLayers h layers).instances = s.instances := by
  obtain ⟨l, n, p, hl⟩ := (s.afterVisuals h visuals).exists_afterLayers h layers
  obtain ⟨v, m, q, hv⟩ := s.exists_afterVisuals h visuals
  rw [hl, hv]

@[simp] theorem visualsList_afterScenes (scenes : Json) :
    (s.afterScenes h scenes).visualsList = s.visualsList := by
  obtain ⟨l, i, n, p, hl⟩ := s.exists_afterScenes h scenes
  rw [hl]

variable {s}

theorem WellFormed.afterVisuals (hs : s.WellFormed) (visuals : Json) :
    (s.afterVisuals h visuals).WellFormed := by
  rw [EngineState.afterVisuals]
  split_ifs
  · exact hs.clearVisuals.pushVideos h _
  · exact hs

theorem WellFormed.pushLayers (hs : s.WellFormed) (layers : List LayerProperties)
    (hl : s.layersList.length + layers.length ≤ maximumNumberOfLayers) :
    (s.pushLayers h layers).WellFormed := by
  induction layers generalizing s with
  | nil => exact hs
  | cons p rest ih =>
    rw [List.length_cons] at hl
    refine ih (hs.pushLayer (by omega) h p) ?_
    rw [length_pushLayer]
    omega

theorem length_collect_le {α β : Type} {dec : α → Option β × Option Thrown} (l : List α) :
    (collect dec l).1.length ≤ l.length := by
  induction l with
  | nil => exact Nat.le_refl _
  | cons a l ih =>
    have hone : (dec a).1.toList.length ≤ 1 := by cases (dec a).1 <;> simp
    rw [collect]
    split
    · simp only [List.length_cons]
      omega
    · rw [List.length_append, List.length_cons]
      omega

theorem WellFormed.afterLayers (hs : s.WellFormed) (layers : Json) :
    (s.afterLayers h layers).WellFormed := by
  rw [EngineState.afterLayers]
  split_ifs
  · refine (hs.clearLayers h).pushLayers h _ ?_
    refine le_trans ?_ (List.length_take_le maximumNumberOfLayers layers.elements)
    rw [EngineState.clearLayers, List.length_nil, Nat.zero_add]
    exact length_collect_le _
  · exact hs

theorem WellFormed.afterScenes (hs : s.WellFormed) (scenes : Json) :
    (s.afterScenes h scenes).WellFormed := by
  rw [EngineState.afterScenes]
  split_ifs
  · exact hs.clearScenes.buildScenes h _
  · exact hs

/-- Scenes that have been rebuilt contain instances of visuals of the list. -/
theorem connected_afterScenes (hs : s.WellFormed) {scenes : Json}
    (hscenes : scenes.isArray = true) : (s.afterScenes h scenes).Connected := by
  have hviews : (s.afterScenes h scenes).views =
      contentsOf h s.instances.next (Scenes.decodeAll s.visualsList scenes.elements).1 := by
    rw [afterScenes, if_pos hscenes, views_clearScenes_buildScenes hs]
  intro view hview i hi
  rw [hviews] at hview
  obtain ⟨scene, hscene, m, rfl⟩ := exists_of_mem_contentsOf hview
  obtain ⟨p, hp, a, rfl⟩ := exists_of_mem_instancesOf hi
  rw [visualsList_afterScenes]
  exact Scenes.mem_of_decodeAll hscene hp

end EngineState

/-! ### The whole call -/

theorem Engine.setState_of_not_isIndexable {state : Json} (hi : state.isIndexable = false) (h : Host)
    (s : EngineState) : Engine.setState h state s = .threw (.exception state.indexError) s := by
  rw [Engine.setState, Json.index_of_not_isIndexable hi]
  rfl

/-- `Engine::setState` runs its three stages one after the other. -/
theorem Engine.setState_eq_bind {state : Json} (hi : state.isIndexable = true) (h : Host)
    (s : EngineState) : Engine.setState h state s =
      (Visuals.setState h (state.field "visuals") s).bind fun _ s₁ =>
        ((if (state.field "layers").isArray then Layers.setState h (state.field "layers")
          else pure ()) s₁).bind fun _ s₂ =>
          (if (state.field "scenes").isArray then Scenes.setState h (state.field "scenes")
            else pure ()) s₂ := by
  simp only [Engine.setState, Json.index_of_isIndexable hi, ofExcept_ok, pure_bind]
  by_cases hv : (state.field "visuals").isArray = true <;>
    by_cases hl : (state.field "layers").isArray = true <;>
      simp [hv, hl, Visuals.setState]

/-- What `Engine::setState` does with an object. -/
theorem Engine.setState_eq {s : EngineState} (hs : s.WellFormed) {state : Json}
    (hi : state.isIndexable = true) (h : Host) :
    Engine.setState h state s =
      let s₁ := s.afterVisuals h (state.field "visuals")
      let s₂ := s₁.afterLayers h (state.field "layers")
      if (state.field "visuals").isArray = true ∧ ¬ s.Erasable h then .undefined .erasedIterator
      else match visualsError h s.filePath (state.field "visuals") with
        | some e => .threw e s₁
        | none =>
          if TooManyLayers h (state.field "layers") then .undefined .nullPointer
          else match layersError h (state.field "layers") with
            | some e => .threw e s₂
            | none => .raiseIf (scenesError s₂.visualsList (state.field "scenes"))
                (s₂.afterScenes h (state.field "scenes")) := by
  rw [Engine.setState_eq_bind hi, Visuals.setState_eq]
  dsimp only
  by_cases he : (state.field "visuals").isArray = true ∧ ¬ s.Erasable h
  · rw [if_pos he, if_pos he, Outcome.bind_undefined]
  rw [if_neg he, if_neg he]
  cases visualsError h s.filePath (state.field "visuals") with
  | some e => rfl
  | none =>
    rw [Outcome.raiseIf_none, Outcome.bind_ok, Layers.setStage_eq]
    by_cases ht : TooManyLayers h (state.field "layers")
    · rw [if_pos ht]
      dsimp only
      rw [if_pos ht, Outcome.bind_undefined]
    · rw [if_neg ht]
      dsimp only
      rw [if_neg ht]
      cases layersError h (state.field "layers") with
      | some e => rfl
      | none =>
        rw [Outcome.raiseIf_none, Outcome.bind_ok]
        exact Scenes.setStage_eq ((hs.afterVisuals h _).afterLayers h _) h _

/-- `Engine::setState` returns exactly when no stage throws and the behaviour of all is defined. -/
theorem Engine.setState_eq_ok_iff {s t : EngineState} (hs : s.WellFormed) (h : Host) (state : Json) :
    Engine.setState h state s = .ok () t ↔
      state.isIndexable = true ∧ ((state.field "visuals").isArray = true → s.Erasable h) ∧
      visualsError h s.filePath (state.field "visuals") = none ∧
      ¬ TooManyLayers h (state.field "layers") ∧ layersError h (state.field "layers") = none ∧
      scenesError (s.afterVisuals h (state.field "visuals")).visualsList (state.field "scenes") =
        none ∧
      t = ((s.afterVisuals h (state.field "visuals")).afterLayers h
        (state.field "layers")).afterScenes h (state.field "scenes") := by
  by_cases hi : state.isIndexable = true
  swap
  · have hi : state.isIndexable = false := by simpa using hi
    simp [Engine.setState_of_not_isIndexable hi, hi]
  constructor
  · intro hrun
    rw [Engine.setState_eq_bind hi, Visuals.setState_eq] at hrun
    obtain ⟨_, s₁, hv, hrun⟩ := Outcome.exists_of_bind_eq_ok hrun
    obtain ⟨hne, hv⟩ := Outcome.ite_undefined_eq_ok_iff.mp hv
    obtain ⟨hve, rfl⟩ := Outcome.raiseIf_eq_ok_iff.mp hv
    rw [Layers.setStage_eq] at hrun
    obtain ⟨_, s₂, hl, hrun⟩ := Outcome.exists_of_bind_eq_ok hrun
    obtain ⟨hmany, hl⟩ := Outcome.ite_undefined_eq_ok_iff.mp hl
    obtain ⟨hle, rfl⟩ := Outcome.raiseIf_eq_ok_iff.mp hl
    rw [Scenes.setStage_eq ((hs.afterVisuals h _).afterLayers h _),
      EngineState.visualsList_afterLayers] at hrun
    obtain ⟨hse, rfl⟩ := Outcome.raiseIf_eq_ok_iff.mp hrun
    exact ⟨hi, fun ha => not_not.mp fun herase => hne ⟨ha, herase⟩, hve, hmany, hle, hse, rfl⟩
  · rintro ⟨-, herase, hve, hmany, hle, hse, rfl⟩
    rw [Engine.setState_eq hs hi]
    dsimp only
    rw [if_neg fun h => h.2 (herase h.1), hve]
    dsimp only
    rw [if_neg hmany, hle, EngineState.visualsList_afterLayers, hse]
    rfl

/-- Where `Engine::setState` can throw, and what it leaves then. -/
theorem Engine.setState_eq_threw {s t : EngineState} (hs : s.WellFormed) {h : Host} {state : Json}
    {e : Thrown} (hrun : Engine.setState h state s = .threw e t) :
    (state.isIndexable = false ∧ t = s) ∨
    (visualsError h s.filePath (state.field "visuals") = some e ∧
      t = s.afterVisuals h (state.field "visuals")) ∨
    (visualsError h s.filePath (state.field "visuals") = none ∧
      layersError h (state.field "layers") = some e ∧
      t = (s.afterVisuals h (state.field "visuals")).afterLayers h (state.field "layers")) ∨
    (visualsError h s.filePath (state.field "visuals") = none ∧
      layersError h (state.field "layers") = none ∧
      scenesError (s.afterVisuals h (state.field "visuals")).visualsList (state.field "scenes") =
        some e ∧
      t = ((s.afterVisuals h (state.field "visuals")).afterLayers h
        (state.field "layers")).afterScenes h (state.field "scenes")) := by
  by_cases hi : state.isIndexable = true
  swap
  · have hi : state.isIndexable = false := by simpa using hi
    rw [Engine.setState_of_not_isIndexable hi] at hrun
    exact .inl ⟨hi, (Outcome.threw.inj hrun).2.symm⟩
  rw [Engine.setState_eq_bind hi, Visuals.setState_eq] at hrun
  rcases Outcome.of_bind_eq_threw hrun with hv | ⟨_, s₁, hv, hrun⟩
  · obtain ⟨hve, rfl⟩ :=
      Outcome.raiseIf_eq_threw_iff.mp (Outcome.ite_undefined_eq_threw_iff.mp hv).2
    exact .inr (.inl ⟨hve, rfl⟩)
  obtain ⟨hve, rfl⟩ := Outcome.raiseIf_eq_ok_iff.mp (Outcome.ite_undefined_eq_ok_iff.mp hv).2
  rw [Layers.setStage_eq] at hrun
  rcases Outcome.of_bind_eq_threw hrun with hl | ⟨_, s₂, hl, hrun⟩
  · obtain ⟨hle, rfl⟩ :=
      Outcome.raiseIf_eq_threw_iff.mp (Outcome.ite_undefined_eq_threw_iff.mp hl).2
    exact .inr (.inr (.inl ⟨hve, hle, rfl⟩))
  obtain ⟨hle, rfl⟩ := Outcome.raiseIf_eq_ok_iff.mp (Outcome.ite_undefined_eq_ok_iff.mp hl).2
  rw [Scenes.setStage_eq ((hs.afterVisuals h _).afterLayers h _),
    EngineState.visualsList_afterLayers] at hrun
  obtain ⟨hse, rfl⟩ := Outcome.raiseIf_eq_threw_iff.mp hrun
  exact .inr (.inr (.inr ⟨hve, hle, hse, rfl⟩))

/-- `Engine::setState` returns or throws unless it empties a list of visuals that cannot be emptied,
or gets to a seventh layer. -/
theorem Engine.setState_defined_iff {s : EngineState} (hs : s.WellFormed) {state : Json}
    (hi : state.isIndexable = true) {h : Host} :
    (∃ t, (Engine.setState h state s).final? = some t) ↔
      ((state.field "visuals").isArray = true → s.Erasable h) ∧
      (visualsError h s.filePath (state.field "visuals") ≠ none ∨
        ¬ TooManyLayers h (state.field "layers")) := by
  rw [Engine.setState_eq hs hi]
  dsimp only
  by_cases he : (state.field "visuals").isArray = true ∧ ¬ s.Erasable h
  · simp [he]
  have herase : (state.field "visuals").isArray = true → s.Erasable h :=
    fun ha => not_not.mp fun hne => he ⟨ha, hne⟩
  rw [if_neg he, and_iff_right herase]
  cases visualsError h s.filePath (state.field "visuals") with
  | some e => simp
  | none =>
    by_cases ht : TooManyLayers h (state.field "layers")
    · simp [ht]
    · refine iff_of_true ?_ (.inr ht)
      rw [if_neg ht]
      cases layersError h (state.field "layers") with
      | some e => exact ⟨_, rfl⟩
      | none =>
        cases scenesError ((s.afterVisuals h (state.field "visuals")).afterLayers h
          (state.field "layers")).visualsList (state.field "scenes") <;> exact ⟨_, rfl⟩

/-- Whether it returns or throws, `Engine::setState` changes the three lists, the instances and the
engine properties, and leaves the rest of the engine alone. -/
theorem Engine.exists_of_setState {s t : EngineState} (hs : s.WellFormed) {h : Host} {state : Json}
    (ht : (Engine.setState h state s).final? = some t) :
    ∃ v l sc i n p, t = { s with
      visualsList := v, layersList := l, scenesList := sc, instances := i, nextAddr := n,
      properties := p } := by
  obtain ⟨v, n, p, hv⟩ := s.exists_afterVisuals h (state.field "visuals")
  obtain ⟨l, n', p', hl⟩ :=
    (s.afterVisuals h (state.field "visuals")).exists_afterLayers h (state.field "layers")
  obtain ⟨sc, i, n'', p'', hsc⟩ := EngineState.exists_afterScenes h
    ((s.afterVisuals h (state.field "visuals")).afterLayers h (state.field "layers"))
    (state.field "scenes")
  rw [hv] at hl
  rw [hv, hl] at hsc
  cases hrun : Engine.setState h state s with
  | ok _ u =>
    rw [hrun] at ht
    obtain rfl := Option.some.inj ht
    obtain ⟨-, -, -, -, -, -, rfl⟩ := (Engine.setState_eq_ok_iff hs h state).mp hrun
    rw [hv, hl, hsc]
    exact ⟨_, _, _, _, _, _, rfl⟩
  | threw e u =>
    rw [hrun] at ht
    obtain rfl := Option.some.inj ht
    rcases Engine.setState_eq_threw hs hrun with ⟨-, rfl⟩ | ⟨-, rfl⟩ | ⟨-, -, rfl⟩ | ⟨-, -, -, rfl⟩
    · exact ⟨_, _, _, _, _, _, rfl⟩
    · rw [hv]
      exact ⟨_, _, _, _, _, _, rfl⟩
    · rw [hv, hl]
      exact ⟨_, _, _, _, _, _, rfl⟩
    · rw [hv, hl, hsc]
      exact ⟨_, _, _, _, _, _, rfl⟩
  | undefined u =>
    rw [hrun] at ht
    cases ht

end ArbutusEngine
