import ArbutusEngine.Lifecycle

/-!
# Opening a set from a file

`Engine::openSet` gives up the output buffer, the old set and its layers before it looks for the
file, and reads the document of the file in three stages, each of which can throw. This file says
exactly when an exception leaves the engine as it was, or closed: nothing may have been decoded
before the exception, and what `openSet` gives up, and does not give up, must not have been there.

## Main definitions

* `JsonLoad.document`: the document in a file.
* `EngineState.beforeLoad`: the state in which `openSet` looks for the file.
* `EngineState.Closed`: what a closed engine looks like.
* `DecodesNothing`, `ReachesScenes`: how far reading a document gets.

## Main results

* `Engine.openSet_eq_ok`, `Engine.openSet_eq_threw`: how `openSet` returns and how it throws.
* `failedOpen_clean_iff`.
-/

open Exec

namespace ArbutusEngine

/-! ### Where opening fails -/

/-- The document in a file, `null` when the file cannot be read. -/
def JsonLoad.document (h : Host) (path : String) : Json :=
  if h.doesFileExist path true then
    match h.parse (h.getText path) with
    | .ok document => document
    | .error _ => .null
  else .null

/-- The state in which `Engine::openSet` looks for the file. -/
def EngineState.beforeLoad (h : Host) (s : EngineState) : EngineState :=
  (if s.loaded = true then ({ s with buffer := none } : EngineState).close h
    else { s with buffer := none }).clearLayers h

theorem EngineState.WellFormed.beforeLoad {s : EngineState} (hs : s.WellFormed) (h : Host) :
    (s.beforeLoad h).WellFormed := by
  have hbuffer : ({ s with buffer := none } : EngineState).WellFormed := { hs with }
  rw [EngineState.beforeLoad]
  split_ifs
  · exact (hbuffer.close h).clearLayers h
  · exact hbuffer.clearLayers h

/-- Once the old set is closed, opening is reading the document and the last steps. -/
theorem Engine.openSet_run {s : EngineState} (hs : s.WellFormed) (h : Host) (path : String) :
    Engine.openSet h path s =
      if s.loaded = true ∧ ¬ s.Erasable h then .undefined .erasedIterator
      else (do
        let state ← JsonLoad.load h path
        Engine.setState h state
        Engine.finishSet h path : Prog Bool) (s.beforeLoad h) := by
  have hbuffer : ({ s with buffer := none } : EngineState).WellFormed := { hs with }
  have hclose := Engine.closeSet_eq hbuffer h
  rw [Engine.openSet_eq, bind_run, Engine.destroyBuffer, modify_run, Outcome.bind_ok, bind_run,
    hclose, EngineState.beforeLoad]
  by_cases hl : s.loaded = true
  · by_cases he : s.Erasable h
    · have he' : EngineState.Erasable h { s with buffer := none } := he
      rw [if_pos hl, if_pos he', if_neg fun hne => hne.2 he, if_pos hl]
      rfl
    · have he' : ¬ EngineState.Erasable h { s with buffer := none } := he
      rw [if_pos hl, if_neg he', if_pos ⟨hl, he⟩]
      rfl
  · rw [if_neg hl, if_neg fun hne => hl hne.1, if_neg hl]
    rfl

theorem JsonLoad.load_cases (h : Host) (path : String) (s : EngineState) :
    JsonLoad.load h path s = .ok (JsonLoad.document h path) s ∨
      (JsonLoad.document h path = .null ∧ ∃ e, JsonLoad.load h path s = .threw e s) := by
  rw [JsonLoad.load, JsonLoad.document]
  split_ifs
  · cases h.parse (h.getText path) with
    | ok document => exact .inl rfl
    | error what => exact .inr ⟨rfl, _, rfl⟩
  · exact .inr ⟨rfl, _, rfl⟩

/-- Opening returns when the file can be read and its document too. -/
theorem Engine.openSet_eq_ok {s t : EngineState} (hs : s.WellFormed) {h : Host} {path : String}
    {b : Bool} (hrun : Engine.openSet h path s = .ok b t) :
    JsonLoad.load h path (s.beforeLoad h) = .ok (JsonLoad.document h path) (s.beforeLoad h) ∧
      ∃ u, Engine.setState h (JsonLoad.document h path) (s.beforeLoad h) = .ok () u ∧
        Engine.finishSet h path u = .ok b t := by
  rw [Engine.openSet_run hs] at hrun
  split_ifs at hrun
  rcases JsonLoad.load_cases h path (s.beforeLoad h) with hload | ⟨-, e, hload⟩
  · refine ⟨hload, ?_⟩
    rw [bind_run, hload, Outcome.bind_ok, bind_run] at hrun
    cases hset : Engine.setState h (JsonLoad.document h path) (s.beforeLoad h) with
    | ok _ u =>
      rw [hset, Outcome.bind_ok] at hrun
      exact ⟨u, rfl, hrun⟩
    | threw e u =>
      rw [hset] at hrun
      cases hrun
    | undefined u =>
      rw [hset] at hrun
      cases hrun
  · rw [bind_run, hload] at hrun
    cases hrun

/-- Opening never returns `false`. -/
theorem Engine.openSet_ne_false {s : EngineState} (hs : s.WellFormed) (h : Host) (path : String)
    (t : EngineState) : Engine.openSet h path s ≠ .ok false t := by
  intro hrun
  obtain ⟨-, u, -, hok⟩ := Engine.openSet_eq_ok hs hrun
  obtain ⟨b, p, -, hfinish⟩ := Engine.exists_finishSet h path u
  rw [hfinish] at hok
  cases hok

/-- An exception comes from looking for the file, or from reading its document. -/
theorem Engine.openSet_eq_threw {s t : EngineState} (hs : s.WellFormed) {h : Host} {path : String}
    {e : Thrown} (hrun : Engine.openSet h path s = .threw e t) :
    (JsonLoad.document h path = .null ∧ t = s.beforeLoad h) ∨
      Engine.setState h (JsonLoad.document h path) (s.beforeLoad h) = .threw e t := by
  rw [Engine.openSet_run hs] at hrun
  split_ifs at hrun
  rcases JsonLoad.load_cases h path (s.beforeLoad h) with hload | ⟨hnull, e', hload⟩
  · rw [bind_run, hload, Outcome.bind_ok, bind_run] at hrun
    cases hset : Engine.setState h (JsonLoad.document h path) (s.beforeLoad h) with
    | ok _ u =>
      obtain ⟨b, p, -, hfinish⟩ := Engine.exists_finishSet h path u
      rw [hset, Outcome.bind_ok, hfinish] at hrun
      cases hrun
    | threw e' u =>
      rw [hset] at hrun
      obtain ⟨rfl, rfl⟩ := Outcome.threw.inj hrun
      exact .inr rfl
    | undefined u =>
      rw [hset] at hrun
      cases hrun
  · rw [bind_run, hload] at hrun
    exact .inl ⟨hnull, (Outcome.threw.inj hrun).2.symm⟩

/-! ### What reading a document creates -/

/-- The videos decoded before an exception. -/
def decodedVisuals (h : Host) (setPath : String) (visuals : Json) : List (String × String) :=
  if visuals.isArray then (Visuals.decodeAll h setPath visuals.elements).1 else []

/-- The layers added before an exception. -/
def decodedLayers (h : Host) (layers : Json) : List LayerProperties :=
  if layers.isArray then
    (collect (Layers.decode h) (layers.elements.take maximumNumberOfLayers)).1
  else []

/-- The scenes created before an exception. -/
def decodedScenes (visuals : List Visual) (scenes : Json) : List (String × List Placement) :=
  if scenes.isArray then (Scenes.decodeAll visuals scenes.elements).1 else []

namespace EngineState

/-- The state without its visuals, when there is an array to replace them. -/
def dropVisuals (visuals : Json) (s : EngineState) : EngineState :=
  { s with visualsList := if visuals.isArray then [] else s.visualsList }

variable (h : Host) (s : EngineState)

theorem nextAddr_afterVisuals (visuals : Json) : (s.afterVisuals h visuals).nextAddr =
    s.nextAddr + (decodedVisuals h s.filePath visuals).length := by
  rw [afterVisuals, decodedVisuals]
  split_ifs
  · rw [pushVideos_eq]
  · rfl

theorem nextAddr_pushLayers (layers : List LayerProperties) :
    (s.pushLayers h layers).nextAddr = s.nextAddr + layers.length := by
  induction layers generalizing s with
  | nil => rfl
  | cons p rest ih =>
    change ((s.pushLayer h p).pushLayers h rest).nextAddr = _
    rw [ih, List.length_cons, EngineState.pushLayer, Nat.add_assoc, Nat.add_comm 1]

theorem nextAddr_afterLayers (layers : Json) : (s.afterLayers h layers).nextAddr =
    s.nextAddr + (decodedLayers h layers).length := by
  rw [afterLayers, decodedLayers]
  split_ifs
  · rw [nextAddr_pushLayers]
    rfl
  · rfl

theorem nextAddr_buildScene (scene : String × List Placement) :
    (s.buildScene h scene).nextAddr = s.nextAddr + 1 :=
  foldl_push (EngineState.place h s.nextAddr) (fun t => t.nextAddr = s.nextAddr + 1)
    (fun _ _ ht => ht) scene.2 (s := s.pushScene scene.1) rfl

theorem nextAddr_buildScenes (scenes : List (String × List Placement)) :
    (s.buildScenes h scenes).nextAddr = s.nextAddr + scenes.length := by
  induction scenes generalizing s with
  | nil => rfl
  | cons scene rest ih =>
    change ((s.buildScene h scene).buildScenes h rest).nextAddr = _
    rw [ih, nextAddr_buildScene, List.length_cons, Nat.add_assoc, Nat.add_comm 1]

theorem nextAddr_afterScenes (scenes : Json) : (s.afterScenes h scenes).nextAddr =
    s.nextAddr + (decodedScenes s.visualsList scenes).length := by
  rw [afterScenes, decodedScenes]
  split_ifs
  · rw [nextAddr_buildScenes]
    rfl
  · rfl

variable {h s}

theorem decodedVisuals_eq_nil {visuals : Json}
    (hnil : (s.afterVisuals h visuals).visualsList = []) :
    decodedVisuals h s.filePath visuals = [] := by
  rw [afterVisuals] at hnil
  rw [decodedVisuals]
  split_ifs at hnil ⊢
  · rw [pushVideos_eq] at hnil
    cases hd : (Visuals.decodeAll h s.filePath visuals.elements).1 with
    | nil => rfl
    | cons v rest =>
      rw [hd] at hnil
      cases hnil
  · rfl

theorem decodedLayers_eq_nil {layers : Json} (hnil : (s.afterLayers h layers).layersList = []) :
    decodedLayers h layers = [] := by
  rw [afterLayers] at hnil
  rw [decodedLayers]
  split_ifs at hnil ⊢
  · have hlen := length_pushLayers h (s.clearLayers h)
      (collect (Layers.decode h) (layers.elements.take maximumNumberOfLayers)).1
    rw [hnil, List.length_nil] at hlen
    exact List.length_eq_zero_iff.mp (Nat.eq_zero_of_add_eq_zero_left hlen.symm)
  · rfl

theorem decodedScenes_eq_nil (hs : s.WellFormed) {scenes : Json}
    (hnil : (s.afterScenes h scenes).scenesList = []) :
    decodedScenes s.visualsList scenes = [] := by
  rw [afterScenes] at hnil
  rw [decodedScenes]
  split_ifs at hnil ⊢
  · have hviews := views_clearScenes_buildScenes hs h
      (Scenes.decodeAll s.visualsList scenes.elements).1
    rw [views, hnil, List.map_nil] at hviews
    cases hd : (Scenes.decodeAll s.visualsList scenes.elements).1 with
    | nil => rfl
    | cons scene rest =>
      rw [hd] at hviews
      cases hviews
  · rfl

theorem afterVisuals_of_nil {visuals : Json}
    (hnil : decodedVisuals h s.filePath visuals = []) :
    s.afterVisuals h visuals = s.dropVisuals visuals := by
  rw [decodedVisuals] at hnil
  rw [afterVisuals, dropVisuals]
  split_ifs at hnil ⊢
  · rw [hnil]
    rfl
  · rfl

theorem afterLayers_of_nil {layers : Json} (hs : s.clearLayers h = s)
    (hnil : decodedLayers h layers = []) : s.afterLayers h layers = s := by
  rw [decodedLayers] at hnil
  rw [afterLayers]
  split_ifs at hnil ⊢
  · rw [hnil]
    exact hs
  · rfl

theorem afterScenes_of_nil {scenes : Json} (hnil : decodedScenes s.visualsList scenes = []) :
    s.afterScenes h scenes = if scenes.isArray then s.clearScenes else s := by
  rw [decodedScenes] at hnil
  rw [afterScenes]
  split_ifs at hnil ⊢
  · rw [hnil]
    rfl
  · rfl

end EngineState

/-! ### How far reading gets -/

/-- No entry of the document comes to anything before one throws. -/
def DecodesNothing (h : Host) (s : EngineState) (document : Json) : Prop :=
  decodedVisuals h s.filePath (document.field "visuals") = [] ∧
  (visualsError h s.filePath (document.field "visuals") = none →
    decodedLayers h (document.field "layers") = [] ∧
    (layersError h (document.field "layers") = none →
      decodedScenes (s.dropVisuals (document.field "visuals")).visualsList
        (document.field "scenes") = []))

/-- Reading the document gets to its scenes. -/
def ReachesScenes (h : Host) (s : EngineState) (document : Json) : Prop :=
  (document.field "scenes").isArray = true ∧
    visualsError h s.filePath (document.field "visuals") = none ∧
    layersError h (document.field "layers") = none

instance (h : Host) (s : EngineState) (document : Json) : Decidable (ReachesScenes h s document) :=
  inferInstanceAs (Decidable (_ ∧ _ ∧ _))

/-- The document has no arrays to read, or reading it throws. -/
def ReadingFails (h : Host) (document : Json) (s t : EngineState) : Prop :=
  ((∀ key, (document.field key).isArray = false) ∧ t = s) ∨
    ∃ e, Engine.setState h document s = .threw e t

section reading

variable {h : Host} {document : Json} {s t : EngineState}

/-- The cases of a reading that fails, a document that is not an object being one without arrays. -/
theorem ReadingFails.cases (hs : s.WellFormed) (ht : ReadingFails h document s t) :
    ((∀ key, (document.field key).isArray = false) ∧ t = s) ∨
    (visualsError h s.filePath (document.field "visuals") ≠ none ∧
      t = s.afterVisuals h (document.field "visuals")) ∨
    (visualsError h s.filePath (document.field "visuals") = none ∧
      layersError h (document.field "layers") ≠ none ∧
      t = (s.afterVisuals h (document.field "visuals")).afterLayers h (document.field "layers")) ∨
    (ReachesScenes h s document ∧
      t = ((s.afterVisuals h (document.field "visuals")).afterLayers h
        (document.field "layers")).afterScenes h (document.field "scenes")) := by
  rcases ht with ht | ⟨e, he⟩
  · exact .inl ht
  rcases Engine.setState_eq_threw hs he with ⟨hi, ht⟩ | ⟨hv, ht⟩ | ⟨hv, hl, ht⟩ | ⟨hv, hl, hsc, ht⟩
  · refine .inl ⟨fun key => ?_, ht⟩
    cases document <;> first | rfl | exact Bool.noConfusion hi
  · exact .inr (.inl ⟨by rw [hv]; exact Option.some_ne_none e, ht⟩)
  · exact .inr (.inr (.inl ⟨hv, by rw [hl]; exact Option.some_ne_none e, ht⟩))
  · refine .inr (.inr (.inr ⟨⟨?_, hv, hl⟩, ht⟩))
    rw [scenesError] at hsc
    by_contra ha
    rw [if_neg ha] at hsc
    cases hsc

/-- If reading has used no new address, or left no objects, then nothing has been decoded. -/
theorem ReadingFails.decodesNothing (hs : s.WellFormed) (ht : ReadingFails h document s t)
    (hnone : t.nextAddr = s.nextAddr ∨
      (t.visualsList = [] ∧ t.layersList = [] ∧ t.scenesList = [])) :
    DecodesNothing h s document := by
  have hnil : ∀ {α β γ : Type} {l : List α} {m : List β} {n : List γ} {a : ℕ},
      a + l.length + m.length + n.length = a → l = [] ∧ m = [] ∧ n = [] := by
    intro α β γ l m n a hsum
    simp only [← List.length_eq_zero_iff]
    omega
  rcases ht.cases hs with ⟨hno, -⟩ | ⟨hv, rfl⟩ | ⟨hv, hl, rfl⟩ | ⟨⟨-, hv, hl⟩, rfl⟩
  · simp [DecodesNothing, decodedVisuals, decodedLayers, decodedScenes, hno]
  · refine ⟨?_, fun h => absurd h hv⟩
    rcases hnone with hnext | hempty
    · rw [EngineState.nextAddr_afterVisuals] at hnext
      exact (hnil (m := ([] : List ℕ)) (n := ([] : List ℕ)) hnext).1
    · exact EngineState.decodedVisuals_eq_nil hempty.1
  · have hall : decodedVisuals h s.filePath (document.field "visuals") = [] ∧
        decodedLayers h (document.field "layers") = [] := by
      rcases hnone with hnext | ⟨hvisuals, hlayers, -⟩
      · rw [EngineState.nextAddr_afterLayers, EngineState.nextAddr_afterVisuals] at hnext
        have hboth := hnil (n := ([] : List ℕ)) hnext
        exact ⟨hboth.1, hboth.2.1⟩
      · rw [EngineState.visualsList_afterLayers] at hvisuals
        exact ⟨EngineState.decodedVisuals_eq_nil hvisuals,
          EngineState.decodedLayers_eq_nil hlayers⟩
    exact ⟨hall.1, fun _ => ⟨hall.2, fun h => absurd h hl⟩⟩
  · have hall : decodedVisuals h s.filePath (document.field "visuals") = [] ∧
        decodedLayers h (document.field "layers") = [] ∧
        decodedScenes (s.afterVisuals h (document.field "visuals")).visualsList
          (document.field "scenes") = [] := by
      rcases hnone with hnext | ⟨hvisuals, hlayers, hscenes⟩
      · rw [EngineState.nextAddr_afterScenes, EngineState.nextAddr_afterLayers,
          EngineState.nextAddr_afterVisuals, EngineState.visualsList_afterLayers] at hnext
        exact hnil hnext
      · rw [EngineState.visualsList_afterScenes, EngineState.visualsList_afterLayers] at hvisuals
        obtain ⟨l, i, n, p, hl⟩ := EngineState.exists_afterScenes h
          ((s.afterVisuals h (document.field "visuals")).afterLayers h (document.field "layers"))
          (document.field "scenes")
        rw [hl] at hlayers
        refine ⟨EngineState.decodedVisuals_eq_nil hvisuals,
          EngineState.decodedLayers_eq_nil hlayers, ?_⟩
        rw [← EngineState.visualsList_afterLayers h _ (document.field "layers")]
        exact EngineState.decodedScenes_eq_nil ((hs.afterVisuals h _).afterLayers h _) hscenes
    refine ⟨hall.1, fun _ => ⟨hall.2.1, fun _ => ?_⟩⟩
    have hscenes := hall.2.2
    rw [EngineState.afterVisuals_of_nil hall.1] at hscenes
    exact hscenes

/-- What a failed reading leaves when nothing has been decoded: the visuals are gone if the document
has an array for them, and the scenes if reading gets to them. -/
theorem ReadingFails.eq_of_decodesNothing (hs : s.WellFormed) (hclear : s.clearLayers h = s)
    (ht : ReadingFails h document s t) (hd : DecodesNothing h s document) :
    t = if ReachesScenes h s document then (s.dropVisuals (document.field "visuals")).clearScenes
      else s.dropVisuals (document.field "visuals") := by
  obtain ⟨hvisuals, hrest⟩ := hd
  have hclear' : (s.dropVisuals (document.field "visuals")).clearLayers h =
      s.dropVisuals (document.field "visuals") := by
    cases s
    simp only [EngineState.dropVisuals, EngineState.clearLayers, EngineState.mk.injEq,
      true_and] at hclear ⊢
    exact hclear
  rcases ht.cases hs with ⟨hno, rfl⟩ | ⟨hv, rfl⟩ | ⟨hv, hl, rfl⟩ | ⟨hreach, rfl⟩
  · rw [if_neg fun hr => by simp [ReachesScenes, hno] at hr, EngineState.dropVisuals,
      if_neg (by simp [hno])]
  · rw [if_neg fun hr => hv hr.2.1, EngineState.afterVisuals_of_nil hvisuals]
  · rw [if_neg fun hr => hl hr.2.2, EngineState.afterVisuals_of_nil hvisuals,
      EngineState.afterLayers_of_nil hclear' (hrest hv).1]
  · obtain ⟨ha, hv, hl⟩ := hreach
    rw [if_pos ⟨ha, hv, hl⟩, EngineState.afterVisuals_of_nil hvisuals,
      EngineState.afterLayers_of_nil hclear' (hrest hv).1,
      EngineState.afterScenes_of_nil ((hrest hv).2 hl), if_pos ha]

/-- Reading a document leaves the rest of the engine alone. -/
theorem ReadingFails.exists_eq (hs : s.WellFormed) (ht : ReadingFails h document s t) :
    ∃ v l sc i n p, t = { s with
      visualsList := v, layersList := l, scenesList := sc, instances := i, nextAddr := n,
      properties := p } := by
  rcases ht with ⟨-, rfl⟩ | ⟨e, he⟩
  · exact ⟨_, _, _, _, _, _, rfl⟩
  · exact Engine.exists_of_setState hs (by rw [he]; rfl)

end reading

/-! ### When a failed call is clean -/

/-- There are no layers, no visuals, no scenes, no current scene and no output buffer, and no set is
open. -/
def EngineState.Closed (s : EngineState) : Prop :=
  s.layersList = [] ∧ s.visualsList = [] ∧ s.scenesList = [] ∧ s.currentScene = none ∧
    s.buffer = none ∧ s.setOpened = false ∧ s.properties.currentFilePath = ""

theorem Engine.readingFails_of_openSet {s t : EngineState} (hs : s.WellFormed) {h : Host}
    {path : String} {e : Thrown} (hrun : Engine.openSet h path s = .threw e t) :
    ReadingFails h (JsonLoad.document h path) (s.beforeLoad h) t := by
  rcases Engine.openSet_eq_threw hs hrun with ⟨hnull, ht⟩ | ht
  · rw [hnull]
    exact .inl ⟨fun _ => rfl, ht⟩
  · exact .inr ⟨e, ht⟩

/-- A call that fails from a set that is loaded leaves neither: the set is no longer loaded, but its
scene is still the current one. -/
theorem failedOpen_of_loaded {s t : EngineState} (hs : s.WellFormed) {h : Host} {path : String}
    {e : Thrown} (hrun : Engine.openSet h path s = .threw e t) (hl : s.loaded = true) :
    ¬ (t.resetProperties h = s.resetProperties h ∨ t.Closed) := by
  obtain ⟨v, l, sc, i, n, p, ht⟩ :=
    (Engine.readingFails_of_openSet hs hrun).exists_eq (hs.beforeLoad h)
  rw [EngineState.beforeLoad, if_pos hl] at ht
  rintro (hsame | hclosed)
  · have hloaded : (t.resetProperties h).loaded = (s.resetProperties h).loaded :=
      congrArg EngineState.loaded hsame
    change t.loaded = s.loaded at hloaded
    rw [hl, ht] at hloaded
    cases hloaded
  · have hnone : t.currentScene = none := hclosed.2.2.2.1
    rw [ht] at hnone
    exact hs.currentScene_ne hl hnone

section nothingDecoded

variable {s t : EngineState} {h : Host} {visuals : Json} {reaches : Prop} [Decidable reaches]

private theorem droppedVisuals_iff (l : List Visual) :
    ((if visuals.isArray = true then [] else l) = l ↔ (visuals.isArray = true → l = [])) ∧
      ((if visuals.isArray = true then [] else l) = [] ↔ (visuals.isArray = true ∨ l = [])) := by
  by_cases ha : visuals.isArray = true <;> simp [ha, eq_comm]

variable (hl : s.loaded = false)
  (ht : t = if reaches then ((s.beforeLoad h).dropVisuals visuals).clearScenes
    else (s.beforeLoad h).dropVisuals visuals)

include hl ht

/-- A failed call that has decoded nothing changes nothing if it has dropped nothing. -/
theorem resetProperties_eq_iff_of_decodesNothing : t.resetProperties h = s.resetProperties h ↔
    s.buffer = none ∧ s.layersList = [] ∧ s.properties.selectedLayer = 0 ∧
      (visuals.isArray = true → s.visualsList = []) ∧ (reaches → s.scenesList = []) := by
  subst ht
  cases s
  cases hl
  rename_i properties _ _ _ _
  cases properties
  simp only [EngineState.beforeLoad, Bool.false_eq_true, ↓reduceIte]
  by_cases hr : reaches
  · simp only [hr, EngineState.resetProperties, EngineState.clearScenes, EngineState.dropVisuals,
      EngineState.clearLayers, EngineProperties.setDefaults, EngineState.mk.injEq,
      EngineProperties.mk.injEq, droppedVisuals_iff, ↓reduceIte, and_true, true_and,
      eq_comm (a := [])]
    constructor
    · rintro ⟨hv, hsc, hlay, -, hsel, hbuf⟩
      exact ⟨hbuf.symm, hlay, hsel.symm, hv, fun _ => hsc⟩
    · rintro ⟨rfl, hlay, rfl, hv, hsc⟩
      obtain rfl := hsc trivial
      exact ⟨hv, rfl, hlay, rfl, rfl, rfl⟩
  · simp only [hr, EngineState.resetProperties, EngineState.dropVisuals, EngineState.clearLayers,
      EngineProperties.setDefaults, EngineState.mk.injEq, EngineProperties.mk.injEq,
      droppedVisuals_iff, ↓reduceIte, and_true, true_and, eq_comm (a := [])]
    constructor
    · rintro ⟨hv, hlay, hsel, hbuf⟩
      exact ⟨hbuf.symm, hlay, hsel.symm, hv, False.elim⟩
    · rintro ⟨rfl, hlay, rfl, hv, -⟩
      exact ⟨hv, hlay, rfl, rfl⟩

/-- It closes the engine if nothing is left. -/
theorem closed_iff_of_decodesNothing : t.Closed ↔ s.currentScene = none ∧ s.setOpened = false ∧
    (visuals.isArray = true ∨ s.visualsList = []) ∧ (reaches ∨ s.scenesList = []) := by
  subst ht
  cases s
  cases hl
  simp only [EngineState.beforeLoad, Bool.false_eq_true, ↓reduceIte]
  by_cases hr : reaches
  · simp only [hr, EngineState.Closed, EngineState.clearScenes, EngineState.dropVisuals,
      EngineState.clearLayers, EngineProperties.setDefaults, droppedVisuals_iff, ↓reduceIte,
      true_and, and_true, true_or]
    tauto
  · simp only [hr, EngineState.Closed, EngineState.dropVisuals, EngineState.clearLayers,
      EngineProperties.setDefaults, droppedVisuals_iff, ↓reduceIte, true_and, and_true, false_or]
    tauto

/-- What a failed call leaves, compared with what was there, when nothing has been decoded. -/
theorem failedOpen_of_decodesNothing : (t.resetProperties h = s.resetProperties h ∨ t.Closed) ↔
    (s.buffer = none ∧ s.layersList = [] ∧ s.properties.selectedLayer = 0 ∧
      (visuals.isArray = true → s.visualsList = []) ∧ (reaches → s.scenesList = [])) ∨
    (s.currentScene = none ∧ s.setOpened = false ∧
      (visuals.isArray = true ∨ s.visualsList = []) ∧ (reaches ∨ s.scenesList = [])) :=
  or_congr (resetProperties_eq_iff_of_decodesNothing hl ht) (closed_iff_of_decodesNothing hl ht)

end nothingDecoded

/-- From every reachable state, opening a set does not return `false`, and an exception leaves the
engine as it was, the engine properties being compared as an access finds them, or closed, exactly
when the set was not loaded, the document comes to nothing before the exception, and either nothing
that was there has been dropped or nothing that was there is left. -/
theorem failedOpen_clean_iff {s : EngineState} (hs : s.Reachable) (h : Host) (path : String) :
    (∀ t, Engine.openSet h path s ≠ .ok false t) ∧
    ∀ e t, Engine.openSet h path s = .threw e t →
      ((t.resetProperties h = s.resetProperties h ∨ t.Closed) ↔
        s.loaded = false ∧ DecodesNothing h s (JsonLoad.document h path) ∧
        ((s.buffer = none ∧ s.layersList = [] ∧ s.properties.selectedLayer = 0 ∧
            (((JsonLoad.document h path).field "visuals").isArray = true → s.visualsList = []) ∧
            (ReachesScenes h s (JsonLoad.document h path) → s.scenesList = [])) ∨
          (s.currentScene = none ∧ s.setOpened = false ∧
            (((JsonLoad.document h path).field "visuals").isArray = true ∨ s.visualsList = []) ∧
            (ReachesScenes h s (JsonLoad.document h path) ∨ s.scenesList = [])))) := by
  refine ⟨Engine.openSet_ne_false hs.wellFormed h path, fun e t hrun => ?_⟩
  by_cases hl : s.loaded = true
  · simp [failedOpen_of_loaded hs.wellFormed hrun hl, hl]
  have hl : s.loaded = false := by simpa using hl
  have hfails := Engine.readingFails_of_openSet hs.wellFormed hrun
  have hbefore : s.beforeLoad h = ({ s with buffer := none } : EngineState).clearLayers h := by
    rw [EngineState.beforeLoad, if_neg (by simp [hl])]
  -- The decoders see the state before loading, which agrees with `s` where they look.
  have hdecodes : DecodesNothing h (s.beforeLoad h) (JsonLoad.document h path) ↔
      DecodesNothing h s (JsonLoad.document h path) := by
    rw [hbefore]
    rfl
  have hreaches : ReachesScenes h (s.beforeLoad h) (JsonLoad.document h path) ↔
      ReachesScenes h s (JsonLoad.document h path) := by
    rw [hbefore]
    rfl
  have hiff : DecodesNothing h s (JsonLoad.document h path) → _ := fun hd =>
    failedOpen_of_decodesNothing hl
      (hfails.eq_of_decodesNothing (hs.wellFormed.beforeLoad h) (by rw [hbefore]; rfl)
        (hdecodes.mpr hd))
  rw [hreaches] at hiff
  constructor
  · intro hclean
    have hd : DecodesNothing h s (JsonLoad.document h path) := by
      refine hdecodes.mp (hfails.decodesNothing (hs.wellFormed.beforeLoad h) ?_)
      rcases hclean with hsame | ⟨hlayers, hvisuals, hscenes, -⟩
      · refine .inl ?_
        have hnext : (t.resetProperties h).nextAddr = (s.resetProperties h).nextAddr :=
          congrArg EngineState.nextAddr hsame
        rw [hbefore]
        exact hnext
      · exact .inr ⟨hvisuals, hlayers, hscenes⟩
    exact ⟨hl, hd, (hiff hd).mp hclean⟩
  · rintro ⟨-, hd, hcond⟩
    exact (hiff hd).mpr hcond

/-- Surroundings without files. -/
def Host.noFiles : Host :=
  { Host.plain with doesFileExist := fun _ _ => false }

/-- A document with a video and a scene. -/
def videoDocument : Json :=
  .obj [("visuals", .arr [.obj [("type", .int 0), ("caption", .str "a"), ("filePath", .str "a.mov")]]),
    ("scenes", .arr [.obj [("name", .str "Intro")]])]

/-- When no set has been opened, a missing file leaves visuals and scenes that have been decoded as
they were. -/
theorem failedOpen_clean_decoded : ∃ s : EngineState, s.Reachable ∧ s.visualsList ≠ [] ∧
    s.scenesList ≠ [] ∧ ∃ e t, Engine.openSet .noFiles "missing.json" s = .threw e t ∧
      t.resetProperties .noFiles = s.resetProperties .noFiles := by
  obtain ⟨s, hs, hvisuals, hscenes, ⟨hloaded, hbuffer, hlayers, hselected⟩, hrun⟩ :
      ∃ s : EngineState, s.Reachable ∧ s.visualsList ≠ [] ∧ s.scenesList ≠ [] ∧
        (s.loaded = false ∧ s.buffer = none ∧ s.layersList = [] ∧ s.properties.selectedLayer = 0) ∧
          (Engine.openSet .noFiles "missing.json" s).throws
            (fun _ t => decide (t.visualsList ≠ [])) = true :=
    exists_reaches [(Host.plain, .setState videoDocument)] (by decide +kernel)
  obtain ⟨e, t, ht, hkept⟩ := Outcome.exists_of_throws hrun
  have hclean := ((failedOpen_clean_iff hs .noFiles "missing.json").2 e t ht).mpr
    ⟨hloaded, ⟨rfl, fun _ => ⟨rfl, fun _ => rfl⟩⟩,
      .inl ⟨hbuffer, hlayers, hselected, fun harr => Bool.noConfusion harr,
        fun hreaches => Bool.noConfusion hreaches.1⟩⟩
  refine ⟨s, hs, hvisuals, hscenes, e, t, ht, hclean.resolve_right fun hclosed => ?_⟩
  exact of_decide_eq_true hkept hclosed.2.1

/-- After a set has been created, a missing file leaves the engine neither as it was nor closed. -/
theorem failedOpen_clean_newSet : ∃ s : EngineState, s.Reachable ∧
    ∃ e t, Engine.openSet .noFiles "missing.json" s = .threw e t ∧
      ¬ (t.resetProperties .noFiles = s.resetProperties .noFiles ∨ t.Closed) := by
  obtain ⟨s, hs, hl, hrun⟩ : ∃ s : EngineState, s.Reachable ∧ s.loaded = true ∧
      (Engine.openSet .noFiles "missing.json" s).throws (fun _ _ => true) = true :=
    exists_reaches [(Host.plain, .newSet 640 480 2)] (by decide +kernel)
  obtain ⟨e, t, ht, -⟩ := Outcome.exists_of_throws hrun
  exact ⟨s, hs, e, t, ht, failedOpen_of_loaded hs.wellFormed ht hl⟩

end ArbutusEngine
