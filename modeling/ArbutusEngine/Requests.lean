import ArbutusEngine.Decoding

/-!
# What the handlers of requests do

The outcome of every handler of `handleJSONRequestForClient`. Four of them look up layers or
instances by numbers that the client sends, and dereference what they find without a check: a layer
at an index (`setLayerControl`), layers at the positions of an array (`updateState`), the layers
that `Layers::add` returns for an array (`setState`), and the instance in the selected cell
(`getFullState`). Besides, `getState` follows the pointers of all instances to their visuals, and
`setState` empties the list of visuals. `RequestSafe` says exactly when all that a handler needs is
there.

## Main definitions

* `requestAction`, `requestedLayer`: what a request asks for.
* `RequestSafe`, `NamesMissingLayer`.

## Main results

* `updateFrom_cases`, `setLayerControl_cases`, `Engine.getFullState_cases`.
* `handle_defined_iff`, `request_safe_iff`.
-/

open Exec

namespace ArbutusEngine

/-! ### Requests -/

/-- The action a request names, if it names one. -/
def requestAction (request : Json) : Option Action :=
  match request.field "action" with
  | .str action => Action.ofString action
  | _ => none

section dispatch

variable {h : Host} {request : Json} {s : EngineState}

/-- A request that names an action is handled by its branch. -/
theorem handle_of_action {action : Action} (ha : requestAction request = some action) :
    handleJSONRequestForClient h request = handleAction h request action := by
  rw [requestAction] at ha
  split at ha
  · rename_i name hname
    have hi : request.isIndexable = true := by
      cases request <;> first | rfl | exact Json.noConfusion rfl (heq_of_eq hname)
    simp [handleJSONRequestForClient, Json.index_of_isIndexable hi, hname, Json.isString,
      Json.getString, ha]
  · cases ha

/-- A request that names none is rejected, by a `std::exception` unless it has an action that is not
supported. -/
theorem handle_of_no_action (ha : requestAction request = none) :
    ∃ e, handleJSONRequestForClient h request s = .threw e s ∧
      ((request.field "action").isString = false → e.isException = true) := by
  by_cases hi : request.isIndexable = true
  swap
  · have hi : request.isIndexable = false := by simpa using hi
    refine ⟨.exception request.indexError, ?_, fun _ => rfl⟩
    rw [handleJSONRequestForClient, Json.index_of_not_isIndexable hi]
    rfl
  rw [handleJSONRequestForClient, Json.index_of_isIndexable hi]
  rw [requestAction] at ha
  cases hname : request.field "action" with
  | str name =>
    rw [hname] at ha
    simp only [ofExcept_ok, pure_bind, Json.isString, Json.getString, ↓reduceIte, ha]
    exact ⟨_, rfl, fun h => Bool.noConfusion h⟩
  | _ => exact ⟨_, rfl, fun _ => rfl⟩

theorem isIndexable_of_requestAction {action : Action}
    (ha : requestAction request = some action) : request.isIndexable = true := by
  cases request <;> first | rfl | cases ha

theorem handle_getState (ha : requestAction request = some .getState) :
    handleJSONRequestForClient h request s =
      (Engine.getState s).bind fun data t => .ok (response true "" data) t := by
  rw [handle_of_action ha]
  rfl

theorem handle_getFullState (ha : requestAction request = some .getFullState) :
    handleJSONRequestForClient h request s =
      (Engine.getFullState h s).bind fun data t => .ok (response true "" data) t := by
  rw [handle_of_action ha]
  rfl

theorem handle_setLayerControl (ha : requestAction request = some .setLayerControl) :
    handleJSONRequestForClient h request s = setLayerControl h (request.field "data") s := by
  rw [handle_of_action ha, handleAction,
    Json.index_of_isIndexable (isIndexable_of_requestAction ha)]
  rfl

theorem handle_updateState (ha : requestAction request = some .updateState) :
    handleJSONRequestForClient h request s =
      (updateState (request.field "data") s).bind fun data t => .ok (response true "" data) t := by
  rw [handle_of_action ha, handleAction,
    Json.index_of_isIndexable (isIndexable_of_requestAction ha)]
  rfl

theorem handle_setState (ha : requestAction request = some .setState)
    (ho : (request.field "data").isObject = true) :
    handleJSONRequestForClient h request s = (Engine.setState h (request.field "data") s).bind
      fun _ t => .ok (response true "" .null) t := by
  have hset : handleSetState h request = do
      Engine.setState h (request.field "data")
      return .null := by
    rw [handleSetState, Json.index_of_isIndexable (isIndexable_of_requestAction ha)]
    simp only [ofExcept_ok, pure_bind, ho, ↓reduceIte]
  rw [handle_of_action ha, handleAction, hset, bind_run, bind_run]
  cases Engine.setState h (request.field "data") s <;> rfl

theorem handle_setState_of_not_isObject (ha : requestAction request = some .setState)
    (ho : (request.field "data").isObject = false) :
    handleJSONRequestForClient h request s =
      .threw (.exception "No data sent for state change.") s := by
  rw [handle_of_action ha, handleAction, handleSetState,
    Json.index_of_isIndexable (isIndexable_of_requestAction ha)]
  simp [ho]

end dispatch

/-! ### Updating layers -/

theorem Layer.setState_eq (n : ℕ) (state : Json) (s : EngineState) :
    Layer.setState n state s =
      match s.layersList[n]? with
      | none => .undefined .nullPointer
      | some layer =>
        match layer.properties.setState state with
        | .error what => .threw (.exception what) s
        | .ok p => .ok () { s with
            layersList := s.layersList.modify n fun l => { l with properties := p } } := by
  cases hn : s.layersList[n]? with
  | none => simp [Layer.setState, Layer.read, hn]
  | some layer =>
    cases hp : layer.properties.setState state with
    | error what => simp [Layer.setState, Layer.read, hn, hp]
    | ok p => simp [Layer.setState, Layer.update, Layer.read, hn, hp]

/-- The loop of `updateLayers` over the entries from position `n` on. -/
def updateFrom {N : Type} [FloatNumber N] (n : ℕ) (entries : List (Json N)) : ProgOver N Unit :=
  forEach (entries.zipIdx n) fun layer => Layer.setState layer.2 layer.1

/-- The loop updates all layers, or stops at the first entry that is not an object, leaving the
layers from its position on as they were, or runs past the last layer. -/
theorem updateFrom_cases (entries : List Json) : ∀ (n : ℕ) (s : EngineState),
    n ≤ s.layersList.length →
    (n + entries.length ≤ s.layersList.length ∧ (∀ e ∈ entries, e.isIndexable = true) ∧
      ∃ l, updateFrom n entries s = .ok () { s with layersList := l }) ∨
    (∃ k e l, entries[k]? = some e ∧ e.isIndexable = false ∧ n + k < s.layersList.length ∧
      updateFrom n entries s = .threw (.exception e.indexError) { s with layersList := l } ∧
      l.length = s.layersList.length ∧ ∀ j, n + k ≤ j → l[j]? = s.layersList[j]?) ∨
    (s.layersList.length < n + entries.length ∧
      (∀ e ∈ entries.take (s.layersList.length - n), e.isIndexable = true) ∧
      updateFrom n entries s = .undefined .nullPointer) := by
  induction entries with
  | nil => exact fun n s hn => .inl ⟨hn, fun _ he => absurd he List.not_mem_nil, _, rfl⟩
  | cons e rest ih =>
    intro n s hn
    have hcons : updateFrom n (e :: rest) s =
        (Layer.setState n e s).bind fun _ t => updateFrom (n + 1) rest t := rfl
    rcases hn.eq_or_lt with hfull | hroom
    · refine .inr (.inr ⟨by simp [hfull], by simp [hfull], ?_⟩)
      rw [hcons, Layer.setState_eq, List.getElem?_eq_none hfull.ge]
      rfl
    rw [hcons, Layer.setState_eq, List.getElem?_eq_getElem hroom]
    by_cases hi : e.isIndexable = true
    swap
    · have hi : e.isIndexable = false := by simpa using hi
      refine .inr (.inl ⟨0, e, s.layersList, rfl, hi, hroom, ?_, rfl, fun _ _ => rfl⟩)
      simp only [LayerProperties.setState_eq_error hi]
      rfl
    obtain ⟨p, hp⟩ := LayerProperties.setState_eq_ok hi s.layersList[n].properties
    simp only [hp, Outcome.bind_ok]
    let s' : EngineState := { s with
      layersList := s.layersList.modify n fun l => { l with properties := p } }
    have hlen : s'.layersList.length = s.layersList.length := List.length_modify ..
    rcases ih (n + 1) s' (by omega) with ⟨hle, hall, l, hrun⟩ |
      ⟨k, e', l, he', hi', hk, hrun, hl, hsame⟩ | ⟨hlt, hall, hrun⟩
    · refine .inl ⟨by rw [List.length_cons]; omega, List.forall_mem_cons.mpr ⟨hi, hall⟩, l, hrun⟩
    · refine .inr (.inl ⟨k + 1, e', l, he', hi', by omega, hrun, hl.trans hlen, fun j hj => ?_⟩)
      rw [hsame j (by omega)]
      exact List.getElem?_modify_ne _ _ (by omega)
    · refine .inr (.inr ⟨by rw [List.length_cons]; omega, ?_, hrun⟩)
      have hsucc : s.layersList.length - n = (s'.layersList.length - (n + 1)) + 1 := by omega
      rw [hsucc, List.take_succ_cons]
      exact List.forall_mem_cons.mpr ⟨hi, hall⟩

/-- What `updateState` does with the entries of its data. -/
theorem updateState_cases (data : Json) (s : EngineState) :
    ((data.field "layers").elements.length ≤ s.layersList.length ∧
      (∀ e ∈ (data.field "layers").elements, e.isIndexable = true) ∧
      ∃ l, updateState data s = .ok (.obj [("result", .bool true)]) { s with layersList := l }) ∨
    (∃ k what l, updateState data s = .threw (.exception what) { s with layersList := l } ∧
      l.length = s.layersList.length ∧ (∀ j, k ≤ j → l[j]? = s.layersList[j]?) ∧
      ((data.isIndexable = false ∧ k = 0) ∨
        ∃ e, (data.field "layers").elements[k]? = some e ∧ e.isIndexable = false ∧
          k < s.layersList.length)) ∨
    (s.layersList.length < (data.field "layers").elements.length ∧
      (∀ e ∈ (data.field "layers").elements.take s.layersList.length, e.isIndexable = true) ∧
      updateState data s = .undefined .nullPointer) := by
  by_cases hi : data.isIndexable = true
  swap
  · have hi : data.isIndexable = false := by simpa using hi
    refine .inr (.inl ⟨0, data.indexError, s.layersList, ?_, rfl, fun _ _ => rfl, .inl ⟨hi, rfl⟩⟩)
    rw [updateState, Json.index_of_not_isIndexable hi]
    rfl
  have hrun : updateState data s = (updateFrom 0 (data.field "layers").elements s).bind
      fun _ t => .ok (.obj [("result", .bool true)]) t := by
    rw [updateState, Json.index_of_isIndexable hi]
    rfl
  rcases updateFrom_cases (data.field "layers").elements 0 s (Nat.zero_le _) with
    ⟨hle, hall, l, hfrom⟩ | ⟨k, e, l, he, hi', hk, hfrom, hlen, hsame⟩ | ⟨hlt, hall, hfrom⟩
  · rw [hfrom] at hrun
    exact .inl ⟨by omega, hall, l, hrun⟩
  · rw [hfrom] at hrun
    rw [Nat.zero_add] at hk hsame
    exact .inr (.inl ⟨k, _, l, hrun, hlen, hsame, .inr ⟨e, he, hi', hk⟩⟩)
  · rw [hfrom] at hrun
    exact .inr (.inr ⟨by omega, hall, hrun⟩)

/-! ### Controlling a layer -/

/-- The index of the layer that the data of a `setLayerControl` names, if all it needs is there. -/
def requestedLayer (data : Json) : Option ℕ :=
  if data.isIndexable && (data.field "name").isString && (data.field "value").isString then
    match (data.field "layer").getInt with
    | .ok layer => some layer.toUInt32.toNat
    | .error _ => none
  else none

theorem exists_of_requestedLayer {data : Json} {n : ℕ} (hn : requestedLayer data = some n) :
    ∃ layer, (data.field "layer").getInt = .ok layer ∧ layer.toUInt32.toNat = n := by
  rw [requestedLayer] at hn
  split_ifs at hn
  cases hl : (data.field "layer").getInt with
  | ok layer =>
    rw [hl] at hn
    exact ⟨layer, rfl, Option.some.inj hn⟩
  | error what =>
    rw [hl] at hn
    cases hn

theorem LayerProperties.getFloat_alpha_getState {N : Type} [FloatNumber N]
    (p : LayerProperties N) :
    (p.getState.index "alpha").bind Json.getFloat = .ok (FloatNumber.single p.alpha) := by
  have hi : p.getState.isIndexable = true := by
    simp only [LayerProperties.getState, Json.isIndexable_insert]
  have hf : p.getState.field "alpha" = .float p.alpha := by
    simp only [LayerProperties.getState, SizeProperties.getState, Json.field_insert]
    rfl
  rw [Json.index_of_isIndexable hi, hf]
  rfl

/-- Data that do not name a layer are rejected. -/
theorem setLayerControl_of_not_requested {data : Json} (hnone : requestedLayer data = none)
    (h : Host) (s : EngineState) :
    ∃ what, setLayerControl h data s = .threw (.exception what) s := by
  by_cases hi : data.isIndexable = true
  swap
  · refine ⟨data.indexError, ?_⟩
    rw [setLayerControl, Json.index_of_not_isIndexable (Bool.eq_false_iff.mpr hi)]
    rfl
  have hx := Json.index_of_isIndexable hi
  by_cases hn : (data.field "name").isString = true
  swap
  · refine ⟨(data.field "name").typeError "string", ?_⟩
    rw [setLayerControl, hx, Except.bind,
      Json.getString_of_not_isString (Bool.eq_false_iff.mpr hn)]
    rfl
  obtain ⟨name, hname⟩ := Json.exists_getString hn
  have hname' : (data.index "name").bind Json.getString = .ok name := by rw [hx, hname]; rfl
  by_cases hv : (data.field "value").isString = true
  swap
  · refine ⟨(data.field "value").typeError "string", ?_⟩
    rw [setLayerControl, hname', hx, Except.bind,
      Json.getString_of_not_isString (Bool.eq_false_iff.mpr hv)]
    rfl
  obtain ⟨value, hvalue⟩ := Json.exists_getString hv
  have hvalue' : (data.index "value").bind Json.getString = .ok value := by rw [hx, hvalue]; rfl
  cases hl : (data.field "layer").getInt with
  | ok layer => simp [requestedLayer, hi, hn, hv, hl] at hnone
  | error what =>
    have hl' : (data.index "layer").bind Json.getInt = .error what := by rw [hx]; exact hl
    refine ⟨what, ?_⟩
    rw [setLayerControl, hname', hvalue', hl']
    rfl

/-- Data that name a layer set one property of it. -/
theorem setLayerControl_of_requested {data : Json} {n : ℕ} (hn : requestedLayer data = some n)
    (h : Host) : ∃ name value, ∀ s : EngineState, setLayerControl h data s =
      (Layer.setState n (.obj [(name, .float value)]) s).bind
        fun _ t => (Layer.read n t).bind fun l t =>
          ((Prog.json ((l.properties.getState.index "alpha").bind Json.getFloat)) t).bind
            fun alpha t => .ok (.obj [("result", .bool (value ≤ alpha ∧ alpha ≤ value))]) t := by
  obtain ⟨layer, hl, rfl⟩ := exists_of_requestedLayer hn
  rw [requestedLayer] at hn
  split_ifs at hn with hstrings
  simp only [Bool.and_eq_true] at hstrings
  obtain ⟨⟨hi, hname⟩, hvalue⟩ := hstrings
  have hx := Json.index_of_isIndexable hi
  obtain ⟨name, hname⟩ := Json.exists_getString hname
  obtain ⟨value, hvalue⟩ := Json.exists_getString hvalue
  have hname' : (data.index "name").bind Json.getString = .ok name := by rw [hx, hname]; rfl
  have hvalue' : (data.index "value").bind Json.getString = .ok value := by rw [hx, hvalue]; rfl
  have hl' : (data.index "layer").bind Json.getInt = .ok layer := by rw [hx]; exact hl
  refine ⟨name, h.ofToFloat value, fun s => ?_⟩
  rw [setLayerControl, hname', hvalue', hl']
  rfl

/-- `setLayerControl` throws on data it cannot read, and otherwise dereferences the layer named. -/
theorem setLayerControl_cases (h : Host) (data : Json) (s : EngineState) :
    (requestedLayer data = none ∧ ∃ what, setLayerControl h data s = .threw (.exception what) s) ∨
    (∃ n, requestedLayer data = some n ∧
      ((s.layersList.length ≤ n ∧ setLayerControl h data s = .undefined .nullPointer) ∨
        (n < s.layersList.length ∧
          ∃ j l, setLayerControl h data s = .ok j { s with layersList := l }))) := by
  cases hn : requestedLayer data with
  | none => exact .inl ⟨rfl, setLayerControl_of_not_requested hn h s⟩
  | some n =>
    obtain ⟨name, value, hrun⟩ := setLayerControl_of_requested hn h
    refine .inr ⟨n, rfl, ?_⟩
    rw [hrun, Layer.setState_eq]
    rcases Nat.lt_or_ge n s.layersList.length with hlt | hge
    · have hobj : (Json.obj [(name, .float value)]).isIndexable = true := rfl
      obtain ⟨p, hp⟩ := LayerProperties.setState_eq_ok hobj s.layersList[n].properties
      refine .inr ⟨hlt, ?_⟩
      simp only [List.getElem?_eq_getElem hlt, hp, Outcome.bind_ok, Layer.read,
        List.getElem?_modify_eq, pure_run, LayerProperties.getFloat_alpha_getState, ofExcept_ok]
      exact ⟨_, _, rfl⟩
    · rw [List.getElem?_eq_none hge]
      exact .inl ⟨hge, rfl⟩

/-! ### The full state -/

/-- The cell in which `Engine::getCurrentActiveVisualInstance` looks: the selected column stands in
the place of the layer. -/
def EngineState.selectedCell (s : EngineState) : UInt32 × UInt32 :=
  (s.properties.selectedColumn.toUInt32, s.properties.selectedLayer.toUInt32)

theorem Engine.getCurrentActiveVisualInstance_eq {s : EngineState} (hs : s.WellFormed) (h : Host) :
    Engine.getCurrentActiveVisualInstance h s =
      match s.currentScene with
      | none => .ok none (s.resetProperties h)
      | some a =>
        match s.scenesList.find? fun scene => scene.addr = a with
        | none => .undefined .danglingPointer
        | some scene => .ok (VisualInstances.found s.instances s.selectedCell scene.visualInstances)
            (s.resetProperties h) := by
  rw [Engine.getCurrentActiveVisualInstance, bind_run, Engine.getSelectedLayerNumber_eq,
    Outcome.bind_ok, bind_run, Engine.getSelectedColumnNumber_eq, Outcome.bind_ok,
    EngineState.resetProperties_resetProperties, Engine.getVisualAtLayerAndInstanceN, bind_run,
    gets_run, Outcome.bind_ok]
  change (match s.currentScene with | none => _ | some a => _ : Prog (Option Addr)) _ = _
  cases s.currentScene with
  | none => rfl
  | some a =>
    dsimp only
    cases hfind : s.scenesList.find? fun scene => scene.addr = a with
    | none =>
      have hread : Scene.read a (s.resetProperties h) = .undefined .danglingPointer := by
        change (ofOption _ (s.scenesList.find? _) : Prog Scene) _ = _
        rw [hfind]
        rfl
      rw [bind_run, hread, Outcome.bind_undefined]
    | some scene =>
      have hread : Scene.read a (s.resetProperties h) = .ok scene (s.resetProperties h) := by
        change (ofOption _ (s.scenesList.find? _) : Prog Scene) _ = _
        rw [hfind]
        rfl
      rw [bind_run, hread, Outcome.bind_ok]
      exact VisualInstances.get_eq
        ((hs.resetProperties h).instances_live scene (List.mem_of_find?_eq_some hfind)) _ _

/-- `Engine::getFullState` needs a current scene with an instance in the selected cell. -/
theorem Engine.getFullState_cases {s : EngineState} (hs : s.WellFormed) (h : Host) :
    (s.currentScene = none ∧ Engine.getFullState h s = .undefined .nullPointer) ∨
    ∃ a, s.currentScene = some a ∧
      (((∀ scene ∈ s.scenesList, scene.addr ≠ a) ∧
          Engine.getFullState h s = .undefined .danglingPointer) ∨
        ∃ scene ∈ s.scenesList, scene.addr = a ∧
          ((VisualInstances.found s.instances s.selectedCell scene.visualInstances = none ∧
              Engine.getFullState h s = .undefined .nullPointer) ∨
            VisualInstances.found s.instances s.selectedCell scene.visualInstances ≠ none ∧
              ∃ j, Engine.getFullState h s = .ok j (s.resetProperties h))) := by
  have hactive := Engine.getCurrentActiveVisualInstance_eq hs h
  rw [Engine.getFullState, bind_run, gets_run, Outcome.bind_ok, bind_run]
  cases hc : s.currentScene with
  | none =>
    rw [hc] at hactive
    exact .inl ⟨rfl, by rw [hactive]; rfl⟩
  | some a =>
    refine .inr ⟨a, rfl, ?_⟩
    rw [hc] at hactive
    dsimp only at hactive
    cases hfind : s.scenesList.find? fun scene => scene.addr = a with
    | none =>
      rw [hfind] at hactive
      refine .inl ⟨fun scene hscene haddr => ?_, by rw [hactive]; rfl⟩
      exact List.find?_eq_none.mp hfind scene hscene (by simpa using haddr)
    | some scene =>
      rw [hfind] at hactive
      have hscene := List.mem_of_find?_eq_some hfind
      refine .inr ⟨scene, hscene, by simpa using List.find?_some hfind, ?_⟩
      rw [hactive]
      dsimp only
      cases hcell : VisualInstances.found s.instances s.selectedCell scene.visualInstances with
      | none => exact .inl ⟨rfl, rfl⟩
      | some b =>
        have hb := List.mem_of_find?_eq_some (VisualInstances.find?_of_found hcell)
        obtain ⟨i, hi⟩ := hs.instances_live scene hscene b hb
        refine .inr ⟨Option.some_ne_none b, .obj [("layers", Layers.getFullState s),
          ("activeVisualInstance", i.properties.getFullState)], ?_⟩
        have hread : VisualInstance.read b (s.resetProperties h) = .ok i (s.resetProperties h) := by
          change (ofOption _ (s.instances.get? b) : Prog VisualInstance) _ = _
          rw [hi]
          rfl
        rw [Outcome.bind_ok, bind_run, ofOption_some, pure_run, Outcome.bind_ok, bind_run, hread]
        rfl

/-! ### When everything a request asks for is there -/

/-- Whatever the handler of the request dereferences is there: the visuals of all instances
(`getState`), the layers that are named, the current scene with an instance in the selected cell
(`getFullState`), and for a document (`setState`) room for its layers and, where it replaces the
visuals, a list of them that can be emptied. -/
def RequestSafe (h : Host) (s : EngineState) (request : Json) : Prop :=
  match requestAction request with
  | some .getState => s.Connected
  | some .setLayerControl => ∀ n, requestedLayer (request.field "data") = some n →
      n < s.layersList.length
  | some .updateState =>
    ((request.field "data").field "layers").elements.length ≤ s.layersList.length ∨
      ∃ e ∈ ((request.field "data").field "layers").elements.take s.layersList.length,
        e.isIndexable = false
  | some .setState => (request.field "data").isObject = false ∨
      ((((request.field "data").field "visuals").isArray = true → s.Erasable h) ∧
        (visualsError h s.filePath ((request.field "data").field "visuals") ≠ none ∨
          ¬ TooManyLayers h ((request.field "data").field "layers")))
  | some .getFullState => ∃ scene ∈ s.scenesList, s.currentScene = some scene.addr ∧
      VisualInstances.count scene.visualInstances ≠ 0 ∧
        ∃ b ∈ scene.visualInstances, VisualInstances.inCell s.instances s.selectedCell b = true
  | _ => True

section safe

variable {h : Host} {s : EngineState} {request : Json}

theorem handle_defined_setLayerControl (ha : requestAction request = some .setLayerControl) :
    (∃ t, (handleJSONRequestForClient h request s).final? = some t) ↔ RequestSafe h s request := by
  rw [RequestSafe, ha, handle_setLayerControl ha]
  dsimp only
  rcases setLayerControl_cases h (request.field "data") s with
    ⟨hnone, what, hset⟩ | ⟨n, hn, ⟨hge, hset⟩ | ⟨hlt, j, l, hset⟩⟩
  · simp [hset, hnone]
  · simp [hset, hn, hge]
  · simp [hset, hn, hlt]

theorem handle_defined_updateState (ha : requestAction request = some .updateState) :
    (∃ t, (handleJSONRequestForClient h request s).final? = some t) ↔ RequestSafe h s request := by
  rw [RequestSafe, ha, handle_updateState ha]
  dsimp only
  rcases updateState_cases (request.field "data") s with
    ⟨hle, -, l, hset⟩ | ⟨k, what, l, hset, -, -, hk⟩ | ⟨hlt, hall, hset⟩
  · rw [hset]
    exact iff_of_true ⟨_, rfl⟩ (.inl hle)
  · rw [hset, Outcome.bind_threw]
    refine iff_of_true ⟨_, rfl⟩ ?_
    rcases hk with ⟨hi, -⟩ | ⟨e, he, hi, hk⟩
    · have hnil : (request.field "data").field "layers" = .null := by
        cases hd : request.field "data" <;> first | rfl | simp [hd, Json.isIndexable] at hi
      exact .inl (by rw [hnil]; exact Nat.zero_le _)
    · refine .inr ⟨e, ?_, hi⟩
      exact List.mem_of_getElem? (i := k) (by rw [List.getElem?_take_of_lt hk, he])
  · rw [hset, Outcome.bind_undefined]
    refine iff_of_false (by simp) ?_
    rintro (hle | ⟨e, he, hi⟩)
    · omega
    · rw [hall e he] at hi
      cases hi

theorem handle_defined_setState (hs : s.WellFormed)
    (ha : requestAction request = some .setState) :
    (∃ t, (handleJSONRequestForClient h request s).final? = some t) ↔ RequestSafe h s request := by
  rw [RequestSafe, ha]
  dsimp only
  by_cases ho : (request.field "data").isObject = true
  swap
  · have ho : (request.field "data").isObject = false := by simpa using ho
    simp [handle_setState_of_not_isObject ha ho, ho]
  rw [handle_setState ha ho, ← Engine.setState_defined_iff hs (Json.isIndexable_of_isObject ho), ho]
  cases Engine.setState h (request.field "data") s <;> simp

theorem handle_defined_getFullState (hs : s.WellFormed)
    (ha : requestAction request = some .getFullState) :
    (∃ t, (handleJSONRequestForClient h request s).final? = some t) ↔ RequestSafe h s request := by
  rw [RequestSafe, ha, handle_getFullState ha]
  dsimp only
  rcases Engine.getFullState_cases hs h with
    ⟨hc, hget⟩ | ⟨a, hc, ⟨hno, hget⟩ | ⟨scene, hscene, haddr, hcell⟩⟩
  · simp [hget, hc]
  · rw [hget, Outcome.bind_undefined]
    refine iff_of_false (by simp) ?_
    rintro ⟨scene, hscene, hc', -⟩
    exact hno scene hscene (Option.some.inj (hc'.symm.trans hc))
  · rcases hcell with ⟨hnone, hget⟩ | ⟨hb, j, hget⟩
    · rw [hget, Outcome.bind_undefined]
      refine iff_of_false (by simp) ?_
      rintro ⟨scene', hscene', hc', hcell'⟩
      obtain rfl := hs.scene_eq hscene' hscene ((Option.some.inj (hc'.symm.trans hc)).trans haddr.symm)
      exact VisualInstances.found_ne_none_iff.mpr hcell' hnone
    · rw [hget]
      refine iff_of_true ⟨_, rfl⟩ ⟨scene, hscene, by rw [hc, haddr], ?_⟩
      exact VisualInstances.found_ne_none_iff.mp hb

/-- A handler returns or throws exactly when everything it dereferences is there. -/
theorem handle_defined_iff (hs : s.WellFormed) (h : Host) (request : Json) :
    (∃ t, (handleJSONRequestForClient h request s).final? = some t) ↔ RequestSafe h s request := by
  cases ha : requestAction request with
  | none =>
    obtain ⟨e, he, -⟩ := handle_of_no_action (h := h) (s := s) ha
    simp [RequestSafe, he, ha]
  | some action =>
    cases action with
    | ping =>
      rw [RequestSafe, ha, handle_of_action ha]
      exact iff_of_true ⟨s, rfl⟩ trivial
    | getState =>
      rw [RequestSafe, ha, handle_getState ha]
      by_cases hc : s.Connected
      · rw [Engine.getState_of_connected hs hc]
        exact iff_of_true ⟨_, rfl⟩ hc
      · rw [Engine.getState_of_not_connected hs hc, Outcome.bind_undefined]
        exact iff_of_false (by simp) hc
    | setState => exact handle_defined_setState hs ha
    | getFullState => exact handle_defined_getFullState hs ha
    | setLayerControl => exact handle_defined_setLayerControl ha
    | updateState => exact handle_defined_updateState ha

end safe

end ArbutusEngine
