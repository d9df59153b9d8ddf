import ArbutusEngine.Requests

/-!
# What a rejected request leaves behind

A handler that throws does not undo what it has done. Most requests are rejected before anything has
been changed; the two that work through a document entry by entry, `setState` and `updateState`,
leave behind what the entries before the exception have come to.

## Main definitions

* `LeftByUpdate`, `LeftBySetState`, `LeftByRejection`: what a rejected request leaves.

## Main results

* `handle_eq_threw`: which handlers throw, and what.
* `leftByRejection_of_threw`.
-/

open Exec

namespace ArbutusEngine

/-- What a rejected `updateState` leaves: nothing has changed but layers, and none at or after the
entry that was rejected. -/
def LeftByUpdate (data : Json) (s t : EngineState) : Prop :=
  ∃ k l, t = { s with layersList := l } ∧ l.length = s.layersList.length ∧
    (∀ j, k ≤ j → l[j]? = s.layersList[j]?) ∧
    (k = 0 ∨ ∃ e, (data.field "layers").elements[k]? = some e ∧ e.isIndexable = false)

/-- What a `setState` leaves that is rejected with the exception `e`. The sections before the one
that throws are replaced, the one that throws holds what its entries before the exception have come
to, and the sections after it are as they were. -/
def LeftBySetState (h : Host) (data : Json) (e : Thrown) (s t : EngineState) : Prop :=
  (data.isObject = false ∧ t = s) ∨
  (visualsError h s.filePath (data.field "visuals") = some e ∧
    t = s.afterVisuals h (data.field "visuals") ∧
    t.layersList = s.layersList ∧ t.scenesList = s.scenesList ∧ t.instances = s.instances) ∨
  (visualsError h s.filePath (data.field "visuals") = none ∧
    layersError h (data.field "layers") = some e ∧
    t = (s.afterVisuals h (data.field "visuals")).afterLayers h (data.field "layers") ∧
    t.scenesList = s.scenesList ∧ t.instances = s.instances) ∨
  (visualsError h s.filePath (data.field "visuals") = none ∧
    layersError h (data.field "layers") = none ∧
    scenesError (s.afterVisuals h (data.field "visuals")).visualsList (data.field "scenes") =
      some e ∧
    t = ((s.afterVisuals h (data.field "visuals")).afterLayers h
      (data.field "layers")).afterScenes h (data.field "scenes"))

/-- What a request leaves that is rejected with the exception `e`. -/
def LeftByRejection (h : Host) (request : Json) (e : Thrown) (s t : EngineState) : Prop :=
  match requestAction request with
  | some .updateState => LeftByUpdate (request.field "data") s t
  | some .setState => LeftBySetState h (request.field "data") e s t
  | _ => t = s

section rejections

variable {h : Host} {request : Json} {e : Thrown} {s t : EngineState}

/-- The handlers that can throw, with what they leave. All but the reading of a document throw a
`std::exception` wherever the action is supported. -/
theorem handle_eq_threw (hs : s.WellFormed)
    (hrun : handleJSONRequestForClient h request s = .threw e t) :
    (requestAction request = none ∧ t = s ∧
      ((request.field "action").isString = false → e.isException = true)) ∨
    (requestAction request = some .setLayerControl ∧ t = s ∧ e.isException = true) ∨
    (requestAction request = some .updateState ∧ LeftByUpdate (request.field "data") s t ∧
      e.isException = true) ∨
    (requestAction request = some .setState ∧ (request.field "data").isObject = false ∧ t = s ∧
      e.isException = true) ∨
    (requestAction request = some .setState ∧ (request.field "data").isObject = true ∧
      Engine.setState h (request.field "data") s = .threw e t) := by
  cases ha : requestAction request with
  | none =>
    obtain ⟨e', he, hexc⟩ := handle_of_no_action (h := h) (s := s) ha
    rw [he] at hrun
    obtain ⟨rfl, rfl⟩ := Outcome.threw.inj hrun
    exact .inl ⟨rfl, rfl, hexc⟩
  | some action =>
    cases action with
    | ping =>
      rw [handle_of_action ha] at hrun
      cases hrun
    | getState =>
      rw [handle_getState ha] at hrun
      by_cases hc : s.Connected
      · rw [Engine.getState_of_connected hs hc] at hrun
        cases hrun
      · rw [Engine.getState_of_not_connected hs hc] at hrun
        cases hrun
    | getFullState =>
      rw [handle_getFullState ha] at hrun
      rcases Engine.getFullState_cases hs h with
        ⟨-, hget⟩ | ⟨a, -, ⟨-, hget⟩ | ⟨scene, -, -, ⟨-, hget⟩ | ⟨-, j, hget⟩⟩⟩
      all_goals
        rw [hget] at hrun
        cases hrun
    | setLayerControl =>
      rw [handle_setLayerControl ha] at hrun
      rcases setLayerControl_cases h (request.field "data") s with
        ⟨-, what, hset⟩ | ⟨n, -, ⟨-, hset⟩ | ⟨-, j, l, hset⟩⟩
      all_goals rw [hset] at hrun
      · obtain ⟨rfl, rfl⟩ := Outcome.threw.inj hrun
        exact .inr (.inl ⟨rfl, rfl, rfl⟩)
      · cases hrun
      · cases hrun
    | updateState =>
      rw [handle_updateState ha] at hrun
      rcases updateState_cases (request.field "data") s with
        ⟨-, -, l, hset⟩ | ⟨k, what, l, hset, hlen, hsame, hk⟩ | ⟨-, -, hset⟩
      all_goals rw [hset] at hrun
      · cases hrun
      · obtain ⟨rfl, rfl⟩ := Outcome.threw.inj hrun
        refine .inr (.inr (.inl ⟨rfl, ⟨k, l, rfl, hlen, hsame, ?_⟩, rfl⟩))
        exact hk.imp (fun hk => hk.2) fun ⟨e, he, hi, _⟩ => ⟨e, he, hi⟩
      · cases hrun
    | setState =>
      by_cases ho : (request.field "data").isObject = true
      swap
      · have ho : (request.field "data").isObject = false := by simpa using ho
        rw [handle_setState_of_not_isObject ha ho] at hrun
        obtain ⟨rfl, rfl⟩ := Outcome.threw.inj hrun
        exact .inr (.inr (.inr (.inl ⟨rfl, ho, rfl, rfl⟩)))
      rw [handle_setState ha ho] at hrun
      refine .inr (.inr (.inr (.inr ⟨rfl, ho, ?_⟩)))
      rcases Outcome.of_bind_eq_threw hrun with hset | ⟨_, u, -, hreply⟩
      · exact hset
      · cases hreply

/-- Where reading a document throws, it leaves the later sections alone. -/
theorem leftBySetState_of_threw {data : Json} (hs : s.WellFormed) (ho : data.isObject = true)
    (hset : Engine.setState h data s = .threw e t) : LeftBySetState h data e s t := by
  obtain ⟨v, n, p, hv⟩ := s.exists_afterVisuals h (data.field "visuals")
  rcases Engine.setState_eq_threw hs hset with
    ⟨hi, -⟩ | ⟨hve, rfl⟩ | ⟨hve, hle, rfl⟩ | ⟨hve, hle, hse, rfl⟩
  · rw [Json.isIndexable_of_isObject ho] at hi
    cases hi
  · refine .inr (.inl ⟨hve, rfl, ?_, ?_, ?_⟩) <;> rw [hv]
  · obtain ⟨l, n', p', hl⟩ := EngineState.exists_afterLayers h
      (s.afterVisuals h (data.field "visuals")) (data.field "layers")
    refine .inr (.inr (.inl ⟨hve, hle, rfl, ?_, ?_⟩)) <;> rw [hl, hv]
  · exact .inr (.inr (.inr ⟨hve, hle, hse, rfl⟩))

/-- A request that is rejected leaves the engine as it was, unless it is a `setState` or an
`updateState`, which leave the entries before the exception behind and everything after it alone. -/
theorem leftByRejection_of_threw (hs : s.WellFormed)
    (hrun : handleJSONRequestForClient h request s = .threw e t) :
    LeftByRejection h request e s t := by
  rw [LeftByRejection]
  rcases handle_eq_threw hs hrun with
    ⟨ha, ht, -⟩ | ⟨ha, ht, -⟩ | ⟨ha, ht, -⟩ | ⟨ha, ho, ht, -⟩ | ⟨ha, ho, hset⟩
  · rw [ha]
    exact ht
  · rw [ha]
    exact ht
  · rw [ha]
    exact ht
  · rw [ha]
    exact .inl ⟨ho, ht⟩
  · rw [ha]
    exact leftBySetState_of_threw hs ho hset

end rejections

/-- The request `{"action":"setState","data":{"scenes":[{"name":1}]}}`. -/
def numberedScene : Json :=
  .obj [("action", .str "setState"),
    ("data", .obj [("scenes", .arr [.obj [("name", .int 1)]])])]

/-- A set with a scene rejects a scene whose name is a number. -/
theorem leftByRejection_numberedScene : ∃ s : EngineState, s.Reachable ∧ ∃ e t,
    handleJSONRequestForClient Host.plain numberedScene s = .threw e t ∧
      LeftByRejection Host.plain numberedScene e s t := by
  obtain ⟨s, hs, hrun⟩ : ∃ s : EngineState, s.Reachable ∧
      (handleJSONRequestForClient Host.plain numberedScene s).throws (fun _ _ => true) = true :=
    exists_reaches [(Host.plain, .newSet 640 480 2)] (by decide +kernel)
  obtain ⟨e, t, ht, -⟩ := Outcome.exists_of_throws hrun
  exact ⟨s, hs, e, t, ht, leftByRejection_of_threw hs.wellFormed ht⟩

/-- A rejected request can lose the scenes: the state that is encoded afterwards has none. -/
theorem rejected_numberedScene_loses_scenes : ∃ s : EngineState, s.Reachable ∧ ∃ e t,
    handleJSONRequestForClient Host.plain numberedScene s = .threw e t ∧
      ∃ j s' j' t', Engine.getState s = .ok j s' ∧ Engine.getState t = .ok j' t' ∧ j ≠ j' := by
  obtain ⟨s, hs, hbefore, hrun⟩ : ∃ s : EngineState, s.Reachable ∧
      (Engine.getState s).returns (fun j _ => (j.field "scenes").isArray) = true ∧
      (handleJSONRequestForClient Host.plain numberedScene s).throws (fun _ t =>
        (Engine.getState t).returns fun j _ => !(j.field "scenes").isArray) = true :=
    exists_reaches [(Host.plain, .newSet 640 480 2)] (by decide +kernel)
  obtain ⟨j, s', hj, harr⟩ := Outcome.exists_of_returns hbefore
  obtain ⟨e, t, ht, hafter⟩ := Outcome.exists_of_throws hrun
  obtain ⟨j', t', hj', harr'⟩ := Outcome.exists_of_returns hafter
  refine ⟨s, hs, e, t, ht, j, s', j', t', hj, hj', fun heq => ?_⟩
  rw [heq] at harr
  simp [harr] at harr'

end ArbutusEngine
