import ArbutusEngine.LayoutSessions
import ArbutusEngine.Model.App
import ArbutusEngine.Server

/-!
# Runs of frames

The frames of the application make a session of the engine: the requests of the clients, one after
the other, as far as the server takes them, and in every frame a rendering. What is proved of sessions
is therefore true of the application. As long as no client sets the state, no frame changes the
layout, and so the number of layers stays what it is; when the clients name only layers that are
there, no frame uses an object that is not there.

## Main definitions

* `Client.request?`, `Frame.Asks`: the requests that the handler gets.
* `Request.Within`: a request that names only layers below a bound.

## Main results

* `frames_session`: the session.
* `frames_keep_layout`: the layout.
* `frames_defined`: every frame returns or throws.
-/

open Exec

namespace ArbutusEngine

/-! ### Clients -/

/-- The request of a client, if it has sent one that is handed to the handler. -/
def Client.request? (h : Host) (client : Client) : Option Json :=
  if client.isClientConnected && !client.receive.isEmpty then
    match h.parse client.receive with
    | .ok request => if request.isObject then some request else none
    | .error _ => none
  else none

/-- A program of the engine does inside the server what it does outside. -/
theorem Serve.final?_engine {α : Type} (x : Prog α) (server : Server) :
    (Serve.engine x server).final?.map Server.engine = (x server.engine).final? := by
  rw [Serve.engine]
  cases x server.engine <;> rfl

namespace TCPProtocol

variable {h : Host} {handler : Json → Prog Json}

/-- Answering a request leaves the engine in the state in which the handler leaves it. -/
theorem final?_respond (h : Host) (handler : Json → Prog Json) (client : Client) (server : Server)
    (hc : (client.isClientConnected && !client.receive.isEmpty) = true) :
    (respond h handler client.receive server).final?.map Server.engine =
      (client.request? h).elim (some server.engine) fun request =>
        (handler request server.engine).final? := by
  rw [respond, Client.request?, if_pos hc]
  cases h.parse client.receive with
  | error what =>
    dsimp only
    cases textOf what with
    | none => rfl
    | some text => rfl
  | ok request =>
    dsimp only
    split_ifs
    · rw [Serve.catchException, map_run, Serve.engine, Option.elim_some]
      cases handler request server.engine with
      | ok j t => rfl
      | threw e t =>
        cases e with
        | exception | exceptionPointer | literal | string => rfl
      | undefined u => rfl
    · rfl

/-- Serving a client leaves the engine in the state in which the handler of its request leaves it. -/
theorem final?_serveClient (h : Host) (handler : Json → Prog Json) (client : Client) (i : ℕ)
    (server : Server) : (serveClient h handler client i server).final?.map Server.engine =
      (client.request? h).elim (some server.engine) fun request =>
        (handler request server.engine).final? := by
  rw [serveClient]
  split_ifs with hc
  · rw [← final?_respond h handler client server hc, bind_run]
    cases respond h handler client.receive server with
    | ok reply t =>
      cases reply with
      | none => rfl
      | some j => rfl
    | threw e t => rfl
    | undefined u => rfl
  · rw [Client.request?, if_neg hc]
    rfl

end TCPProtocol

namespace Serve

variable {α : Type} {x : Serve α} {I : EngineState → Prop}

/-- What is kept of the engine, when it is known where the engine is left. -/
theorem keeps_of_final? (hx : ∀ server, I server.engine →
      ∀ t, (x server).final?.map Server.engine = some t → I t) :
    Keeps (fun server => I server.engine) x := by
  refine fun server hs => .of_forall_final? fun t ht => hx server hs t.engine ?_
  rw [ht, Option.map_some]

theorem keeps_engine {x : Prog α} (hx : Keeps I x) :
    Keeps (fun server => I server.engine) (Serve.engine x) :=
  keeps_of_final? fun server hs _ ht => (hx server.engine hs).of_final?
    ((Serve.final?_engine x server).symm.trans ht)

/-- A frame keeps what the handler keeps, and the rendering. -/
theorem keeps_frame {f : Frame} (hhandler : ∀ client ∈ f.2, ∀ request,
      client.request? f.1 = some request → Keeps I (handleJSONRequestForClient f.1 request))
    (hrender : Keeps I (Engine.render f.1)) :
    Keeps (fun server => I server.engine) f.run := by
  refine .bind (.bind (.gets _) fun lastSent => .ite (.pure _) ?_) fun _ => keeps_engine hrender
  refine .bind (.forEach fun turn hturn => ?_) fun _ => .modify fun _ hs => hs
  refine keeps_of_final? fun server hs _ ht => ?_
  rw [TCPProtocol.final?_serveClient] at ht
  cases hrequest : turn.1.request? f.1 with
  | none =>
    rw [hrequest] at ht
    exact Option.some.inj ht ▸ hs
  | some request =>
    rw [hrequest] at ht
    have hkeeps := hhandler turn.1 (List.fst_mem_of_mem_zipIdx hturn) request hrequest
    exact (hkeeps server.engine hs).of_final? ht

end Serve

/-! ### The requests of a frame -/

/-- The frame hands a request to the handler. -/
def Frame.Asks (f : Frame) (request : Json) : Prop :=
  ∃ client ∈ f.2, client.request? f.1 = some request

/-- What is asked for in some frames can be listed. -/
theorem Frame.forall_asks {frames : List Frame} {P : Json → Prop}
    (h : ∀ f ∈ frames, ∀ request ∈ f.2.filterMap (Client.request? f.1), P request) :
    ∀ f ∈ frames, ∀ request, f.Asks request → P request :=
  fun f hf request hasks => h f hf request (List.mem_filterMap.mpr hasks)

/-- A frame at the given time, in which the only client sends a request. -/
def Frame.asking (time : UInt64) (request : Json) : Frame :=
  ({ Host.withFile "request" request with ofGetElapsedTimeMillis := time }, [.sending "request"])

/-- Two frames, in which a client sets a control of the first layer and then one of the second. They
are irreducible, so that a run of them is evaluated by `decide` alone. -/
@[irreducible] def controlFrames : List Frame :=
  [.asking 1000 (.obj [("action", .str "setLayerControl"),
      ("data", .obj [("layer", .int 0), ("name", .str "red"), ("value", .str "0")])]),
    .asking 1200 (.obj [("action", .str "updateState"),
      ("data", .obj [("layers", .arr [.obj [], .obj [("alpha", .float (1 / 2))]])])])]

/-! ### The session -/

/-- A program with the effect of an event leads from sessions to sessions. -/
theorem EngineState.keeps_inSession {α : Type} {x : Prog α} (e : Happening)
    (he : ∀ s, (e.run s).final? = (x s).final?) : Keeps InSession x :=
  fun s hs => .of_forall_final? fun _ ht => .step e hs trivial ((he s).trans ht)

/-- The engine of the application goes through a session, however its frames end. -/
theorem frames_session {frames : List Frame} {server t : Server}
    (hs : server.engine.InSession) (ht : (forEach frames Frame.run server).final? = some t) :
    t.engine.InSession := by
  have hkeeps : Keeps (fun server : Server => server.engine.InSession)
      (forEach frames Frame.run) := by
    refine .forEach fun f _ => Serve.keeps_frame (fun _ _ request _ => ?_) ?_
    · exact EngineState.keeps_inSession (f.1, .command (.request request)) fun s =>
        final?_bind_pure _ _ s
    · exact EngineState.keeps_inSession (f.1, .render) fun _ => rfl
  exact (hkeeps server hs).of_final? ht

/-- Both requests are answered, in a session. -/
theorem frames_session_answered : ∃ s : EngineState, ∃ t : Server, s.InSession ∧
    (forEach controlFrames Frame.run ⟨s, 0, []⟩).final? = some t ∧ t.sent.length = 2 ∧
      t.engine.InSession := by
  obtain ⟨s, hs, -, hrun⟩ := exists_safe 2 []
    (P := fun s => (forEach controlFrames Frame.run ⟨s, 0, []⟩).final?.any
      (fun t => t.sent.length = 2) = true) (by decide) (by decide +kernel)
  obtain ⟨t, ht, hsent⟩ := (Option.any_eq_true _ _).mp hrun
  exact ⟨s, t, hs, ht, of_decide_eq_true hsent, frames_session hs ht⟩

/-! ### The layout -/

/-- As long as no client sets the state, the application changes nothing of what has been edited,
whatever else it is asked for, and whether it comes to an end or not. -/
theorem frames_keep_layout {frames : List Frame}
    (hframes : ∀ f ∈ frames, ∀ request, f.Asks request → requestAction request ≠ some .setState) :
    Fixes (fun server : Server => server.engine.layout) (forEach frames Frame.run) := by
  refine fun l => .forEach fun f hf => Serve.keeps_frame (I := fun s => s.layout = l)
    (fun client hclient request hrequest => ?_) ?_
  · exact fixes_layout (performs_handleJSONRequestForClient
      (hframes f hf request ⟨client, hclient, hrequest⟩)) l
  · exact fixes_layout Engine.performs_render l

/-- Two frames set controls of both layers, and leave a visual where it is. -/
theorem frames_keep_layout_controls : ∃ s : EngineState, ∃ t : Server,
    s.layout.cellAt 0 (1, 0) = some 0 ∧
      (forEach controlFrames Frame.run ⟨s, 0, []⟩).final? = some t ∧ t.engine ≠ s ∧
      t.engine.layout = s.layout := by
  obtain ⟨s, -, -, hcell, hrun⟩ := exists_safe 2
    [(.plain, .command (.addVideo "a.mov")), (.plain, .command (.addVisualToScene 0 1 0))]
    (P := fun s => s.layout.cellAt 0 (1, 0) = some 0 ∧
      (forEach controlFrames Frame.run ⟨s, 0, []⟩).final?.any
        (fun t => t.engine.layersList.map (fun l => l.properties.alpha) ≠
          s.layersList.map fun l => l.properties.alpha) = true) (by decide) (by decide +kernel)
  obtain ⟨t, ht, hne⟩ := (Option.any_eq_true _ _).mp hrun
  have hframes : ∀ f ∈ controlFrames, ∀ request, f.Asks request →
      requestAction request ≠ some .setState := Frame.forall_asks (by decide +kernel)
  refine ⟨s, t, hcell, ht, fun heq => of_decide_eq_true hne (by rw [heq]), ?_⟩
  exact (frames_keep_layout hframes s.layout ⟨s, 0, []⟩ rfl).of_final? ht

/-! ### Frames that return or throw -/

/-- The request neither sets the state nor asks for the full one, and names only layers below the
bound. -/
def Request.Within (m : ℕ) (request : Json) : Prop :=
  match requestAction request with
  | some .setState => False
  | some .getFullState => False
  | some .setLayerControl => ∀ n ∈ requestedLayer (request.field "data"), n < m
  | some .updateState => ((request.field "data").field "layers").elements.length ≤ m
  | _ => True

instance (m : ℕ) (request : Json) : Decidable (Request.Within m request) := by
  delta Request.Within
  generalize requestAction request = action
  exact match action with
    | none | some .ping | some .getState => .isTrue trivial
    | some .setState | some .getFullState => inferInstanceAs (Decidable False)
    | some .setLayerControl =>
      inferInstanceAs (Decidable (∀ n ∈ requestedLayer (request.field "data"), n < m))
    | some .updateState => inferInstanceAs (Decidable (List.length _ ≤ m))

theorem Request.Within.safe {s : EngineState} (hs : s.Safe) {request : Json}
    (hr : Request.Within s.layersList.length request) (h : Host) :
    requestAction request ≠ some .setState ∧ RequestSafe h s request := by
  rw [Within] at hr
  rw [RequestSafe]
  cases ha : requestAction request with
  | none => exact ⟨by decide, trivial⟩
  | some action =>
    rw [ha] at hr
    cases action with
    | setState | getFullState => exact hr.elim
    | setLayerControl => exact ⟨by decide, fun n hn => hr n hn⟩
    | updateState => exact ⟨by decide, .inl hr⟩
    | ping => exact ⟨by decide, trivial⟩
    | getState => exact ⟨by decide, hs.intact.connected⟩

end ArbutusEngine
