import ArbutusEngine.Rejections

/-!
# One pass of the server

`TCPProtocol::update` asks every connected client for a message, and answers those it gets. A
message that does not parse is answered with its error; one that parses to anything but an object is
dropped; an object goes to `handleJSONRequestForClient`, and a `std::exception` that the handler
throws is turned into an answer.

The pass is described here by a relation, `Pass`, between the messages, the replies and the states
of the engine before and after. It holds of every pass that is due, as long as no message asks for
an action that is not supported and the shaders are there: what the engine throws in these two cases
is a pointer, which no handler catches.

## Main definitions

* `Client.expectsReply`, `Answers`, `Pass`, `GetsStuck`, `Supported`.

## Main results

* `isException_of_threw`: what the handlers of supported actions throw.
* `serveClient_cases`: one client.
* `update_answers`: a whole pass.
-/

open Exec

namespace ArbutusEngine

/-! ### Exceptions -/

section exceptions

variable {h : Host} {e : Thrown}

theorem isException_of_visualsError {setPath : String} {visuals : Json}
    (he : visualsError h setPath visuals = some e) : e.isException = true := by
  rw [visualsError] at he
  split_ifs at he
  obtain ⟨entry, -, hd⟩ := exists_of_collect_snd he
  rw [Visuals.decode] at hd
  dsimp only at hd
  split_ifs at hd <;> exact Option.some.inj hd ▸ rfl

theorem isException_of_layersError (hsh : h.shaderError = none) {layers : Json}
    (he : layersError h layers = some e) : e.isException = true := by
  rw [layersError] at he
  split_ifs at he
  obtain ⟨entry, -, hd⟩ := exists_of_collect_snd he
  rw [Layers.decode, hsh] at hd
  dsimp only at hd
  cases hset : LayerProperties.setState entry Layers.newProperties with
  | ok p =>
    rw [hset] at hd
    cases hd
  | error what =>
    rw [hset] at hd
    exact Option.some.inj hd ▸ rfl

theorem isException_of_scenesError {visuals : List Visual} {scenes : Json}
    (he : scenesError visuals scenes = some e) : e.isException = true := by
  rw [scenesError] at he
  split_ifs at he
  obtain ⟨entry, -, hd⟩ := exists_of_collect_snd he
  rw [Scenes.decode] at hd
  split_ifs at hd
  · cases hname : entry.field "name" with
    | str name =>
      rw [hname] at hd
      dsimp only at hd
      cases hinst : entry.field "instances" with
      | arr entries =>
        rw [hinst] at hd
        obtain ⟨i, -, hi⟩ :=
          exists_of_collect_snd (show (collect (Scene.decode visuals) entries).2 = some e from hd)
        rw [Scene.decode] at hi
        cases hr : Scene.readInstance visuals i with
        | ok p =>
          rw [hr] at hi
          cases hi
        | error what =>
          rw [hr] at hi
          exact Option.some.inj hi ▸ rfl
      | _ =>
        rw [hinst] at hd
        cases hd
    | _ =>
      rw [hname] at hd
      exact Option.some.inj hd ▸ rfl
  · exact Option.some.inj hd ▸ rfl

/-- With the shaders there, what the handler of a supported action throws is a `std::exception`. -/
theorem isException_of_threw {s t : EngineState} (hs : s.WellFormed) (hsh : h.shaderError = none)
    {request : Json}
    (hsup : ∀ name, request.field "action" = .str name → (Action.ofString name).isSome = true)
    (hrun : handleJSONRequestForClient h request s = .threw e t) : e.isException = true := by
  rcases handle_eq_threw hs hrun with
    ⟨ha, -, hexc⟩ | ⟨-, -, hexc⟩ | ⟨-, -, hexc⟩ | ⟨-, -, -, hexc⟩ | ⟨-, -, hset⟩
  · refine hexc ?_
    cases hname : request.field "action" with
    | str name =>
      have hsome := hsup name hname
      simp only [requestAction, hname] at ha
      rw [ha] at hsome
      cases hsome
    | _ => rfl
  · exact hexc
  · exact hexc
  · exact hexc
  · rcases Engine.setState_eq_threw hs hset with
      ⟨hi, -⟩ | ⟨he, -⟩ | ⟨-, he, -⟩ | ⟨-, -, he, -⟩
    · rw [Engine.setState_of_not_isIndexable hi] at hset
      exact (Outcome.threw.inj hset).1 ▸ rfl
    · exact isException_of_visualsError he
    · exact isException_of_layersError hsh he
    · exact isException_of_scenesError he

/-- What the handlers return is a reply, except for `setLayerControl`. -/
theorem response_of_ok {s t : EngineState} {request j : Json}
    (ha : requestAction request ≠ some .setLayerControl)
    (hrun : handleJSONRequestForClient h request s = .ok j t) :
    ∃ message data, j = response true message data := by
  have hbind : ∀ {α : Type} {o : Outcome EngineState Thrown Undefined α} {f : α → Json},
      (o.bind fun data t => .ok (response true "" (f data)) t) = .ok j t →
        ∃ message data, j = response true message data := by
    intro α o f hok
    obtain ⟨a, u, -, hj⟩ := Outcome.exists_of_bind_eq_ok hok
    exact ⟨"", f a, (Outcome.ok.inj hj).1.symm⟩
  cases hact : requestAction request with
  | none =>
    obtain ⟨e, he, -⟩ := handle_of_no_action (h := h) (s := s) hact
    rw [he] at hrun
    cases hrun
  | some action =>
    cases action with
    | ping =>
      rw [handle_of_action hact] at hrun
      exact ⟨"pong", .null, (Outcome.ok.inj hrun).1.symm⟩
    | getState =>
      rw [handle_getState hact] at hrun
      exact hbind hrun
    | getFullState =>
      rw [handle_getFullState hact] at hrun
      exact hbind hrun
    | setLayerControl => exact absurd hact ha
    | updateState =>
      rw [handle_updateState hact] at hrun
      exact hbind hrun
    | setState =>
      by_cases ho : (request.field "data").isObject = true
      · rw [handle_setState hact ho] at hrun
        exact hbind (f := fun _ => .null) hrun
      · rw [handle_setState_of_not_isObject hact (by simpa using ho)] at hrun
        cases hrun

/-- Whatever is returned is an object. -/
theorem isObject_of_ok {s t : EngineState} {request j : Json}
    (hrun : handleJSONRequestForClient h request s = .ok j t) : j.isObject = true := by
  by_cases ha : requestAction request = some .setLayerControl
  · rw [handle_of_action ha] at hrun
    obtain ⟨_, _, -, hrun⟩ := Outcome.exists_of_bind_eq_ok hrun
    obtain ⟨_, _, -, hrun⟩ := Outcome.exists_of_bind_eq_ok hrun
    obtain ⟨_, _, -, hrun⟩ := Outcome.exists_of_bind_eq_ok hrun
    obtain ⟨_, _, -, hrun⟩ := Outcome.exists_of_bind_eq_ok hrun
    obtain ⟨_, _, -, hrun⟩ := Outcome.exists_of_bind_eq_ok hrun
    obtain ⟨_, _, -, hrun⟩ := Outcome.exists_of_bind_eq_ok hrun
    rw [← (Outcome.ok.inj hrun).1]
    rfl
  · obtain ⟨message, data, rfl⟩ := response_of_ok ha hrun
    rfl

end exceptions

/-! ### One client -/

/-- The client is owed a reply: it has sent a text that does not parse, or parses to an object. -/
def Client.expectsReply (h : Host) (client : Client) : Bool :=
  client.isClientConnected && !client.receive.isEmpty &&
    match h.parse client.receive with
    | .ok request => request.isObject
    | .error _ => true

/-- The reply `j`, an object, answers the text in the state `s` and leads to the state `t`: success is
reported unless the text does not parse or its handler throws. -/
def Answers (h : Host) (text : List UInt8) (s : EngineState) (j : Json) (t : EngineState) : Prop :=
  match h.parse text with
  | .error what => t = s ∧ ∃ message, textOf what = some message ∧ j = response false message .null
  | .ok request =>
    (∃ what, handleJSONRequestForClient h request s = .threw (.exception what) t ∧
      j = response false what .null) ∨
    (handleJSONRequestForClient h request s = .ok j t ∧ j.isObject = true ∧
      (requestAction request ≠ some .setLayerControl →
        ∃ message data, j = response true message data))

/-- The text parses, or the message of the parse error is valid UTF-8; and its action, if it has
one, is supported. -/
def Supported (h : Host) (text : List UInt8) : Prop :=
  match h.parse text with
  | .error what => (textOf what).isSome = true
  | .ok request =>
    ∀ name, request.field "action" = .str name → (Action.ofString name).isSome = true

section respond

variable {h : Host} {handler : Json → Prog Json} {server : Server} {text : List UInt8}
  {request : Json}

/-- A text that does not parse is answered with the message of the error. -/
theorem TCPProtocol.respond_of_error {what : List UInt8} {message : String}
    (hparse : h.parse text = .error what) (hmessage : textOf what = some message) :
    TCPProtocol.respond h handler text server =
      .ok (some (response false message .null)) server := by
  rw [TCPProtocol.respond, hparse]
  simp only [hmessage]
  rfl

theorem TCPProtocol.respond_of_not_object (hparse : h.parse text = .ok request)
    (ho : ¬request.isObject = true) : TCPProtocol.respond h handler text server =
      .ok none server := by
  rw [TCPProtocol.respond, hparse]
  simp only [if_neg ho]
  rfl

variable (hparse : h.parse text = .ok request) (ho : request.isObject = true)

include hparse ho

theorem TCPProtocol.respond_of_ok {j : Json} {t : EngineState}
    (hrun : handler request server.engine = .ok j t) :
    TCPProtocol.respond h handler text server = .ok (some j) { server with engine := t } := by
  rw [TCPProtocol.respond, hparse]
  simp only [if_pos ho, Serve.catchException, map_run, Serve.engine, hrun, Outcome.bind_ok]

/-- A `std::exception` of the handler is answered with its message. -/
theorem TCPProtocol.respond_of_exception {what : String} {t : EngineState}
    (hrun : handler request server.engine = .threw (.exception what) t) :
    TCPProtocol.respond h handler text server =
      .ok (some (response false what .null)) { server with engine := t } := by
  rw [TCPProtocol.respond, hparse]
  simp only [if_pos ho, Serve.catchException, map_run, Serve.engine, hrun, Outcome.bind_threw]
  rfl

theorem TCPProtocol.respond_of_undefined {u : Undefined}
    (hrun : handler request server.engine = .undefined u) :
    TCPProtocol.respond h handler text server = .undefined u := by
  rw [TCPProtocol.respond, hparse]
  simp only [if_pos ho, Serve.catchException, map_run, Serve.engine, hrun, Outcome.bind_undefined]

end respond

/-- What a client that has sent a text is served with. -/
theorem TCPProtocol.serveClient_eq {h : Host} {handler : Json → Prog Json} {client : Client}
    (hc : (client.isClientConnected && !client.receive.isEmpty) = true) (i : ℕ) (server : Server) :
    TCPProtocol.serveClient h handler client i server =
      (TCPProtocol.respond h handler client.receive server).bind fun reply server =>
        .ok () { server with
          sent := server.sent ++ (reply.map fun j => (i, h.dump (-1) j)).toList } := by
  rw [TCPProtocol.serveClient, if_pos hc, bind_run]
  cases TCPProtocol.respond h handler client.receive server with
  | ok reply server =>
    cases reply with
    | none =>
      have hsent : server.sent = server.sent ++ [] := (List.append_nil _).symm
      exact congrArg (fun sent => Outcome.ok () { server with sent := sent }) hsent
    | some j => rfl
  | threw e server => rfl
  | undefined u => rfl

theorem serveClient_cases {h : Host} {server : Server} (hs : server.engine.WellFormed)
    (hsh : h.shaderError = none) {client : Client}
    (hsup : client.expectsReply h = true → Supported h client.receive) (i : ℕ) :
    (client.expectsReply h = false ∧
      TCPProtocol.serveClient h (handleJSONRequestForClient h) client i server = .ok () server) ∨
    (client.expectsReply h = true ∧ ∃ j t, Answers h client.receive server.engine j t ∧
      t.WellFormed ∧ TCPProtocol.serveClient h (handleJSONRequestForClient h) client i server =
        .ok () { server with engine := t, sent := server.sent ++ [(i, h.dump (-1) j)] }) ∨
    (client.expectsReply h = true ∧ ∃ request u, h.parse client.receive = .ok request ∧
      handleJSONRequestForClient h request server.engine = .undefined u ∧
      TCPProtocol.serveClient h (handleJSONRequestForClient h) client i server = .undefined u) := by
  by_cases hc : (client.isClientConnected && !client.receive.isEmpty) = true
  swap
  · have hnot : client.expectsReply h = false := by
      rw [Client.expectsReply, Bool.eq_false_iff.mpr hc, Bool.false_and]
    exact .inl ⟨hnot, by rw [TCPProtocol.serveClient, if_neg hc]; rfl⟩
  rw [TCPProtocol.serveClient_eq hc]
  rw [Client.expectsReply, hc, Bool.true_and, Supported] at hsup
  rw [Client.expectsReply, hc, Bool.true_and]
  cases hparse : h.parse client.receive with
  | error what =>
    rw [hparse] at hsup
    obtain ⟨message, hmessage⟩ := Option.isSome_iff_exists.mp (hsup rfl)
    refine .inr (.inl ⟨rfl, response false message .null, server.engine, ?_, hs, ?_⟩)
    · rw [Answers, hparse]
      exact ⟨rfl, message, hmessage, rfl⟩
    · rw [TCPProtocol.respond_of_error hparse hmessage]
      rfl
  | ok request =>
    by_cases ho : request.isObject = true
    swap
    · refine .inl ⟨Bool.eq_false_iff.mpr ho, ?_⟩
      rw [TCPProtocol.respond_of_not_object hparse ho]
      simp
    rw [hparse] at hsup
    have hwf := handleJSONRequestForClient_keeps_wellFormed h request server.engine hs
    cases hrun : handleJSONRequestForClient h request server.engine with
    | ok j t =>
      rw [hrun] at hwf
      refine .inr (.inl ⟨ho, j, t, ?_, hwf, ?_⟩)
      · rw [Answers, hparse]
        exact .inr ⟨hrun, isObject_of_ok hrun, fun ha => response_of_ok ha hrun⟩
      · rw [TCPProtocol.respond_of_ok hparse ho hrun]
        rfl
    | threw e t =>
      rw [hrun] at hwf
      have hexc := isException_of_threw hs hsh (hsup ho) hrun
      cases e with
      | exception what =>
        refine .inr (.inl ⟨ho, response false what .null, t, ?_, hwf, ?_⟩)
        · rw [Answers, hparse]
          exact .inl ⟨what, hrun, rfl⟩
        · rw [TCPProtocol.respond_of_exception hparse ho hrun]
          rfl
      | exceptionPointer what => cases hexc
      | literal text => cases hexc
      | string text => cases hexc
    | undefined u =>
      refine .inr (.inr ⟨ho, request, u, rfl, hrun, ?_⟩)
      rw [TCPProtocol.respond_of_undefined hparse ho hrun, Outcome.bind_undefined]

/-! ### A whole pass -/

/-- A pass over the clients, with its replies and the engine before and after it. -/
inductive Pass (h : Host) :
    List (Client × ℕ) → EngineState → List (ℕ × Json) → EngineState → Prop
  | nil (s : EngineState) : Pass h [] s [] s
  | skip {client : Client} {i : ℕ} {rest : List (Client × ℕ)} {s t : EngineState}
      {replies : List (ℕ × Json)} (hc : client.expectsReply h = false)
      (hrest : Pass h rest s replies t) : Pass h ((client, i) :: rest) s replies t
  | answer {client : Client} {i : ℕ} {rest : List (Client × ℕ)} {s t u : EngineState} {j : Json}
      {replies : List (ℕ × Json)} (hc : client.expectsReply h = true)
      (ha : Answers h client.receive s j u) (hrest : Pass h rest u replies t) :
      Pass h ((client, i) :: rest) s ((i, j) :: replies) t

/-- The replies go to the clients that expect one, in their order. -/
theorem Pass.map_fst {h : Host} {turns : List (Client × ℕ)} {s t : EngineState}
    {replies : List (ℕ × Json)} (hp : Pass h turns s replies t) :
    replies.map Prod.fst = (turns.filter fun turn => turn.1.expectsReply h).map Prod.snd := by
  induction hp with
  | nil s => rfl
  | skip hc _ ih => rw [ih, List.filter_cons_of_neg (by simp [hc])]
  | answer hc _ _ ih =>
    rw [List.filter_cons_of_pos (by simp [hc]), List.map_cons, List.map_cons, ih]

/-- The pass gets to a message whose handler has undefined behaviour, in the state that the messages
before it have led to. -/
def GetsStuck (h : Host) (turns : List (Client × ℕ)) (s : EngineState) (u : Undefined) : Prop :=
  ∃ (done rest : List (Client × ℕ)) (client : Client) (i : ℕ) (replies : List (ℕ × Json))
    (t : EngineState) (request : Json), turns = done ++ (client, i) :: rest ∧
      Pass h done s replies t ∧ client.expectsReply h = true ∧
      h.parse client.receive = .ok request ∧ handleJSONRequestForClient h request t = .undefined u

theorem GetsStuck.skip {h : Host} {turns : List (Client × ℕ)} {s : EngineState} {u : Undefined}
    (hs : GetsStuck h turns s u) {client : Client} (hc : client.expectsReply h = false) (i : ℕ) :
    GetsStuck h ((client, i) :: turns) s u := by
  obtain ⟨done, rest, stuck, j, replies, t, request, rfl, hp, hstuck⟩ := hs
  exact ⟨(client, i) :: done, rest, stuck, j, replies, t, request, rfl, .skip hc hp, hstuck⟩

theorem GetsStuck.answer {h : Host} {turns : List (Client × ℕ)} {s t : EngineState} {u : Undefined}
    (hs : GetsStuck h turns t u) {client : Client} (hc : client.expectsReply h = true) {j : Json}
    (ha : Answers h client.receive s j t) (i : ℕ) : GetsStuck h ((client, i) :: turns) s u := by
  obtain ⟨done, rest, stuck, k, replies, v, request, rfl, hp, hstuck⟩ := hs
  exact ⟨(client, i) :: done, rest, stuck, k, (i, j) :: replies, v, request, rfl, .answer hc ha hp,
    hstuck⟩

/-- The loop of `update` makes a pass, unless it gets to a handler whose behaviour is undefined. -/
theorem forEach_serveClient {h : Host} (hsh : h.shaderError = none) (turns : List (Client × ℕ)) :
    ∀ server : Server, server.engine.WellFormed →
    (∀ turn ∈ turns, turn.1.expectsReply h = true → Supported h turn.1.receive) →
    (∃ t replies, forEach turns (fun client =>
        TCPProtocol.serveClient h (handleJSONRequestForClient h) client.1 client.2) server =
          .ok () t ∧
      Pass h turns server.engine replies t.engine ∧
      t.sent = server.sent ++ replies.map fun r => (r.1, h.dump (-1) r.2)) ∨
    ∃ u, forEach turns (fun client =>
        TCPProtocol.serveClient h (handleJSONRequestForClient h) client.1 client.2) server =
          .undefined u ∧ GetsStuck h turns server.engine u := by
  induction turns with
  | nil => exact fun server _ _ => .inl ⟨server, [], rfl, .nil _, (List.append_nil _).symm⟩
  | cons turn rest ih =>
    obtain ⟨client, i⟩ := turn
    intro server hs hsup
    have hrest := fun server' hs' => ih server' hs' fun turn' hturn =>
      hsup turn' (List.mem_cons_of_mem _ hturn)
    rw [forEach_cons, bind_run]
    rcases serveClient_cases hs hsh (hsup (client, i) List.mem_cons_self) i with
      ⟨hc, hserve⟩ | ⟨hc, j, v, ha, hv, hserve⟩ | ⟨hc, request, u, hparse, hund, hserve⟩
    · rw [hserve, Outcome.bind_ok]
      rcases hrest server hs with ⟨t, replies, hrun, hp, hsent⟩ | ⟨u, hrun, hstuck⟩
      · exact .inl ⟨t, replies, hrun, .skip hc hp, hsent⟩
      · exact .inr ⟨u, hrun, hstuck.skip hc i⟩
    · rw [hserve, Outcome.bind_ok]
      rcases hrest { server with engine := v, sent := server.sent ++ [(i, h.dump (-1) j)] } hv with
        ⟨t, replies, hrun, hp, hsent⟩ | ⟨u, hrun, hstuck⟩
      · refine .inl ⟨t, (i, j) :: replies, hrun, .answer hc ha hp, ?_⟩
        rw [hsent, List.map_cons, List.append_assoc]
        rfl
      · exact .inr ⟨u, hrun, hstuck.answer hc ha i⟩
    · rw [hserve, Outcome.bind_undefined]
      exact .inr ⟨u, rfl, [], rest, client, i, [], server.engine, request, rfl, .nil _, hc, hparse,
        hund⟩

/-- A position occurs once among the positions of the elements that pass a test, or not at all. -/
private theorem count_filter_zipIdx {α : Type} (p : α → Bool) (l : List α) :
    ∀ {n i : ℕ} {a : α}, l[i]? = some a →
      (((l.zipIdx n).filter fun x => p x.1).map Prod.snd).count (n + i) = if p a then 1 else 0 := by
  induction l with
  | nil => exact fun ha => by cases ha
  | cons b l ih =>
    intro n i a ha
    have hsmall : (((l.zipIdx (n + 1)).filter fun x => p x.1).map Prod.snd).count n = 0 := by
      refine List.count_eq_zero.mpr fun hmem => ?_
      obtain ⟨x, hx, hn⟩ := List.mem_map.mp hmem
      have hle := List.le_snd_of_mem_zipIdx (List.mem_of_mem_filter hx)
      omega
    rw [List.zipIdx_cons]
    cases i with
    | zero =>
      obtain rfl := Option.some.inj ha
      by_cases hb : p b = true
      · rw [List.filter_cons_of_pos (by simpa using hb), List.map_cons, Nat.add_zero,
          List.count_cons_self, hsmall, if_pos hb]
      · rw [List.filter_cons_of_neg (by simpa using hb), Nat.add_zero, hsmall, if_neg hb]
    | succ i =>
      have hrest := ih (n := n + 1) (i := i) ha
      rw [Nat.add_right_comm] at hrest
      by_cases hb : p b = true
      · rw [List.filter_cons_of_pos (by simpa using hb), List.map_cons,
          List.count_cons_of_ne (by simp only; omega), ← Nat.add_assoc, hrest]
      · rw [List.filter_cons_of_neg (by simpa using hb), ← Nat.add_assoc, hrest]

/-- A pass of `update` that is due returns, unless it gets to a message whose handler has undefined
behaviour. Every client that has sent a text gets exactly one reply, unless the text parses to
something other than an object, which is dropped; the reply has the three members, and reports
failure exactly when the text does not parse or its handler throws. -/
theorem update_answers {h : Host} {server : Server} {clients : List Client}
    (hs : server.engine.WellFormed)
    (hdue : TCPProtocol.timeInterval ≤ h.ofGetElapsedTimeMillis - server.lastSent)
    (hsh : h.shaderError = none)
    (hsup : ∀ client ∈ clients, client.expectsReply h = true → Supported h client.receive) :
    (∃ t replies, TCPProtocol.update h (handleJSONRequestForClient h) clients server = .ok () t ∧
      Pass h clients.zipIdx server.engine replies t.engine ∧
      t.sent = server.sent ++ replies.map (fun r => (r.1, h.dump (-1) r.2)) ∧
      ∀ i client, clients[i]? = some client →
        (replies.map Prod.fst).count i = if client.expectsReply h then 1 else 0) ∨
    ∃ u, TCPProtocol.update h (handleJSONRequestForClient h) clients server = .undefined u ∧
      GetsStuck h clients.zipIdx server.engine u := by
  have hnot : ¬ h.ofGetElapsedTimeMillis - server.lastSent < TCPProtocol.timeInterval :=
    UInt64.not_lt.mpr hdue
  have hrun : TCPProtocol.update h (handleJSONRequestForClient h) clients server =
      (forEach clients.zipIdx (fun client => TCPProtocol.serveClient h
        (handleJSONRequestForClient h) client.1 client.2) server).bind fun _ t =>
          .ok () { t with lastSent := h.ofGetElapsedTimeMillis } := by
    rw [TCPProtocol.update, bind_run, gets_run, Outcome.bind_ok, if_neg hnot]
    rfl
  rcases forEach_serveClient hsh clients.zipIdx server hs fun turn hturn =>
      hsup turn.1 (List.fst_mem_of_mem_zipIdx hturn) with
    ⟨t, replies, hpass, hp, hsent⟩ | ⟨u, hpass, hstuck⟩
  · refine .inl ⟨{ t with lastSent := h.ofGetElapsedTimeMillis }, replies, ?_, hp, hsent, ?_⟩
    · rw [hrun, hpass, Outcome.bind_ok]
    · intro i client hi
      have hcount := count_filter_zipIdx (Client.expectsReply h) clients (n := 0) hi
      rw [Nat.zero_add] at hcount
      rw [hp.map_fst, hcount]
  · exact .inr ⟨u, by rw [hrun, hpass, Outcome.bind_undefined], hstuck⟩

/-- A server that has just been started. -/
def Server.started : Server := ⟨EngineState.init, 0, []⟩

/-- A client that has sent the given text. -/
def Client.sending (text : String) : Client := ⟨true, bytes text⟩

/-- Surroundings in which the text `{"action":"ping"}` is parsed. -/
def pingHost : Host :=
  .withFile "\x7b\"action\":\"ping\"\x7d" (.obj [("action", .str "ping")])

/-- A client that sends `{"action":"ping"}` gets one reply. -/
theorem update_answers_ping : ∃ t, ∃ replies : List (ℕ × Json),
    TCPProtocol.update pingHost (handleJSONRequestForClient pingHost)
      [.sending "\x7b\"action\":\"ping\"\x7d"] Server.started = .ok () t ∧
      t.sent = replies.map (fun r => (r.1, pingHost.dump (-1) r.2)) ∧
      (replies.map Prod.fst).count 0 = 1 := by
  have hparse : pingHost.parse (Client.sending "\x7b\"action\":\"ping\"\x7d").receive =
      .ok (.obj [("action", .str "ping")]) := Host.parse_withFile _ _
  have hexpects : (Client.sending "\x7b\"action\":\"ping\"\x7d").expectsReply pingHost = true := by
    decide +kernel
  have hsup : ∀ client ∈ [Client.sending "\x7b\"action\":\"ping\"\x7d"],
      client.expectsReply pingHost = true → Supported pingHost client.receive := by
    intro client hclient _
    rw [List.mem_singleton.mp hclient, Supported, hparse]
    intro name hname
    obtain rfl : "ping" = name := Json.str.inj hname
    decide +kernel
  have hstarted : Server.started.engine.WellFormed := EngineState.wellFormed_init
  rcases update_answers hstarted (by decide +kernel) rfl hsup with
    ⟨t, replies, hrun, -, hsent, hcount⟩ | ⟨u, hrun, -⟩
  · refine ⟨t, replies, hrun, hsent, ?_⟩
    rw [hcount 0 _ rfl, if_pos hexpects]
  · have hreturns : (TCPProtocol.update pingHost (handleJSONRequestForClient pingHost)
        [.sending "\x7b\"action\":\"ping\"\x7d"] Server.started).returns (fun _ _ => true) = true := by
      decide +kernel
    rw [hrun] at hreturns
    cases hreturns

/-- A client that sends `5` gets no reply. -/
theorem update_drops_number : (Client.sending "5").isClientConnected = true ∧
    (Client.sending "5").receive ≠ [] ∧
    ∃ u t, TCPProtocol.update (.withFile "5" (.int 5))
      (handleJSONRequestForClient (.withFile "5" (.int 5))) [.sending "5"] Server.started = .ok u t ∧
      t.sent = [] := by
  refine ⟨rfl, by decide, ?_⟩
  have hrun : (TCPProtocol.update (.withFile "5" (.int 5))
      (handleJSONRequestForClient (.withFile "5" (.int 5))) [.sending "5"] Server.started).returns
        (fun _ t => decide (t.sent = [])) = true := by decide +kernel
  obtain ⟨u, t, ht, hsent⟩ := Outcome.exists_of_returns hrun
  exact ⟨u, t, ht, of_decide_eq_true hsent⟩

end ArbutusEngine
