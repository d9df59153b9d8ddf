import ArbutusEngine.Model.Engine

/-!
# The server: requests and replies

A client sends one line of JSON; `TCPProtocol::update` parses it, hands objects to
`handleJSONRequestForClient` and sends back what that returns. The handler dispatches on the hash of
the action. Errors are reported by exceptions, and `update` catches those that are a
`std::exception`.

The engine and the connections make up the state of a server, `Server`; the handlers are programs of
the engine that run inside it.

## Main definitions

* `Action`, `handleJSONRequestForClient`, `handleSetState`, `setLayerControl`, `updateState`,
  `updateLayers`.
* `Server`, `Client`, `TCPProtocol.update`.
-/

open Exec

namespace ArbutusEngine

/-! ### Requests -/

/-- The actions of the dispatcher. -/
inductive Action where
  | ping
  | getState
  | setState
  | getFullState
  | setLayerControl
  | updateState
  deriving DecidableEq

/-- The `switch` of `handleJSONRequestForClient`. -/
def Action.ofHash (hash : UInt32) : Option Action :=
  if hash = str2int (bytes "ping") then some ping
  else if hash = str2int (bytes "getState") then some getState
  else if hash = str2int (bytes "setState") then some setState
  else if hash = str2int (bytes "getFullState") then some getFullState
  else if hash = str2int (bytes "setLayerControl") then some setLayerControl
  else if hash = str2int (bytes "updateState") then some updateState
  else none

/-- The action a string names. -/
def Action.ofString (action : String) : Option Action := ofHash (str2int (bytes action))

/-- The JSON object of a reply. -/
def response (success : Bool) (message : String) (data : Json) : Json :=
  .obj [("success", .bool success), ("message", .str message), ("data", data)]

/-- `handleSetState`. -/
def handleSetState (h : Host) (request : Json) : Prog Json := do
  let data ← Prog.json (request.index "data")
  if data.isObject then do
    Engine.setState h data
    return .null
  else throw (.exception "No data sent for state change.")

section

variable {N : Type} [FloatNumber N]

/-- `setLayerControl`. What `Layers::get` returns is dereferenced unchecked. -/
def setLayerControl (h : Host N) (data : Json N) : ProgOver N (Json N) := do
  let controlName ← Prog.json ((data.index "name").bind Json.getString)
  let value ← Prog.json ((data.index "value").bind Json.getString)
  let value := FloatNumber.single (h.ofToFloat value)
  let layer ← Prog.json ((data.index "layer").bind Json.getInt)
  let n := layer.toUInt32.toNat
  Layer.setState n (.obj [(controlName, .float value)])
  let layer ← Layer.read n
  let alpha ← Prog.json ((layer.properties.getState.index "alpha").bind Json.getFloat)
  return .obj [("result", .bool (value ≤ alpha ∧ alpha ≤ value))]

/-- `updateLayers`, for entries with their positions. -/
def updateLayers (layerData : Json N) : ProgOver N Unit :=
  forEach layerData.elements.zipIdx fun layer => Layer.setState layer.2 layer.1

/-- `updateState`. -/
def updateState (data : Json N) : ProgOver N (Json N) := do
  let layers ← Prog.json (data.index "layers")
  updateLayers layers
  return .obj [("result", .bool true)]

end

/-- The branches of the `switch` of `handleJSONRequestForClient`. The reply of `setLayerControl` is
returned as it is. -/
def handleAction (h : Host) (request : Json) : Action → Prog Json
  | .ping => return response true "pong" .null
  | .getState => do
    let data ← Engine.getState
    return response true "" data
  | .setState => do
    let data ← handleSetState h request
    return response true "" data
  | .getFullState => do
    let data ← Engine.getFullState h
    return response true "" data
  | .setLayerControl => do
    let data ← Prog.json (request.index "data")
    setLayerControl h data
  | .updateState => do
    let data ← Prog.json (request.index "data")
    let data ← updateState data
    return response true "" data

/-- `handleJSONRequestForClient`. -/
def handleJSONRequestForClient (h : Host) (request : Json) : Prog Json := do
  let action ← Prog.json (request.index "action")
  if action.isString then do
    let action ← Prog.json action.getString
    match Action.ofString action with
    | some action => handleAction h request action
    | none => throw (.exceptionPointer "Action not supported")
  else throw (.exception "No action defined")

/-! ### Connections -/

/-- What a pass of `update` finds at one connection: whether it is up, and what `TCP.receive`
returns. -/
structure Client where
  isClientConnected : Bool
  receive : List UInt8

/-- The engine with the server that serves it. -/
structure Server where
  engine : EngineState
  lastSent : UInt64
  /-- The strings sent so far, each with the client it was sent to. -/
  sent : List (ℕ × String)

/-- Programs of the server. -/
abbrev Serve : Type → Type := Exec Server Thrown Undefined

/-- Run a program of the engine. -/
def Serve.engine {α : Type} (x : Prog α) : Serve α := fun server =>
  match x server.engine with
  | .ok a s => .ok a { server with engine := s }
  | .threw e s => .threw e { server with engine := s }
  | .undefined u => .undefined u

/-- `catch (std::exception &e)`. -/
def Serve.catchException {α : Type} (x : Serve α) (handler : String → Serve α) : Serve α :=
  fun server =>
    match x server with
    | .threw (.exception what) s => handler what s
    | o => o

namespace TCPProtocol

/-- `timeInterval`. -/
def timeInterval : UInt64 := 100

/-- What `dump` throws on a string that is not valid UTF-8. -/
def invalidUtf8 : Thrown := .exception "[json.exception.type_error.316] invalid UTF-8 byte"

/-- The `try` block: the JSON to send, `none` for the `continue`. The message of a parse error
quotes the text; when that is not valid UTF-8, the `dump` after the block throws. -/
def respond (h : Host) (handler : Json → Prog Json) (str : List UInt8) : Serve (Option Json) :=
  match h.parse str with
  | .error what =>
    match textOf what with
    | some text => return some (response false text .null)
    | none => throw invalidUtf8
  | .ok jsonRequest =>
    if jsonRequest.isObject then
      Serve.catchException (some <$> Serve.engine (handler jsonRequest)) fun what =>
        return some (response false what .null)
    else return none

/-- The body of the loop of `update`, for the client `i`. -/
def serveClient (h : Host) (handler : Json → Prog Json) (client : Client) (i : ℕ) : Serve Unit :=
  if client.isClientConnected && !client.receive.isEmpty then do
    let jsonResponse ← respond h handler client.receive
    match jsonResponse with
    | none => pure ()
    | some j => modify fun server => { server with sent := server.sent ++ [(i, h.dump (-1) j)] }
  else pure ()

/-- `TCPProtocol::update`. -/
def update (h : Host) (handler : Json → Prog Json) (clients : List Client) : Serve Unit := do
  let now := h.ofGetElapsedTimeMillis
  let lastSent ← gets Server.lastSent
  if now - lastSent < timeInterval then pure ()
  else do
    forEach clients.zipIdx fun client => serveClient h handler client.1 client.2
    modify fun server => { server with lastSent := now }

end TCPProtocol

end ArbutusEngine
