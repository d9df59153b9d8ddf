import ArbutusEngine.Model.Messages
import ArbutusEngine.Model.Render

/-!
# The frames of the application

In every frame the application asks its two servers for messages, and then renders the layers. The
server for processes on the same machine receives messages and logs them, but passes none of them on,
so that only the other one is left here. What is thrown and not caught by the server ends the
application.

## Main definitions

* `ofApp.update`, `Frame`, `Frame.run`.
-/

open Exec

namespace ArbutusEngine

/-- `ofApp::update`. -/
def ofApp.update (h : Host) (clients : List Client) : Serve Unit := do
  TCPProtocol.update h (handleJSONRequestForClient h) clients
  Serve.engine (Engine.render h)

/-- The surroundings of a frame, and the clients with what they have sent. -/
abbrev Frame : Type := Host × List Client

/-- The program of a frame. -/
def Frame.run (f : Frame) : Serve Unit := ofApp.update f.1 f.2

end ArbutusEngine
