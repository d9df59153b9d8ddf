import ArbutusEngine.Model.Engine

/-!
# Cameras and Syphon servers

Besides videos, the list of visuals takes cameras and servers of Syphon. The constructor of a camera
asks for the list of devices, and refuses a number that is larger than their count; the number that
is equal to their count is let through, and the list is read at its end. The camera is opened for a
thumbnail and closed again, so a new camera is closed.

Neither constructor accesses the engine properties. The frames of a device are left out.

## Main definitions

* `VisualCamera.new`, `VisualSyphon.new`.
* `Set.addVisualCameraToList`, `Set.addVisualSyphonToList`.
-/

open Exec

namespace ArbutusEngine

/-- An address for a new visual. -/
def Visual.allocate : Prog Addr := do
  let addr ← gets EngineState.nextAddr
  modify fun s => { s with nextAddr := s.nextAddr + 1 }
  return addr

/-- `VisualCamera::VisualCamera`, `listDevices` being the names of the devices. -/
def VisualCamera.new (listDevices : List String) (deviceId frameRate width height : UInt32) :
    Prog Visual :=
  if listDevices.length = 0 then throw (.exception "No video devices found")
  else if listDevices.length < deviceId.toNat then throw (.exception "Video device not found.")
  else do
    let deviceName ← ofOption .outOfBounds listDevices[deviceId.toNat]?
    let addr ← Visual.allocate
    return ⟨addr, "Camera: " ++ deviceName, .camera deviceId frameRate width height false, ""⟩

/-- `VisualSyphon::VisualSyphon`. -/
def VisualSyphon.new (serverName appName : String) : Prog Visual := do
  let addr ← Visual.allocate
  let name := if appName = "" then serverName else appName
  return ⟨addr, "Syphon: " ++ name, .syphon serverName appName, ""⟩

/-- `Set::addVisualCameraToList`. -/
def Set.addVisualCameraToList (listDevices : List String) (id rate w h : UInt32) : Prog Unit := do
  let visual ← VisualCamera.new listDevices id rate w h
  Visuals.add visual

/-- `Set::addVisualSyphonToList`. -/
def Set.addVisualSyphonToList (serverName appName : String) : Prog Unit := do
  let visual ← VisualSyphon.new serverName appName
  Visuals.add visual

end ArbutusEngine
