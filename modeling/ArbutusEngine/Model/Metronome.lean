import ArbutusEngine.Model.State

/-!
# The metronome

The metronome is a thread that calls `Engine::beat` once every beat. The engine starts and stops it
and sets its speed; whether it is on is also a setting, `EngineProperties::metronomeOn`, which the
players of instances read. This file models the five functions of the engine that deal with it, and
`Engine::tap`, which sets the speed from the times of four taps. What the thread does while it runs
is modelled elsewhere, as calls of `Engine::beat`.

The thread itself is an `ofThread` of openFrameworks, of which the engine uses `OfThread`.

## Main definitions

* `OfThread`, `OfThread.Lawful`: the thread, and what is relied on of it.
* `Metronome`: the members of `metronome` that its functions read or write.
* `Engine.startMetronome`, `Engine.stopMetronome`, `Engine.resetMetronome`, `Engine.setBPM`,
  `Engine.getBPM`.
* `Taps`, `EngineProperties.tap`, `Engine.tap`.
-/

open Exec

namespace ArbutusEngine

/-- What the metronome uses of `ofThread`, on a thread of type `τ`. -/
structure OfThread (τ : Type) where
  startThread : τ → τ
  stopThread : τ → τ
  waitForThread : τ → τ
  isThreadRunning : τ → Bool

/-- What is relied on of `ofThread`: a started thread runs, a stopped one does not, and waiting for
a thread does not start it. -/
structure OfThread.Lawful {τ : Type} (T : OfThread τ) : Prop where
  running_start (t : τ) : T.isThreadRunning (T.startThread t) = true
  running_stop (t : τ) : T.isThreadRunning (T.stopThread t) = false
  running_wait (t : τ) :
    T.isThreadRunning t = false → T.isThreadRunning (T.waitForThread t) = false

/-- A thread of which nothing matters but whether it runs. -/
def OfThread.flag : OfThread Bool where
  startThread _ := true
  stopThread _ := false
  waitForThread _ := false
  isThreadRunning t := t

theorem OfThread.lawful_flag : OfThread.flag.Lawful :=
  ⟨fun _ => rfl, fun _ => rfl, fun _ _ => rfl⟩

/-- The class `metronome`, without the counters that only its thread changes. -/
structure Metronome (τ : Type) where
  thread : τ
  bpm : UInt32
  beatDuration : UInt32
  deriving DecidableEq

/-- Programs of the engine that have access to the metronome. -/
abbrev MetronomeProg (τ : Type) : Type → Type := Exec (EngineState × Metronome τ) Thrown Undefined

namespace Metronome

variable {τ : Type} (T : OfThread τ)

/-- `metronome::metronome`. -/
def new (thread : τ) : Metronome τ := ⟨thread, 120, 60000 / 120⟩

/-- `metronome::start`. -/
def start (m : Metronome τ) : Metronome τ := { m with thread := T.startThread m.thread }

/-- `metronome::stop`. -/
def stop (m : Metronome τ) : Metronome τ := { m with thread := T.stopThread m.thread }

/-- `ofThread::waitForThread`. -/
def waitForThread (m : Metronome τ) : Metronome τ := { m with thread := T.waitForThread m.thread }

/-- `metronome::resetMetronome`. -/
def resetMetronome (m : Metronome τ) : Metronome τ := ((m.stop T).waitForThread T).start T

/-- Whether the thread of the metronome runs. -/
def isRunning (m : Metronome τ) : Bool := T.isThreadRunning m.thread

/-- A member function of the metronome that does no more than change it. -/
def call (f : Metronome τ → Metronome τ) : MetronomeProg τ Unit := Exec.modify fun s => (s.1, f s.2)

/-- `metronome::getBPM`. -/
def getBPM : MetronomeProg τ UInt32 := Exec.gets fun s => s.2.bpm

/-- `metronome::setBPM`, which divides by the new speed. -/
def setBPM (bpm : UInt32) : MetronomeProg τ Unit :=
  if bpm = 0 then Exec.undefined .divisionByZero
  else call fun m => { m with bpm := bpm, beatDuration := 60000 / bpm }

end Metronome

namespace Engine

variable {τ : Type} (T : OfThread τ) (h : Host)

/-- `EngineProperties::getInstance().setMetronomeOn(val)`. -/
def setMetronomeOn (val : Bool) : MetronomeProg τ Unit :=
  (EngineProperties.update h fun p => { p with metronomeOn := val }).alongside id

/-- `Engine::startMetronome`. -/
def startMetronome : MetronomeProg τ Unit := do
  Metronome.call (·.start T)
  setMetronomeOn h true

/-- `Engine::stopMetronome`. -/
def stopMetronome : MetronomeProg τ Unit := do
  Metronome.call (·.stop T)
  setMetronomeOn h false

/-- `Engine::resetMetronome`. -/
def resetMetronome : MetronomeProg τ Unit := Metronome.call (·.resetMetronome T)

/-- `Engine::getBPM`. -/
def getBPM : MetronomeProg τ UInt32 := Metronome.getBPM

/-- `Engine::setBPM`. The variable `metroOn` is a `Boolean`, an `unsigned char`, and is given the
current speed: it holds the lowest eight bits of that. -/
def setBPM (newBPM : UInt32) : MetronomeProg τ Unit := do
  let metroOn := (← Metronome.getBPM).toUInt8
  if metroOn ≠ 0 then
    Metronome.call (·.stop T)
    Metronome.call (·.waitForThread T)
  Metronome.setBPM newBPM
  if metroOn ≠ 0 then
    Metronome.call (·.start T)

end Engine

/-! ### Tap tempo -/

/-- The members of `EngineProperties` that deal with taps. -/
structure Taps where
  taps : Vector UInt64 4
  currentTapIndex : Int32
  deriving DecidableEq

namespace Taps

/-- The static instance before its first use. -/
def zero : Taps := ⟨.replicate 4 0, -1⟩

/-- `EngineProperties::incrementTap`. -/
def incrementTap (t : Taps) : Taps :=
  { t with currentTapIndex :=
      if t.currentTapIndex > -1 then t.currentTapIndex + 1 else t.currentTapIndex }

/-- `taps[currentTapIndex] = elapsedTime`. -/
def write (elapsedTime : UInt64) (t : Taps) : Option Taps :=
  if h : 0 ≤ t.currentTapIndex.toInt ∧ t.currentTapIndex.toInt < 4 then
    some { t with taps := t.taps.set t.currentTapIndex.toInt.toNat elapsedTime (by omega) }
  else none

end Taps

/-- Programs that have access to the metronome and to the taps. -/
abbrev TapProg (τ : Type) : Type → Type :=
  Exec ((EngineState × Metronome τ) × Taps) Thrown Undefined

/-- `EngineProperties::tap`, which returns `NULL` where there is no new speed. -/
def EngineProperties.tap {τ : Type} (h : Host) : TapProg τ UInt32 := do
  let t ← gets Prod.snd
  let a := t.taps[1] - t.taps[0]
  let t ← ofOption .outOfBounds (t.incrementTap.write h.ofGetElapsedTimeMillis)
  modify fun s => (s.1, t)
  if t.currentTapIndex ≠ 3 then return 0
  else do
    let b := t.taps[2] - t.taps[1]
    let c := t.taps[3] - t.taps[2]
    if a + b + c = 0 then undefined .divisionByZero
    else do
      let newBpm : ℚ := 60000 / (((a + b + c).toNat : ℚ) / 3)
      modify fun s => (s.1, { s.2 with currentTapIndex := -1 })
      return floatToUnsigned (roundHalfAway newBpm : ℚ)

/-- `Engine::tap`. The second call of `setBPM` is made in any case. -/
def Engine.tap {τ : Type} (T : OfThread τ) (h : Host) : TapProg τ Unit := do
  let _ ← ((EngineProperties.getInstance h).alongside id).alongside id
  let newBPM ← EngineProperties.tap h
  if newBPM ≠ 0 then (setBPM T newBPM).alongside id
  (setBPM T newBPM).alongside id

end ArbutusEngine
