import ArbutusEngine.Model.Metronome

/-!
# The metronome flag

Whether the metronome is on is stored as a setting, beside the thread that does the work. Only
`Engine::startMetronome` and `Engine::stopMetronome` write the setting, while `resetMetronome` and
`setBPM` start and stop the thread as well. The setting tells the truth along a run exactly if the
latter two are never called in a state in which they start a stopped thread: `resetMetronome` always
does, and `setBPM` does unless the current speed is a multiple of 256, because it takes the lowest
eight bits of the current speed for the answer to whether the metronome is on.

## Main definitions

* `MetronomeCall`, `MetronomeCall.run`: the five functions of the engine.
* `MetronomeCall.Truthful`: after the call the setting is right, and `setBPM` has left the thread
  running or stopped as it was.
* `MetronomeCall.Safe`: the call does not start a stopped thread behind the back of the setting.

## Main results

* `MetronomeCall.final?_run`: what one call does to the setting and to the thread.
* `metronome_truthful_iff`: every run.
-/

open Exec

namespace ArbutusEngine

variable {τ : Type} {T : OfThread τ}

/-- A call of one of the functions of the engine that deal with the metronome. -/
inductive MetronomeCall where
  | startMetronome
  | stopMetronome
  | resetMetronome
  | setBPM (newBPM : UInt32)
  | getBPM
  deriving DecidableEq

/-- `EngineProperties::isMetronomeOn`. -/
def isMetronomeOn (s : EngineState × Metronome τ) : Bool := s.1.properties.metronomeOn

namespace MetronomeCall

/-- A call, in the given surroundings. -/
def run (T : OfThread τ) : Host × MetronomeCall → MetronomeProg τ Unit
  | (h, startMetronome) => Engine.startMetronome T h
  | (h, stopMetronome) => Engine.stopMetronome T h
  | (_, resetMetronome) => Engine.resetMetronome T
  | (_, setBPM newBPM) => Engine.setBPM T newBPM
  | (_, getBPM) => do
    let _ ← Engine.getBPM

/-- The new speed of a call of `setBPM` is at least one. -/
def Admitted : MetronomeCall → Prop
  | setBPM newBPM => 1 ≤ newBPM
  | _ => True

/-- After the call the setting is right, and a call of `setBPM` has left the thread running or
stopped as it was. -/
def Truthful (T : OfThread τ) (c : MetronomeCall) (s t : EngineState × Metronome τ) : Prop :=
  (isMetronomeOn t = true ↔ t.2.isRunning T = true) ∧
    ∀ newBPM, c = setBPM newBPM → t.2.isRunning T = s.2.isRunning T

/-- The call does not start a stopped thread, or it is `startMetronome`. -/
def Safe (T : OfThread τ) (c : MetronomeCall) (s : EngineState × Metronome τ) : Prop :=
  match c with
  | resetMetronome => s.2.isRunning T = true
  | setBPM _ => s.2.isRunning T = true ∨ s.2.bpm.toNat % 256 = 0
  | _ => True

/-- Whether the thread runs after a call. -/
def runningAfter (T : OfThread τ) (c : MetronomeCall) (s : EngineState × Metronome τ) : Bool :=
  match c with
  | startMetronome | resetMetronome => true
  | stopMetronome => false
  | setBPM _ => s.2.isRunning T || s.2.bpm.toUInt8 != 0
  | getBPM => s.2.isRunning T

/-- The setting after a call. -/
def onAfter (c : MetronomeCall) (s : EngineState × Metronome τ) : Bool :=
  match c with
  | startMetronome => true
  | stopMetronome => false
  | _ => isMetronomeOn s

theorem toUInt8_eq_zero_iff (n : UInt32) : n.toUInt8 = 0 ↔ n.toNat % 256 = 0 := by
  rw [← UInt8.toNat_inj, UInt32.toNat_toUInt8]
  rfl

/-- An admitted call returns; it leaves the thread and the setting as `runningAfter` and `onAfter`
say. -/
theorem final?_run (hT : T.Lawful) (h : Host) {c : MetronomeCall} (hc : c.Admitted)
    (s : EngineState × Metronome τ) :
    ∃ t, (run T (h, c) s).final? = some t ∧ t.2.isRunning T = c.runningAfter T s ∧
      isMetronomeOn t = c.onAfter s := by
  cases c with
  | startMetronome => exact ⟨_, rfl, hT.running_start _, rfl⟩
  | stopMetronome => exact ⟨_, rfl, hT.running_stop _, rfl⟩
  | resetMetronome => exact ⟨_, rfl, hT.running_start _, rfl⟩
  | getBPM => exact ⟨s, rfl, rfl, rfl⟩
  | setBPM newBPM =>
    have hne : newBPM ≠ 0 := by
      rintro rfl
      exact absurd hc (show ¬(1 : UInt32) ≤ 0 by decide)
    by_cases hbyte : s.2.bpm.toUInt8 = 0
    · refine ⟨(s.1, { s.2 with bpm := newBPM, beatDuration := 60000 / newBPM }), ?_, ?_, rfl⟩
      · simp [run, Engine.setBPM, Metronome.getBPM, Metronome.setBPM, Metronome.call, hbyte, hne]
      · simp [runningAfter, Metronome.isRunning, hbyte]
    · refine ⟨(s.1, Metronome.start T
        { (s.2.stop T).waitForThread T with bpm := newBPM, beatDuration := 60000 / newBPM }),
        ?_, ?_, rfl⟩
      · simp [run, Engine.setBPM, Metronome.getBPM, Metronome.setBPM, Metronome.call, hbyte, hne]
      · simp [runningAfter, Metronome.isRunning, Metronome.start, hT.running_start, hbyte]

/-- Where the setting is right, a call leaves it right exactly if it is safe. -/
theorem truthful_iff_safe (hT : T.Lawful) (h : Host) {c : MetronomeCall} (hc : c.Admitted)
    {s t : EngineState × Metronome τ} (hs : isMetronomeOn s = s.2.isRunning T)
    (ht : (run T (h, c) s).final? = some t) : c.Truthful T s t ↔ c.Safe T s := by
  obtain ⟨u, hu, hrunning, hon⟩ := final?_run hT h hc s
  obtain rfl : t = u := Option.some.inj (ht.symm.trans hu)
  rw [Truthful, hrunning, hon]
  cases c with
  | startMetronome | stopMetronome | getBPM => simp [runningAfter, onAfter, Safe, hs]
  | resetMetronome => simp [runningAfter, onAfter, Safe, hs]
  | setBPM newBPM =>
    simp only [runningAfter, onAfter, Safe, hs, ← toUInt8_eq_zero_iff]
    cases s.2.isRunning T <;> simp

end MetronomeCall

/-- Along every run of calls that starts with a stopped metronome, the setting is right after every
call and every call of `setBPM` leaves the thread running or stopped as it was, exactly if every
call is safe in the state it is made in. -/
theorem metronome_truthful_iff (hT : T.Lawful) (cs : List (Host × MetronomeCall))
    (hcs : ∀ c ∈ cs, c.2.Admitted) (s : EngineState × Metronome τ)
    (hon : isMetronomeOn s = false) (hstopped : s.2.isRunning T = false) :
    Along (MetronomeCall.run T) (fun c s t => c.2.Truthful T s t) cs s ↔
      Along (MetronomeCall.run T) (fun c s _ => c.2.Safe T s) cs s := by
  refine along_congr (I := fun s => isMetronomeOn s = s.2.isRunning T) ?_ ?_
    (hon.trans hstopped.symm)
  · intro c hc s t hs ht
    exact MetronomeCall.truthful_iff_safe hT c.1 (hcs c hc) hs ht
  · intro c _ s t _ _ htruth
    exact Bool.eq_iff_iff.mpr htruth.1

/-- The speed can be set, and the metronome reset, while it is running. -/
theorem metronome_truthful_while_running :
    Along (MetronomeCall.run .flag) (fun c s t => c.2.Truthful .flag s t)
      [(.plain, .startMetronome), (.plain, .setBPM 100), (.plain, .resetMetronome),
        (.plain, .stopMetronome)] (.init, .new false) := by
  refine (metronome_truthful_iff OfThread.lawful_flag _ ?_ _ rfl rfl).mpr ?_
  · simp [MetronomeCall.Admitted]
  · exact ⟨_, rfl, trivial, _, rfl, .inl rfl, _, rfl, rfl, _, rfl, trivial, trivial⟩

/-- Setting the speed of a stopped metronome from 120 to 100 starts its thread, and the setting
still says that it is off. -/
theorem setBPM_starts_stopped_metronome :
    OfThread.flag.Lawful ∧ MetronomeCall.Admitted (.setBPM 100) ∧
      isMetronomeOn (EngineState.init, Metronome.new false) = false ∧
      (Metronome.new false).isRunning .flag = false ∧
      ¬Along (MetronomeCall.run .flag) (fun c s t => c.2.Truthful .flag s t)
        [(.plain, .setBPM 100)] (.init, .new false) := by
  refine ⟨OfThread.lawful_flag, (by decide : (1 : UInt32) ≤ 100), rfl, rfl, ?_⟩
  rintro ⟨t, ht, htruth, -⟩
  obtain rfl := Option.some.inj ht
  exact absurd (htruth.2 100 rfl) (by decide)

end ArbutusEngine
