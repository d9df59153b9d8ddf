import ArbutusEngine.Frame

/-!
# The settings of the engine

Every part of the engine reads and writes the settings through `EngineProperties::getInstance`,
which sets eight of them to their defaults before it returns. A value written to one of these is
therefore lost at the next access, whichever setting that access is about; it is kept only if it is
the default.

## Main definitions

* `Setting`, `Setting.get`, `Setting.set`: the getters and setters of `EngineProperties`.
* `SettingCall`, `SettingCall.run`: calls made through `EngineProperties::getInstance`.
* `SettingsKept`: what a run of such calls keeps if no access changes anything.
* `SettingCall.WritesDefault`: the call writes no other value than the default to what is reset.

## Main results

* `Setting.get_setDefaults`: what an access does to one setting.
* `settings_kept_iff`: every run.
-/

open Exec

namespace ArbutusEngine

/-- What the setters of `EngineProperties` write. -/
inductive Setting where
  | mixerWidth
  | mixerHeight
  | numberOfLayers
  | selectedLayerNumber
  | selectedColumnNumber
  | beatsToSnap
  | beatsCounter
  | metronomeOn
  | triggeringBeat
  | beatSnapInProgress
  | currentFilePath
  | appSupportDir
  deriving DecidableEq

namespace Setting

/-- The type of a setting. -/
abbrev Value : Setting → Type
  | mixerWidth | mixerHeight | numberOfLayers | beatsToSnap | beatsCounter => UInt32
  | selectedLayerNumber | selectedColumnNumber => Int32
  | metronomeOn | triggeringBeat | beatSnapInProgress => Bool
  | currentFilePath | appSupportDir => String

/-- `getMixerWidth` and its siblings. The number of layers has no getter in the source. -/
def get : (x : Setting) → EngineProperties → x.Value
  | mixerWidth, p => p.mixerWidth
  | mixerHeight, p => p.mixerHeight
  | numberOfLayers, p => p.mixerNLayers
  | selectedLayerNumber, p => p.selectedLayer
  | selectedColumnNumber, p => p.selectedColumn
  | beatsToSnap, p => p.beatsToSnap
  | beatsCounter, p => p.beatsCounter
  | metronomeOn, p => p.metronomeOn
  | triggeringBeat, p => p.triggeringBeat
  | beatSnapInProgress, p => p.beatSnapInProgress
  | currentFilePath, p => p.currentFilePath
  | appSupportDir, p => p.appSupportDir

/-- `setMixerWidth` and its siblings. -/
def set : (x : Setting) → x.Value → EngineProperties → EngineProperties
  | mixerWidth, v, p => { p with mixerWidth := v }
  | mixerHeight, v, p => { p with mixerHeight := v }
  | numberOfLayers, v, p => { p with mixerNLayers := v }
  | selectedLayerNumber, v, p => { p with selectedLayer := v }
  | selectedColumnNumber, v, p => { p with selectedColumn := v }
  | beatsToSnap, v, p => { p with beatsToSnap := v }
  | beatsCounter, v, p => { p with beatsCounter := v }
  | metronomeOn, v, p => { p with metronomeOn := v }
  | triggeringBeat, v, p => { p with triggeringBeat := v }
  | beatSnapInProgress, v, p => { p with beatSnapInProgress := v }
  | currentFilePath, v, p => { p with currentFilePath := v }
  | appSupportDir, v, p => { p with appSupportDir := v }

/-- Whether `EngineProperties::setDefaults` writes the setting. -/
def isReset : Setting → Bool
  | mixerWidth | mixerHeight | numberOfLayers | beatsToSnap | beatSnapInProgress
  | currentFilePath | appSupportDir => true
  | selectedLayerNumber | selectedColumnNumber | beatsCounter | metronomeOn
  | triggeringBeat => false

/-- The value of a setting before it is set: what the first access finds. -/
def default (h : Host) (x : Setting) : x.Value := x.get (EngineProperties.zero.setDefaults h)

@[simp] theorem get_set (x : Setting) (v : x.Value) (p : EngineProperties) :
    x.get (x.set v p) = v := by
  cases x <;> rfl

@[simp] theorem set_get (x : Setting) (p : EngineProperties) : x.set (x.get p) p = p := by
  cases x <;> rfl

/-- An access resets a setting, or leaves it alone. -/
theorem get_setDefaults (h : Host) (x : Setting) (p : EngineProperties) :
    x.get (p.setDefaults h) = if x.isReset then x.default h else x.get p := by
  cases x <;> rfl

/-- What is not reset can be written before or after an access. -/
theorem setDefaults_set (h : Host) {x : Setting} (hx : x.isReset = false) (v : x.Value)
    (p : EngineProperties) : (x.set v p).setDefaults h = x.set v (p.setDefaults h) := by
  cases x <;> first | rfl | exact Bool.noConfusion hx

end Setting

/-! ### Calls -/

/-- A getter or a setter called on what `EngineProperties::getInstance` returns. -/
inductive SettingCall where
  | get (x : Setting)
  | set (x : Setting) (v : x.Value)

namespace SettingCall

/-- The program of a getter. -/
def read (h : Host) (x : Setting) : Prog x.Value := do
  let p ← EngineProperties.getInstance h
  return x.get p

/-- The program of a call. -/
def run (h : Host) : SettingCall → Prog Unit
  | get x => do let _ ← read h x
  | set x v => EngineProperties.update h (x.set v)

/-- The value that a call writes to a setting. -/
def written (x : Setting) : SettingCall → Option x.Value
  | get _ => none
  | set y v => if hy : y = x then some (hy ▸ v) else none

/-- The value written last. -/
def latest (x : Setting) (calls : List SettingCall) : Option x.Value :=
  calls.reverse.findSome? (written x)

/-- The call writes to no setting that is reset, or writes the default. -/
def WritesDefault (h : Host) : SettingCall → Prop
  | get _ => True
  | set x v => x.isReset = true → v = x.default h

/-- What a call does to the engine properties. -/
def apply (h : Host) (p : EngineProperties) : SettingCall → EngineProperties
  | get _ => p.setDefaults h
  | set x v => x.set v (p.setDefaults h)

/-- What a getter returns. -/
theorem exists_read_iff (h : Host) (x : Setting) (s : EngineState) (v : x.Value) :
    (∃ t, read h x s = .ok v t) ↔
      (if x.isReset then x.default h else x.get s.properties) = v := by
  rw [← Setting.get_setDefaults]
  constructor
  · rintro ⟨t, ht⟩
    exact (Outcome.ok.inj ht).1
  · rintro rfl
    exact ⟨s.resetProperties h, rfl⟩

theorem run_eq (h : Host) (c : SettingCall) (s : EngineState) :
    run h c s = .ok () { s with properties := apply h s.properties c } := by
  cases c <;> rfl

/-- A run of calls returns, and changes only the engine properties. -/
theorem forEach_run (h : Host) (calls : List SettingCall) (s : EngineState) :
    forEach calls (run h) s =
      .ok () { s with properties := calls.foldl (apply h) s.properties } := by
  induction calls generalizing s with
  | nil => rfl
  | cons c rest ih =>
    rw [forEach_cons, bind_run, run_eq, Outcome.bind_ok, ih]
    rfl

theorem exists_of_latest {x : Setting} {calls : List SettingCall} {v : x.Value}
    (hv : latest x calls = some v) : set x v ∈ calls := by
  obtain ⟨c, hc, hcv⟩ := List.exists_of_findSome?_eq_some hv
  cases c with
  | get y => cases hcv
  | set y w =>
    rw [written] at hcv
    split_ifs at hcv with hy
    subst hy
    obtain rfl := Option.some.inj hcv
    exact List.mem_reverse.mp hc

/-- A call that writes defaults keeps what has just been accessed as it is. -/
theorem setDefaults_apply {h : Host} {c : SettingCall} (hc : c.WritesDefault h)
    {p : EngineProperties} (hp : p.setDefaults h = p) :
    (apply h p c).setDefaults h = apply h p c := by
  cases c with
  | get x => exact EngineProperties.setDefaults_setDefaults h p
  | set x v =>
    rw [apply, hp]
    by_cases hx : x.isReset = true
    · have hv : v = x.get p := by
        rw [hc hx, ← hp, Setting.get_setDefaults, if_pos hx]
      rw [hv, Setting.set_get, hp]
    · rw [Setting.setDefaults_set h (Bool.eq_false_iff.mpr hx), hp]

theorem setDefaults_foldl {h : Host} {calls : List SettingCall}
    (hcalls : ∀ c ∈ calls, c.WritesDefault h) {p : EngineProperties} (hp : p.setDefaults h = p) :
    (calls.foldl (apply h) p).setDefaults h = calls.foldl (apply h) p := by
  induction calls generalizing p with
  | nil => exact hp
  | cons c rest ih =>
    refine ih (fun d hd => hcalls d (List.mem_cons_of_mem c hd)) ?_
    exact setDefaults_apply (hcalls c List.mem_cons_self) hp

end SettingCall

/-! ### Runs -/

/-- The state after the first access. -/
def EngineState.accessed (h : Host) : EngineState := EngineState.init.resetProperties h

/-- The settings of which the getters are to return what was set. -/
def Setting.kept : List Setting :=
  [mixerWidth, mixerHeight, beatsToSnap, beatSnapInProgress, currentFilePath, appSupportDir]

theorem Setting.isReset_of_mem_kept {x : Setting} (hx : x ∈ kept) : x.isReset = true := by
  revert x
  decide

/-- After every part of the run, the getters return the values set last, or the defaults, and
obtaining the instance changes nothing. -/
def SettingsKept (h : Host) (calls : List SettingCall) : Prop :=
  ∀ before, before <+: calls → ∃ s, forEach before (SettingCall.run h) (.accessed h) = .ok () s ∧
    (∀ x ∈ Setting.kept, ∃ t, SettingCall.read h x s =
      .ok ((SettingCall.latest x before).getD (x.default h)) t) ∧
    ∃ p, EngineProperties.getInstance h s = .ok p s

/-- Obtaining the instance changes nothing exactly when everything that is reset has its default. -/
theorem EngineProperties.getInstance_eq_self_iff (h : Host) (s : EngineState) :
    (∃ p, EngineProperties.getInstance h s = .ok p s) ↔
      s.properties.setDefaults h = s.properties := by
  constructor
  · rintro ⟨p, hp⟩
    exact congrArg EngineState.properties (Outcome.ok.inj hp).2
  · intro hs
    refine ⟨s.properties, ?_⟩
    rw [EngineProperties.getInstance, hs]

/-- The settings are kept exactly when every value written to one that is reset is its default. -/
theorem settings_kept_iff (h : Host) (calls : List SettingCall) :
    SettingsKept h calls ↔ ∀ c ∈ calls, c.WritesDefault h := by
  constructor
  · intro hkept c hc
    obtain ⟨before, after, rfl⟩ := List.append_of_mem hc
    obtain ⟨s, hrun, -, hget⟩ := hkept (before ++ [c]) ⟨after, by simp⟩
    rw [SettingCall.forEach_run, List.foldl_concat] at hrun
    rw [EngineProperties.getInstance_eq_self_iff, ← (Outcome.ok.inj hrun).2] at hget
    cases c with
    | get x => trivial
    | set x v =>
      intro hx
      have hv := congrArg x.get hget
      rw [Setting.get_setDefaults, if_pos hx] at hv
      exact (hv.trans (Setting.get_set x v _)).symm
  · intro hdefault before hbefore
    have hbefore : ∀ c ∈ before, c.WritesDefault h := fun c hc => hdefault c (hbefore.subset hc)
    refine ⟨_, SettingCall.forEach_run h before _, fun x hx => ?_, ?_⟩
    · rw [SettingCall.exists_read_iff, if_pos (Setting.isReset_of_mem_kept hx)]
      cases hlatest : SettingCall.latest x before with
      | none => rfl
      | some v =>
        exact (hbefore _ (SettingCall.exists_of_latest hlatest)
          (Setting.isReset_of_mem_kept hx)).symm
    · rw [EngineProperties.getInstance_eq_self_iff]
      exact SettingCall.setDefaults_foldl hbefore rfl

/-- The width of the mixer is set to `800` and found to be `640`. -/
theorem settings_lost_mixerWidth :
    (do
      SettingCall.run Host.plain (.set .mixerWidth 800)
      SettingCall.read Host.plain .mixerWidth : Prog UInt32) (.accessed Host.plain) =
        .ok 640 (.accessed Host.plain) ∧
    ¬ SettingsKept Host.plain [.set .mixerWidth 800] := by
  refine ⟨rfl, fun hkept => ?_⟩
  obtain ⟨s, hrun, hread, -⟩ := hkept _ (List.prefix_refl _)
  obtain ⟨t, ht⟩ := hread .mixerWidth (by decide)
  rw [← (Outcome.ok.inj hrun).2] at ht
  have hwidth : (640 : UInt32) = 800 := (Outcome.ok.inj ht).1
  exact absurd hwidth (by decide)

end ArbutusEngine
