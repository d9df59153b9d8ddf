import ArbutusEngine.Held
import ArbutusEngine.Model.Commands

/-!
# Triggers that wait for a beat

An instance that snaps to the beat is scheduled when it is triggered between two beats to snap to.
At such a beat the metronome raises a flag, and the next `Engine::render` is to activate what is
scheduled. But `render` reads the flag through `EngineProperties::getInstance`, which lowers it
first: no `render` ever activates anything, and what was scheduled stays scheduled until it is
triggered again.

## Main definitions

* `SnapStep`, `SnapStep.run`: triggers, beats and renders.
* `SnapAwaited`: an instance is scheduled at a beat to snap to, and left alone until the next
  render.
* `FiresOnSnap`, `FiresOnlyOnSnap`: the two halves of the contract.

## Main results

* `SnapAwaited.scheduledAt_eq`: what a render leaves of an instance that was to be activated.
* `snap_fires_iff`: every interleaving.
-/

open Exec

namespace ArbutusEngine

/-- The steps of the metronome, of the application and of those who trigger instances. -/
inductive SnapStep where
  | trigger (layer : ℕ) (newInstance : Addr)
  | beat
  | render
  deriving DecidableEq

namespace SnapStep

/-- The program of a step. -/
def run (c : Host × SnapStep) : Prog Unit :=
  match c with
  | (h, trigger n newInstance) => Layer.playVisualInstance h n newInstance
  | (h, beat) => Engine.beat h
  | (h, render) => Engine.render h

/-- The state that an interleaving of steps leads to. -/
def after (steps : List (Host × SnapStep)) (s : EngineState) : Option EngineState :=
  runAll run (fun _ _ => True) steps s

/-- The step triggers an instance on a layer. -/
def TriggersOn (n : ℕ) : SnapStep → Prop
  | trigger m _ => m = n
  | _ => False

/-- What a step leaves alone that triggers nothing on a layer. -/
theorem keepsHeldAt_run {n : ℕ} {c : Host × SnapStep} (hc : ¬ c.2.TriggersOn n) :
    KeepsHeldAt n (run c) := by
  match c, hc with
  | (h, trigger m a), hc => exact Layer.keepsHeldAt_playVisualInstance hc h a
  | (h, beat), _ => exact Engine.keepsHeldAt_beat h n
  | (h, render), _ => exact Engine.keepsHeldAt_render h n

/-- What an interleaving leaves alone that triggers nothing on a layer. -/
theorem heldAt_after {n : ℕ} {steps : List (Host × SnapStep)}
    (hsteps : ∀ c ∈ steps, ¬ c.2.TriggersOn n) {s t : EngineState} (ht : after steps s = some t) :
    t.heldAt n = s.heldAt n :=
  runAll_invariant (fun c hc => keepsHeldAt_run (hsteps c hc) (s.heldAt n)) ht rfl

end SnapStep

/-- The next beat is one to snap to. -/
def EngineState.NextBeatSnaps (h : Host) (s : EngineState) : Prop :=
  (s.properties.setDefaults h).beat.isAtSnap = true

open SnapStep in
/-- In the run, a layer has an instance scheduled at a beat to snap to, and nothing is triggered on
the layer before the next render, which leads to the state `t`. -/
def SnapAwaited (s : EngineState) (steps : List (Host × SnapStep)) (n : ℕ) (a : Addr)
    (t : EngineState) : Prop :=
  ∃ before h between h' rest s₁,
    steps = before ++ (h, beat) :: (between ++ (h', render) :: rest) ∧
    after before s = some s₁ ∧ s₁.NextBeatSnaps h ∧ s₁.scheduledAt n = some a ∧
    (∀ c ∈ between, c.2 ≠ render ∧ ¬ c.2.TriggersOn n) ∧
    after ((h, beat) :: (between ++ [(h', render)])) s₁ = some t

/-- What is scheduled at a beat to snap to is active after the next render. -/
def FiresOnSnap (s : EngineState) (steps : List (Host × SnapStep)) : Prop :=
  ∀ n a t, SnapAwaited s steps n a t → t.activeAt n = some a ∧ t.scheduledAt n = none

open SnapStep in
/-- There is no beat to snap to since the last render of a run. -/
def NoSnapSinceRender (s : EngineState) (steps : List (Host × SnapStep)) : Prop :=
  ∀ before h between s₁, steps = before ++ (h, beat) :: between →
    (∀ c ∈ between, c.2 ≠ render) → after before s = some s₁ → ¬ s₁.NextBeatSnaps h

open SnapStep in
/-- A render with no beat to snap to since the one before activates nothing that is scheduled. -/
def FiresOnlyOnSnap (s : EngineState) (steps : List (Host × SnapStep)) : Prop :=
  ∀ before h rest s₁ t, steps = before ++ (h, render) :: rest → after before s = some s₁ →
    NoSnapSinceRender s before → after [(h, render)] s₁ = some t →
    ∀ n a, s₁.scheduledAt n = some a → t.activeAt n = s₁.activeAt n ∧ t.scheduledAt n = some a

/-- The render that was to activate the instance leaves it scheduled. -/
theorem SnapAwaited.scheduledAt_eq {s t : EngineState} {steps : List (Host × SnapStep)} {n : ℕ}
    {a : Addr} (hsnap : SnapAwaited s steps n a t) : t.scheduledAt n = some a := by
  obtain ⟨before, h, between, h', rest, s₁, -, -, -, hscheduled, hbetween, ht⟩ := hsnap
  have hsteps : ∀ c ∈ (h, SnapStep.beat) :: (between ++ [(h', SnapStep.render)]),
      ¬ c.2.TriggersOn n := by
    intro c hc
    rcases List.mem_cons.mp hc with rfl | hc
    · exact fun htrigger => htrigger
    rcases List.mem_append.mp hc with hc | hc
    · exact (hbetween c hc).2
    · rw [List.mem_singleton.mp hc]
      exact fun htrigger => htrigger
  rw [EngineState.scheduledAt, SnapStep.heldAt_after hsteps ht]
  exact hscheduled

/-- An interleaving meets the contract exactly when no render finds an instance that has been
scheduled since a beat to snap to. -/
theorem snap_fires_iff (s : EngineState) (steps : List (Host × SnapStep)) :
    FiresOnSnap s steps ∧ FiresOnlyOnSnap s steps ↔ ∀ n a t, ¬ SnapAwaited s steps n a t := by
  constructor
  · rintro ⟨hfires, -⟩ n a t hsnap
    have hnone := (hfires n a t hsnap).2
    rw [hsnap.scheduledAt_eq] at hnone
    cases hnone
  · intro hnever
    refine ⟨fun n a t hsnap => absurd hsnap (hnever n a t), ?_⟩
    intro before h rest s₁ t _ _ _ ht n a hscheduled
    have hheld : t.heldAt n = s₁.heldAt n := SnapStep.heldAt_after (fun c hc => by
      rw [List.mem_singleton.mp hc]
      exact fun htrigger => htrigger) ht
    rw [EngineState.activeAt, EngineState.scheduledAt, hheld]
    exact ⟨rfl, hscheduled⟩

/-- The instance `0` is triggered on the layer `0`, the metronome beats four times, and a frame is
rendered. -/
def triggerAndSnap : List (Host × SnapStep) :=
  [(.plain, .trigger 0 0), (.plain, .beat), (.plain, .beat), (.plain, .beat), (.plain, .beat),
    (.plain, .render)]

/-- An instance that is scheduled at the fourth beat is not active after the next render. -/
theorem snap_missed : ∃ s : EngineState, s.Reachable ∧ s.properties.metronomeOn = true ∧
    s.layersList ≠ [] ∧ s.buffer ≠ none ∧ ¬ FiresOnSnap s triggerAndSnap := by
  obtain ⟨s, hs, hmetronome, hlayers, hbuffer, hscheduled, hrender⟩ : ∃ s : EngineState,
      s.Reachable ∧ s.properties.metronomeOn = true ∧ s.layersList ≠ [] ∧ s.buffer ≠ none ∧
      (SnapStep.after (triggerAndSnap.take 4) s).any (fun s₁ =>
        (s₁.properties.setDefaults .plain).beat.isAtSnap && decide (s₁.scheduledAt 0 = some 0)) =
          true ∧
      ((SnapStep.after (triggerAndSnap.take 4) s).bind
        (SnapStep.after (triggerAndSnap.drop 4))).any (fun t => decide (t.activeAt 0 = none)) =
          true :=
    exists_reaches [(.plain, .newSet 640 480 1), (.plain, .addVideo "a.mov"),
      (.plain, .addVisualToScene 0 0 0), (.plain, .setBeatSnap 0 true),
      (.plain, .setMetronomeOn true)] (by decide +kernel)
  refine ⟨s, hs, hmetronome, hlayers, hbuffer, fun hfires => ?_⟩
  obtain ⟨s₁, hs₁, hsnap⟩ := (Option.any_eq_true _ _).mp hscheduled
  obtain ⟨t, ht, hactive⟩ := (Option.any_eq_true _ _).mp hrender
  rw [hs₁, Option.bind_some] at ht
  rw [Bool.and_eq_true, decide_eq_true_eq] at hsnap
  have hawaited : SnapAwaited s triggerAndSnap 0 0 t :=
    ⟨triggerAndSnap.take 4, .plain, [], .plain, [], s₁, rfl, hs₁, hsnap.1, hsnap.2,
      fun c hc => absurd hc List.not_mem_nil, ht⟩
  have hfired := (hfires 0 0 t hawaited).1
  rw [of_decide_eq_true hactive] at hfired
  cases hfired

end ArbutusEngine
