import ArbutusEngine.Model.Render
import Mathlib.Algebra.Order.Group.Nat
import Mathlib.Logic.Function.Iterate

/-!
# The spacing of the beats to snap to

`EngineProperties::beat` counts beats and raises a flag at those whose number is a multiple of
`beatsToSnap`. The counter is set back to `0` once it exceeds `32`, so that it takes 33 values: the
beat after the one numbered `32` has the number `0`, and both are beats to snap to. Up to the first
wrap the beats to snap to are evenly spaced; across it they are not, unless every beat is one.

The thread of the metronome has a counter of its own, which takes the values from `1` to `4`. After
the first wrap the beats to snap to drift away from it.

## Main definitions

* `EngineProperties.SnapsAt`: a beat raises the flag.
* `BeatCounters`: the counters of the metronome; `Metronome.turn`, one turn of its thread.
* `SnapsEvenly`, `SnapsOnOneCount`: the two halves of the contract, up to a number of beats.

## Main results

* `EngineProperties.snapsAt_iff`: which beats raise the flag.
* `Metronome.exists_turns`: the thread of the metronome makes the beats of `EngineProperties.beat`.
* `snaps_evenly_iff`: the contract holds up to the first wrap.
-/

open Exec

namespace ArbutusEngine

/-! ### The counter of the engine -/

namespace EngineProperties

/-- The value of the counter after a beat. -/
def nextCounter (beatsCounter : UInt32) : UInt32 :=
  if beatsCounter + 1 > 32 then 0 else beatsCounter + 1

/-- A beat changes the counter and two flags. -/
theorem beat_eq (p : EngineProperties) :
    p.beat = { p with
      beatsCounter := nextCounter p.beatsCounter
      triggeringBeat := nextCounter p.beatsCounter % p.beatsToSnap = 0
      beatSnapInProgress :=
        nextCounter p.beatsCounter % p.beatsToSnap = 0 || p.beatSnapInProgress } := by
  let q : EngineProperties :=
    { p with triggeringBeat := false, beatsCounter := nextCounter p.beatsCounter }
  change (if q.isAtSnap then { q with triggeringBeat := true, beatSnapInProgress := true }
    else q) = _
  by_cases hsnap : nextCounter p.beatsCounter % p.beatsToSnap = 0
  · rw [if_pos (show q.isAtSnap = true from decide_eq_true hsnap)]
    simp [q, hsnap]
  · rw [if_neg (by simpa [q, isAtSnap] using hsnap)]
    simp [q, hsnap]

theorem toNat_nextCounter {c : UInt32} (hc : c.toNat ≤ 32) :
    (nextCounter c).toNat = (c.toNat + 1) % 33 := by
  have hsucc : (c + 1).toNat = c.toNat + 1 := by
    rw [UInt32.toNat_add, UInt32.toNat_one]
    omega
  rw [nextCounter]
  split_ifs with hwrap
  · have hgt : 32 < (c + 1).toNat := UInt32.lt_iff_toNat_lt.mp hwrap
    rw [UInt32.toNat_zero]
    omega
  · have hle : (c + 1).toNat ≤ 32 := UInt32.le_iff_toNat_le.mp (UInt32.not_lt.mp hwrap)
    omega

@[simp] theorem beatsToSnap_iterate (p : EngineProperties) (n : ℕ) :
    (beat^[n] p).beatsToSnap = p.beatsToSnap := by
  induction n with
  | zero => rfl
  | succ n ih => rw [Function.iterate_succ_apply', beat_eq, ih]

/-- The counter takes 33 values. -/
theorem beatsCounter_iterate {p : EngineProperties} (hp : p.beatsCounter = 0) (n : ℕ) :
    (beat^[n] p).beatsCounter.toNat = n % 33 := by
  induction n with
  | zero => exact congrArg UInt32.toNat hp
  | succ n ih =>
    rw [Function.iterate_succ_apply', beat_eq]
    change (nextCounter (beat^[n] p).beatsCounter).toNat = _
    rw [toNat_nextCounter (by omega), ih]
    omega

/-- The beat with the given number, the first one being `1`, raises the flag. -/
def SnapsAt (p : EngineProperties) (n : ℕ) : Prop := 0 < n ∧ (beat^[n] p).triggeringBeat = true

/-- The beats to snap to are those at which the counter is a multiple of `beatsToSnap`. -/
theorem snapsAt_iff {p : EngineProperties} (hp : p.beatsCounter = 0) (n : ℕ) :
    p.SnapsAt n ↔ 0 < n ∧ p.beatsToSnap.toNat ∣ n % 33 := by
  refine and_congr_right fun hn => ?_
  obtain ⟨m, rfl⟩ := Nat.exists_eq_succ_of_ne_zero hn.ne'
  have hcounter := beatsCounter_iterate hp (m + 1)
  rw [Function.iterate_succ_apply', beat_eq] at hcounter ⊢
  rw [decide_eq_true_eq, beatsToSnap_iterate, ← UInt32.toNat_inj, UInt32.toNat_mod,
    UInt32.toNat_zero, Nat.dvd_iff_mod_eq_zero, ← hcounter]

end EngineProperties

/-! ### The counters of the metronome -/

/-- The counters that the thread of the metronome changes. -/
structure BeatCounters where
  beatCount : UInt32
  longBeatCount : UInt32
  deriving DecidableEq

namespace BeatCounters

/-- The counters after `metronome::metronome`. -/
def new : BeatCounters := ⟨1, 1⟩

/-- What a turn of `metronome::threadedFunction` does to the counters. -/
def advance (c : BeatCounters) : BeatCounters where
  beatCount := if c.beatCount < 4 then c.beatCount + 1 else 1
  longBeatCount := if c.longBeatCount < 64 then c.longBeatCount + 1 else 1

theorem beatCount_advance {c : BeatCounters} (hlow : 1 ≤ c.beatCount.toNat)
    (hhigh : c.beatCount.toNat ≤ 4) : c.advance.beatCount.toNat = c.beatCount.toNat % 4 + 1 := by
  change (if c.beatCount < 4 then c.beatCount + 1 else 1).toNat = _
  split_ifs with hlt
  · have hlt : c.beatCount.toNat < 4 := UInt32.lt_iff_toNat_lt.mp hlt
    rw [UInt32.toNat_add, UInt32.toNat_one]
    omega
  · have hge : 4 ≤ c.beatCount.toNat := UInt32.le_iff_toNat_le.mp (UInt32.not_lt.mp hlt)
    rw [UInt32.toNat_one]
    omega

/-- The first counter takes the values from `1` to `4`. -/
theorem beatCount_iterate (n : ℕ) : (advance^[n] new).beatCount.toNat = n % 4 + 1 := by
  induction n with
  | zero => rfl
  | succ n ih =>
    rw [Function.iterate_succ_apply', beatCount_advance (by omega) (by omega), ih]
    omega

end BeatCounters

/-- A turn of `metronome::threadedFunction`: the counters of the metronome advance and
`Engine::beat` is called. -/
def Metronome.turn (h : Host) : Exec (EngineState × BeatCounters) Thrown Undefined Unit :=
  (Engine.beat h).alongside BeatCounters.advance

/-- `EngineProperties::getInstance().beat()`. -/
def EngineProperties.engineBeat (h : Host) (p : EngineProperties) : EngineProperties :=
  (p.setDefaults h).beat

/-- What the thread of the metronome has done after a number of turns. -/
theorem Metronome.iterate_turn (h : Host) (n : ℕ) (s : EngineState) (c : BeatCounters) :
    iterate n (turn h) (s, c) =
      .ok () ({ s with properties := (EngineProperties.engineBeat h)^[n] s.properties },
        BeatCounters.advance^[n] c) := by
  induction n generalizing s c with
  | zero => rfl
  | succ n ih =>
    rw [iterate_succ, bind_run]
    exact ih { s with properties := s.properties.engineBeat h } c.advance

/-- In the engine every fourth beat is one to snap to: the defaults that each access restores are
those that the beats rely on. -/
theorem EngineProperties.engineBeat_iterate (h : Host) (p : EngineProperties) (n : ℕ) :
    ((engineBeat h)^[n] p).beatsCounter = (beat^[n] (p.setDefaults h)).beatsCounter ∧
      (0 < n → ((engineBeat h)^[n] p).triggeringBeat =
        (beat^[n] (p.setDefaults h)).triggeringBeat) := by
  induction n with
  | zero => exact ⟨rfl, fun hn => absurd hn (Nat.lt_irrefl 0)⟩
  | succ n ih =>
    have hcounter : (((engineBeat h)^[n] p).setDefaults h).beatsCounter =
      (beat^[n] (p.setDefaults h)).beatsCounter := ih.1
    have hsnap : (((engineBeat h)^[n] p).setDefaults h).beatsToSnap =
      (beat^[n] (p.setDefaults h)).beatsToSnap := (beatsToSnap_iterate (p.setDefaults h) n).symm
    rw [Function.iterate_succ_apply', Function.iterate_succ_apply', engineBeat, beat_eq, beat_eq]
    exact ⟨congrArg nextCounter hcounter, fun _ => by rw [hcounter, hsnap]⟩

/-- The thread of the metronome raises the flag at the beats to snap to. -/
theorem Metronome.exists_turns (h : Host) {n : ℕ} (hn : 0 < n) (s : EngineState)
    (c : BeatCounters) :
    ∃ t, iterate n (turn h) (s, c) = .ok () (t, BeatCounters.advance^[n] c) ∧
      (t.properties.triggeringBeat = true ↔ (s.properties.setDefaults h).SnapsAt n) := by
  refine ⟨_, iterate_turn h n s c, ?_⟩
  rw [(EngineProperties.engineBeat_iterate h s.properties n).2 hn]
  exact (and_iff_right hn).symm

/-! ### The contract -/

/-- Up to the beat with the given number, there are exactly `beatsToSnap` beats from each beat to
snap to until the next one. -/
def SnapsEvenly (p : EngineProperties) (beats : ℕ) : Prop :=
  ∀ i j, i < j → j ≤ beats → p.SnapsAt i → p.SnapsAt j →
    (∀ l, i < l → l < j → ¬p.SnapsAt l) → j = i + p.beatsToSnap.toNat

/-- Up to the beat with the given number, the metronome has the same count at all beats to snap
to. -/
def SnapsOnOneCount (p : EngineProperties) (beats : ℕ) : Prop :=
  ∀ i j, i ≤ beats → j ≤ beats → p.SnapsAt i → p.SnapsAt j →
    (BeatCounters.advance^[i] .new).beatCount = (BeatCounters.advance^[j] .new).beatCount

section Contract

variable {p : EngineProperties} {beats : ℕ}

/-- Where every beat is one to snap to, the next one is the beat that follows. -/
theorem snapsEvenly_of_one (hp : p.beatsCounter = 0) (hone : p.beatsToSnap = 1) (beats : ℕ) :
    SnapsEvenly p beats := by
  intro i j hij _ _ _ hbetween
  rw [hone]
  by_contra hne
  have hlt : i + 1 < j := by
    have : i + 1 ≠ j := fun heq => hne heq.symm
    omega
  refine hbetween (i + 1) (Nat.lt_succ_self i) hlt ((EngineProperties.snapsAt_iff hp _).mpr ?_)
  rw [hone]
  exact ⟨Nat.succ_pos i, Nat.one_dvd _⟩

/-- Before the counter wraps, the beats to snap to are the multiples of `beatsToSnap`. -/
theorem snapsAt_iff_of_le (hp : p.beatsCounter = 0) {n : ℕ} (hn : n ≤ 32) :
    p.SnapsAt n ↔ 0 < n ∧ p.beatsToSnap.toNat ∣ n := by
  rw [EngineProperties.snapsAt_iff hp, Nat.mod_eq_of_lt (by omega)]

theorem snapsEvenly_of_le (hp : p.beatsCounter = 0) (hbeats : beats ≤ 32) :
    SnapsEvenly p beats := by
  intro i j hij hj hi hsnap hbetween
  obtain ⟨hpos, hdvd⟩ := (snapsAt_iff_of_le hp (by omega)).mp hi
  obtain ⟨-, hdvd'⟩ := (snapsAt_iff_of_le hp (by omega)).mp hsnap
  have hk : 0 < p.beatsToSnap.toNat := Nat.pos_of_dvd_of_pos hdvd hpos
  have hle : p.beatsToSnap.toNat ≤ j - i :=
    Nat.le_of_dvd (by omega) (Nat.dvd_sub hdvd' hdvd)
  -- a multiple strictly between the two would be a beat to snap to
  by_contra hne
  refine hbetween (i + p.beatsToSnap.toNat) (by omega) (by omega) ?_
  exact (snapsAt_iff_of_le hp (by omega)).mpr ⟨by omega, Nat.dvd_add hdvd (Nat.dvd_refl _)⟩

theorem snapsOnOneCount_of_le (hp : p.beatsCounter = 0) (hfour : p.beatsToSnap = 4)
    (hbeats : beats ≤ 32) : SnapsOnOneCount p beats := by
  have hcount : ∀ i, i ≤ beats → p.SnapsAt i →
      (BeatCounters.advance^[i] .new).beatCount = 1 := by
    intro i hi hsnap
    have hdvd : 4 ∣ i := by
      have := ((snapsAt_iff_of_le hp (hi.trans hbeats)).mp hsnap).2
      rwa [hfour] at this
    rw [← UInt32.toNat_inj, BeatCounters.beatCount_iterate, UInt32.toNat_one]
    omega
  intro i j hi hj hsnap hsnap'
  rw [hcount i hi hsnap, hcount j hj hsnap']

/-- The last beat before the wrap and the first one after it are both beats to snap to. -/
theorem snapsEvenly_wrap (hp : p.beatsCounter = 0) (hk : p.beatsToSnap.toNat ∣ 32)
    (hbeats : 33 ≤ beats) (heven : SnapsEvenly p beats) : p.beatsToSnap = 1 := by
  have hlast : p.SnapsAt 32 := (EngineProperties.snapsAt_iff hp _).mpr ⟨by omega, hk⟩
  have hfirst : p.SnapsAt 33 := (EngineProperties.snapsAt_iff hp _).mpr ⟨by omega, Nat.dvd_zero _⟩
  have hnext := heven 32 33 (by omega) hbeats hlast hfirst fun l hl hl' => by omega
  rw [← UInt32.toNat_inj, UInt32.toNat_one]
  omega

end Contract

/-- With a number of beats to snap to that divides `32`, the beats to snap to are evenly spaced, and
for `4` they fall on one count of the metronome, exactly if every beat is one to snap to or the
counter has not wrapped. -/
theorem snaps_evenly_iff {p : EngineProperties} (hp : p.beatsCounter = 0)
    (hk : p.beatsToSnap.toNat ∣ 32) (beats : ℕ) :
    SnapsEvenly p beats ∧ (p.beatsToSnap = 4 → SnapsOnOneCount p beats) ↔
      p.beatsToSnap = 1 ∨ beats ≤ 32 := by
  constructor
  · rintro ⟨heven, -⟩
    by_cases hbeats : beats ≤ 32
    · exact .inr hbeats
    · exact .inl (snapsEvenly_wrap hp hk (by omega) heven)
  · rintro (hone | hbeats)
    · refine ⟨snapsEvenly_of_one hp hone beats, fun hfour => ?_⟩
      exact absurd (hone.symm.trans hfour) (by decide)
    · exact ⟨snapsEvenly_of_le hp hbeats, fun hfour => snapsOnOneCount_of_le hp hfour hbeats⟩

/-- The first 32 beats with the default settings. -/
theorem snaps_evenly_before_wrap :
    SnapsEvenly (EngineProperties.zero.setDefaults .plain) 32 ∧
      SnapsOnOneCount (EngineProperties.zero.setDefaults .plain) 32 := by
  obtain ⟨heven, hcount⟩ := (snaps_evenly_iff (p := EngineProperties.zero.setDefaults .plain) rfl
    (by decide) 32).mpr (.inr le_rfl)
  exact ⟨heven, hcount rfl⟩

/-- With the default settings the 33rd beat is one to snap to, like the one before it. -/
theorem snaps_unevenly_across_wrap : ∃ p : EngineProperties,
    p.beatsCounter = 0 ∧ p.beatsToSnap = 4 ∧ ¬SnapsEvenly p 33 ∧ ¬SnapsOnOneCount p 33 := by
  let p := EngineProperties.zero.setDefaults .plain
  have hlast : p.SnapsAt 32 := (EngineProperties.snapsAt_iff rfl _).mpr ⟨by omega, by decide⟩
  have hfirst : p.SnapsAt 33 := (EngineProperties.snapsAt_iff rfl _).mpr ⟨by omega, by decide⟩
  refine ⟨p, rfl, rfl, fun heven => ?_, fun hcount => ?_⟩
  · have hnext : 33 = 32 + (4 : UInt32).toNat :=
      heven 32 33 (by omega) le_rfl hlast hfirst fun l hl hl' => by omega
    exact absurd hnext (by decide)
  · have hcounts := congrArg UInt32.toNat (hcount 32 33 (by omega) le_rfl hlast hfirst)
    rw [BeatCounters.beatCount_iterate, BeatCounters.beatCount_iterate] at hcounts
    omega

end ArbutusEngine
