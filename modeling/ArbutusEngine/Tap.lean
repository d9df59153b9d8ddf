import ArbutusEngine.Metronome
import ArbutusEngine.Rounding

/-!
# Tap tempo

Four taps are meant to set the speed of the metronome to their tempo. The formula that
`EngineProperties::tap` applies to the fourth one is right, but it is never reached. The index of
the next tap starts as `-1` and is only incremented from `0` on, so that the first tap is written in
front of the array. Even if the taps were counted, `Engine::tap` would set the speed to zero after
each of the first three, for which `EngineProperties::tap` returns `NULL`.

## Main definitions

* `Engine.tempoAfter`: the speed after some of the taps.
* `Engine.TempoTapped`: every fourth tap sets the speed.

## Main results

* `Engine.tap_undefined`: no tap is defined unless two have been counted.
* `Engine.tap_of_two`: the fourth tap sets the speed.
* `tap_tempo_iff`: every sequence of taps.
-/

open Exec

namespace ArbutusEngine

namespace Taps

variable {t t' : Taps} {elapsedTime : UInt64}

theorem write_eq_some (ht : t.write elapsedTime = some t') :
    t'.currentTapIndex = t.currentTapIndex ∧ 0 ≤ t.currentTapIndex.toInt := by
  rw [write] at ht
  split_ifs at ht with hindex
  obtain rfl := Option.some.inj ht
  exact ⟨rfl, hindex.1⟩

/-- The index becomes `3` from `2` only. -/
theorem currentTapIndex_incrementTap_ne (hindex : t.currentTapIndex ≠ 2) :
    t.incrementTap.currentTapIndex ≠ 3 := by
  rw [incrementTap]
  split_ifs with hlt
  · intro h
    have htwo : t.currentTapIndex + 1 = 2 + 1 := h
    exact hindex ((Int32.add_left_inj 1).mp htwo)
  · rintro h
    exact hlt (h ▸ by decide)

end Taps

namespace Engine

variable {τ : Type} {T : OfThread τ} {h : Host} {s : EngineState × Metronome τ} {t : Taps}

/-- Setting the speed to zero divides by it. -/
theorem setBPM_zero (T : OfThread τ) (s : EngineState × Metronome τ) :
    setBPM T 0 s = .undefined .divisionByZero := by
  by_cases hbyte : s.2.bpm.toUInt8 = 0
  · simp [setBPM, Metronome.getBPM, Metronome.setBPM, Metronome.call, hbyte]
  · simp [setBPM, Metronome.getBPM, Metronome.setBPM, Metronome.call, hbyte]

/-- Setting the speed to another one sets it. -/
theorem setBPM_of_ne {newBPM : UInt32} (hne : newBPM ≠ 0) (T : OfThread τ)
    (s : EngineState × Metronome τ) :
    ∃ u, setBPM T newBPM s = .ok () u ∧ u.2.bpm = newBPM := by
  by_cases hbyte : s.2.bpm.toUInt8 = 0
  · refine ⟨(s.1, { s.2 with bpm := newBPM, beatDuration := 60000 / newBPM }), ?_, rfl⟩
    simp [setBPM, Metronome.getBPM, Metronome.setBPM, Metronome.call, hbyte, hne]
  · refine ⟨(s.1, Metronome.start T
      { (s.2.stop T).waitForThread T with bpm := newBPM, beatDuration := 60000 / newBPM }), ?_, rfl⟩
    simp [setBPM, Metronome.getBPM, Metronome.setBPM, Metronome.call, hbyte, hne]

/-- What `Engine::tap` does with the result of `EngineProperties::tap`. -/
def useTap (T : OfThread τ) (newBPM : UInt32) : TapProg τ Unit := do
  if newBPM ≠ 0 then (setBPM T newBPM).alongside id
  (setBPM T newBPM).alongside id

theorem tap_eq (T : OfThread τ) (h : Host) (s : EngineState × Metronome τ) (t : Taps) :
    ∃ u, tap T h (s, t) = (EngineProperties.tap h >>= useTap T) (u, t) :=
  ⟨({ s.1 with properties := s.1.properties.setDefaults h }, s.2), rfl⟩

theorem useTap_zero (T : OfThread τ) (s : EngineState × Metronome τ) (t : Taps) :
    useTap T 0 (s, t) = .undefined .divisionByZero := by
  simp [useTap, alongside, setBPM_zero]

theorem useTap_of_ne {newBPM : UInt32} (hne : newBPM ≠ 0) (T : OfThread τ)
    (s : EngineState × Metronome τ) (t : Taps) :
    ∃ u, useTap T newBPM (s, t) = .ok () (u, t) ∧ u.2.bpm = newBPM := by
  obtain ⟨u, hu, -⟩ := setBPM_of_ne hne T s
  obtain ⟨v, hv, hbpm⟩ := setBPM_of_ne hne T u
  refine ⟨v, ?_, hbpm⟩
  simp [useTap, alongside, hne, hu, hv]

/-- A tap is defined only if it is the one after the index `2`: the others are written outside of
the array, or set the speed to zero. -/
theorem tap_undefined (T : OfThread τ) (h : Host) (s : EngineState × Metronome τ)
    (hindex : t.currentTapIndex ≠ 2) : ∃ u, tap T h (s, t) = .undefined u := by
  obtain ⟨u, hu⟩ := tap_eq T h s t
  cases hwrite : t.incrementTap.write h.ofGetElapsedTimeMillis with
  | none =>
    have htap : EngineProperties.tap h (u, t) = .undefined .outOfBounds := by
      simp only [EngineProperties.tap, bind_run, gets_run, Outcome.bind_ok, hwrite, ofOption,
        undefined_run]
      rfl
    exact ⟨.outOfBounds, by rw [hu, bind_run, htap]; rfl⟩
  | some t' =>
    have hthree : t'.currentTapIndex ≠ 3 := by
      rw [(Taps.write_eq_some hwrite).1]
      exact Taps.currentTapIndex_incrementTap_ne hindex
    have htap : EngineProperties.tap h (u, t) = .ok 0 (u, t') := by
      simp only [EngineProperties.tap, bind_run, gets_run, Outcome.bind_ok, hwrite, ofOption,
        pure_run, modify_run, if_pos hthree]
    exact ⟨.divisionByZero, by rw [hu, bind_run, htap, Outcome.bind_ok, useTap_zero]⟩

/-- The formula for the new speed, for four taps over a time of at most three minutes. -/
theorem toNat_newBpm {d : ℕ} (hpos : 0 < d) (hle : d ≤ 180000) :
    ((floatToUnsigned (roundHalfAway (60000 / ((d : ℚ) / 3)) : ℚ)).toNat : ℤ) =
      roundHalfAway (180000 / d) ∧ 1 ≤ roundHalfAway (180000 / (d : ℚ)) := by
  have hd : (0 : ℚ) < d := by exact_mod_cast hpos
  have hratio : 60000 / ((d : ℚ) / 3) = 180000 / d := by field_simp; norm_num
  have hone : (1 : ℚ) ≤ 180000 / d := by
    rw [le_div_iff₀ hd]
    exact_mod_cast (by omega : 1 * d ≤ 180000)
  have hmax : 180000 / (d : ℚ) ≤ 180000 := div_le_self (by norm_num) (by exact_mod_cast hpos)
  obtain ⟨hlo, hhi⟩ := roundHalfAway_mem (180000 / (d : ℚ))
  have hge : 1 ≤ roundHalfAway (180000 / (d : ℚ)) := by
    by_contra hlt
    have hcast : (roundHalfAway (180000 / (d : ℚ)) : ℚ) ≤ 0 := by exact_mod_cast (by omega)
    linarith
  have hlt : roundHalfAway (180000 / (d : ℚ)) < 2 ^ 32 := by
    have hcast : (roundHalfAway (180000 / (d : ℚ)) : ℚ) < 2 ^ 32 := by linarith
    exact_mod_cast hcast
  refine ⟨?_, hge⟩
  rw [hratio, toNat_floatToUnsigned (by rw [truncate_intCast]; omega)
    (by rw [truncate_intCast]; exact hlt), truncate_intCast]

/-- After the index `2`, a tap sets the speed to the tempo of the four taps, and the next group
begins where the first one did. -/
theorem tap_of_two (T : OfThread τ) (h : Host) (s : EngineState × Metronome τ)
    (hindex : t.currentTapIndex = 2) {d : ℕ} (hpos : 0 < d) (hle : d ≤ 180000)
    (hd : (h.ofGetElapsedTimeMillis - t.taps[0]).toNat = d) :
    ∃ u, tap T h (s, t) = .ok () u ∧ (u.1.2.bpm.toNat : ℤ) = roundHalfAway (180000 / d) ∧
      u.2.currentTapIndex = -1 := by
  obtain ⟨v, hv⟩ := tap_eq T h s t
  have hnext : t.incrementTap.currentTapIndex = 3 := by
    rw [Taps.incrementTap, hindex]
    rfl
  obtain ⟨t', hwrite, hthree, htaps⟩ :
      ∃ t', t.incrementTap.write h.ofGetElapsedTimeMillis = some t' ∧
      t'.currentTapIndex = 3 ∧ t'.taps = t.taps.set 3 h.ofGetElapsedTimeMillis := by
    refine ⟨{ t.incrementTap with taps := t.taps.set 3 h.ofGetElapsedTimeMillis }, ?_, hnext, rfl⟩
    simp only [Taps.write, hnext]
    rfl
  have hsum : t.taps[1] - t.taps[0] + (t'.taps[2] - t'.taps[1]) + (t'.taps[3] - t'.taps[2]) =
      h.ofGetElapsedTimeMillis - t.taps[0] := by
    have hset : t'.taps[1] = t.taps[1] ∧ t'.taps[2] = t.taps[2] ∧
        t'.taps[3] = h.ofGetElapsedTimeMillis := by
      simp [htaps]
    rw [hset.1, hset.2.1, hset.2.2]
    grind
  obtain ⟨hround, hone⟩ := toNat_newBpm hpos hle
  have hzero : h.ofGetElapsedTimeMillis - t.taps[0] ≠ 0 := by
    intro hzero
    rw [hzero] at hd
    exact hpos.ne hd
  have hne : floatToUnsigned (roundHalfAway (60000 / ((d : ℚ) / 3)) : ℚ) ≠ 0 := by
    intro hzero
    rw [hzero] at hround
    exact absurd hround (by rw [UInt32.toNat_zero]; omega)
  have htap : EngineProperties.tap h (v, t) =
      .ok (floatToUnsigned (roundHalfAway (60000 / ((d : ℚ) / 3)) : ℚ))
        (v, { t' with currentTapIndex := -1 }) := by
    simp only [EngineProperties.tap, bind_run, gets_run, Outcome.bind_ok, hwrite, ofOption,
      pure_run, modify_run, hthree, ne_eq, not_true_eq_false, if_false, hsum, if_neg hzero, hd]
  obtain ⟨u, hu, hbpm⟩ := useTap_of_ne hne T v { t' with currentTapIndex := -1 }
  refine ⟨_, by rw [hv, bind_run, htap, Outcome.bind_ok, hu], ?_, rfl⟩
  rw [hbpm, hround]

/-! ### Sequences of taps -/

/-- The speed after the first `n` taps, where they are defined. -/
def tempoAfter (T : OfThread τ) (hs : List Host) (n : ℕ) (s : (EngineState × Metronome τ) × Taps) :
    Option UInt32 :=
  (forEach (hs.take n) (tap T) s).final?.map fun t => t.1.2.bpm

/-- The taps do what they are meant to: they are defined, the first three of each four leave the
speed alone, and the fourth one sets it to the tempo of the four, if they took more than no time and
at most three minutes. -/
structure TempoTapped (T : OfThread τ) (hs : List Host) (s : (EngineState × Metronome τ) × Taps) :
    Prop where
  isSome : ∀ n ≤ hs.length, (tempoAfter T hs n s).isSome = true
  kept : ∀ n < hs.length, n % 4 ≠ 3 → tempoAfter T hs (n + 1) s = tempoAfter T hs n s
  computed : ∀ n h₀ h₃, n % 4 = 0 → hs[n]? = some h₀ → hs[n + 3]? = some h₃ →
    let d : ℕ := h₃.ofGetElapsedTimeMillis.toNat - h₀.ofGetElapsedTimeMillis.toNat
    0 < d → d ≤ 180000 →
      (tempoAfter T hs (n + 4) s).map (fun bpm => (bpm.toNat : ℤ)) =
        some (roundHalfAway (180000 / d))

end Engine

/-- From the start, taps do what they are meant to exactly if there are none. -/
theorem tap_tempo_iff {τ : Type} (T : OfThread τ) (s : EngineState × Metronome τ) (hs : List Host) :
    Engine.TempoTapped T hs (s, .zero) ↔ hs = [] := by
  constructor
  · intro htapped
    cases hs with
    | nil => rfl
    | cons h hs =>
      obtain ⟨u, hu⟩ := Engine.tap_undefined T h s (t := .zero) (by decide)
      have hone := htapped.isSome 1 (by simp)
      rw [Engine.tempoAfter, List.take_succ_cons, List.take_zero, forEach_cons, bind_run,
        hu] at hone
      exact Bool.noConfusion hone
  · rintro rfl
    refine ⟨fun n _ => ?_, fun n hn => absurd hn (Nat.not_lt_zero n), fun n h₀ h₃ _ hh => ?_⟩
    · rw [Engine.tempoAfter, List.take_nil]
      rfl
    · exact absurd hh (by simp)

/-- Four taps, half a second after each other. -/
theorem tap_tempo_faults :
    ¬Engine.TempoTapped .flag
      ([0, 500, 1000, 1500].map fun time => { Host.plain with ofGetElapsedTimeMillis := time })
      ((.init, .new false), .zero) := by
  intro htapped
  exact absurd (htapped.isSome 1 (by decide)) (by decide)

end ArbutusEngine
