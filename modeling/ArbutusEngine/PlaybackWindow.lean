import ArbutusEngine.InstanceWrites

/-!
# The playback window

An instance plays the part of its video between two percentages. Each of the two setters is meant to
keep the window from being inverted. The one of the end moves its value up to the start; the one of
the start compares the old start instead of the new value, and then stores the new one, which may
lie behind the end.

## Main definitions

* `VisualInstancesProperties.WindowOpen`: the window lies within the video and is not inverted.
* `InstanceWrite.KeepsWindowOpen`: the write does not set the start behind the end.

## Main results

* `InstanceWrite.windowOpen_apply_iff`: one write.
* `playback_window_iff`: every run.
-/

open Exec
open FloatNumber (ofRat single IsNumber)

namespace ArbutusEngine

section

variable {N : Type} [FloatNumber N]

/-- The playback window lies within the video and is not inverted. -/
structure VisualInstancesProperties.WindowOpen (p : VisualInstancesProperties N) : Prop where
  nonneg : ofRat 0 ≤ p.startPercentage
  le : p.startPercentage ≤ p.endPercentage
  le_one : p.endPercentage ≤ ofRat 1

namespace InstanceNumber

variable {x : InstanceNumber} {p : VisualInstancesProperties N} {v : N}

/-- Setting the number to the value does not put the start behind the end, and the value is a
number. -/
def KeepsWindowOpen : InstanceNumber → VisualInstancesProperties N → N → Prop
  | startPercentage, p, v => IsNumber v ∧ (v ≤ p.endPercentage ∨ ofRat 1 ≤ p.endPercentage)
  | endPercentage, _, v => IsNumber v
  | _, _, _ => True

variable [LawfulFloatNumber N]

theorem windowOpen_setStartPercentage_iff (hp : p.WindowOpen) :
    (p.setStartPercentage v).WindowOpen ↔ startPercentage.KeepsWindowOpen p v := by
  have hnonneg : ofRat 0 ≤ p.endPercentage := LawfulFloatNumber.le_trans hp.nonneg hp.le
  have hstart : (p.setStartPercentage v).startPercentage = ofClamp v (ofRat 0) (ofRat 1) :=
    if_pos hp.le
  constructor
  · intro h
    have hle : ofClamp v (ofRat 0) (ofRat 1) ≤ p.endPercentage := hstart ▸ h.le
    have hv := isNumber_ofClamp_iff.mp (LawfulFloatNumber.isNumber_of_le hle).1
    exact ⟨hv, (ofClamp_le_iff hnonneg hv).mp hle⟩
  · rintro ⟨hv, hor⟩
    refine ⟨hstart.symm ▸ ((ofClamp_mem_iff zero_le_one).mpr hv).1, ?_, hp.le_one⟩
    exact hstart.symm ▸ (ofClamp_le_iff hnonneg hv).mpr hor

theorem windowOpen_setEndPercentage_iff (hp : p.WindowOpen) :
    (p.setEndPercentage v).WindowOpen ↔ endPercentage.KeepsWindowOpen p v := by
  have hend : (p.setEndPercentage v).endPercentage =
      if ofClamp v (ofRat 0) (ofRat 1) < p.startPercentage then p.startPercentage
      else ofClamp v (ofRat 0) (ofRat 1) := rfl
  constructor
  · intro h
    have hle : p.startPercentage ≤ (p.setEndPercentage v).endPercentage := h.le
    rw [hend] at hle
    split_ifs at hle with hlt
    · exact isNumber_ofClamp_iff.mp (LawfulFloatNumber.isNumber_of_lt hlt).1
    · exact isNumber_ofClamp_iff.mp (LawfulFloatNumber.isNumber_of_le hle).2
  · intro hv
    have hclamp : IsNumber (ofClamp v (ofRat 0) (ofRat 1)) := isNumber_ofClamp_iff.mpr hv
    have hstart := (LawfulFloatNumber.isNumber_of_le hp.nonneg).2
    refine ⟨hp.nonneg, ?_, ?_⟩
    · change p.startPercentage ≤ (p.setEndPercentage v).endPercentage
      rw [hend]
      split_ifs with hlt
      · exact hstart
      · exact (LawfulFloatNumber.not_lt hclamp hstart).mp hlt
    · rw [hend]
      split_ifs
      · exact LawfulFloatNumber.le_trans hp.le hp.le_one
      · exact ((ofClamp_mem_iff zero_le_one).mpr hv).2

/-- From an open window, a setter leads to an open one exactly if it does not put the start behind
the end and stores a number. -/
theorem windowOpen_set_iff (hp : p.WindowOpen) :
    (x.set p v).WindowOpen ↔ x.KeepsWindowOpen p v := by
  cases x with
  | startPercentage => exact windowOpen_setStartPercentage_iff hp
  | endPercentage => exact windowOpen_setEndPercentage_iff hp
  | _ => exact iff_of_true ⟨hp.nonneg, hp.le, hp.le_one⟩ trivial

end InstanceNumber

namespace InstanceWrite

variable {p : VisualInstancesProperties N}

/-- The write does not put the start of the window behind its end, and gives both only numbers. -/
def KeepsWindowOpen (p : VisualInstancesProperties N) : InstanceWrite N → Prop
  | setNumber x val => x.KeepsWindowOpen p (single val)
  | set property value =>
    ∀ x, hashSwitch VisualInstancesProperties.ownNumbers property = some x →
      x.KeepsWindowOpen p (single value)
  | handleAction parameter data =>
    ∀ value x, (data.index "value").bind Json.getFloat = .ok value →
      hashSwitch VisualInstance.actionControls parameter = some (.number x) →
      x.KeepsWindowOpen p value
  | _ => True

/-- From an open window, a write leads to an open one exactly if it does not put the start behind
the end and gives both only numbers. -/
theorem windowOpen_apply_iff [LawfulFloatNumber N] (hp : p.WindowOpen) (w : InstanceWrite N) :
    (w.apply p).WindowOpen ↔ w.KeepsWindowOpen p := by
  have hmode : ∀ (m : InstanceMode) (v : UInt32), (m.set p v).WindowOpen ↔ True := by
    refine fun m v => iff_of_true ?_ trivial
    cases m <;> exact ⟨hp.nonneg, hp.le, hp.le_one⟩
  cases w with
  | setNumber x val => exact InstanceNumber.windowOpen_set_iff hp
  | set property value =>
    rw [apply, VisualInstancesProperties.set_eq, KeepsWindowOpen]
    cases hown : hashSwitch VisualInstancesProperties.ownNumbers property with
    | none =>
      cases hx : hashSwitch VisualInstancesProperties.colourNumbers property with
      | none => simpa using hp
      | some x =>
        -- the colours leave the percentages alone
        obtain ⟨name, hmem, -⟩ := hashSwitch_mem hx
        have hne : ∀ c ∈ VisualInstancesProperties.colourNumbers,
            c.2 ≠ .startPercentage ∧ c.2 ≠ .endPercentage := by decide
        obtain ⟨hstart, hend⟩ := hne _ hmem
        have hkeeps : x.KeepsWindowOpen p (single value) := by
          cases x <;> trivial
        simpa using (InstanceNumber.windowOpen_set_iff hp).mpr hkeeps
    | some y =>
      have hcolour : hashSwitch VisualInstancesProperties.colourNumbers property = none :=
        hashSwitch_eq_none (by decide +kernel) hown
      simpa [hcolour] using InstanceNumber.windowOpen_set_iff (x := y) (v := single value) hp
  | handleAction parameter data =>
    have haction := apply_handleAction_iff hp
      (fun x v => InstanceNumber.windowOpen_set_iff (x := x) (v := v) hp) hmode parameter data
    exact haction.trans (and_iff_left fun _ _ _ _ => trivial)
  | setMode m val => exact hmode m val
  | setUnsigned property value =>
    exact iff_of_true ((apply_setUnsigned_iff hp hmode property value).mpr fun _ _ => trivial)
      trivial
  | reset =>
    refine iff_of_true ⟨isNumber_ofRat 0, ?_, isNumber_ofRat 1⟩ trivial
    exact LawfulFloatNumber.ofRat_le_ofRat.mpr zero_le_one
  | _ => exact iff_of_true ⟨hp.nonneg, hp.le, hp.le_one⟩ trivial

end InstanceWrite

theorem VisualInstance.windowOpen_new [LawfulFloatNumber N] {h : Host N} {visual : Addr}
    {layer column : UInt32} {s₀ s : EngineState N} {a : Addr}
    (hnew : new h visual layer column s₀ = .ok a s) :
    s.InstanceHas a VisualInstancesProperties.WindowOpen := by
  simp only [new, bind_run, EngineProperties.getInstance, Outcome.bind_ok, gets_run, modify_run,
    pure_run, Outcome.ok.injEq] at hnew
  obtain ⟨rfl, rfl⟩ := hnew
  refine ⟨_, Heap.get?_alloc_next _ _, isNumber_ofRat 0, ?_, isNumber_ofRat 1⟩
  exact LawfulFloatNumber.ofRat_le_ofRat.mpr zero_le_one

end

/-- Along every run of writes to an instance with an open window, the window stays open exactly if
no write sets the start to a value behind the end, unless the end is that of the video, and none
sets either to what is no number. -/
theorem playback_window_iff {a : Addr} {s : EngineState Machine}
    (hs : s.InstanceHas a VisualInstancesProperties.WindowOpen) (ws : List (InstanceWrite Machine)) :
    Along (InstanceWrite.run a)
        (fun _ _ t => t.InstanceHas a VisualInstancesProperties.WindowOpen) ws s ↔
      Along (InstanceWrite.run a)
        (fun w s _ => s.InstanceHas a fun p => w.KeepsWindowOpen p) ws s := by
  refine along_congr (I := EngineState.InstanceHas a VisualInstancesProperties.WindowOpen) ?_
    (fun _ _ _ _ _ _ ht => ht) hs
  rintro w - s t ⟨i, hi, hp⟩ ht
  obtain ⟨u, hu, hget, -⟩ := InstanceWrite.final?_run hi w
  obtain rfl := Option.some.inj (ht.symm.trans hu)
  simp only [EngineState.InstanceHas, hget, hi, Option.some.injEq, exists_eq_left']
  exact w.windowOpen_apply_iff hp

/-- The window of a new instance is made smaller from both sides. -/
theorem playback_window_of_new :
    ∃ a s, VisualInstance.new (.plain Machine) 0 0 0 (.init Machine) = .ok a s ∧
      Along (InstanceWrite.run a)
        (fun _ _ t => t.InstanceHas a VisualInstancesProperties.WindowOpen)
        [.set (bytes "endPercentage") (.finite (3 / 4)),
          .handleAction (bytes "Start") (.obj [("value", .float (.finite (3 / 4 + 1 / 10 ^ 11)))]),
          .setNumber .endPercentage (.infinite true)] s := by
  refine ⟨_, _, rfl, (playback_window_iff (VisualInstance.windowOpen_new rfl) _).mpr ?_⟩
  refine ⟨_, rfl, ⟨_, rfl, ?_⟩, _, rfl, ⟨_, rfl, ?_⟩, _, rfl, ⟨_, rfl, ?_⟩, trivial⟩
  · intro x hx
    obtain rfl : InstanceNumber.endPercentage = x := Option.some.inj hx
    exact (by decide +kernel : IsNumber (single (Machine.finite (3 / 4))))
  · intro value x hvalue hx
    obtain rfl := Except.ok.inj hvalue
    obtain rfl : InstanceNumber.startPercentage = x :=
      InstanceControl.number.inj (Option.some.inj hx)
    exact ⟨by decide +kernel, .inl (by decide +kernel)⟩
  · exact (by decide +kernel : IsNumber (single (Machine.infinite true)))

/-- The end of the window of a new instance is set to one half, and then the start to three
quarters. -/
theorem playback_window_inverted :
    ∃ a s, VisualInstance.new (.plain Machine) 0 0 0 (.init Machine) = .ok a s ∧
      ¬Along (InstanceWrite.run a)
        (fun _ _ t => t.InstanceHas a VisualInstancesProperties.WindowOpen)
        [.handleAction (bytes "End") (.obj [("value", .float (.finite (1 / 2)))]),
          .handleAction (bytes "Start") (.obj [("value", .float (.finite (3 / 4)))])] s := by
  refine ⟨_, _, rfl, ?_⟩
  rintro ⟨t, ht, -, u, hu, ⟨i, hi, hp⟩, -⟩
  obtain rfl := Option.some.inj ht
  obtain rfl := Option.some.inj hu
  obtain rfl := Option.some.inj hi
  exact absurd hp.le (by decide +kernel)

end ArbutusEngine
