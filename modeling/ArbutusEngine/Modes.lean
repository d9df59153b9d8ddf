import ArbutusEngine.InstanceWrites

/-!
# Modes

The modes of an instance and the blend mode of a layer are enumerations in the source, but clients
write them as numbers, which are cast. The setters of an instance store whatever they are given. The
setter of the blend mode replaces a number above the largest mode and one below zero; zero, which is
no mode of the engine, is stored.

## Main definitions

* `LayerProperties.BlendModePublished`: the blend mode lies in its published limits.
* `ModeWrite`: a write to a layer or to an instance, and `ModeWrite.Accepted`.

## Main results

* `LayerWrite.blendModePublished_apply_iff`: one write to a layer.
* `modes_declared_iff`: every run.
-/

open Exec

namespace ArbutusEngine

section

variable {N : Type} [FloatNumber N]

/-- The blend mode lies between the minimum and the maximum that `getFullState` reports for it. -/
def LayerProperties.BlendModePublished (p : LayerProperties N) : Prop :=
  ∃ lo hi : ℤ, (p.getFullState.field "blendMode").field "min" = .int lo ∧
    (p.getFullState.field "blendMode").field "max" = .int hi ∧
    lo ≤ p.blendMode.toNat ∧ p.blendMode.toNat ≤ hi

theorem LayerProperties.blendModePublished_iff {p : LayerProperties N} :
    p.BlendModePublished ↔ 1 ≤ p.blendMode.toNat ∧ p.blendMode.toNat ≤ 5 := by
  have hmin : (p.getFullState.field "blendMode").field "min" = .int 1 := by
    simp [getFullState, Json.field_insert, Json.field_obj, Json.member, fullStateEntry, blendAlpha]
  have hmax : (p.getFullState.field "blendMode").field "max" = .int 5 := by
    simp [getFullState, Json.field_insert, Json.field_obj, Json.member, fullStateEntry, blendScreen]
  rw [BlendModePublished, hmin, hmax]
  constructor
  · rintro ⟨lo, hi, hlo, hhi, h⟩
    obtain rfl := Json.int.inj hlo
    obtain rfl := Json.int.inj hhi
    omega
  · intro h
    exact ⟨1, 5, rfl, rfl, by omega⟩

/-- The write gives no zero to the setter of the blend mode. -/
def LayerWrite.ModeAccepted (w : LayerWrite N) : Prop := ∀ mode ∈ w.mode?, mode ≠ 0

/-- From a published blend mode, a write leads to a published one exactly if it is accepted. -/
theorem LayerWrite.blendModePublished_apply_iff {p : LayerProperties N}
    (hp : p.BlendModePublished) (w : LayerWrite N) :
    (w.apply p).BlendModePublished ↔ w.ModeAccepted := by
  rw [LayerProperties.blendModePublished_iff] at hp ⊢
  rw [w.blendMode_apply, ModeAccepted]
  cases w.mode? with
  | none => exact iff_of_true hp fun mode hmode => by cases hmode
  | some mode =>
    have hpos : 1 ≤ LayerProperties.clampedMode mode ↔ mode ≠ 0 :=
      Nat.one_le_iff_ne_zero.trans (not_congr LayerProperties.clampedMode_eq_zero_iff)
    simpa [LayerProperties.toNat_storedBlendMode, LayerProperties.clampedMode_le mode] using hpos

/-- A write to a layer or to an instance. -/
inductive ModeWrite (N : Type := ℚ) where
  | toLayer (w : LayerWrite N)
  | toInstance (w : InstanceWrite N)

namespace ModeWrite

/-- A write to the layer at a position or to the instance at an address. -/
def run (n : ℕ) (a : Addr) : ModeWrite N → ProgOver N Unit
  | toLayer w => w.run n
  | toInstance w => w.run a

def Accepted : ModeWrite N → Prop
  | toLayer w => w.ModeAccepted
  | toInstance w => w.ModeAccepted

end ModeWrite

end

/-- The blend mode of the layer at a position is a published one, and the instance at an address
has declared modes. -/
def EngineState.ModesDeclared {N : Type} [FloatNumber N] (n : ℕ) (a : Addr) (s : EngineState N) :
    Prop :=
  s.LayerHas n LayerProperties.BlendModePublished ∧
    s.InstanceHas a VisualInstancesProperties.ModesDeclared

/-- Along every run of writes to a new layer and to a new instance, their modes are declared ones,
exactly if no write stores a number in a mode of the instance that is not declared, or zero in the
blend mode. -/
theorem modes_declared_iff {h : Host Machine} {visual : Addr} {layer column : UInt32}
    {s₀ s : EngineState Machine} {a : Addr}
    (hnew : VisualInstance.new h visual layer column s₀ = .ok a s) {n : ℕ} {l : Layer Machine}
    (hlayer : s.layersList[n]? = some l) (hl : l.properties.Constructed)
    (ws : List (ModeWrite Machine)) :
    Along (ModeWrite.run n a) (fun _ _ t => t.ModesDeclared n a) ws s ↔ ∀ w ∈ ws, w.Accepted := by
  refine along_iff_forall (I := EngineState.ModesDeclared n a) ?_ ws ?_
  · rintro w s ⟨⟨l, hlayer, hblend⟩, i, hi, hmodes⟩
    cases w with
    | toLayer w =>
      refine ⟨_, LayerWrite.final?_run hlayer w, ?_, id⟩
      rw [ModeWrite.Accepted, ← w.blendModePublished_apply_iff hblend]
      have hinstance : (s.mapProperties n w.apply).InstanceHas a
          VisualInstancesProperties.ModesDeclared := ⟨i, hi, hmodes⟩
      simp only [EngineState.ModesDeclared, EngineState.LayerHas, hinstance, and_true,
        s.getElem?_mapProperties hlayer, Option.some.injEq, exists_eq_left']
    | toInstance w =>
      obtain ⟨t, ht, hget, hlayers⟩ := InstanceWrite.final?_run hi w
      refine ⟨t, ht, ?_, id⟩
      rw [ModeWrite.Accepted, ← w.modesDeclared_apply_iff hmodes]
      simp [EngineState.ModesDeclared, EngineState.LayerHas, EngineState.InstanceHas, hlayers,
        hlayer, hblend, hget]
  · obtain ⟨i, hi, -, hmodes⟩ := VisualInstance.instanceHas_new hnew
    refine ⟨⟨l, hlayer, ?_⟩, i, hi, hmodes⟩
    rw [LayerProperties.blendModePublished_iff, hl.blendMode]
    decide

/-- Declared modes, a blend mode that is clamped, and a direction that is rounded. -/
theorem modes_declared_after_writes :
    ∃ a s, VisualInstance.new (.plain Machine) 0 0 0
        ((EngineState.init Machine).pushLayer (.plain Machine) (.new 640 480)) = .ok a s ∧
      Along (ModeWrite.run 0 a) (fun _ _ t => t.ModesDeclared 0 a)
        [.toLayer (.setBlendMode 9), .toInstance (.setUnsigned (bytes "triggerMode") 3),
          .toInstance (.handleAction (bytes "Direction")
            (.obj [("value", .float (.finite (23 / 10)))]))] s := by
  refine ⟨_, _, rfl, (modes_declared_iff rfl rfl (.inl ⟨.plain, .zero, rfl⟩) _).mpr ?_⟩
  simp only [List.forall_mem_cons, List.not_mem_nil, false_imp_iff, implies_true, and_true]
  refine ⟨?_, ?_, ?_⟩
  · intro mode hmode
    obtain rfl := Option.some.inj hmode
    decide
  · intro m hm
    obtain rfl : InstanceMode.triggerMode = m := Option.some.inj hm
    decide
  · intro value m hvalue hm
    obtain rfl := Except.ok.inj hvalue
    obtain rfl : InstanceMode.direction = m := InstanceControl.mode.inj (Option.some.inj hm)
    decide +kernel

/-- A client sets the loop mode of a new instance to seven. -/
theorem loopMode_not_declared :
    ∃ a s, VisualInstance.new (.plain Machine) 0 0 0
        ((EngineState.init Machine).pushLayer (.plain Machine) (.new 640 480)) = .ok a s ∧
      ¬Along (ModeWrite.run 0 a) (fun _ _ t => t.ModesDeclared 0 a)
        [.toInstance (.handleAction (bytes "Loop Mode") (.obj [("value", .int 7)]))] s := by
  refine ⟨_, _, rfl, ?_⟩
  rintro ⟨t, ht, ⟨-, i, hi, hmodes⟩, -⟩
  obtain rfl := Option.some.inj ht
  obtain rfl := Option.some.inj hi
  exact absurd (hmodes .loopMode) (by decide +kernel)

end ArbutusEngine
