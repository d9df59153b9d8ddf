import ArbutusEngine.RoundTrip

/-!
# Loops that erase under their iterator

`VisualInstances::remove(visual)` and `Visuals::empty` walk through a list with an iterator, erase
the element it stands on and then advance it. After `erase` the iterator is invalid, so the loops
are defined only on lists in which they find nothing to erase. Where the freed node still holds its
link, they erase exactly what they should: what is wrong is the iterator and not the test.

## Main definitions

* `VisualInstances.withoutVisual`: what is to be left.
* `VisualInstances.RemovesVisual`, `Visuals.Empties`: the contracts of the two loops.

## Main results

* `VisualInstances.removeVisual_eq`: what the first loop does, with and without the link.
* `erases_exactly_iff`.
-/

open Exec

namespace ArbutusEngine

variable {s : EngineState} {list : List Addr}

namespace VisualInstances

/-- The pointer is to an instance of the visual. -/
def ofVisual (instances : Heap VisualInstance) (visual a : Addr) : Bool :=
  (instances.get? a).map VisualInstance.visual = some visual

/-- The list without the instances of a visual. -/
def withoutVisual (instances : Heap VisualInstance) (visual : Addr) (list : List Addr) :
    List Addr := list.filter fun a => !ofVisual instances visual a

/-- The loop leaves the instances of other visuals, unless it has to advance an iterator to an
element that it has erased. -/
theorem removeVisual_eq (hl : s.instances.Live list) (h : Host) (visual : Addr) :
    removeVisual h visual list s =
      if (∀ a ∈ list, ofVisual s.instances visual a = false) ∨ h.erasedIteratorAdvances = true then
        .ok (withoutVisual s.instances visual list) s
      else .undefined .erasedIterator := by
  induction list with
  | nil => rw [if_pos (.inl fun a ha => absurd ha List.not_mem_nil)]; rfl
  | cons a rest ih =>
    obtain ⟨i, hi⟩ := hl a List.mem_cons_self
    have ih := ih (hl.mono fun b hb => List.mem_cons_of_mem a hb)
    rw [removeVisual, bind_run, VisualInstance.read, hi, ofOption_some, pure_run, Outcome.bind_ok]
    by_cases hv : i.visual = visual
    · -- the element goes, and the iterator is advanced from where it was
      have ha : ofVisual s.instances visual a = true := by simp [ofVisual, hi, hv]
      rw [if_pos hv, bind_run, Visuals.advanceErased]
      by_cases hadv : h.erasedIteratorAdvances = true
      · rw [if_pos (Or.inr hadv)] at ih
        rw [if_pos hadv, pure_run, Outcome.bind_ok, ih, if_pos (Or.inr hadv), withoutVisual,
          withoutVisual, List.filter_cons_of_neg (by simp [ha])]
      · have hfound : ¬∀ b ∈ a :: rest, ofVisual s.instances visual b = false := fun hnone =>
          Bool.noConfusion (ha.symm.trans (hnone a List.mem_cons_self))
        rw [if_neg hadv, undefined_run, Outcome.bind_undefined, if_neg (not_or.mpr ⟨hfound, hadv⟩)]
    · have ha : ofVisual s.instances visual a = false := by simp [ofVisual, hi, hv]
      rw [if_neg hv, bind_run, ih]
      simp only [List.forall_mem_cons, ha, true_and]
      split_ifs
      · rw [Outcome.bind_ok, pure_run, withoutVisual, withoutVisual,
          List.filter_cons_of_pos (by simp [ha])]
      · rw [Outcome.bind_undefined]

/-- The contract of `VisualInstances::remove(visual)`: whatever an erased iterator does, the
instances of the visual leave the list, and nothing else changes. -/
def RemovesVisual (s : EngineState) (visual : Addr) (list : List Addr) : Prop :=
  ∀ h, removeVisual h visual list s = .ok (withoutVisual s.instances visual list) s

end VisualInstances

/-- The contract of `Visuals::empty`: whatever an erased iterator does, the list is emptied. -/
def Visuals.Empties (s : EngineState) : Prop :=
  ∀ h, Visuals.empty h s = .ok () { s with visualsList := [] }

/-- Surroundings in which an erased iterator cannot be advanced. -/
def Host.strict : Host := { Host.plain with erasedIteratorAdvances := false }

/-- A loop that meets its result, or an erased iterator, does what it should exactly if it meets no
erased iterator. -/
theorem forall_eq_ite_iff {α : Type} {p : Prop} [Decidable p]
    {x : Host → Outcome EngineState Thrown Undefined α} {o : Outcome EngineState Thrown Undefined α}
    (ho : o ≠ .undefined .erasedIterator)
    (hx : ∀ h, x h = if p ∨ h.erasedIteratorAdvances = true then o else
      .undefined .erasedIterator) : (∀ h, x h = o) ↔ p := by
  constructor
  · intro hall
    by_contra hp
    have hadv : ¬Host.strict.erasedIteratorAdvances = true := Bool.false_ne_true
    exact ho ((hall .strict).symm.trans ((hx .strict).trans (if_neg (not_or.mpr ⟨hp, hadv⟩))))
  · intro hp h
    rw [hx, if_pos (.inl hp)]

/-- On a list of instances that are allocated, `VisualInstances::remove(visual)` meets its contract
exactly if no instance is one of the visual; `Visuals::empty` does so exactly if there are no
visuals. -/
theorem erases_exactly_iff (hl : s.instances.Live list) (visual : Addr) :
    (VisualInstances.RemovesVisual s visual list ↔
      ∀ a ∈ list, ∀ i, s.instances.get? a = some i → i.visual ≠ visual) ∧
    (Visuals.Empties s ↔ s.visualsList = []) := by
  refine ⟨?_, forall_eq_ite_iff (by nofun) fun h => Visuals.empty_eq h s⟩
  refine (forall_eq_ite_iff (by nofun) fun h =>
    VisualInstances.removeVisual_eq hl h visual).trans (forall₂_congr fun a ha => ?_)
  obtain ⟨i, hi⟩ := hl a ha
  simp [VisualInstances.ofVisual, hi]

/-- Two instances of the first video, when the second one is removed. -/
theorem removes_no_instances :
    VisualInstances.RemovesVisual (twoVideos [0, 0]) 1 [0, 1] := by
  refine (erases_exactly_iff ?_ 1).1.mpr ?_
  · exact ((twoVideos_wellFormed [0, 0]).instances_live ⟨2, "Intro", [0, 1]⟩ (by decide))
  · intro a ha i hi hvisual
    rcases List.mem_pair.mp ha with rfl | rfl
    · obtain rfl := Option.some.inj hi
      exact absurd hvisual (by decide)
    · obtain rfl := Option.some.inj hi
      exact absurd hvisual (by decide)

/-- An instance of each video: the iterator to the first one is advanced after the instance has been
erased, and so is the one to the first video. -/
theorem erases_under_iterator :
    ¬VisualInstances.RemovesVisual (twoVideos [0, 1]) 0 [0, 1] ∧
      ¬Visuals.Empties (twoVideos [0, 1]) := by
  constructor
  · intro hremoves
    have hrun : VisualInstances.removeVisual .strict 0 [0, 1] (twoVideos [0, 1]) =
        .undefined .erasedIterator := rfl
    cases hrun.symm.trans (hremoves .strict)
  · intro hempties
    have hrun : Visuals.empty .strict (twoVideos [0, 1]) = .undefined .erasedIterator := rfl
    cases hrun.symm.trans (hempties .strict)

end ArbutusEngine
