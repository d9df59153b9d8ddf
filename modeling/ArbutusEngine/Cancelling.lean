import ArbutusEngine.Snapping

/-!
# Stopping a layer that waits for a beat

`Layer::stop` returns at once when the layer has no active instance, so an instance that has been
scheduled on an empty layer stays scheduled. It is started later, by whatever activates the
scheduled instances. A layer with an active instance is emptied of both, unless the active instance
or its visual has been deleted.

`Engine::stop` stops one layer or all of them; both are loops over a list of positions.

## Main definitions

* `Stopped`: what stopping a list of layers leaves.
* `LaterStep`: the steps that may follow.
* `Engine.StopCancels`: the contract of `Engine::stop`.
* `EngineState.CanStop`: the layer has nothing scheduled alone, and nothing active that is deleted.

## Main results

* `Layer.exists_stop`, `Layer.exists_forEach_stop`: one layer, and a list of layers.
* `LaterStep.idleAt_after`: what holds nothing starts nothing.
* `stop_cancels_iff`.
-/

open Exec

namespace ArbutusEngine

variable {s t u : EngineState} {n : ℕ}

namespace EngineState

/-! ### What the layers hold -/

/-- The layer at a position, if there is one, has neither an active nor a scheduled instance. -/
def IdleAt (n : ℕ) (s : EngineState) : Prop := s.activeAt n = none ∧ s.scheduledAt n = none

/-- The instance and its visual have not been deleted. -/
def Stoppable (s : EngineState) (a : Addr) : Prop :=
  ∃ i, s.instances.get? a = some i ∧ ∃ v ∈ s.visualsList, v.addr = i.visual

/-- Stopping the layer at a position cancels what it holds. -/
def CanStop (s : EngineState) (n : ℕ) : Prop :=
  (s.activeAt n = none → s.scheduledAt n = none) ∧ ∀ a, s.activeAt n = some a → s.Stoppable a

theorem stoppable_iff_of_outline (h : s.outline = t.outline) (a : Addr) :
    s.Stoppable a ↔ t.Stoppable a := by
  have key : ∀ r : EngineState, r.Stoppable a ↔
      ∃ p, r.outline.instanceAt a = some p ∧ p.1 ∈ r.outline.visuals := by
    intro r
    constructor
    · rintro ⟨i, hi, v, hv, hvi⟩
      refine ⟨(i.visual, i.cell), congrArg (Option.map _) hi, ?_⟩
      rw [← hvi]
      exact List.mem_map_of_mem hv
    · rintro ⟨p, hp, hmem⟩
      obtain ⟨i, hi, rfl⟩ := Option.map_eq_some_iff.mp hp
      obtain ⟨v, hv, hvi⟩ := List.mem_map.mp hmem
      exact ⟨i, hi, v, hv, hvi⟩
  rw [key, key, h]

end EngineState

/-- What `Layer::stop` leaves of what a layer holds. -/
def stopHeld (held : Option Addr × Option Addr) : Option Addr × Option Addr :=
  if held.1 = none then held else (none, none)

theorem stopHeld_stopHeld (held : Option Addr × Option Addr) :
    stopHeld (stopHeld held) = stopHeld held := by
  rw [stopHeld, stopHeld]
  split_ifs <;> simp_all

/-- The layers at the positions have been stopped, and nothing has been deleted. -/
structure Stopped (positions : List ℕ) (s t : EngineState) : Prop where
  heldAt_eq : ∀ n, t.heldAt n = if n ∈ positions then (s.heldAt n).map stopHeld else s.heldAt n
  stoppable_iff : ∀ a, t.Stoppable a ↔ s.Stoppable a
  length_eq : t.layersList.length = s.layersList.length

namespace Stopped

variable {l l' : List ℕ}

theorem refl (s : EngineState) : Stopped [] s s where
  heldAt_eq _ := (if_neg List.not_mem_nil).symm
  stoppable_iff _ := Iff.rfl
  length_eq := rfl

theorem trans (h : Stopped l s t) (h' : Stopped l' t u) : Stopped (l ++ l') s u where
  heldAt_eq n := by
    rw [h'.heldAt_eq, h.heldAt_eq]
    by_cases hl : n ∈ l <;> by_cases hl' : n ∈ l'
    · have hidem : stopHeld ∘ stopHeld = stopHeld := funext stopHeld_stopHeld
      rw [if_pos hl', if_pos hl, if_pos (List.mem_append_left _ hl), Option.map_map, hidem]
    · rw [if_neg hl', if_pos hl, if_pos (List.mem_append_left _ hl)]
    · rw [if_pos hl', if_neg hl, if_pos (List.mem_append_right _ hl')]
    · rw [if_neg hl', if_neg hl, if_neg fun hmem => (List.mem_append.mp hmem).elim hl hl']
  stoppable_iff a := (h'.stoppable_iff a).trans (h.stoppable_iff a)
  length_eq := h'.length_eq.trans h.length_eq

/-- What is still active has not been stopped. -/
theorem activeAt_of_some (h : Stopped l s t) {a : Addr} (ha : t.activeAt n = some a) :
    s.activeAt n = some a := by
  rw [EngineState.activeAt, h.heldAt_eq] at ha
  split_ifs at ha
  · obtain ⟨held, hheld, hfst⟩ := Option.bind_eq_some_iff.mp ha
    obtain ⟨old, hold, rfl⟩ := Option.map_eq_some_iff.mp hheld
    rw [stopHeld] at hfst
    split_ifs at hfst with hnone
    exact absurd (hnone.symm.trans hfst) (Option.some_ne_none a).symm
  · exact ha

/-- A layer that has been stopped is idle, unless it held a scheduled instance alone. -/
theorem idleAt_iff (h : Stopped l s t) (hn : n ∈ l) :
    t.IdleAt n ↔ (s.activeAt n = none → s.scheduledAt n = none) := by
  rw [EngineState.IdleAt, EngineState.activeAt, EngineState.scheduledAt, h.heldAt_eq, if_pos hn,
    EngineState.activeAt, EngineState.scheduledAt]
  cases s.heldAt n with
  | none => simp
  | some held =>
    simp only [Option.map_some, Option.bind_some, stopHeld]
    split_ifs with hnone
    · simp [hnone]
    · simp [hnone]

end Stopped

/-! ### Stopping -/

/-- Stopping an instance that is still there, and whose visual is, changes only flags. -/
theorem VisualInstance.exists_stop {a : Addr} (ha : s.Stoppable a) :
    ∃ t, VisualInstance.stop a s = .ok () t ∧ t.outline = s.outline := by
  obtain ⟨i, hi, v, hv, hvi⟩ := ha
  obtain ⟨w, hw⟩ : ∃ w, s.visualsList.find? (fun v => v.addr = i.visual) = some w :=
    Option.isSome_iff_exists.mp (List.find?_isSome.mpr ⟨v, hv, by simpa using hvi⟩)
  have houtline := VisualInstance.keepsOutline_stop a s.outline s rfl
  obtain ⟨t, ht⟩ : ∃ t, VisualInstance.stop a s = .ok () t := by
    rw [VisualInstance.stop, bind_run, VisualInstance.read, hi, ofOption_some, pure_run,
      Outcome.bind_ok, bind_run, Visual.read, hw, ofOption_some, pure_run, Outcome.bind_ok]
    cases w.source with
    | video filePath =>
      change ∃ t, (if i.video.isLoaded then _ else _ : Prog Unit) s = _
      split_ifs
      · have hset := s.instances.get?_set hi { i with video := i.video.stop } a
        rw [if_pos rfl] at hset
        rw [bind_run, VisualInstance.update_eq hi, Outcome.bind_ok]
        exact ⟨_, VisualInstance.update_eq (s := { s with instances := s.instances.set a _ })
          hset _⟩
      · exact ⟨s, rfl⟩
    | _ => exact ⟨_, VisualInstance.update_eq hi _⟩
  rw [ht, Outcome.post_ok] at houtline
  exact ⟨t, ht, houtline⟩

/-- Stopping an instance that has been deleted, or whose visual has, is undefined. -/
theorem VisualInstance.stop_of_not_stoppable {a : Addr} (ha : ¬s.Stoppable a) :
    VisualInstance.stop a s = .undefined .danglingPointer := by
  rw [VisualInstance.stop, bind_run, VisualInstance.read]
  cases hi : s.instances.get? a with
  | none => rfl
  | some i =>
    have hnone : s.visualsList.find? (fun v => v.addr = i.visual) = none := by
      refine List.find?_eq_none.mpr fun v hv hvi => ?_
      exact ha ⟨i, hi, v, hv, of_decide_eq_true hvi⟩
    rw [ofOption_some, pure_run, Outcome.bind_ok, bind_run, Visual.read, hnone]
    rfl

namespace Layer

/-- `Layer::stop` on a layer whose active instance, if any, can be stopped. -/
theorem exists_stop (hn : n < s.layersList.length)
    (hstop : ∀ a, s.activeAt n = some a → s.Stoppable a) :
    ∃ t, stop n s = .ok () t ∧ Stopped [n] s t := by
  obtain ⟨layer, hlayer⟩ : ∃ layer, s.layersList[n]? = some layer :=
    ⟨_, List.getElem?_eq_getElem hn⟩
  have hheld := EngineState.heldAt_of_getElem? hlayer
  rw [stop, bind_run, read, hlayer, ofOption_some, pure_run, Outcome.bind_ok]
  cases hactive : layer.activeInstance with
  | none =>
    refine ⟨s, rfl, fun m => ?_, fun _ => Iff.rfl, rfl⟩
    split_ifs with hm
    · rw [List.mem_singleton.mp hm, hheld, Option.map_some, stopHeld, if_pos hactive]
    · rfl
  | some a =>
    have ha : s.activeAt n = some a := (EngineState.activeAt_of_getElem? hlayer).trans hactive
    obtain ⟨t, ht, houtline⟩ := VisualInstance.exists_stop (hstop a ha)
    have hlayers : t.layersList = s.layersList := congrArg (fun o => o.layersList) houtline
    refine ⟨{ t with layersList := t.layersList.modify n fun layer =>
      { layer with activeInstance := none, schedulledInstance := none } }, ?_, fun m => ?_,
      fun b => ?_, ?_⟩
    · change (VisualInstance.stop a s).bind _ = _
      rw [ht, Outcome.bind_ok]
      exact update_eq (hlayers ▸ hlayer) _
    · change (List.modify t.layersList n _)[m]?.map _ = _
      rw [hlayers]
      by_cases hmn : m = n
      · rw [hmn, List.getElem?_modify_eq, hlayer, if_pos (List.mem_singleton_self n), hheld,
          Option.map_some, stopHeld, hactive, if_neg (Option.some_ne_none a)]
        rfl
      · rw [List.getElem?_modify_ne _ _ (Ne.symm hmn),
          if_neg fun hm => hmn (List.mem_singleton.mp hm)]
        rfl
    · exact EngineState.stoppable_iff_of_outline (s := t) houtline b
    · rw [← hlayers]
      exact List.length_modify _ _ _

/-- `Layer::stop` on a layer whose active instance cannot be stopped. -/
theorem stop_of_not_stoppable {a : Addr} (ha : s.activeAt n = some a) (hstop : ¬s.Stoppable a) :
    stop n s = .undefined .danglingPointer := by
  obtain ⟨held, hheld, hfst⟩ := Option.bind_eq_some_iff.mp ha
  obtain ⟨layer, hlayer, rfl⟩ := Option.map_eq_some_iff.mp hheld
  rw [stop, bind_run, read, hlayer, ofOption_some, pure_run, Outcome.bind_ok]
  rw [show layer.activeInstance = some a from hfst]
  change (VisualInstance.stop a s).bind _ = _
  rw [VisualInstance.stop_of_not_stoppable hstop, Outcome.bind_undefined]

/-- Stopping the layers at a list of positions. -/
theorem exists_forEach_stop (l : List ℕ) (hl : ∀ n ∈ l, n < s.layersList.length)
    (hstop : ∀ n ∈ l, ∀ a, s.activeAt n = some a → s.Stoppable a) :
    ∃ t, forEach l stop s = .ok () t ∧ Stopped l s t := by
  induction l generalizing s with
  | nil => exact ⟨s, rfl, .refl s⟩
  | cons n l ih =>
    obtain ⟨t, ht, hstopped⟩ := exists_stop (hl n List.mem_cons_self)
      (hstop n List.mem_cons_self)
    obtain ⟨u, hu, hstopped'⟩ := ih (s := t)
      (fun m hm => hstopped.length_eq ▸ hl m (List.mem_cons_of_mem n hm))
      fun m hm a ha => (hstopped.stoppable_iff a).mpr
        (hstop m (List.mem_cons_of_mem n hm) a (hstopped.activeAt_of_some ha))
    refine ⟨u, ?_, hstopped.trans hstopped'⟩
    rw [forEach_cons, bind_run, ht]
    exact hu

/-- A loop that returns has met no active instance that cannot be stopped. -/
theorem stoppable_of_forEach_stop (l : List ℕ) (hl : ∀ n ∈ l, n < s.layersList.length)
    (hrun : forEach l stop s = .ok () t) :
    ∀ n ∈ l, ∀ a, s.activeAt n = some a → s.Stoppable a := by
  induction l generalizing s with
  | nil => exact fun n hn => absurd hn List.not_mem_nil
  | cons m l ih =>
    have hm : ∀ a, s.activeAt m = some a → s.Stoppable a := by
      intro a ha
      by_contra hstop
      rw [forEach_cons, bind_run, stop_of_not_stoppable ha hstop, Outcome.bind_undefined] at hrun
      cases hrun
    obtain ⟨u, hu, hstopped⟩ := exists_stop (hl m List.mem_cons_self) hm
    rw [forEach_cons, bind_run, hu, Outcome.bind_ok] at hrun
    have hrest := ih (fun n hn => hstopped.length_eq ▸ hl n (List.mem_cons_of_mem m hn)) hrun
    intro n hn a ha
    by_cases hnm : n = m
    · rw [hnm] at ha
      exact hm a ha
    · have hu' : u.activeAt n = some a := by
        rw [EngineState.activeAt, hstopped.heldAt_eq, if_neg fun hmem =>
          hnm (List.mem_singleton.mp hmem)]
        exact ha
      have hnl := (List.mem_cons.mp hn).resolve_left hnm
      exact (hstopped.stoppable_iff a).mp (hrest n hnl a hu')

end Layer

/-! ### What may follow -/

/-- The steps of the metronome, of the application and of those who play instances. -/
inductive LaterStep where
  | play (layer : ℕ) (newInstance : Addr)
  | beat
  | render
  | triggerSchedulledVisualsOnAllLayers

namespace LaterStep

/-- The program of a step. -/
def run (c : Host × LaterStep) : Prog Unit :=
  match c with
  | (h, play n newInstance) => Layer.playVisualInstance h n newInstance
  | (h, beat) => Engine.beat h
  | (h, render) => Engine.render h
  | (h, triggerSchedulledVisualsOnAllLayers) => Engine.triggerSchedulledVisualsOnAllLayers h

/-- The state that a sequence of steps leads to. -/
def after (steps : List (Host × LaterStep)) (s : EngineState) : Option EngineState :=
  runAll run (fun _ _ => True) steps s

/-- The step plays an instance on a layer. -/
def PlaysOn (n : ℕ) : LaterStep → Prop
  | play m _ => m = n
  | _ => False

end LaterStep

theorem KeepsHeldAt.idleAt {α : Type} {x : Prog α} (hx : KeepsHeldAt n x) :
    Keeps (EngineState.IdleAt n) x := by
  refine hx.keeps fun s t hst hs => ?_
  rwa [EngineState.IdleAt, EngineState.activeAt, EngineState.scheduledAt,
    ← show s.heldAt n = t.heldAt n from hst]

/-- Activating what is scheduled on one layer leaves the others alone. -/
theorem Engine.keepsHeldAt_triggerLayer {m : ℕ} (hmn : m ≠ n) (h : Host) :
    KeepsHeldAt n (triggerLayer h m) := fun o =>
  keeps_triggerLayer (fun hx => hx.heldAt o) <|
    Layer.keeps_activateSchedulledInstance (fun hx => hx.heldAt o)
      (fun _ => Layer.keepsHeldAt_update_of_ne hmn _ o) h

/-- On an idle layer there is nothing to activate. -/
theorem Engine.keeps_idleAt_triggerLayer (h : Host) (n m : ℕ) :
    Keeps (EngineState.IdleAt n) (triggerLayer h m) := by
  by_cases hmn : m = n
  swap
  · exact (keepsHeldAt_triggerLayer hmn h).idleAt
  subst hmn
  intro s hs
  rw [triggerLayer, bind_run, Layer.read]
  cases hlayer : s.layersList[m]? with
  | none => trivial
  | some layer =>
    have hheld : s.heldAt m = some (layer.activeInstance, layer.schedulledInstance) :=
      congrArg (Option.map _) hlayer
    have hactive := hs.1
    have hscheduled := hs.2
    rw [EngineState.activeAt, hheld] at hactive
    rw [EngineState.scheduledAt, hheld] at hscheduled
    rw [ofOption_some, pure_run, Outcome.bind_ok, show layer.activeInstance = none from hactive,
      show layer.schedulledInstance = none from hscheduled]
    exact hs

namespace LaterStep

/-- A step that plays nothing on an idle layer leaves it idle. -/
theorem keeps_idleAt_run {c : Host × LaterStep} (hc : ¬c.2.PlaysOn n) :
    Keeps (EngineState.IdleAt n) (run c) := by
  match c, hc with
  | (h, play m a), hc => exact (Layer.keepsHeldAt_playVisualInstance hc h a).idleAt
  | (h, beat), _ => exact (Engine.keepsHeldAt_beat h n).idleAt
  | (h, render), _ => exact (Engine.keepsHeldAt_render h n).idleAt
  | (h, triggerSchedulledVisualsOnAllLayers), _ =>
    exact .bind (.gets _) fun _ => .forEach fun m _ => Engine.keeps_idleAt_triggerLayer h n m

/-- An idle layer on which nothing is played stays idle. -/
theorem idleAt_after {steps : List (Host × LaterStep)} (hsteps : ∀ c ∈ steps, ¬c.2.PlaysOn n)
    (ht : after steps s = some t) (hs : s.IdleAt n) : t.IdleAt n :=
  runAll_invariant (fun c hc => keeps_idleAt_run (hsteps c hc)) ht hs

end LaterStep

/-! ### The contract -/

namespace Engine

/-- The layer that the data of a request name. -/
def layerOf (data : Json) : Option UInt32 :=
  if data.isObject && (data.field "layer").isNumber then
    (data.field "layer").getUnsigned.toOption
  else none

/-- The positions of the layers that a request stops. -/
def stoppedBy (data : Json) (s : EngineState) : List ℕ :=
  match layerOf data with
  | some layer => if layer.toNat < s.layersList.length then [layer.toNat] else []
  | none => List.range s.layersList.length

theorem lt_of_mem_stoppedBy {data : Json} (hn : n ∈ stoppedBy data s) :
    n < s.layersList.length := by
  rw [stoppedBy] at hn
  cases hlayer : layerOf data with
  | none =>
    rw [hlayer] at hn
    exact List.mem_range.mp hn
  | some layer =>
    rw [hlayer] at hn
    change n ∈ (if layer.toNat < s.layersList.length then [layer.toNat] else []) at hn
    split_ifs at hn with hlt
    · rwa [List.mem_singleton.mp hn]
    · exact absurd hn List.not_mem_nil

/-- `Engine::stop` stops the layers one after another. -/
theorem stop_eq_forEach (data : Json) (s : EngineState) :
    stop data s = forEach (stoppedBy data s) Layer.stop s := by
  rw [stop, stoppedBy, layerOf]
  split_ifs with hdata
  · obtain ⟨layer, hlayer⟩ : ∃ layer, (data.field "layer").getUnsigned = .ok layer := by
      have hnumber := (Bool.and_eq_true_iff.mp hdata).2
      cases hfield : data.field "layer" with
      | int n => exact ⟨_, rfl⟩
      | float q => exact ⟨_, rfl⟩
      | _ =>
        rw [hfield] at hnumber
        cases hnumber
    rw [hlayer]
    change Layers.stopAt layer s =
      forEach (if layer.toNat < s.layersList.length then [layer.toNat] else []) Layer.stop s
    split_ifs with hlt
    · rw [Layers.stopAt_of_lt hlt, forEach_cons, forEach_nil, bind_pure_unit]
    · rw [Layers.stopAt, bind_run, gets_run, Outcome.bind_ok, Layers.get,
        List.getElem?_eq_none (Nat.le_of_not_lt hlt)]
      rfl
  · rfl

/-- The contract of `Engine::stop`: afterwards no layer that is stopped has an active or a scheduled
instance, and no instance is started on it until one is played there. -/
def StopCancels (data : Json) (s : EngineState) : Prop :=
  ∃ t, stop data s = .ok () t ∧ ∀ n ∈ stoppedBy data s, t.IdleAt n ∧
    ∀ steps : List (Host × LaterStep), (∀ c ∈ steps, ¬c.2.PlaysOn n) →
      ∀ u, LaterStep.after steps t = some u → u.activeAt n = none

theorem StopCancels.canStop {data : Json} (h : StopCancels data s) (hn : n ∈ stoppedBy data s) :
    s.CanStop n := by
  have hlt : ∀ n ∈ stoppedBy data s, n < s.layersList.length := fun n hn => lt_of_mem_stoppedBy hn
  obtain ⟨t, hrun, hidle⟩ := h
  rw [stop_eq_forEach] at hrun
  have hstoppable := Layer.stoppable_of_forEach_stop _ hlt hrun
  obtain ⟨t', hrun', hstopped⟩ := Layer.exists_forEach_stop _ hlt hstoppable
  obtain rfl := (Outcome.ok.inj (hrun.symm.trans hrun')).2
  exact ⟨(hstopped.idleAt_iff hn).mp (hidle n hn).1, hstoppable n hn⟩

end Engine

/-- `Engine::stop` meets its contract exactly if every layer that it stops has either an active
instance, which exists and has a visual, or nothing scheduled. -/
theorem stop_cancels_iff (data : Json) (s : EngineState) :
    Engine.StopCancels data s ↔ ∀ n ∈ Engine.stoppedBy data s, s.CanStop n := by
  refine ⟨fun hcancels n hn => hcancels.canStop hn, fun hcan => ?_⟩
  have hlt : ∀ n ∈ Engine.stoppedBy data s, n < s.layersList.length :=
    fun n hn => Engine.lt_of_mem_stoppedBy hn
  obtain ⟨t, hrun, hstopped⟩ := Layer.exists_forEach_stop _ hlt fun n hn => (hcan n hn).2
  refine ⟨t, (Engine.stop_eq_forEach data s).trans hrun, fun n hn => ?_⟩
  have hidle := (hstopped.idleAt_iff hn).mpr (hcan n hn).1
  exact ⟨hidle, fun steps hsteps u hu => (LaterStep.idleAt_after hsteps hu hidle).1⟩

/-- The first instance is triggered on an empty layer between two beats to snap to, and all layers
are stopped, or that one: the instance is still scheduled, and is started when the scheduled
instances are activated. -/
theorem stop_leaves_scheduled : ∃ s : EngineState, s.Reachable ∧
    ¬Engine.StopCancels .null s ∧ ¬Engine.StopCancels (.obj [("layer", .int 0)]) s ∧
    ∃ t u, Engine.stop .null s = .ok () t ∧
      LaterStep.after [(.plain, .triggerSchedulledVisualsOnAllLayers)] t = some u ∧
      u.activeAt 0 = some 0 := by
  obtain ⟨s, hs, hactive, hscheduled, hone, hall, hrun⟩ : ∃ s : EngineState, s.Reachable ∧
      s.activeAt 0 = none ∧ s.scheduledAt 0 = some 0 ∧
      Engine.stoppedBy (.obj [("layer", .int 0)]) s = [0] ∧ Engine.stoppedBy .null s = [0] ∧
      (Engine.stop .null s).returns (fun _ t =>
        (LaterStep.after [(.plain, .triggerSchedulledVisualsOnAllLayers)] t).any fun u =>
          u.activeAt 0 = some 0) = true :=
    exists_reaches [(.plain, .newSet 640 480 1), (.plain, .addVideo "a.mov"),
      (.plain, .addVisualToScene 0 0 0), (.plain, .setBeatSnap 0 true),
      (.plain, .setMetronomeOn true),
      (.plain, .play (.obj [("layer", .int 0), ("column", .int 0)]))] (by decide +kernel)
  have hcannot : ¬s.CanStop 0 := fun hcan => by
    have hnone := hcan.1 hactive
    rw [hscheduled] at hnone
    cases hnone
  obtain ⟨⟨⟩, t, ht, hafter⟩ := Outcome.exists_of_returns hrun
  obtain ⟨u, hu, hstarted⟩ := (Option.any_eq_true _ _).mp hafter
  refine ⟨s, hs, fun hcancels => ?_, fun hcancels => ?_, t, u, ht, hu, of_decide_eq_true hstarted⟩
  · exact hcannot (hcancels.canStop (hall ▸ List.mem_singleton_self 0))
  · exact hcannot (hcancels.canStop (hone ▸ List.mem_singleton_self 0))

end ArbutusEngine
