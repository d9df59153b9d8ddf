import ArbutusEngine.Isolation
import ArbutusEngine.Marks

/-!
# Only active instances are marked as playing

An instance of the current scene is started and stopped by the layer it lies on. It is marked as
playing and not active after two kinds of calls only. `Engine::play` marks an instance that has only
been scheduled for the next beat; and `Layer::activateSchedulledInstance` stops the active instance
only if its player is running, so that a camera, or a video that has come to its end, keeps its mark
when another instance takes its place. `Layer::playVisualInstance` stops the active instance in any
case.

Videos come to their end by themselves, and the metronome and the snapping of an instance are
switched on and off: these are calls of their own.

## Main definitions

* `PlayingCall`, `PlayingCall.run`: the calls.
* `PlayingCall.KeepsMarked`: no instance is played that is only scheduled, and what is replaced at a
  trigger is stopped.
* `EngineState.OnlyActivePlays`: the property.

## Main results

* `PlayingCall.run_post_marked`: what each call keeps.
* `only_active_plays`: every run.
-/

open Exec

namespace ArbutusEngine

/-! ### Calls -/

/-- The calls on a scene, and what happens by itself. -/
inductive PlayingCall where
  | play (data : Json)
  | stop (data : Json)
  | setActiveVisualInstance (layerN column : UInt32)
  | beat
  | triggerSchedulledVisualsOnAllLayers
  | videoEnds (instance' : Addr)
  | setMetronomeOn (on : Bool)
  | setBeatSnap (instance' : Addr) (on : Bool)

/-- The cell that `Engine::play` is asked for. -/
def Engine.requestedCell (data : Json) : Option (UInt32 × UInt32) :=
  if data.isObject && (data.field "layer").isNumber && (data.field "column").isNumber then
    (data.field "layer").getUnsigned.toOption.bind fun layer =>
      (data.field "column").getUnsigned.toOption.map fun column => (layer, column)
  else none

/-- The instance in the cell, on a layer that exists, does not wait for the next beat when it is
played, or is the active one already. -/
def EngineState.StartsAt (cell : UInt32 × UInt32) (s : EngineState) : Prop :=
  cell.1.toNat < s.layersList.length → ∀ a ∈ s.foundInCell cell, ∀ i ∈ s.instances.get? a,
    Layer.waits s i = true → s.activeAt cell.1.toNat = some a

instance (cell : UInt32 × UInt32) (s : EngineState) : Decidable (s.StartsAt cell) :=
  inferInstanceAs (Decidable (_ → ∀ a ∈ _, ∀ i ∈ _, _ → _))

instance (n : ℕ) (s : EngineState) : Decidable (Layer.StopsActive n s) :=
  inferInstanceAs (Decidable (∀ layer ∈ s.layersList[n]?, ∀ b ∈ layer.schedulledInstance,
    ∀ a ∈ layer.activeInstance, a ≠ b → ∀ i ∈ s.instances.get? a,
      i.properties.isPlaying = true → i.video.isPlaying = true))

namespace PlayingCall

/-- The program of a call. -/
def run (c : Host × PlayingCall) : Prog Unit :=
  match c with
  | (h, play data) => Engine.play h data
  | (_, stop data) => Engine.stop data
  | (h, setActiveVisualInstance layerN column) => do
    let _ ← Engine.setActiveVisualInstance h layerN column
  | (h, beat) => Engine.beat h
  | (h, triggerSchedulledVisualsOnAllLayers) => Engine.triggerSchedulledVisualsOnAllLayers h
  | (_, videoEnds a) => VisualInstance.update a fun i => { i with video := i.video.stop }
  | (h, setMetronomeOn on) => EngineProperties.update h fun p => { p with metronomeOn := on }
  | (_, setBeatSnap a on) =>
    VisualInstance.update a fun i => { i with properties := { i.properties with beatSnap := on } }

/-- An instance that is played does not wait for a beat, or is active; and at a trigger every layer
stops what it replaces. -/
def KeepsMarked (c : Host × PlayingCall) (s : EngineState) : Prop :=
  match c with
  | (_, play data) => ∀ cell ∈ Engine.requestedCell data, s.StartsAt cell
  | (_, triggerSchedulledVisualsOnAllLayers) => ∀ n < s.layersList.length, Layer.StopsActive n s
  | _ => True

instance (c : Host × PlayingCall) (s : EngineState) : Decidable (KeepsMarked c s) :=
  match c with
  | (_, play data) =>
    -- the cells are of a finite type, and are not to be enumerated
    Option.decidableForallMem (p := fun cell => s.StartsAt cell) (Engine.requestedCell data)
  | (_, stop _) => .isTrue trivial
  | (_, setActiveVisualInstance ..) => .isTrue trivial
  | (_, beat) => .isTrue trivial
  | (_, triggerSchedulledVisualsOnAllLayers) =>
    inferInstanceAs (Decidable (∀ n < s.layersList.length, Layer.StopsActive n s))
  | (_, videoEnds _) => .isTrue trivial
  | (_, setMetronomeOn _) => .isTrue trivial
  | (_, setBeatSnap ..) => .isTrue trivial

end PlayingCall

/-- Every instance of the current scene that is marked as playing is the active instance of the
layer it lies on. -/
def EngineState.OnlyActivePlays (s : EngineState) : Prop :=
  ∀ a ∈ s.currentInstances, ∀ i ∈ s.instances.get? a, i.properties.isPlaying = true →
    s.activeAt i.cell.1.toNat = some a

instance (s : EngineState) : Decidable s.OnlyActivePlays :=
  inferInstanceAs (Decidable (∀ a ∈ _, ∀ i ∈ _, _ → _))

/-! ### All layers -/

/-- The layers hold instances that lie on them, and on each of them no other instance than the
active one is marked. -/
structure Marked (L : List Addr) (s : EngineState) : Prop where
  placed : s.Placed
  marked : ∀ n, MarkedAt L n s

section Marked

variable {L : List Addr} {n : ℕ} {s t : EngineState} {h : Host}

/-- The marks on a layer in whose region nothing changes. -/
theorem MarkedAt.of_agree (hst : (Region.ofLayer s.placing n).Agree h t s) (hs : MarkedAt L n s) :
    MarkedAt L n t := by
  have hactive : t.activeAt n = s.activeAt n := EngineState.activeAt_congr (hst.layers n rfl)
  rw [MarkedAt, hactive]
  intro a ha j hj hn
  obtain ⟨i, hi, hvisual, hcell⟩ := hst.exists_of_get? hj
  have hon : OnLayer s.placing n a := by
    intro p hp
    change (s.instances.get? a).map (fun i : VisualInstance => (i.visual, i.cell)) = some p at hp
    rw [hi] at hp
    obtain rfl := Option.some.inj hp
    exact (congrArg (fun cell : UInt32 × UInt32 => cell.1.toNat) hcell).trans hn
  have hget : t.instances.get? a = s.instances.get? a := hst.instances a hon
  obtain rfl := Option.some.inj ((hj.symm.trans hget).trans hi)
  obtain ⟨hsound, hmark⟩ := hs a ha j hi hn
  refine ⟨fun k hk => ?_, hmark⟩
  rw [hst.sourceAt]
  exact hsound k (hget.symm.trans hk)

/-- A program of one layer that keeps the marks of this layer keeps those of all. -/
theorem Marked.post_of_confined {α : Type} (hs : Marked L s) {x : Prog α}
    (hx : ConfinedTo h s.placing (.ofLayer s.placing n) ⟨∅, ∅⟩ x)
    (hpost : (x s).Post (fun _ => MarkedAt L n) fun _ => MarkedAt L n) :
    (x s).Post (fun _ t => Marked L t ∧ ∀ m ≠ n, (Region.ofLayer s.placing m).Agree h t s)
      fun _ => Marked L := by
  have hall : ∀ t, MarkedAt L n t → Within s.placing (.ofLayer s.placing n) t →
      Acts ((Region.ofLayer s.placing n).actions h s.placing) s t →
      Marked L t ∧ ∀ m ≠ n, (Region.ofLayer s.placing m).Agree h t s := by
    intro t ht hwithin hacts
    have hagree : ∀ m ≠ n, (Region.ofLayer s.placing m).Agree h t s := by
      intro m hm
      obtain ⟨f, hf, rfl⟩ := hacts
      exact Region.agree_of_mem_actions (Region.disjoint_ofLayer hm) hf rfl
    refine ⟨⟨hs.placed.of_acts hwithin hacts, fun m => ?_⟩, hagree⟩
    by_cases hm : m = n
    · exact hm ▸ ht
    · exact (hs.marked m).of_agree (hagree m hm)
  exact ((hx.acts s (hs.placed n)).and hpost).mono
    (fun _ t ht => hall t ht.2 ht.1.1 ht.1.2)
    fun _ t ht => (hall t ht.2 ht.1.1 ht.1.2).1

/-- Where the instances lie in a state with the same marks. -/
theorem EngineState.placing_of_marks (hst : s.marks = t.marks) : t.placing = s.placing := by
  funext a
  have hmark : t.marks.markAt a = s.marks.markAt a := congrArg (fun m => m.markAt a) hst.symm
  have hplaced := congrArg (Option.map fun m => m.2.2) hmark
  change ((t.instances.get? a).map _).map _ = ((s.instances.get? a).map _).map _ at hplaced
  rw [Option.map_map, Option.map_map] at hplaced
  exact hplaced

theorem Marked.of_marks (hst : s.marks = t.marks) (hs : Marked L s) : Marked L t where
  placed := hs.placed.of_layersList (EngineState.placing_of_marks hst)
    (congrArg (fun m => m.layersList) hst.symm)
  marked n := (hs.marked n).of_marks hst

theorem keeps_marked {α : Type} {x : Prog α} (hx : KeepsMarks x) (L : List Addr) :
    Keeps (Marked L) x :=
  hx.keeps fun _ _ hst hs => hs.of_marks hst

/-- The layer stops what it replaces, in a state that agrees in the region of the layer. -/
theorem Layer.StopsActive.of_agree (hs : s.Placed) (hst : (Region.ofLayer s.placing n).Agree h t s)
    (hstops : Layer.StopsActive n s) : Layer.StopsActive n t := by
  intro layer hl b hb a ha hab i hi hplaying
  rw [hst.layers n rfl] at hl
  have hon := ((hs n).2 n rfl layer hl).1 a ha
  rw [hst.instances a hon] at hi
  exact hstops layer hl b hb a ha hab i hi hplaying

end Marked

/-! ### What the calls keep -/

section calls

variable {L : List Addr} {s : EngineState} {h : Host}

theorem Layer.keeps_marked_stop (n : ℕ) : Keeps (Marked L) (Layer.stop n) := by
  intro s hs
  have hconfined := Layer.confined_stop (h := .plain) (κ := s.placing)
    (Region.disjoint_empty (.ofLayer s.placing n)) rfl
  exact (hs.post_of_confined hconfined (Layer.stop_post_marked (hs.marked n))).mono
    (fun _ _ ht => ht.1) fun _ _ ht => ht

theorem Engine.keeps_marked_stop (data : Json) : Keeps (Marked L) (Engine.stop data) := by
  refine .ite (.bind (.ofExcept _ _) fun l => .bind (.gets _) fun layer => ?_)
    (.bind (.gets _) fun _ => .forEach fun n _ => Layer.keeps_marked_stop n)
  cases layer with
  | none => exact .pure _
  | some _ => exact Layer.keeps_marked_stop _

/-- What a trigger does on one layer. -/
theorem Engine.triggerLayer_post (hs : Marked L s) {n : ℕ} (hstops : Layer.StopsActive n s) :
    (Engine.triggerLayer h n s).Post
      (fun _ t => Marked L t ∧ ∀ m ≠ n, Layer.StopsActive m s → Layer.StopsActive m t)
      fun _ => Marked L := by
  have htrigger := Engine.triggerLayer_post_marked (hs.marked n) hstops h
  have hconfined := Layer.confined_triggerLayer (h := h) (κ := s.placing)
    (Region.disjoint_empty (.ofLayer s.placing n)) rfl
  refine (hs.post_of_confined hconfined htrigger).mono (fun _ t ht => ⟨ht.1, ?_⟩) fun _ _ ht => ht
  exact fun m hm hstops => hstops.of_agree hs.placed (ht.2 m hm)

theorem Engine.trigger_post_marked (hs : Marked L s)
    (hstops : ∀ n < s.layersList.length, Layer.StopsActive n s) :
    (Engine.triggerSchedulledVisualsOnAllLayers h s).Post (fun _ => Marked L) fun _ => Marked L :=
  forEach_post_of_nodup List.nodup_range (fun _ _ ht hn => Engine.triggerLayer_post ht hn) hs
    fun n hn => hstops n (List.mem_range.mp hn)

/-- What is found is active afterwards, unless it waits for the next beat. -/
theorem Engine.setActiveVisualInstance_post (hs : Marked L s) (cell : UInt32 × UInt32) :
    (Engine.setActiveVisualInstance h cell.1 cell.2 s).Post
      (fun found t => Marked L t ∧
        (s.StartsAt cell → ∀ a, found = some a → t.activeAt cell.1.toNat = some a))
      fun _ => Marked L := by
  obtain ⟨l, column⟩ := cell
  have hactive : (Engine.setActiveVisualInstance h l column s).Post
      (fun found t => MarkedAt L l.toNat t ∧
        (s.StartsAt (l, column) → ∀ a, found = some a → t.activeAt l.toNat = some a))
      fun _ => MarkedAt L l.toNat := by
    have hmarked := hs.marked l.toNat
    have hnone : ∀ u, MarkedAt L l.toNat u → MarkedAt L l.toNat u ∧ (s.StartsAt (l, column) →
        ∀ a, none = some a → u.activeAt l.toNat = some a) :=
      fun u hu => ⟨hu, fun _ a ha => absurd ha (Option.some_ne_none a).symm⟩
    refine Engine.setActiveVisualInstance_post_of (fun _ => hnone s hmarked)
      (fun a hlayer hfound => ?_) fun hlayer _ => ?_
    · have hlt := Layers.get_ne_none_iff.mp hlayer
      refine (Layer.playVisualInstance_post_marked hmarked h a).mono (fun _ t ht =>
        ⟨ht.1, fun hstarts b hb => ?_⟩) fun _ _ ht => ht
      obtain rfl := Option.some.inj hb
      exact ht.2 fun i hi hwaits => hstarts hlt a hfound i hi hwaits
    · by_cases hstops : s.stopCurrentVisualIfTriggeredInvalid = true
      · rw [if_pos hstops, Layers.stopAt_of_lt (Layers.get_ne_none_iff.mp hlayer)]
        exact (Layer.stop_post_marked hmarked).mono (fun _ u hu => hnone u hu) fun _ _ hu => hu
      · rw [if_neg hstops]
        exact hnone s hmarked
  have hconfined := Engine.confined_setActiveVisualInstance (h := h) (κ := s.placing)
    (Region.disjoint_empty (.ofLayer s.placing l.toNat)) column
  have hmarked := hs.post_of_confined hconfined (hactive.mono (fun _ _ ht => ht.1) fun _ _ ht => ht)
  exact (hmarked.and hactive).mono (fun _ _ ht => ⟨ht.1.1, ht.2.2⟩) fun _ _ ht => ht.1

/-- What a request to play is read as. -/
theorem Engine.numberOr_post {data : Json} (hdata : data.isObject = true) (message key : String)
    (s : EngineState) :
    (Engine.numberOr message key data s).Post
      (fun v t => t = s ∧ (data.field key).isNumber = true ∧ (data.field key).getUnsigned = .ok v)
      fun _ t => t = s := by
  have hindex : data.index key = .ok (data.field key) := by
    cases data with
    | obj members => rfl
    | _ => cases hdata
  rw [Engine.numberOr, hindex]
  change Outcome.Post _ _ ((if _ then _ else _ : Prog UInt32) s)
  split_ifs with hnumber
  · cases hv : (data.field key).getUnsigned with
    | ok v => exact ⟨rfl, hnumber, rfl⟩
    | error e => rfl
  · rfl

/-- An instance is played after it has become active. -/
theorem Engine.play_post_marked (hs : Marked L s) {data : Json}
    (hstarts : ∀ cell ∈ Engine.requestedCell data, s.StartsAt cell) :
    (Engine.play h data s).Post (fun _ => Marked L) fun _ => Marked L := by
  rw [Engine.play]
  split_ifs with hdata
  swap
  · exact hs
  have hthrow : ∀ (_ : Thrown) (t : EngineState), t = s → Marked L t := fun _ _ ht => ht ▸ hs
  refine ((Engine.numberOr_post hdata _ _ s).mono (fun _ _ ht => ht) hthrow).bind fun l t ht => ?_
  obtain ⟨rfl, hl, hlayer⟩ := ht
  refine ((Engine.numberOr_post hdata _ _ t).mono (fun _ _ ht => ht) hthrow).bind fun c u hu => ?_
  obtain ⟨rfl, hc, hcolumn⟩ := hu
  have hcell : Engine.requestedCell data = some (l, c) := by
    rw [Engine.requestedCell, hdata, hl, hc, hlayer, hcolumn]
    rfl
  refine (Engine.setActiveVisualInstance_post hs (l, c)).bind fun found t ht => ?_
  cases found with
  | none => exact ht.1
  | some a =>
    have hactive := ht.2 (hstarts (l, c) hcell) a rfl
    have hmarked := ht.1.marked l.toNat
    rw [MarkedAt, hactive] at hmarked
    have hplay : (VisualInstance.play h a false t).Post (fun _ => MarkedAt L l.toNat)
        fun _ => MarkedAt L l.toNat :=
      (Layer.keeps_plays_play L l.toNat h a false t ⟨hmarked, hactive⟩).mono
        (fun _ _ ht => ht.marked) fun _ _ ht => ht.marked
    have hconfined := VisualInstance.confined_play (h := h) (κ := t.placing)
      (Region.disjoint_empty (.ofLayer t.placing l.toNat)) (ht.1.placed.onLayer_of_activeAt hactive)
      false
    exact (ht.1.post_of_confined hconfined hplay).mono (fun _ _ ht => ht.1) fun _ _ ht => ht

end calls

/-! ### Runs -/

theorem EngineState.currentInstances_of_skeleton {s t : EngineState}
    (hst : s.skeleton = t.skeleton) : s.currentInstances = t.currentInstances := by
  have hscene : s.currentScene = t.currentScene := congrArg (fun o => o.1.currentScene) hst
  have hscenes : s.scenesList = t.scenesList := congrArg (fun o => o.1.scenesList) hst
  rw [EngineState.currentInstances, EngineState.currentInstances, hscene, hscenes]

namespace PlayingCall

theorem keepsSkeleton_run (c : Host × PlayingCall) : KeepsSkeleton (run c) := by
  match c with
  | (h, play data) => exact Engine.keepsSkeleton_play h data
  | (_, stop data) => exact Engine.keepsSkeleton_stop data
  | (h, setActiveVisualInstance layerN column) =>
    exact .bind (Engine.keepsSkeleton_setActiveVisualInstance h layerN column) fun _ => .pure _
  | (h, beat) => exact (Fixes.updateProperties h _).skeleton
  | (h, triggerSchedulledVisualsOnAllLayers) => exact Engine.keepsSkeleton_trigger h
  | (_, videoEnds a) => exact (VisualInstance.keepsOutline_setVideo a _).skeleton
  | (_, setMetronomeOn on) => exact fun _ _ hs => hs
  | (h, setBeatSnap a on) =>
    refine KeepsOutline.skeleton (x := run (h, setBeatSnap a on)) (.updateInstance ?_ ?_)
    · exact fun _ => rfl
    · exact fun _ => rfl

/-- What each call keeps. -/
theorem run_post_marked {c : Host × PlayingCall} {L : List Addr} {s : EngineState}
    (hc : KeepsMarked c s) (hs : Marked L s) :
    (run c s).Post (fun _ => Marked L) fun _ => Marked L := by
  match c, hc with
  | (_, play data), hc => exact Engine.play_post_marked hs hc
  | (_, stop data), _ => exact Engine.keeps_marked_stop data s hs
  | (_, setActiveVisualInstance layerN column), _ =>
    exact (Engine.setActiveVisualInstance_post hs (layerN, column)).bind fun _ _ ht => ht.1
  | (h, beat), _ => exact keeps_marked (x := run (h, beat)) (fun _ _ ht => ht) L s hs
  | (_, triggerSchedulledVisualsOnAllLayers), hc => exact Engine.trigger_post_marked hs hc
  | (h, videoEnds a), _ =>
    refine keeps_marked (x := run (h, videoEnds a)) (KeepsMarks.updateInstance a ?_) L s hs
    exact fun _ => rfl
  | (h, setMetronomeOn on), _ =>
    exact keeps_marked (x := run (h, setMetronomeOn on)) (fun _ _ ht => ht) L s hs
  | (h, setBeatSnap a on), _ =>
    refine keeps_marked (x := run (h, setBeatSnap a on)) (KeepsMarks.updateInstance a ?_) L s hs
    exact fun _ => rfl

end PlayingCall

/-- No layer holds an instance, and no instance of the current scene is marked. -/
def EngineState.AtRest (s : EngineState) : Prop :=
  s.HoldsNone ∧ ∀ a ∈ s.currentInstances, ∀ i ∈ s.instances.get? a, i.properties.isPlaying = false

instance (s : EngineState) : Decidable s.AtRest :=
  inferInstanceAs (Decidable ((∀ p ∈ s.heldList, p = (none, none)) ∧ ∀ a ∈ _, ∀ i ∈ _, _ = _))

theorem EngineState.AtRest.marked {s : EngineState} (hs : s.AtRest) :
    Marked s.currentInstances s where
  placed := hs.1.placed
  marked n a ha i hi _ := by
    have hunmarked := hs.2 a ha i hi
    refine ⟨Unmarked.sound fun j hj => hs.2 a ha j hj, fun hplaying => ?_⟩
    exact absurd (hunmarked.symm.trans hplaying) Bool.false_ne_true

theorem Marked.onlyActivePlays {s : EngineState} (hs : Marked s.currentInstances s) :
    s.OnlyActivePlays := fun a ha i hi hplaying =>
  (hs.marked i.cell.1.toNat a ha i hi rfl).2 hplaying

/-- Every run from rest in which no instance is played that is only scheduled, and every trigger
stops what it replaces. -/
theorem only_active_plays {s₀ s : EngineState} (hrest : s₀.AtRest)
    (hrun : Reaches PlayingCall.run PlayingCall.KeepsMarked s₀ s) : s.OnlyActivePlays := by
  have hmarked : Marked s₀.currentInstances s :=
    hrun.invariant (fun _ _ hc ht => PlayingCall.run_post_marked hc ht) hrest.marked
  have hskeleton : s.skeleton = s₀.skeleton :=
    hrun.invariant (fun c t _ ht => PlayingCall.keepsSkeleton_run c _ t ht) rfl
  refine Marked.onlyActivePlays ?_
  rwa [EngineState.currentInstances_of_skeleton hskeleton]

/-- Two videos in the cells of a layer, of which the second one snaps to the beat of the
metronome. -/
def snappedSecond : List Call :=
  [(.plain, .newSet 640 480 1), (.plain, .addVideo "a.mov"), (.plain, .addVideo "b.mov"),
    (.plain, .addVisualToScene 0 0 0), (.plain, .addVisualToScene 1 0 1),
    (.plain, .setBeatSnap 1 true), (.plain, .setMetronomeOn true)]

/-- The first video is played, and the second one replaces it at the beat. -/
theorem only_active_plays_trigger : ∃ s₀ s : EngineState, s₀.Reachable ∧
    Reaches PlayingCall.run PlayingCall.KeepsMarked s₀ s ∧ s.activeAt 0 = some 1 ∧
      (s.instances.get? 1).any (fun i => i.properties.isPlaying) = true ∧ s.OnlyActivePlays := by
  have hrun : ∃ s₀ : EngineState, s₀.Reachable ∧ s₀.AtRest ∧
      (runAll PlayingCall.run PlayingCall.KeepsMarked
        [(.plain, .play (.obj [("layer", .int 0), ("column", .int 0)])),
          (.plain, .setActiveVisualInstance 0 1), (.plain, .triggerSchedulledVisualsOnAllLayers)]
        s₀).any (fun s => decide (s.activeAt 0 = some 1 ∧
          (s.instances.get? 1).any (fun i => i.properties.isPlaying) = true)) = true :=
    exists_reaches snappedSecond (by decide +kernel)
  obtain ⟨s₀, hs₀, hrest, hany⟩ := hrun
  obtain ⟨s, hs, hactive, hplaying⟩ := exists_reaches _ hany
  exact ⟨s₀, s, hs₀, hs, hactive, hplaying, only_active_plays hrest hs⟩

/-- The second video is marked when it is played before the beat; and the first one stays marked
when it has come to its end before the second one replaces it. -/
theorem scheduled_or_ended_plays : ∃ s₀ : EngineState, s₀.Reachable ∧ s₀.AtRest ∧
    s₀.currentInstances = [0, 1] ∧
    (∀ a ∈ s₀.currentInstances, ∀ i ∈ s₀.instances.get? a, i.cell.1.toNat < s₀.layersList.length) ∧
    (∃ s, Reaches PlayingCall.run (fun _ _ => True) s₀ s ∧ ¬ s.OnlyActivePlays ∧
      s.activeAt 0 = none ∧ s.scheduledAt 0 = some 1) ∧
    ∃ s, Reaches PlayingCall.run (fun _ _ => True) s₀ s ∧ ¬ s.OnlyActivePlays ∧
      s.activeAt 0 = some 1 := by
  have hrun : ∃ s₀ : EngineState, s₀.Reachable ∧ s₀.AtRest ∧ s₀.currentInstances = [0, 1] ∧
      (∀ a ∈ s₀.currentInstances, ∀ i ∈ s₀.instances.get? a,
        i.cell.1.toNat < s₀.layersList.length) ∧
      (runAll PlayingCall.run (fun _ _ => True)
        [(.plain, .play (.obj [("layer", .int 0), ("column", .int 1)]))] s₀).any
          (fun s => decide (¬ s.OnlyActivePlays ∧ s.activeAt 0 = none ∧
            s.scheduledAt 0 = some 1)) = true ∧
      (runAll PlayingCall.run (fun _ _ => True)
        [(.plain, .play (.obj [("layer", .int 0), ("column", .int 0)])), (.plain, .videoEnds 0),
          (.plain, .setActiveVisualInstance 0 1), (.plain, .triggerSchedulledVisualsOnAllLayers)]
        s₀).any (fun s => decide (¬ s.OnlyActivePlays ∧ s.activeAt 0 = some 1)) = true :=
    exists_reaches snappedSecond (by decide +kernel)
  obtain ⟨s₀, hs₀, hrest, hscene, hplaced, hscheduled, hended⟩ := hrun
  exact ⟨s₀, hs₀, hrest, hscene, hplaced, exists_reaches _ hscheduled, exists_reaches _ hended⟩

end ArbutusEngine
