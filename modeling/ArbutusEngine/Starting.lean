import ArbutusEngine.Cancelling

/-!
# Starting an instance

A layer that is told to play an instance stops the one it plays, makes the new one active, and then
starts it; loading the file of a video may throw, after that. With the instances and their visuals
still there the behaviour is defined in every case, and the new instance is the active one.

## Main definitions

* `EngineState.Linked`: an instance and its visual are there.
* `EngineState.stage`, `EngineState.board`: what starting an instance leaves alone, with the layers
  and without.

## Main results

* `VisualInstance.defined_play`, `VisualInstance.defined_stop`: playing and stopping are defined.
* `Layer.final?_playVisualInstance`: the instance that a layer is told to play is its active one.
-/

open Exec

namespace ArbutusEngine

/-! ### What playing leaves alone -/

/-- The outline, the selection, and which instances wait for the beat. -/
structure Stage where
  outline : Outline
  selected : Int32 × Int32
  snaps : Addr → Option Bool

/-- The skeleton, the selection, and which instances wait for the beat. -/
structure Board where
  skeleton : Outline × List Addr
  selected : Int32 × Int32
  snaps : Addr → Option Bool

namespace EngineState

/-- The instance and its visual are there. -/
def Linked (s : EngineState) (a v : Addr) : Prop :=
  (∃ i, s.instances.get? a = some i ∧ i.visual = v) ∧ ∃ w ∈ s.visualsList, w.addr = v

theorem Stoppable.linked {s : EngineState} {a : Addr} (ha : s.Stoppable a) : ∃ v, s.Linked a v := by
  obtain ⟨i, hi, v, hv, hvi⟩ := ha
  exact ⟨i.visual, ⟨i, hi, rfl⟩, v, hv, hvi⟩

/-- Which instances wait for the beat. -/
def snaps (s : EngineState) (a : Addr) : Option Bool :=
  (s.instances.get? a).map fun i => i.properties.beatSnap

/-- The selected layer and the selected column. -/
def selected (s : EngineState) : Int32 × Int32 :=
  (s.properties.selectedLayer, s.properties.selectedColumn)

/-- What starting and stopping an instance leave alone. -/
def stage (s : EngineState) : Stage := ⟨s.outline, s.selected, s.snaps⟩

/-- What a layer leaves alone that starts an instance. -/
def board (s : EngineState) : Board := ⟨s.skeleton, s.selected, s.snaps⟩

variable {s t : EngineState}

theorem stage_eq_iff :
    s.stage = t.stage ↔ s.outline = t.outline ∧ s.selected = t.selected ∧ s.snaps = t.snaps := by
  rw [stage, stage, Stage.mk.injEq]

theorem board_eq_iff :
    s.board = t.board ↔ s.skeleton = t.skeleton ∧ s.selected = t.selected ∧ s.snaps = t.snaps := by
  rw [board, board, Board.mk.injEq]

theorem board_of_stage (h : s.stage = t.stage) : s.board = t.board :=
  board_eq_iff.mpr ((stage_eq_iff.mp h).imp_left skeleton_of_outline)

theorem layersList_of_stage (h : s.stage = t.stage) : s.layersList = t.layersList :=
  congrArg (fun o => o.layersList) (stage_eq_iff.mp h).1

theorem activeAt_of_stage (h : s.stage = t.stage) (n : ℕ) : s.activeAt n = t.activeAt n := by
  exact activeAt_congr (by rw [layersList_of_stage h])

theorem Linked.of_stage (h : s.stage = t.stage) {a v : Addr} (hs : s.Linked a v) :
    t.Linked a v := by
  obtain ⟨⟨i, hi, rfl⟩, w, hw, hwi⟩ := hs
  have houtline := (stage_eq_iff.mp h).1
  obtain ⟨j, hj, hji⟩ : ∃ j, t.instances.get? a = some j ∧
      (j.visual, j.cell) = (i.visual, i.cell) := by
    have hat : (t.instances.get? a).map (fun i => (i.visual, i.cell)) =
        some (i.visual, i.cell) := by
      have hsame := congrFun (congrArg (fun o => o.instanceAt) houtline) a
      change (s.instances.get? a).map _ = (t.instances.get? a).map _ at hsame
      rw [← hsame, hi, Option.map_some]
    exact Option.map_eq_some_iff.mp hat
  have haddr : w.addr ∈ t.visualsList.map Visual.addr := by
    have hvisuals : s.visualsList.map Visual.addr = t.visualsList.map Visual.addr :=
      congrArg (fun o => o.visuals) houtline
    exact hvisuals ▸ List.mem_map_of_mem hw
  obtain ⟨w', hw', heq⟩ := List.mem_map.mp haddr
  exact ⟨⟨j, hj, congrArg Prod.fst hji⟩, w', hw', heq.trans hwi⟩

end EngineState

/-- The program leaves the stage alone. -/
abbrev KeepsStage {α : Type} (x : Prog α) : Prop := Fixes EngineState.stage x

theorem KeepsStage.getInstance (h : Host) : KeepsStage (EngineProperties.getInstance h) :=
  fun _ _ hs => hs

theorem KeepsStage.updateInstance {a : Addr} {g : VisualInstance → VisualInstance}
    (hv : ∀ i, (g i).visual = i.visual) (hc : ∀ i, (g i).cell = i.cell)
    (hb : ∀ i, (g i).properties.beatSnap = i.properties.beatSnap) :
    KeepsStage (VisualInstance.update a g) := by
  intro o s hs
  have houtline := Fixes.updateInstance (a := a) hv hc s.outline s rfl
  cases hi : s.instances.get? a with
  | none => simp [VisualInstance.update, VisualInstance.read, hi]
  | some i =>
    rw [VisualInstance.update_eq hi, Outcome.post_ok] at houtline ⊢
    refine Eq.trans (EngineState.stage_eq_iff.mpr ⟨houtline, rfl, funext fun b => ?_⟩) hs
    change ((s.instances.set a (g i)).get? b).map _ = (s.instances.get? b).map _
    rw [Heap.get?_set _ hi]
    split_ifs with hba
    · rw [hba, hi, Option.map_some, Option.map_some, hb]
    · rfl

theorem KeepsStage.openCamera (v : Addr) : KeepsStage (VisualInstance.openCamera v) := by
  intro o s hs
  have houtline := VisualInstance.keepsOutline_openCamera v s.outline s rfl
  exact (EngineState.stage_eq_iff.mpr ⟨houtline, rfl, rfl⟩).trans hs

/-! ### Instances -/

namespace VisualInstance

section

variable {I : EngineState → Prop} {a v : Addr}
  (hI : ∀ {α : Type} {x : Prog α}, KeepsStage x → Keeps I x) (hv : ∀ s, I s → s.Linked a v)

include hI hv

omit hI in
theorem defined_read {α : Type} {f : VisualInstance → Prog α}
    (hf : ∀ i, i.visual = v → Defined I (f i)) : Defined I (read a >>= f) := by
  refine .bind_of_ok (fun s hs => ?_) hf
  obtain ⟨i, hi, hiv⟩ := (hv s hs).1
  exact ⟨i, by rw [read, hi, ofOption_some, pure_run], hiv⟩

omit hI in
theorem defined_readVisual {α : Type} {f : Visual → Prog α} (hf : ∀ w, Defined I (f w)) :
    Defined I (Visual.read v >>= f) := by
  refine .bind_of_ok (P := fun _ => True) (fun s hs => ?_) fun w _ => hf w
  obtain ⟨w, hw, hwv⟩ := (hv s hs).2
  obtain ⟨x, hx⟩ : ∃ x, s.visualsList.find? (fun w => w.addr = v) = some x :=
    Option.isSome_iff_exists.mp (List.find?_isSome.mpr ⟨w, hw, decide_eq_true hwv⟩)
  exact ⟨x, by rw [Visual.read, hx, ofOption_some, pure_run], trivial⟩

theorem defined_update {g : VisualInstance → VisualInstance} (hgv : ∀ i, (g i).visual = i.visual)
    (hgc : ∀ i, (g i).cell = i.cell)
    (hgb : ∀ i, (g i).properties.beatSnap = i.properties.beatSnap) : Defined I (update a g) := by
  refine .of_keeps (hI (.updateInstance hgv hgc hgb)) fun s hs => ?_
  obtain ⟨i, hi, -⟩ := (hv s hs).1
  exact ⟨_, congrArg Outcome.final? (update_eq hi g)⟩

theorem defined_setIsPlaying (isPlaying : Bool) : Defined I (update a (setIsPlaying isPlaying)) :=
  defined_update hI hv (fun _ => rfl) (fun _ => rfl) fun _ => rfl

theorem defined_setVideo (g : VisualInstance → VideoPlayer) :
    Defined I (update a fun i => { i with video := g i }) :=
  defined_update hI hv (fun _ => rfl) (fun _ => rfl) fun _ => rfl

omit hv in
theorem defined_snapsToBeat (h : Host) (i : VisualInstance) : Defined I (snapsToBeat h i) := by
  have hget : Defined I (EngineProperties.getInstance h) :=
    .of_keeps (hI (.getInstance h)) fun s _ => ⟨_, rfl⟩
  exact .ite (.bind hget fun _ => .pure _) (.pure _)

theorem defined_loadVideo (h : Host) : Defined I (loadVideo h a) := by
  refine .bind (defined_setIsPlaying hI hv false) fun _ => defined_read hv ?_
  rintro i rfl
  refine defined_readVisual hv fun w => ?_
  cases w.source with
  | video filePath =>
    refine .ite (.bind (defined_setVideo hI hv _) fun _ => .ite ?_ (.throw _)) (.throw _)
    exact .bind (defined_update hI hv (fun _ => rfl) (fun _ => rfl) fun _ => rfl) fun _ => .pure _
  | camera => exact .pure _
  | syphon => exact .pure _

theorem defined_playLoaded (h : Host) (forcePlay : Bool) :
    Defined I (playLoaded h a forcePlay) := by
  refine defined_read hv fun i _ => .ite ?_ (.pure _)
  refine .bind (defined_snapsToBeat hI h i) fun snaps => .ite ?_ ?_
  · exact .bind (defined_update hI hv (fun _ => rfl) (fun _ => rfl) fun _ => rfl) fun _ =>
      defined_setIsPlaying hI hv true
  · exact .bind (defined_setVideo hI hv _) fun _ => defined_setIsPlaying hI hv true

theorem defined_play (h : Host) (forcePlay : Bool) : Defined I (play h a forcePlay) := by
  refine .bind (defined_update hI hv (fun _ => rfl) (fun _ => rfl) fun _ => rfl) fun _ => ?_
  refine .bind (defined_update hI hv (fun _ => rfl) (fun _ => rfl) fun _ => rfl) fun _ => ?_
  refine defined_read hv ?_
  rintro i rfl
  refine defined_readVisual hv fun w => ?_
  cases w.source with
  | video filePath =>
    have hrest := defined_playLoaded hI hv h forcePlay
    exact .ite hrest (.bind (defined_loadVideo hI hv h) fun _ => hrest)
  | camera =>
    have hopen : Defined I (openCamera i.visual) :=
      .of_keeps (hI (.openCamera i.visual)) fun s _ => ⟨_, rfl⟩
    exact .bind hopen fun _ => defined_setIsPlaying hI hv true
  | syphon => exact defined_setIsPlaying hI hv true

theorem defined_stop : Defined I (stop a) := by
  refine defined_read hv ?_
  rintro i rfl
  refine defined_readVisual hv fun w => ?_
  cases w.source with
  | video filePath =>
    refine .ite (.bind (defined_setVideo hI hv _) fun _ => ?_) (.pure _)
    exact defined_setIsPlaying hI hv false
  | camera => exact defined_setIsPlaying hI hv false
  | syphon => exact defined_setIsPlaying hI hv false

theorem defined_retriggerIf (h : Host) : Defined I (retriggerIf h a) := by
  refine defined_read hv fun i _ => .ite (defined_read hv fun i _ => ?_) (.pure _)
  refine .bind (defined_snapsToBeat hI h i) fun snaps => .ite ?_ ?_
  · exact defined_update hI hv (fun _ => rfl) (fun _ => rfl) fun _ => rfl
  · exact .bind (defined_setVideo hI hv _) fun _ =>
      defined_update hI hv (fun _ => rfl) (fun _ => rfl) fun _ => rfl

end

end VisualInstance

/-! ### Layers -/

namespace Layer

variable {s : EngineState} {n : ℕ} {a v : Addr}

/-- Programs on instances that are there leave the stage alone. -/
theorem exists_of_defined {x : Prog Unit} (hs : s.Linked a v)
    (hx : ∀ {I : EngineState → Prop}, (∀ {α : Type} {y : Prog α}, KeepsStage y → Keeps I y) →
      (∀ t, I t → t.Linked a v) → Defined I x) :
    ∃ t, (x s).final? = some t ∧ t.stage = s.stage := by
  have hI : ∀ {α : Type} {y : Prog α}, KeepsStage y →
      Keeps (fun t : EngineState => t.stage = s.stage) y := fun hy => hy s.stage
  exact hx hI (fun t ht => hs.of_stage ht.symm) s rfl

/-- An instance that can be stopped is stopped, and the stage stays. -/
theorem exists_stop_stage {b : Addr} (hb : s.Stoppable b) :
    ∃ t, VisualInstance.stop b s = .ok () t ∧ t.stage = s.stage := by
  obtain ⟨w, hw⟩ := hb.linked
  obtain ⟨t, ht, hstage⟩ := exists_of_defined hw fun hI hv => VisualInstance.defined_stop hI hv
  obtain ⟨t', ht', -⟩ := VisualInstance.exists_stop hb
  rw [ht', Outcome.final?_ok] at ht
  exact ⟨t', ht', Option.some.inj ht ▸ hstage⟩

/-- Stopping a layer without an active instance does nothing. -/
theorem stop_of_idle (hn : n < s.layersList.length) (hidle : s.activeAt n = none) :
    stop n s = .ok () s := by
  obtain ⟨layer, hlayer⟩ : ∃ layer, s.layersList[n]? = some layer :=
    ⟨_, List.getElem?_eq_getElem hn⟩
  rw [stop, bind_run, read, hlayer, ofOption_some, pure_run, Outcome.bind_ok,
    (EngineState.activeAt_of_getElem? hlayer).symm.trans hidle]
  rfl

/-- A layer that is stopped has no active instance left. -/
theorem exists_stop_board (hn : n < s.layersList.length)
    (hactive : ∀ b, s.activeAt n = some b → s.Stoppable b) :
    ∃ t, stop n s = .ok () t ∧ t.board = s.board ∧ t.activeAt n = none := by
  obtain ⟨layer, hlayer⟩ : ∃ layer, s.layersList[n]? = some layer :=
    ⟨_, List.getElem?_eq_getElem hn⟩
  have hheld := EngineState.activeAt_of_getElem? hlayer
  rw [stop, bind_run, read, hlayer, ofOption_some, pure_run, Outcome.bind_ok]
  cases hb : layer.activeInstance with
  | none => exact ⟨s, rfl, rfl, hheld.trans hb⟩
  | some b =>
    obtain ⟨t, ht, hstage⟩ := exists_stop_stage (hactive b (hheld.trans hb))
    have hlayer' : t.layersList[n]? = some layer := EngineState.layersList_of_stage hstage ▸ hlayer
    have hset := update_eq hlayer' fun layer =>
      { layer with activeInstance := none, schedulledInstance := none }
    have hskeleton := keepsSkeleton_update (n := n) (f := fun layer =>
      { layer with activeInstance := none, schedulledInstance := none }) (fun _ => rfl) t.skeleton
      t rfl
    rw [hset, Outcome.post_ok] at hskeleton
    refine ⟨_, (congrArg (fun o => Outcome.bind o _) ht).trans hset, ?_, ?_⟩
    · refine Eq.trans ?_ (EngineState.board_of_stage hstage)
      exact EngineState.board_eq_iff.mpr ⟨hskeleton, rfl, rfl⟩
    · change ((t.layersList.modify n _)[n]?.map _).bind Prod.fst = none
      rw [List.getElem?_modify_eq, hlayer']
      rfl

/-- Starting an instance makes it the active one. -/
theorem final?_startInstance (h : Host) (hn : n < s.layersList.length) (hs : s.Linked a v) :
    ∃ t, (startInstance h n a s).final? = some t ∧ t.board = s.board ∧
      t.activeAt n = some a := by
  obtain ⟨layer, hlayer⟩ : ∃ layer, s.layersList[n]? = some layer :=
    ⟨_, List.getElem?_eq_getElem hn⟩
  let s' : EngineState := { s with layersList := s.layersList.modify n fun layer =>
    { layer with activeInstance := some a, schedulledInstance := none } }
  have hset : setActiveVisualInstance n a s = .ok () s' := update_eq hlayer _
  have hskeleton := keepsSkeleton_setActiveVisualInstance n a s.skeleton s rfl
  rw [hset, Outcome.post_ok] at hskeleton
  have hactive : s'.activeAt n = some a := by
    change ((s.layersList.modify n _)[n]?.map _).bind Prod.fst = some a
    rw [List.getElem?_modify_eq, hlayer]
    rfl
  obtain ⟨t, ht, hstage⟩ := exists_of_defined (s := s') (x := do
    VisualInstance.play h a false
    VisualInstance.retriggerIf h a) (a := a) (v := v) ⟨hs.1, hs.2⟩ fun hI hv =>
      .bind (VisualInstance.defined_play hI hv h false) fun _ =>
        VisualInstance.defined_retriggerIf hI hv h
  refine ⟨t, ?_, ?_, ?_⟩
  · rw [startInstance, bind_run, hset, Outcome.bind_ok]
    exact ht
  · rw [EngineState.board_of_stage hstage]
    exact EngineState.board_eq_iff.mpr ⟨hskeleton, rfl, rfl⟩
  · rw [EngineState.activeAt_of_stage hstage, hactive]

/-- A layer that is told to play an instance that does not wait for the beat makes it its active
instance. -/
theorem final?_playVisualInstance (h : Host) (hn : n < s.layersList.length) (hs : s.Linked a v)
    (hsnap : s.snaps a = some false) (hactive : ∀ b, s.activeAt n = some b → s.Stoppable b) :
    ∃ t, (playVisualInstance h n a s).final? = some t ∧ t.board = s.board ∧
      t.activeAt n = some a := by
  obtain ⟨i, hi, hbeat⟩ := Option.map_eq_some_iff.mp hsnap
  obtain ⟨layer, hlayer⟩ : ∃ layer, s.layersList[n]? = some layer :=
    ⟨_, List.getElem?_eq_getElem hn⟩
  have hheld := EngineState.activeAt_of_getElem? hlayer
  rw [playVisualInstance, bind_run, VisualInstance.read, hi, ofOption_some, pure_run,
    Outcome.bind_ok, waitsForBeat, hbeat]
  simp only [Bool.false_eq_true, if_false, pure_bind]
  rw [bind_run, read, hlayer, ofOption_some, pure_run, Outcome.bind_ok]
  split_ifs with hsame
  · obtain ⟨t, ht, hstage⟩ := exists_of_defined hs fun hI hv =>
      VisualInstance.defined_retriggerIf hI hv h
    refine ⟨t, ht, EngineState.board_of_stage hstage, ?_⟩
    rw [EngineState.activeAt_of_stage hstage, hheld, hsame]
  cases hb : layer.activeInstance with
  | none => exact final?_startInstance h hn hs
  | some b =>
    obtain ⟨t, ht, hstage⟩ := exists_stop_stage (hactive b (hheld.trans hb))
    obtain ⟨u, hu, hboard, hplays⟩ := final?_startInstance h
      (EngineState.layersList_of_stage hstage ▸ hn) (hs.of_stage hstage.symm)
    have hrun := congrArg (fun o => (Outcome.bind o fun _ t => startInstance h n a t).final?) ht
    exact ⟨u, hrun.trans hu, hboard.trans (EngineState.board_of_stage hstage), hplays⟩

end Layer

end ArbutusEngine
