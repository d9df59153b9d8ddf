import ArbutusEngine.Regions

/-!
# Which instances are marked as playing

`VisualInstance::play` marks an instance as playing, `VisualInstance::stop` takes the mark away, but
not from a video that is not loaded. On one layer the mark is to be on the active instance only, and
a video that bears it is loaded: then stopping it takes the mark away.

## Main definitions

* `Marks`, `EngineState.marks`, `KeepsMarks`: what the marks depend on.
* `Sound`: a video that is marked is loaded.
* `OnlyMarked`, `MarkedAt`: on a layer no other instance than one given, and no other than the
  active one, is marked.

## Main results

* `VisualInstance.keeps_sound_play`, `VisualInstance.stop_post_unmarked`.
* `Layer.stop_post_marked`, `Layer.playVisualInstance_post_marked`,
  `Layer.activateSchedulledInstance_post_marked`.
-/

open Exec

namespace ArbutusEngine

/-! ### The marks -/

/-- Dereferencing a pointer to an instance. -/
theorem VisualInstance.read_cases (a : Addr) (s : EngineState) :
    VisualInstance.read a s = .undefined .danglingPointer ∨
      ∃ i, s.instances.get? a = some i ∧ VisualInstance.read a s = .ok i s := by
  rw [VisualInstance.read]
  cases s.instances.get? a with
  | none => exact .inl rfl
  | some i => exact .inr ⟨i, rfl, rfl⟩

/-- What the marks on the instances depend on. -/
structure Marks where
  layersList : List Layer
  sourceAt : Addr → Option VisualSource
  /-- The mark of an instance, whether its file is loaded, its visual and its cell. -/
  markAt : Addr → Option (Bool × Bool × Addr × (UInt32 × UInt32))

/-- The mark of an instance, whether its file is loaded, its visual and its cell. -/
def VisualInstance.mark (i : VisualInstance) : Bool × Bool × Addr × (UInt32 × UInt32) :=
  (i.properties.isPlaying, i.video.isLoaded, i.visual, i.cell)

def EngineState.marks (s : EngineState) : Marks where
  layersList := s.layersList
  sourceAt a := s.sourceAt a
  markAt a := (s.instances.get? a).map VisualInstance.mark

/-- An instance in a state with the same marks. -/
theorem EngineState.exists_of_marks {s t : EngineState} (hst : s.marks = t.marks) {a : Addr}
    {i : VisualInstance} (hi : t.instances.get? a = some i) :
    ∃ j, s.instances.get? a = some j ∧ j.mark = i.mark := by
  have hmark : s.marks.markAt a = t.marks.markAt a := congrArg (fun m => m.markAt a) hst
  change (s.instances.get? a).map _ = (t.instances.get? a).map _ at hmark
  rw [hi] at hmark
  exact Option.map_eq_some_iff.mp hmark

/-- The program leaves alone what the marks depend on. -/
abbrev KeepsMarks {α : Type} (x : Prog α) : Prop := Fixes EngineState.marks x

theorem KeepsMarks.updateInstance (a : Addr) {f : VisualInstance → VisualInstance}
    (hf : ∀ i, (f i).mark = i.mark) : KeepsMarks (VisualInstance.update a f) := by
  intro o s hs
  rw [VisualInstance.update, bind_run, VisualInstance.read]
  cases hi : s.instances.get? a with
  | none => trivial
  | some i =>
    refine Eq.trans (congrArg (Marks.mk s.layersList fun b => s.sourceAt b) (funext fun b => ?_)) hs
    change ((s.instances.set a (f i)).get? b).map _ = (s.instances.get? b).map _
    rw [Heap.get?_set _ hi]
    split_ifs with hb
    · rw [hb, hi, Option.map_some, Option.map_some, hf]
    · rfl

theorem KeepsMarks.firstFrame (a : Addr) :
    KeepsMarks (VisualInstance.update a fun i => { i with video := i.video.setPosition 0 }) :=
  KeepsMarks.updateInstance a fun _ => rfl

theorem KeepsMarks.openCamera (a : Addr) : KeepsMarks (VisualInstance.openCamera a) := by
  rw [VisualInstance.openCamera_eq]
  refine .modify fun s => ?_
  rw [EngineState.marks]
  simp only [EngineState.sourceAt_openCamera]
  rfl

theorem KeepsMarks.snapsToBeat (h : Host) (i : VisualInstance) :
    KeepsMarks (VisualInstance.snapsToBeat h i) :=
  .ite (.bind (fun _ _ hs => hs) fun _ => .pure _) (.pure _)

theorem KeepsMarks.retrigger (h : Host) (a : Addr) : KeepsMarks (VisualInstance.retrigger h a) := by
  refine .bind (.deref _ _) fun i => .bind (KeepsMarks.snapsToBeat h i) fun _ => .ite ?_ ?_
  · exact KeepsMarks.updateInstance a fun _ => rfl
  · exact .bind (KeepsMarks.updateInstance a fun _ => rfl) fun _ =>
      KeepsMarks.updateInstance a fun _ => rfl

/-! ### One instance -/

/-- Of the instance at the address, if there is one: its mark, whether its file is loaded, and the
source of its visual satisfy `P`. -/
def HasMark (P : Bool → Bool → Option VisualSource → Prop) (a : Addr) (s : EngineState) : Prop :=
  ∀ i, s.instances.get? a = some i →
    P i.properties.isPlaying i.video.isLoaded (s.sourceAt i.visual)

/-- A video that is marked is loaded. -/
abbrev Sound : Addr → EngineState → Prop :=
  HasMark fun isPlaying isLoaded source =>
    isPlaying = true → ∀ path, source = some (.video path) → isLoaded = true

/-- The instance is not marked. -/
abbrev Unmarked : Addr → EngineState → Prop := HasMark fun isPlaying _ _ => isPlaying = false

section HasMark

variable {P Q : Bool → Bool → Option VisualSource → Prop} {a : Addr} {s : EngineState}

theorem HasMark.mono (hPQ : ∀ isPlaying isLoaded source, P isPlaying isLoaded source →
    Q isPlaying isLoaded source) (hs : HasMark P a s) : HasMark Q a s :=
  fun i hi => hPQ _ _ _ (hs i hi)

theorem Unmarked.sound (hs : Unmarked a s) : Sound a s :=
  hs.mono fun _ _ _ hp hplaying => absurd (hp.symm.trans hplaying) Bool.false_ne_true

theorem HasMark.of_marks {t : EngineState} (hst : s.marks = t.marks) (hs : HasMark P a s) :
    HasMark P a t := by
  intro i hi
  obtain ⟨j, hj, hji⟩ := EngineState.exists_of_marks hst hi
  have hplaying : j.properties.isPlaying = i.properties.isPlaying := congrArg (fun m => m.1) hji
  have hloaded : j.video.isLoaded = i.video.isLoaded := congrArg (fun m => m.2.1) hji
  have hvisual : j.visual = i.visual := congrArg (fun m => m.2.2.1) hji
  have hsource : s.sourceAt i.visual = t.sourceAt i.visual :=
    congrArg (fun m => m.sourceAt i.visual) hst
  have hP := hs j hj
  rwa [hplaying, hloaded, hvisual, hsource] at hP

theorem keeps_hasMark {α : Type} {x : Prog α} (hx : KeepsMarks x) : Keeps (HasMark P a) x :=
  hx.keeps fun _ _ hst hs => hs.of_marks hst

/-- A change of the instance that keeps its visual. -/
theorem VisualInstance.update_post_hasMark {f : VisualInstance → VisualInstance}
    (hv : ∀ i, (f i).visual = i.visual)
    (hf : ∀ i source, P i.properties.isPlaying i.video.isLoaded source →
      Q (f i).properties.isPlaying (f i).video.isLoaded source) (hs : HasMark P a s) :
    (VisualInstance.update a f s).Post (fun _ => HasMark Q a) fun _ => HasMark Q a := by
  rw [VisualInstance.update, bind_run, VisualInstance.read]
  cases hi : s.instances.get? a with
  | none => trivial
  | some i =>
    intro j hj
    change (s.instances.set a (f i)).get? a = some j at hj
    rw [Heap.get?_set _ hi, if_pos rfl] at hj
    obtain rfl := Option.some.inj hj
    rw [hv]
    exact hf i _ (hs i hi)

end HasMark

namespace VisualInstance

variable (h : Host) (a : Addr)

/-- Loading a file takes the mark away. -/
theorem loadVideo_post_unmarked (s : EngineState) :
    (loadVideo h a s).Post (fun _ => Unmarked a) fun _ => Unmarked a := by
  have hset : ∀ f : VisualInstance → VisualInstance, (∀ i, (f i).visual = i.visual) →
      (∀ i, (f i).properties.isPlaying = i.properties.isPlaying) →
      Keeps (Unmarked a) (update a f) := fun f hv hf s hs =>
    update_post_hasMark hv (fun i _ hp => (hf i).trans hp) hs
  have hfirst : (update a (setIsPlaying false) s).Post (fun _ => Unmarked a) fun _ => Unmarked a :=
    update_post_hasMark (P := fun _ _ _ => True) (fun _ => rfl) (fun _ _ _ => rfl)
      fun _ _ => trivial
  refine hfirst.bind fun _ t ht => Keeps.bind (keeps_hasMark (.deref _ _)) (fun i => ?_) t ht
  refine .bind (keeps_hasMark (.deref _ _)) fun v => ?_
  cases v.source with
  | video filePath =>
    refine .ite (.bind (hset _ (fun _ => rfl) fun _ => rfl) fun _ => .ite ?_ (.throw _)) (.throw _)
    exact .bind (hset _ (fun _ => rfl) fun _ => rfl) fun _ => .pure _
  | camera => exact .pure _
  | syphon => exact .pure _

/-- A mark is set on a video that has been loaded. -/
theorem keeps_sound_playLoaded (forcePlay : Bool) : Keeps (Sound a) (playLoaded h a forcePlay) := by
  have hset : ∀ f : VisualInstance → VisualInstance, (∀ i, (f i).mark = i.mark) →
      Keeps (HasMark (fun _ isLoaded _ => isLoaded = true) a) (update a f) := fun f hf =>
    keeps_hasMark (KeepsMarks.updateInstance a hf)
  have hsound : ∀ t, HasMark (fun _ isLoaded _ => isLoaded = true) a t → Sound a t :=
    fun t ht => ht.mono fun _ _ _ hloaded _ _ _ => hloaded
  have hmark : ∀ t, HasMark (fun _ isLoaded _ => isLoaded = true) a t →
      (update a (setIsPlaying true) t).Post (fun _ => Sound a) fun _ => Sound a := fun t ht =>
    update_post_hasMark (fun _ => rfl) (fun _ _ hloaded _ _ _ => hloaded) ht
  intro s hs
  rw [playLoaded, bind_run, read]
  cases hi : s.instances.get? a with
  | none => trivial
  | some i =>
    simp only [ofOption_some, pure_run, Outcome.bind_ok]
    split_ifs with hloaded
    · have hs' : HasMark (fun _ isLoaded _ => isLoaded = true) a s := fun j hj => by
        obtain rfl := Option.some.inj (hi.symm.trans hj)
        exact hloaded
      refine (keeps_hasMark (KeepsMarks.snapsToBeat h i)).bind_post hsound
        (fun snaps t ht => ?_) hs'
      split_ifs
      all_goals
        refine Keeps.bind_post hsound ?_ (fun _ u hu => hmark u hu) ht
        exact hset _ fun _ => rfl
    · exact hs

/-- A mark is set on a video that has been loaded, or on something else than a video. -/
theorem keeps_sound_play (forcePlay : Bool) : Keeps (Sound a) (play h a forcePlay) := by
  have hset : ∀ f : VisualInstance → VisualInstance, (∀ i, (f i).mark = i.mark) →
      Keeps (Sound a) (update a f) := fun f hf => keeps_hasMark (KeepsMarks.updateInstance a hf)
  have hvideo := keeps_sound_playLoaded h a forcePlay
  have hother : ∀ s, HasMark (fun _ _ source => ∀ path, source ≠ some (.video path)) a s →
      (update a (setIsPlaying true) s).Post (fun _ => Sound a) fun _ => Sound a := fun s hs =>
    update_post_hasMark (fun _ => rfl)
      (fun _ _ hsource _ path hpath => absurd hpath (hsource path)) hs
  refine .bind (hset _ fun _ => rfl) fun _ => .bind (hset _ fun _ => rfl) fun _ => ?_
  intro s hs
  rw [bind_run, read]
  cases hi : s.instances.get? a with
  | none => trivial
  | some i =>
    simp only [ofOption_some, pure_run, Outcome.bind_ok, bind_run, Visual.read]
    cases hv : s.visualsList.find? fun v => v.addr = i.visual with
    | none => trivial
    | some v =>
      have hsource : s.sourceAt i.visual = some v.source.opened := by
        rw [EngineState.sourceAt, hv, Option.map_some]
      have hnot : (∀ path, v.source.opened ≠ .video path) →
          HasMark (fun _ _ source => ∀ path, source ≠ some (.video path)) a s := by
        intro hne j hj path hpath
        obtain rfl := Option.some.inj (hi.symm.trans hj)
        exact hne path (Option.some.inj (hsource.symm.trans hpath))
      simp only [ofOption_some, pure_run, Outcome.bind_ok]
      cases hclass : v.source with
      | video path =>
        refine Keeps.ite hvideo (fun t _ => ?_) s hs
        exact (loadVideo_post_unmarked h a t).mono (fun _ _ hu => hu.sound) (fun _ _ hu => hu.sound)
          |>.bind fun _ u hu => hvideo u hu
      | camera =>
        have hs' := hnot fun path => by
          rw [hclass]
          exact VisualSource.noConfusion
        refine (keeps_hasMark (KeepsMarks.openCamera _)).bind_post (fun t ht => ?_)
          (fun _ t ht => hother t ht) hs'
        exact ht.mono fun _ _ _ hne _ path hpath => absurd hpath (hne path)
      | syphon =>
        refine hother s (hnot fun path => ?_)
        rw [hclass]
        exact VisualSource.noConfusion

/-- Stopping takes the mark away, unless it is a video that is marked and not loaded. -/
theorem stop_post_unmarked {s : EngineState} (hs : Sound a s) :
    (stop a s).Post (fun _ => Unmarked a) fun _ => Unmarked a := by
  have hunmark : ∀ t, (update a (setIsPlaying false) t).Post (fun _ => Unmarked a)
      fun _ => Unmarked a := fun t =>
    update_post_hasMark (P := fun _ _ _ => True) (fun _ => rfl) (fun _ _ _ => rfl)
      fun _ _ => trivial
  rw [stop, bind_run, read]
  cases hi : s.instances.get? a with
  | none => trivial
  | some i =>
    simp only [ofOption_some, pure_run, Outcome.bind_ok, bind_run, Visual.read]
    cases hv : s.visualsList.find? fun v => v.addr = i.visual with
    | none => trivial
    | some v =>
      simp only [ofOption_some, pure_run, Outcome.bind_ok]
      cases hclass : v.source with
      | video path =>
        dsimp only
        split_ifs with hloaded
        · have hplayer : NoThrow (update a fun i : VisualInstance =>
              { i with video := i.video.stop }) :=
            .bind (.deref _ _) fun _ => .modify _
          exact ((hplayer s).mono (fun _ _ ht => ht) fun _ _ ht => ht.elim).bind
            fun _ t _ => hunmark t
        · intro j hj
          obtain rfl := Option.some.inj (hi.symm.trans hj)
          refine Bool.eq_false_iff.mpr fun hplaying => hloaded (hs i hi hplaying path ?_)
          rw [EngineState.sourceAt, hv, Option.map_some, hclass]
          rfl
      | camera => exact hunmark s
      | syphon => exact hunmark s

end VisualInstance

/-! ### One instance and the others -/

/-- A single instance. -/
def Region.ofInstance (a : Addr) : Region := ⟨∅, {a}⟩

/-- Everything but a single instance. -/
def Region.besides (a : Addr) : Region := ⟨Set.univ, {b | b ≠ a}⟩

/-- A program of one instance leaves everything else alone. -/
theorem agree_besides {α : Type} {h : Host} {a : Addr} {s : EngineState} {x : Prog α}
    (hx : ConfinedTo h s.placing (.ofInstance a) ⟨∅, ∅⟩ x) :
    (x s).Post (fun _ t => (Region.besides a).Agree h t s)
      fun _ t => (Region.besides a).Agree h t s := by
  have hd : (Region.besides a).Disjoint s.placing (.ofInstance a) :=
    ⟨fun _ _ hn => hn, fun b hb _ hba => hb hba⟩
  have hs : Within s.placing (.ofInstance a) s := ⟨rfl, fun _ hn => absurd hn (Set.notMem_empty _)⟩
  refine (hx.acts s hs).mono ?_ ?_
  all_goals
    rintro _ t ⟨-, f, hf, rfl⟩
    exact Region.agree_of_mem_actions hd hf rfl

/-- Among the instances `L` that lie on the layer no other one than `b` is marked, and those that
are videos are loaded when they are. -/
def OnlyMarked (L : List Addr) (n : ℕ) (b : Option Addr) (s : EngineState) : Prop :=
  ∀ a ∈ L, ∀ i, s.instances.get? a = some i → i.cell.1.toNat = n →
    Sound a s ∧ (i.properties.isPlaying = true → b = some a)

/-- On the layer no other instance than the active one is marked. -/
def MarkedAt (L : List Addr) (n : ℕ) (s : EngineState) : Prop := OnlyMarked L n (s.activeAt n) s

section OnlyMarked

variable {L : List Addr} {n : ℕ} {a : Addr} {b : Option Addr} {s t : EngineState} {h : Host}

theorem OnlyMarked.of_none (hs : OnlyMarked L n none s) (b : Option Addr) : OnlyMarked L n b s := by
  intro a ha i hi hn
  obtain ⟨hsound, hmark⟩ := hs a ha i hi hn
  exact ⟨hsound, fun hplaying => absurd (hmark hplaying) (Option.some_ne_none a).symm⟩

/-- An instance in a state that agrees with another one up to one instance has the cell it has
there. -/
theorem Region.Agree.exists_of_get? {R : Region} (hst : R.Agree h t s) {c : Addr}
    {j : VisualInstance} (hj : t.instances.get? c = some j) :
    ∃ i, s.instances.get? c = some i ∧ i.visual = j.visual ∧ i.cell = j.cell := by
  have hplacing : t.placing c = s.placing c := congrFun hst.placing c
  change (t.instances.get? c).map (fun i : VisualInstance => (i.visual, i.cell)) =
    (s.instances.get? c).map (fun i => (i.visual, i.cell)) at hplacing
  rw [hj, Option.map_some] at hplacing
  obtain ⟨i, hi, hij⟩ := Option.map_eq_some_iff.mp hplacing.symm
  exact ⟨i, hi, (Prod.mk.inj hij).1, (Prod.mk.inj hij).2⟩

/-- A change of the one instance that may be marked. -/
theorem OnlyMarked.of_agree (hs : OnlyMarked L n (some a) s) (hst : (Region.besides a).Agree h t s)
    (ha : Sound a s → Sound a t ∧ ∀ i, t.instances.get? a = some i →
      i.properties.isPlaying = true → b = some a) : OnlyMarked L n b t := by
  intro c hc j hj hn
  obtain ⟨i, hi, -, hcell⟩ := hst.exists_of_get? hj
  obtain ⟨hsound, hmark⟩ := hs c hc i hi (by rw [hcell]; exact hn)
  by_cases hca : c = a
  · subst hca
    obtain ⟨hsound', hmark'⟩ := ha hsound
    exact ⟨hsound', hmark' j hj⟩
  · have hget : t.instances.get? c = s.instances.get? c := hst.instances c hca
    obtain rfl := Option.some.inj ((hj.symm.trans hget).trans hi)
    refine ⟨fun k hk => ?_, fun hplaying => absurd (Option.some.inj (hmark hplaying)).symm hca⟩
    rw [hst.sourceAt]
    exact hsound k (hget.symm.trans hk)

theorem Region.Agree.activeAt_eq (hst : (Region.besides a).Agree h t s) (n : ℕ) :
    t.activeAt n = s.activeAt n :=
  EngineState.activeAt_congr (hst.layers n (Set.mem_univ n))

/-- Playing the active instance. -/
theorem VisualInstance.play_post_marked (hs : OnlyMarked L n (some a) s) (h : Host)
    (forcePlay : Bool) :
    (VisualInstance.play h a forcePlay s).Post
      (fun _ t => OnlyMarked L n (some a) t ∧ t.activeAt n = s.activeAt n)
      fun _ t => OnlyMarked L n (some a) t ∧ t.activeAt n = s.activeAt n := by
  have hagree := agree_besides (s := s) (VisualInstance.confined_play (h := h)
    (Region.disjoint_empty (.ofInstance a)) rfl forcePlay)
  by_cases hsound : Sound a s
  · refine (hagree.and (keeps_sound_play h a forcePlay s hsound)).mono ?_ ?_
    all_goals
      rintro _ t ⟨hst, ht⟩
      exact ⟨hs.of_agree hst fun _ => ⟨ht, fun _ _ _ => rfl⟩, hst.activeAt_eq n⟩
  · refine hagree.mono ?_ ?_
    all_goals
      intro _ t hst
      exact ⟨hs.of_agree hst fun hsound' => absurd hsound' hsound, hst.activeAt_eq n⟩

/-- Stopping the active instance. -/
theorem VisualInstance.stop_post_marked (hs : OnlyMarked L n (some a) s) :
    (VisualInstance.stop a s).Post (fun _ t => OnlyMarked L n none t)
      fun _ t => OnlyMarked L n none t := by
  have hagree := agree_besides (s := s) (VisualInstance.confined_stop (h := .plain)
    (Region.disjoint_empty (.ofInstance a)) rfl)
  by_cases hsound : Sound a s
  · refine (hagree.and (stop_post_unmarked a hsound)).mono ?_ ?_
    all_goals
      rintro _ t ⟨hst, ht⟩
      refine hs.of_agree hst fun _ => ⟨ht.sound, fun i hi hplaying => ?_⟩
      exact absurd ((ht i hi).symm.trans hplaying) Bool.false_ne_true
  · refine hagree.mono ?_ ?_
    all_goals
      intro _ t hst
      exact hs.of_agree hst fun hsound' => absurd hsound' hsound

theorem OnlyMarked.of_marks (hst : s.marks = t.marks) (hs : OnlyMarked L n b s) :
    OnlyMarked L n b t := by
  intro a ha i hi hn
  obtain ⟨j, hj, hji⟩ := EngineState.exists_of_marks hst hi
  have hplaying : j.properties.isPlaying = i.properties.isPlaying := congrArg (fun m => m.1) hji
  have hcell : j.cell = i.cell := congrArg (fun m => m.2.2.2) hji
  obtain ⟨hsound, hmark⟩ := hs a ha j hj (by rw [hcell]; exact hn)
  exact ⟨hsound.of_marks hst, fun hp => hmark (hplaying.trans hp)⟩

theorem EngineState.activeAt_of_marks (hst : s.marks = t.marks) (n : ℕ) :
    s.activeAt n = t.activeAt n := by
  have hlayers : s.layersList = t.layersList := congrArg (fun m => m.layersList) hst
  exact EngineState.activeAt_congr (by rw [hlayers])

theorem MarkedAt.of_marks (hst : s.marks = t.marks) (hs : MarkedAt L n s) : MarkedAt L n t := by
  rw [MarkedAt, ← EngineState.activeAt_of_marks hst]
  exact OnlyMarked.of_marks hst hs

/-- Changing a layer. -/
theorem Layer.update_post_marked {c : Option Addr} {f : Layer → Layer}
    (hf : ∀ layer, s.layersList[n]? = some layer → (f layer).activeInstance = c)
    (hs : OnlyMarked L n b s) :
    (Layer.update n f s).Post (fun _ t => OnlyMarked L n b t ∧ t.activeAt n = c)
      fun _ t => OnlyMarked L n b t ∧ t.activeAt n = c := by
  rw [Layer.update, bind_run, Layer.read]
  cases hl : s.layersList[n]? with
  | none => trivial
  | some layer =>
    refine ⟨hs, ?_⟩
    change ((s.layersList.modify n f)[n]?.map _).bind _ = c
    rw [List.getElem?_modify_eq, hl]
    exact hf layer hl

end OnlyMarked

/-! ### One layer -/

namespace Layer

variable {L : List Addr} {n : ℕ} {s : EngineState}

theorem stop_post_marked (hs : MarkedAt L n s) :
    (stop n s).Post (fun _ t => MarkedAt L n t) fun _ t => MarkedAt L n t := by
  rw [stop, bind_run, read]
  cases hl : s.layersList[n]? with
  | none => trivial
  | some layer =>
    have hactive := EngineState.activeAt_of_getElem? hl
    simp only [ofOption_some, pure_run, Outcome.bind_ok]
    cases ha : layer.activeInstance with
    | none => exact hs
    | some a =>
      rw [MarkedAt, hactive, ha] at hs
      refine ((VisualInstance.stop_post_marked hs).mono (fun _ _ ht => ht)
        fun _ _ ht => ht.of_none _).bind fun _ t ht => ?_
      refine (update_post_marked (c := none) (fun _ _ => rfl) ht).mono ?_ ?_
      all_goals
        rintro _ u ⟨hu, hnone⟩
        exact hu.of_none _

/-- Whether an instance is scheduled for the next beat rather than played. -/
def waits (s : EngineState) (i : VisualInstance) : Bool :=
  i.properties.beatSnap && (s.properties.metronomeOn && !s.properties.triggeringBeat)

theorem waitsForBeat_post (h : Host) (i : VisualInstance) (s : EngineState) :
    (waitsForBeat h i s).Post (fun w t => w = waits s i ∧ t.marks = s.marks) fun _ _ => False := by
  rw [waitsForBeat, waits]
  by_cases hsnap : i.properties.beatSnap = true
  · by_cases hon : s.properties.metronomeOn = true
    · simp [hsnap, hon, EngineProperties.getInstance, EngineProperties.setDefaults]
      rfl
    · simp [hsnap, hon, EngineProperties.getInstance, EngineProperties.setDefaults]
      rfl
  · simp [hsnap]

/-- The instance is the active one, and no other one is marked. -/
def Plays (L : List Addr) (n : ℕ) (a : Addr) (s : EngineState) : Prop :=
  OnlyMarked L n (some a) s ∧ s.activeAt n = some a

theorem Plays.marked {a : Addr} (hs : Plays L n a s) : MarkedAt L n s := by
  rw [MarkedAt, hs.2]
  exact hs.1

theorem Plays.of_marks {a : Addr} {t : EngineState} (hst : s.marks = t.marks) (hs : Plays L n a s) :
    Plays L n a t :=
  ⟨hs.1.of_marks hst, (EngineState.activeAt_of_marks hst n).symm.trans hs.2⟩

theorem keeps_plays_of_marks {α : Type} {x : Prog α} (hx : KeepsMarks x) (L : List Addr) (n : ℕ)
    (a : Addr) : Keeps (Plays L n a) x :=
  hx.keeps fun _ _ hst hs => hs.of_marks hst

theorem keeps_plays_play (L : List Addr) (n : ℕ) (h : Host) (a : Addr) (forcePlay : Bool) :
    Keeps (Plays L n a) (VisualInstance.play h a forcePlay) := by
  intro s hs
  refine (VisualInstance.play_post_marked hs.1 h forcePlay).mono ?_ ?_
  all_goals
    rintro _ t ⟨ht, hactive⟩
    exact ⟨ht, hactive.trans hs.2⟩

theorem setActiveVisualInstance_post_plays {a : Addr} (hs : OnlyMarked L n (some a) s) :
    (setActiveVisualInstance n a s).Post (fun _ => Plays L n a) fun _ => Plays L n a :=
  update_post_marked (fun _ _ => rfl) hs

theorem keepsMarks_retriggerIf (h : Host) (a : Addr) :
    KeepsMarks (VisualInstance.retriggerIf h a) :=
  .bind (.deref _ _) fun _ => .ite (KeepsMarks.retrigger h a) (.pure _)

theorem startInstance_post_plays (hs : OnlyMarked L n none s) (h : Host) (a : Addr) :
    (startInstance h n a s).Post (fun _ => Plays L n a) fun _ => Plays L n a := by
  have hstart : Keeps (Plays L n a) (do
      VisualInstance.play h a false
      VisualInstance.retriggerIf h a : Prog Unit) :=
    .bind (keeps_plays_play L n h a false) fun _ =>
      keeps_plays_of_marks (keepsMarks_retriggerIf h a) L n a
  exact (setActiveVisualInstance_post_plays (hs.of_none _)).bind fun _ t ht => hstart t ht

theorem startSchedulled_post_plays {b : Addr} (hs : OnlyMarked L n (some b) s) (h : Host) :
    (startSchedulled h n b s).Post (fun _ => Plays L n b) fun _ => Plays L n b := by
  have hstart : Keeps (Plays L n b) (do
      VisualInstance.play h b true
      VisualInstance.update b fun i => { i with video := i.video.setPosition 0 } :
        Prog Unit) :=
    .bind (keeps_plays_play L n h b true) fun _ =>
      keeps_plays_of_marks (KeepsMarks.firstFrame b) L n b
  exact (setActiveVisualInstance_post_plays hs).bind fun _ t ht => hstart t ht

/-- Scheduling an instance leaves the active one and the marks alone. -/
theorem schedulleInstance_post_marked (hs : MarkedAt L n s) (a : Addr) :
    (schedulleInstance n a s).Post (fun _ t => MarkedAt L n t ∧ t.activeAt n = s.activeAt n)
      fun _ t => MarkedAt L n t ∧ t.activeAt n = s.activeAt n := by
  have hactive : ∀ layer, s.layersList[n]? = some layer →
      layer.activeInstance = s.activeAt n :=
    fun layer hl => (EngineState.activeAt_of_getElem? hl).symm
  have hschedule : (schedulleInstance n a s).Post
      (fun _ t => OnlyMarked L n (s.activeAt n) t ∧ t.activeAt n = s.activeAt n)
      fun _ t => OnlyMarked L n (s.activeAt n) t ∧ t.activeAt n = s.activeAt n :=
    update_post_marked hactive hs
  refine hschedule.mono ?_ ?_
  all_goals
    rintro _ t ⟨ht, hact⟩
    refine ⟨?_, hact⟩
    rw [MarkedAt, hact]
    exact ht

/-- The marks after a layer has been told to play an instance. The instance is the active one then,
unless it waits for the next beat. -/
theorem playVisualInstance_post_marked (hs : MarkedAt L n s) (h : Host) (a : Addr) :
    (playVisualInstance h n a s).Post
      (fun _ t => MarkedAt L n t ∧
        ((∀ i, s.instances.get? a = some i → waits s i = true → s.activeAt n = some a) →
          t.activeAt n = some a))
      fun _ t => MarkedAt L n t := by
  have hplays : ∀ {x : Prog Unit} {u : EngineState},
      (x u).Post (fun _ => Plays L n a) (fun _ => Plays L n a) → (x u).Post
        (fun _ v => MarkedAt L n v ∧ ((∀ i, s.instances.get? a = some i → waits s i = true →
          s.activeAt n = some a) → v.activeAt n = some a)) fun _ v => MarkedAt L n v :=
    fun hx => hx.mono (fun _ _ hv => ⟨hv.marked, fun _ => hv.2⟩) fun _ _ hv => hv.marked
  rcases VisualInstance.read_cases a s with hread | ⟨i, hi, hread⟩
  · rw [playVisualInstance, bind_run, hread]
    trivial
  rw [playVisualInstance, bind_run, hread, Outcome.bind_ok, bind_run]
  have hwaits := waitsForBeat_post h i s
  refine (hwaits.mono (fun _ _ ht => ht) fun _ _ hf => hf.elim).bind fun w t hwt => ?_
  obtain ⟨hw, ht⟩ := hwt
  have hmarked : MarkedAt L n t := hs.of_marks ht.symm
  split_ifs with hwait
  · refine (schedulleInstance_post_marked hmarked a).mono ?_ fun _ _ hu => hu.1
    rintro _ u ⟨hu, hact⟩
    refine ⟨hu, fun hguard => ?_⟩
    rw [hact, EngineState.activeAt_of_marks ht]
    exact hguard i hi (hw ▸ hwait)
  rw [bind_run, read]
  cases hl : t.layersList[n]? with
  | none => trivial
  | some layer =>
    have hactive := EngineState.activeAt_of_getElem? hl
    simp only [ofOption_some, pure_run, Outcome.bind_ok]
    rw [MarkedAt, hactive] at hmarked
    split_ifs with hact
    · rw [hact] at hmarked hactive
      exact hplays (keeps_plays_of_marks (keepsMarks_retriggerIf h a) L n a t ⟨hmarked, hactive⟩)
    · cases hb : layer.activeInstance with
      | none =>
        rw [hb] at hmarked
        exact hplays (startInstance_post_plays hmarked h a)
      | some b =>
        rw [hb] at hmarked
        refine ((VisualInstance.stop_post_marked hmarked).mono (fun _ _ hu => hu)
          fun _ _ hu => hu.of_none _).bind fun _ u hu => ?_
        exact hplays (startInstance_post_plays hu h a)

/-- The layer, when it has both an active and a scheduled instance, stops the active one before it
activates the other, if the active one is marked. -/
def StopsActive (n : ℕ) (s : EngineState) : Prop :=
  ∀ layer, s.layersList[n]? = some layer → ∀ b, layer.schedulledInstance = some b →
    ∀ a, layer.activeInstance = some a → a ≠ b → ∀ i, s.instances.get? a = some i →
      i.properties.isPlaying = true → i.video.isPlaying = true

/-- The marks after the scheduled instance has been activated. -/
theorem activateSchedulledInstance_post_marked (hs : MarkedAt L n s) (hstops : StopsActive n s)
    (h : Host) :
    (activateSchedulledInstance h n s).Post (fun _ t => MarkedAt L n t)
      fun _ t => MarkedAt L n t := by
  rw [activateSchedulledInstance, bind_run, read]
  cases hl : s.layersList[n]? with
  | none => trivial
  | some layer =>
    have hactive := EngineState.activeAt_of_getElem? hl
    simp only [ofOption_some, pure_run, Outcome.bind_ok]
    cases hb : layer.schedulledInstance with
    | none => exact hs
    | some b =>
      have hrest : ∀ u, OnlyMarked L n (some b) u → (startSchedulled h n b u).Post
          (fun _ t => MarkedAt L n t) fun _ t => MarkedAt L n t := fun u hu =>
        (startSchedulled_post_plays hu h).mono (fun _ _ hv => hv.marked) fun _ _ hv => hv.marked
      rw [MarkedAt, hactive] at hs
      cases ha : layer.activeInstance with
      | none =>
        rw [ha] at hs
        exact hrest s (hs.of_none _)
      | some a =>
        rw [ha] at hs
        dsimp only
        rcases VisualInstance.read_cases a s with hread | ⟨i, hi, hread⟩
        · rw [bind_run, hread]
          trivial
        rw [bind_run, hread, Outcome.bind_ok]
        split_ifs with hplaying
        · refine ((VisualInstance.stop_post_marked hs).mono (fun _ _ hu => hu)
            fun _ _ hu => hu.of_none _).bind fun _ u hu => hrest u (hu.of_none _)
        · -- the active instance is not stopped: it is the scheduled one, or bears no mark
          refine hrest s fun c hc j hj hn => ?_
          obtain ⟨hsound, hmark⟩ := hs c hc j hj hn
          refine ⟨hsound, fun hp => ?_⟩
          obtain rfl := Option.some.inj (hmark hp)
          by_contra hne
          refine hplaying (hstops layer hl b hb a ha (fun heq => hne (heq ▸ rfl)) i hi ?_)
          rwa [← Option.some.inj (hj.symm.trans hi)]

end Layer

/-- The marks after a trigger has been handled on one layer. -/
theorem Engine.triggerLayer_post_marked {L : List Addr} {n : ℕ} {s : EngineState}
    (hs : MarkedAt L n s) (hstops : Layer.StopsActive n s) (h : Host) :
    (Engine.triggerLayer h n s).Post (fun _ t => MarkedAt L n t) fun _ t => MarkedAt L n t := by
  rw [Engine.triggerLayer, bind_run, Layer.read]
  cases hl : s.layersList[n]? with
  | none => trivial
  | some layer =>
    have hactive := EngineState.activeAt_of_getElem? hl
    simp only [ofOption_some, pure_run, Outcome.bind_ok]
    cases layer.schedulledInstance with
    | some _ => exact Layer.activateSchedulledInstance_post_marked hs hstops h
    | none =>
    cases ha : layer.activeInstance with
    | none => exact hs
    | some a =>
      rw [ha] at hactive
      have hplays : Layer.Plays L n a s := ⟨by rw [← hactive]; exact hs, hactive⟩
      have hplay := Layer.keeps_plays_play L n h a true
      have htrigger : Keeps (Layer.Plays L n a) (do
          let i ← VisualInstance.read a
          if i.properties.beatSnap && i.properties.isTriggered then
            if i.video.isPlaying then
              VisualInstance.update a fun i => { i with video := i.video.setPosition 0 }
            VisualInstance.play h a true : Prog Unit) := by
        refine .bind (Layer.keeps_plays_of_marks (.deref _ _) L n a) fun i => .ite (.ite ?_ hplay)
          (.pure _)
        exact .bind (Layer.keeps_plays_of_marks (KeepsMarks.firstFrame a) L n a) fun _ => hplay
      exact (htrigger s hplays).mono (fun _ _ ht => ht.marked) fun _ _ ht => ht.marked

end ArbutusEngine
