import ArbutusEngine.Playback
import ArbutusEngine.Regions
import ArbutusEngine.SceneWalk
import ArbutusEngine.VisualsRoundTrip

/-!
# Idle videos

Closing idle videos closes those of the current scene that do not play and whose two dates are more
than a minute old, and does nothing else. The age of a date is a difference of unsigned numbers of 64
bits, so that a date that lies in the future is very old. What has been opened or played is therefore
safe for a minute, however the set is played in the meantime, as long as the clock does not run
backwards.

The loop over the instances is skipped when their number is a multiple of `2 ^ 32`, which is taken
for zero.

## Main definitions

* `EngineState.Idle`: the instances whose video is closed, by the age of their dates, and
  `VisualInstance.unloaded`, what becomes of them.

## Main results

* `cleanup_closes_idle`: what `Engine::cleanup` does.
* `open_for_a_minute`: videos that are not closed.
-/

open Exec

namespace ArbutusEngine

namespace VisualInstance

/-- An instance whose video has been closed. -/
def unloaded (i : VisualInstance) : VisualInstance :=
  { i with
    properties := { i.properties with isPlaying := false }
    video := if i.video.isLoaded then .new else i.video }

end VisualInstance

namespace EngineState

/-- The condition on which the video of an instance is closed, as it is computed. -/
def idle (s : EngineState) (h : Host) (i : VisualInstance) : Bool :=
  i.checkCloseCondition h && (s.visualsList.find? fun v => v.addr = i.visual).any Visual.isVideo

/-- The instance shows a video that does not play, and the dates of its opening and of its last play
lie more than a minute back, in milliseconds modulo `2 ^ 64`. -/
def Idle (s : EngineState) (now : UInt64) (i : VisualInstance) : Prop :=
  i.video.isPlaying = false ∧
    60000 < ((now.toNat : ℤ) - i.properties.openedTimestamp) % 2 ^ 64 ∧
    60000 < ((now.toNat : ℤ) - i.properties.lastPlayedTimestamp) % 2 ^ 64 ∧
    (s.visualsList.find? fun v => v.addr = i.visual).any Visual.isVideo = true

instance (s : EngineState) (now : UInt64) (i : VisualInstance) : Decidable (s.Idle now i) :=
  inferInstanceAs (Decidable (_ ∧ _ ∧ _ ∧ _))

end EngineState

/-- A difference of unsigned numbers. -/
theorem lt_sub_ofNat_iff {now : UInt64} {stamp : ℕ} :
    now - UInt64.ofNat stamp > 1 * 60000 ↔ 60000 < ((now.toNat : ℤ) - stamp) % 2 ^ 64 := by
  have hnow := now.toNat_lt
  rw [gt_iff_lt, UInt64.lt_iff_toNat_lt, UInt64.toNat_sub, UInt64.toNat_ofNat']
  change 60000 < _ ↔ _
  omega

theorem EngineState.idle_eq_true_iff {s : EngineState} {h : Host} {i : VisualInstance} :
    s.idle h i = true ↔ s.Idle h.ofGetElapsedTimeMillis i := by
  rw [idle, Idle, VisualInstance.checkCloseCondition, VisualInstance.closeMinutesSinceOpen,
    VisualInstance.closeMinutesSinceLastPlay]
  cases i.video.isPlaying
  · simp only [Bool.false_eq_true, ↓reduceIte, Bool.and_eq_true, decide_eq_true_eq, true_and,
      lt_sub_ofNat_iff, and_assoc]
  · simp

variable {s : EngineState} {a : Addr} {i : VisualInstance} {v : Visual}

/-! ### Closing videos -/

namespace VisualInstance

theorem exists_unloadVideo (hi : s.instances.get? a = some i) :
    ∃ r heap, unloadVideo a s = .ok r { s with instances := heap } ∧
      ∀ b, heap.get? b = if b = a then some i.unloaded else s.instances.get? b := by
  let j := setIsPlaying false i
  let s₁ : EngineState := { s with instances := s.instances.set a j }
  have hset : ∀ b, s₁.instances.get? b = if b = a then some j else s.instances.get? b :=
    Heap.get?_set _ hi j
  have hj : s₁.instances.get? a = some j := (hset a).trans (if_pos rfl)
  have hread : read a s₁ = .ok j s₁ := by
    rw [read, hj]
    rfl
  rw [unloadVideo, bind_run, update_eq hi, Outcome.bind_ok, bind_run, hread, Outcome.bind_ok]
  cases hloaded : i.video.isLoaded with
  | true =>
    have hif : j.video.isLoaded = true := hloaded
    have hunloaded : i.unloaded = { j with video := .new } := by
      rw [unloaded, if_pos hloaded]
      rfl
    rw [if_pos hif, bind_run, update_eq hj]
    refine ⟨true, _, rfl, fun b => ?_⟩
    rw [Heap.get?_set _ hj, hset, hunloaded]
    split_ifs
    · rfl
    · rfl
  | false =>
    have hne : ¬i.video.isLoaded = true := by
      rw [hloaded]
      exact Bool.false_ne_true
    have hif : ¬j.video.isLoaded = true := hne
    have hunloaded : i.unloaded = j := by
      rw [unloaded, if_neg hne]
      rfl
    rw [if_neg hif, hunloaded]
    exact ⟨false, _, rfl, hset⟩

theorem exists_unload (hi : s.instances.get? a = some i)
    (hv : s.visualsList.find? (fun v => v.addr = i.visual) = some v) :
    ∃ heap, unload a s = .ok () { s with instances := heap } ∧ ∀ b, heap.get? b =
      if b = a ∧ v.isVideo = true then some i.unloaded else s.instances.get? b := by
  have hread : read a s = .ok i s := by
    rw [read, hi]
    rfl
  have hvisual : Visual.read i.visual s = .ok v s := by
    rw [Visual.read, hv]
    rfl
  rw [unload, bind_run, hread, Outcome.bind_ok, bind_run, hvisual, Outcome.bind_ok, Visual.isVideo]
  cases v.source with
  | video path =>
    obtain ⟨r, heap, hrun, hheap⟩ := exists_unloadVideo hi
    refine ⟨heap, ?_, fun b => (hheap b).trans (if_congr (and_iff_left rfl).symm rfl rfl)⟩
    dsimp only
    rw [bind_run, hrun]
    rfl
  | camera => exact ⟨s.instances, rfl, fun b => (if_neg fun h => Bool.false_ne_true h.2).symm⟩
  | syphon => exact ⟨s.instances, rfl, fun b => (if_neg fun h => Bool.false_ne_true h.2).symm⟩

/-- One turn of the loop of `VisualInstances::cleanup`. -/
def close (h : Host) (a : Addr) : Prog Unit := do
  let i ← read a
  if i.checkCloseCondition h then unload a

theorem exists_close {visual : Addr} (hs : s.Linked a visual) (h : Host) :
    ∃ heap, close h a s = .ok () { s with instances := heap } ∧ ∀ b, heap.get? b =
      (s.instances.get? b).map fun i => if b = a ∧ s.idle h i = true then i.unloaded else i := by
  obtain ⟨⟨i, hi, rfl⟩, w, hw, hwi⟩ := hs
  obtain ⟨v, hv⟩ : ∃ v, s.visualsList.find? (fun v => v.addr = i.visual) = some v :=
    Option.isSome_iff_exists.mp (List.find?_isSome.mpr ⟨w, hw, decide_eq_true hwi⟩)
  have hread : read a s = .ok i s := by
    rw [read, hi]
    rfl
  have hidle : s.idle h i = (i.checkCloseCondition h && v.isVideo) := by
    rw [EngineState.idle, hv, Option.any_some]
  rw [close, bind_run, hread, Outcome.bind_ok]
  split_ifs with hcheck
  · rw [hcheck, Bool.true_and] at hidle
    obtain ⟨heap, hrun, hheap⟩ := exists_unload hi hv
    refine ⟨heap, hrun, fun b => ?_⟩
    rw [hheap]
    by_cases hb : b = a
    · subst hb
      rw [hi, Option.map_some, hidle]
      split_ifs
      · rfl
      · rfl
    · simp only [hb, false_and, ↓reduceIte, Option.map_id']
  · rw [Bool.eq_false_of_not_eq_true hcheck, Bool.false_and] at hidle
    refine ⟨s.instances, rfl, fun b => ?_⟩
    by_cases hb : b = a
    · subst hb
      rw [hi, Option.map_some, hidle, if_neg fun h => Bool.false_ne_true h.2]
    · simp only [hb, false_and, ↓reduceIte, Option.map_id']

end VisualInstance

/-- The loop visits every instance once, and what it does to one does not bear on another. -/
theorem VisualInstances.exists_closeAll {list : List Addr} (hlist : list.Nodup)
    (hs : ∀ a ∈ list, ∃ v, s.Linked a v) (h : Host) :
    ∃ heap, forEach list (VisualInstance.close h) s = .ok () { s with instances := heap } ∧
      ∀ b, heap.get? b = (s.instances.get? b).map fun i =>
        if b ∈ list ∧ s.idle h i = true then i.unloaded else i := by
  induction list generalizing s with
  | nil =>
    refine ⟨s.instances, rfl, fun b => ?_⟩
    simp only [List.not_mem_nil, false_and, ↓reduceIte, Option.map_id']
  | cons a rest ih =>
    obtain ⟨ha, hrest⟩ := List.nodup_cons.mp hlist
    obtain ⟨v, hv⟩ := hs a List.mem_cons_self
    obtain ⟨heap₁, hrun₁, hheap₁⟩ := VisualInstance.exists_close hv h
    have hother : ∀ b, b ≠ a → heap₁.get? b = s.instances.get? b := fun b hb => by
      rw [hheap₁]
      simp only [hb, false_and, ↓reduceIte, Option.map_id']
    obtain ⟨heap, hrun, hheap⟩ := ih (s := { s with instances := heap₁ }) hrest fun b hb => by
      obtain ⟨w, ⟨i, hi, hvisual⟩, hw⟩ := hs b (List.mem_cons_of_mem a hb)
      exact ⟨w, ⟨i, (hother b (ne_of_mem_of_not_mem hb ha)).trans hi, hvisual⟩, hw⟩
    refine ⟨heap, ?_, fun b => ?_⟩
    · rw [forEach_cons, bind_run, hrun₁, Outcome.bind_ok, hrun]
    · rw [hheap]
      change (heap₁.get? b).map (fun i => if b ∈ rest ∧ s.idle h i = true then i.unloaded else i) = _
      by_cases hb : b = a
      · subst hb
        rw [hheap₁, Option.map_map]
        congr 1
        funext i
        simp [ha]
      · rw [hother b hb]
        simp [hb]

/-- Closing idle videos closes the videos of the current scene that do not play, and that have been
opened and last played more than a minute ago modulo `2 ^ 64` milliseconds, and does nothing else. -/
theorem cleanup_closes_idle (hs : s.Safe)
    (hfit : ∀ scene ∈ s.scenesList, scene.visualInstances.length < 2 ^ 32) (h : Host) :
    ∃ heap, Engine.cleanup h s = .ok () { s with instances := heap } ∧
      ∀ b, heap.get? b = (s.instances.get? b).map fun i =>
        if b ∈ s.currentInstances ∧ s.Idle h.ofGetElapsedTimeMillis i then i.unloaded else i := by
  obtain ⟨scene, hscene, hcurrent, -⟩ := hs.exists_current
  have hfind := hs.wellFormed.find?_scene hscene
  have hinstances : s.currentInstances = scene.visualInstances := by
    rw [EngineState.currentInstances, hcurrent]
    dsimp only
    rw [hfind]
    rfl
  obtain ⟨heap, hrun, hheap⟩ := VisualInstances.exists_closeAll
    (hs.wellFormed.instances_nodup scene hscene)
    (fun a ha => hs.linked (EngineState.mem_placed.mpr ⟨scene, hscene, ha⟩)) h
  have hstart : Engine.cleanup h s = VisualInstances.cleanup h scene.visualInstances s := by
    rw [Engine.cleanup, Set.cleanup, bind_run, gets_run, Outcome.bind_ok, hcurrent]
    dsimp only
    rw [Scene.cleanup, bind_run, Scene.read, hfind]
    rfl
  refine ⟨heap, ?_, fun b => ?_⟩
  swap
  · rw [hheap, hinstances]
    simp only [EngineState.idle_eq_true_iff]
  rw [hstart, VisualInstances.cleanup]
  by_cases hcount : VisualInstances.count scene.visualInstances = 0
  · -- the number of instances is not taken for zero, so that there are none
    have hzero : scene.visualInstances.length = 0 := by
      have hnat := congrArg UInt32.toNat hcount
      rwa [VisualInstances.count, UInt32.toNat_ofNat_of_lt' (hfit scene hscene)] at hnat
    rw [if_pos hcount, ← hrun, List.eq_nil_of_length_eq_zero hzero]
    rfl
  · rw [if_neg hcount]
    exact hrun

/-- A video that has been opened at the beginning is idle two minutes later. -/
theorem cleanup_closes_idle_opened : ∃ s h a i heap, EngineState.Safe s ∧
    s.instances.get? a = some i ∧ i.video.isLoaded = true ∧
      Engine.cleanup h s = .ok () { s with instances := heap } ∧
        heap.get? a = some i.unloaded ∧ i.unloaded.video.isLoaded = false := by
  let h : Host := { Host.plain with ofGetElapsedTimeMillis := 120000 }
  obtain ⟨s, -, hs, hfit, a, ha, hcurrent, hidle⟩ := exists_safe 2
    [(.plain, .command (.addVideo "a.mov")), (.plain, .command (.addVisualToScene 0 1 0)),
      (.plain, .command (.setCurrentScene 0))]
    (P := fun s => (∀ scene ∈ s.scenesList, scene.visualInstances.length < 2 ^ 32) ∧
      ∃ a ∈ s.placed, a ∈ s.currentInstances ∧ (s.instances.get? a).any fun i =>
        i.video.isLoaded && decide (s.Idle h.ofGetElapsedTimeMillis i) &&
          !i.unloaded.video.isLoaded) (by decide)
    (by decide +kernel)
  obtain ⟨heap, hrun, hheap⟩ := cleanup_closes_idle hs hfit h
  obtain ⟨i, hi, hall⟩ := (Option.any_eq_true _ _).mp hidle
  simp only [Bool.and_eq_true, decide_eq_true_eq, Bool.not_eq_true'] at hall
  obtain ⟨⟨hloaded, hidle⟩, hclosed⟩ := hall
  refine ⟨s, h, a, i, heap, hs, hi, hloaded, hrun, ?_, hclosed⟩
  rw [hheap, hi, Option.map_some, if_pos ⟨hcurrent, hidle⟩]

/-! ### Videos that are not closed -/

/-- The video of the instance is open, and it was opened or played between the two times. -/
def EngineState.OpenSince (a : Addr) (first last : ℕ) (s : EngineState) : Prop :=
  ∃ i, s.instances.get? a = some i ∧ i.video.isLoaded = true ∧
    (first ≤ i.properties.openedTimestamp ∧ i.properties.openedTimestamp ≤ last ∨
      first ≤ i.properties.lastPlayedTimestamp ∧ i.properties.lastPlayedTimestamp ≤ last)

namespace EngineState.OpenSince

variable {h : Host} {first last : ℕ}

theorem mono {last' : ℕ} (hs : s.OpenSince a first last) (hle : last ≤ last') :
    s.OpenSince a first last' := by
  obtain ⟨i, hi, hloaded, hdates⟩ := hs
  exact ⟨i, hi, hloaded, hdates.imp (fun h => ⟨h.1, h.2.trans hle⟩) fun h => ⟨h.1, h.2.trans hle⟩⟩

/-- A change of another instance, or one that playing can make. -/
theorem keeps_update {b : Addr} {g : VisualInstance → VisualInstance} (hfirst : first ≤ h.now)
    (hg : b = a → PlaybackWrite h False g) :
    Keeps (fun s => s.OpenSince a first h.now) (VisualInstance.update b g) := by
  rintro s ⟨i, hi, hloaded, hdates⟩
  cases hj : s.instances.get? b with
  | none => simp [VisualInstance.update, VisualInstance.read, hj]
  | some j =>
    rw [VisualInstance.update_eq hj, Outcome.post_ok]
    by_cases hb : a = b
    · subst hb
      obtain rfl := Option.some.inj (hi.symm.trans hj)
      have hwrite := hg rfl
      refine ⟨g i, (Heap.get?_set _ hj _ a).trans (if_pos rfl), ?_, ?_⟩
      · exact (hwrite.isLoaded.resolve_left id i).trans hloaded
      · refine hdates.imp (fun hdate => ?_) fun hdate => ?_
        · rcases hwrite.opened i with hdated | hdated
          · rwa [hdated]
          · rw [hdated]
            exact ⟨hfirst, le_rfl⟩
        · rcases hwrite.lastPlayed i with hdated | hdated
          · rwa [hdated]
          · rw [hdated]
            exact ⟨hfirst, le_rfl⟩
    · exact ⟨i, (Heap.get?_set _ hj _ a).trans ((if_neg hb).trans hi), hloaded, hdates⟩

/-- What leaves the instance alone. -/
theorem keeps_of_fixes {α : Type} {x : Prog α}
    (hx : Fixes (fun s : EngineState => s.instances.get? a) x) :
    Keeps (fun s => s.OpenSince a first last) x :=
  hx.keeps fun _ _ heq ⟨i, hi, hrest⟩ => ⟨i, heq.symm.trans hi, hrest⟩

/-- Playing closes no video. -/
theorem keeps_performs (hfirst : first ≤ h.now) {α : Type} {x : Prog α} (hx : Performs h False x) :
    Keeps (fun s => s.OpenSince a first h.now) x := by
  refine hx.keeps fun y hy => ?_
  cases hy with
  | write b hg => exact keeps_update hfirst fun _ => hg
  | load _ b =>
    rintro s ⟨i, hi, hloaded, hdates⟩
    by_cases hb : a = b
    · subst hb
      rw [VisualInstance.loadIfClosed, bind_run, VisualInstance.read, hi]
      simp only [ofOption_some, pure_run, Outcome.bind_ok, hloaded, ↓reduceIte]
      exact ⟨i, hi, hloaded, hdates⟩
    · have hother : Fixes (fun s : EngineState => s.instances.get? a)
          (VisualInstance.loadIfClosed h b) :=
        .bind (.deref _ _) fun _ => .ite (.pure _)
          (.bind (VisualInstance.fixes_elsewhere_loadVideo hb h) fun _ => .pure _)
      exact keeps_of_fixes hother s ⟨i, hi, hloaded, hdates⟩
  | layer n f => exact keeps_of_fixes (.bind (.deref _ _) fun _ => .modify fun _ => rfl)
  | setting => exact keeps_of_fixes (.modify fun _ => rfl)
  | camera => exact keeps_of_fixes (.modify fun _ => rfl)
  | buffer => exact keeps_of_fixes (.modify fun _ => rfl)

/-- An instance that is not closed. -/
theorem checkCloseCondition_eq (hs : s.OpenSince a first h.now) (hlast : h.now ≤ first + 60000)
    {i : VisualInstance} (hi : s.instances.get? a = some i) : i.checkCloseCondition h = false := by
  obtain ⟨j, hj, -, hdates⟩ := hs
  obtain rfl := Option.some.inj (hi.symm.trans hj)
  -- the difference of the times is one of natural numbers
  have hdate : ∀ n, first ≤ n ∧ n ≤ h.now →
      ¬h.ofGetElapsedTimeMillis - UInt64.ofNat n > 1 * 60000 := by
    rintro n ⟨hle, hle'⟩
    have hlt : n < 2 ^ 64 := hle'.trans_lt h.ofGetElapsedTimeMillis.toNat_lt
    have hnat : (UInt64.ofNat n).toNat = n := UInt64.toNat_ofNat_of_lt' hlt
    rw [gt_iff_lt, UInt64.lt_iff_toNat_lt, UInt64.toNat_sub_of_le _ _ (by
      rw [UInt64.le_iff_toNat_le, hnat]
      exact hle'), hnat, not_lt]
    change h.now - n ≤ 60000
    omega
  rw [VisualInstance.checkCloseCondition]
  split_ifs
  · rfl
  · dsimp only
    rw [Bool.and_eq_false_iff, decide_eq_false_iff_not, decide_eq_false_iff_not]
    exact hdates.imp (hdate _) (hdate _)

/-- Closing idle videos passes over the instance. -/
theorem keeps_cleanup (hlast : h.now ≤ first + 60000) :
    Keeps (fun s => s.OpenSince a first h.now) (Engine.cleanup h) := by
  have hclose : ∀ b, Keeps (fun s => s.OpenSince a first h.now) (VisualInstance.close h b) := by
    intro b s hs
    by_cases hb : a = b
    · subst hb
      obtain ⟨i, hi, -⟩ := id hs
      rw [VisualInstance.close, bind_run, VisualInstance.read, hi]
      simp only [ofOption_some, pure_run, Outcome.bind_ok, hs.checkCloseCondition_eq hlast hi,
        Bool.false_eq_true, ↓reduceIte]
      exact hs
    · have hother : ∀ g, Fixes (fun s : EngineState => s.instances.get? a)
          (VisualInstance.update b g) := VisualInstance.fixes_elsewhere_update hb
      have hunload : Fixes (fun s : EngineState => s.instances.get? a) (VisualInstance.unload b) := by
        refine .bind (.deref _ _) fun i => .bind (.deref _ _) fun v => ?_
        cases v.source with
        | video path =>
          exact .bind (.bind (hother _) fun _ => .bind (.deref _ _) fun _ =>
            .ite (.bind (hother _) fun _ => .pure _) (.pure _)) fun _ => .pure _
        | camera => exact .pure _
        | syphon => exact .pure _
      exact keeps_of_fixes (.bind (.deref _ _) fun _ => .ite hunload (.pure _)) s hs
  refine .bind (.gets _) fun currentScene => ?_
  cases currentScene with
  | none => exact .pure _
  | some b =>
    exact .bind (fun s => Keeps.ofOption _ _ s) fun scene =>
      .ite (.pure _) (.forEach fun b _ => hclose b)

end EngineState.OpenSince

/-- The event plays, stops, draws or controls, or closes idle videos. -/
def Event.EditsNothing : Event → Prop
  | cleanup => True
  | e => e.IsPlayback

instance (e : Event) : Decidable e.EditsNothing := by
  unfold Event.EditsNothing
  split <;> infer_instance

/-- A video that has been opened or played is open for a minute from then on: neither playing nor
closing idle videos closes it, in any order. -/
theorem open_for_a_minute {t : EngineState} {cs : List Happening} {time : ℕ}
    (hopen : s.OpenSince a time time) (hclock : cs.Pairwise fun e e' => e.1.now ≤ e'.1.now)
    (hminute : ∀ e ∈ cs, time ≤ e.1.now ∧ e.1.now ≤ time + 60000)
    (h : RunsTo Happening.run (fun e _ => e.2.EditsNothing) s cs t) :
    ∃ i, t.instances.get? a = some i ∧ i.video.isLoaded = true := by
  have hrun : ∀ last, time ≤ last → (∀ e ∈ cs, e.1.now ≤ last) → t.OpenSince a time last := by
    induction h with
    | nil => exact fun last hle _ => hopen.mono hle
    | @snoc cs t u e _ he hu ih =>
      obtain ⟨hclock, -, hbefore⟩ := List.pairwise_append.mp hclock
      obtain ⟨hminute, hlast⟩ := List.forall_mem_append.mp hminute
      obtain ⟨hfirst, hlast⟩ := hlast e List.mem_cons_self
      -- the dates of the instance are not later than the time of the event
      have ht := ih hclock hminute e.1.now hfirst fun e' he' => hbefore e' he' e List.mem_cons_self
      have hkeeps : Keeps (fun s => s.OpenSince a time e.1.now) e.run := by
        obtain ⟨h, e⟩ := e
        cases e with
        | cleanup => exact EngineState.OpenSince.keeps_cleanup hlast
        | _ => exact EngineState.OpenSince.keeps_performs hfirst (Event.performs_run he)
      refine fun last _ hall => ((hkeeps t ht).of_final? hu).mono ?_
      exact hall e (List.mem_append_right cs List.mem_cons_self)
  obtain ⟨i, hi, hloaded, -⟩ := hrun (time + 60000) (Nat.le_add_right _ _) fun e he => (hminute e he).2
  exact ⟨i, hi, hloaded⟩

/-- A video is opened and stopped, and passed over half a minute later. -/
theorem open_for_a_minute_stopped : ∃ s a t i cs, EngineState.Safe s ∧
    RunsTo Happening.run (fun e _ => e.2.EditsNothing) s cs t ∧ cs.length = 2 ∧
      t.instances.get? a = some i ∧ i.video.isLoaded = true := by
  let h : Host := { Host.plain with ofGetElapsedTimeMillis := 130000 }
  let h' : Host := { Host.plain with ofGetElapsedTimeMillis := 160000 }
  let cs : List Happening := [(h, .command (.stop (.obj []))), (h', .cleanup)]
  obtain ⟨s, -, hs, a, -, hopen, hrun⟩ := exists_safe 2
    [(.plain, .command (.addVideo "a.mov")), (.plain, .command (.addVisualToScene 0 1 0)),
      (h, .setActiveVisualInstance 1 0)]
    (P := fun s => ∃ a ∈ s.placed, ((s.instances.get? a).any fun i =>
        i.video.isLoaded && i.properties.openedTimestamp == 130000) ∧
      (runAll Happening.run (fun e _ => e.2.EditsNothing) cs s).isSome) (by decide)
    (by decide +kernel)
  obtain ⟨i, hi, hall⟩ := (Option.any_eq_true _ _).mp hopen
  rw [Bool.and_eq_true, beq_iff_eq] at hall
  obtain ⟨t, ht⟩ := Option.isSome_iff_exists.mp hrun
  have hrunsTo : RunsTo Happening.run (fun e _ => e.2.EditsNothing) s cs t := RunsTo.of_runAll .nil ht
  have hsince : s.OpenSince a 130000 130000 := ⟨i, hi, hall.1, .inl ⟨hall.2.ge, hall.2.le⟩⟩
  obtain ⟨j, hj, hloaded⟩ := open_for_a_minute hsince (by decide) (by decide) hrunsTo
  exact ⟨s, a, t, j, cs, hs, hrunsTo, rfl, hj, hloaded⟩

end ArbutusEngine
