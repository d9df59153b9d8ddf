import ArbutusEngine.SafeSessions

/-!
# Moving between scenes

`Set::gotoPreviousScene`, `Set::gotoNextScene` and `Set::setCurrentScene` walk on the positions of
the scenes, and stay where they are at both ends. Whenever a scene is entered its videos are loaded
again, also when it is the current one already. A video that a layer plays is stopped by that, and
the layer still holds it; the instances of the other scenes go on.

Loading throws when a file cannot be read. The scene is the current one by then.

## Main definitions

* `SceneMove`, `SceneMove.run`: the moves, and `SceneMove.target`, the position that a move enters.
* `SceneMove.walk`, `SceneMove.visited`: where a sequence of moves ends, and what it enters.
* `EngineState.Reopened`, `EngineState.Moved`.

## Main results

* `SceneMove.final?_run`: one move.
* `scene_walk`: every sequence of moves.
-/

open Exec

namespace ArbutusEngine

/-! ### What a move leaves alone -/

/-- The files of the videos exist and can be read. -/
def Host.Serves (h : Host) (visuals : List Visual) : Prop :=
  ∀ v ∈ visuals, ∀ path, v.source = .video path → h.opens path = true ∧ h.load path = true

namespace EngineState

/-- The instance is not marked as playing, and the player of a video stands at its beginning. -/
def Reopened (s : EngineState) (a : Addr) : Prop :=
  ∃ i, s.instances.get? a = some i ∧ i.properties.isPlaying = false ∧
    ∀ v path, s.visualsList.find? (fun v => v.addr = i.visual) = some v → v.source = .video path →
      i.video = { VideoPlayer.new with isLoaded := true }

/-- The instances listed by the scenes at the positions. -/
def listedAt (s : EngineState) (ks : List ℕ) (a : Addr) : Prop :=
  ∃ k ∈ ks, ∃ scene, s.scenesList[k]? = some scene ∧ a ∈ scene.visualInstances

/-- The scenes at the positions have been entered, and their instances opened if `P` holds. -/
structure Moved (P : Prop) (ks : List ℕ) (s t : EngineState) : Prop where
  scenes : t.scenesList = s.scenesList
  layers : t.layersList = s.layersList
  visuals : t.visualsList = s.visualsList
  elsewhere : ∀ a, ¬ s.listedAt ks a → t.instances.get? a = s.instances.get? a
  reopened : P → ∀ a, s.listedAt ks a → t.Reopened a

theorem listedAt_append {s : EngineState} {ks ls : List ℕ} {a : Addr} :
    s.listedAt (ks ++ ls) a ↔ s.listedAt ks a ∨ s.listedAt ls a := by
  simp only [listedAt, List.mem_append, or_and_right, exists_or]

namespace Moved

variable {P : Prop} {ks ls : List ℕ} {s t u : EngineState}

theorem refl (P : Prop) (s : EngineState) : s.Moved P [] s where
  scenes := rfl
  layers := rfl
  visuals := rfl
  elsewhere _ _ := rfl
  reopened := by
    rintro - a ⟨k, hk, -⟩
    exact absurd hk List.not_mem_nil

theorem listedAt (h : s.Moved P ks t) {a : Addr} : t.listedAt ls a ↔ s.listedAt ls a := by
  rw [EngineState.listedAt, EngineState.listedAt, h.scenes]

theorem mono {Q : Prop} (h : s.Moved P ks t) (hQ : Q → P) : s.Moved Q ks t :=
  { h with reopened := fun hq => h.reopened (hQ hq) }

/-- What a later move does not enter stays open. -/
theorem trans (hst : s.Moved P ks t) (htu : t.Moved P ls u) : s.Moved P (ks ++ ls) u where
  scenes := htu.scenes.trans hst.scenes
  layers := htu.layers.trans hst.layers
  visuals := htu.visuals.trans hst.visuals
  elsewhere a ha := by
    rw [listedAt_append, not_or] at ha
    rw [htu.elsewhere a fun h => ha.2 (hst.listedAt.mp h), hst.elsewhere a ha.1]
  reopened hP a ha := by
    by_cases hlate : t.listedAt ls a
    · exact htu.reopened hP a hlate
    · obtain hfirst | hlast := listedAt_append.mp ha
      · obtain ⟨i, hi, hidle, hvideo⟩ := hst.reopened hP a hfirst
        refine ⟨i, (htu.elsewhere a hlate).trans hi, hidle, ?_⟩
        rwa [htu.visuals]
      · exact absurd (hst.listedAt.mpr hlast) hlate

end Moved

end EngineState

/-! ### Loading -/

theorem ignoresInstances_visualsList : IgnoresInstances EngineState.visualsList := fun _ _ => rfl

namespace VisualInstance

theorem fixes_elsewhere_update {a b : Addr} (hb : b ≠ a) (g : VisualInstance → VisualInstance) :
    Fixes (fun s : EngineState => s.instances.get? b) (update a g) := by
  intro o s hs
  cases hi : s.instances.get? a with
  | none => simp [update, read, hi]
  | some i =>
    rw [update_eq hi, Outcome.post_ok]
    exact ((Heap.get?_set _ hi _ b).trans (if_neg hb)).trans hs

/-- Loading a video changes no other instance. -/
theorem fixes_elsewhere_loadVideo {a b : Addr} (hb : b ≠ a) (h : Host) :
    Fixes (fun s : EngineState => s.instances.get? b) (loadVideo h a) := by
  have hupdate := fixes_elsewhere_update hb
  refine .bind (hupdate _) fun _ => .bind (.deref _ _) fun i => .bind (.deref _ _) fun v => ?_
  cases v.source with
  | video filePath =>
    exact .ite (.bind (hupdate _) fun _ => .ite (.bind (hupdate _) fun _ => .pure _) (.throw _))
      (.throw _)
  | camera => exact .pure _
  | syphon => exact .pure _

/-- A file that can be read is loaded. -/
theorem exists_loadVideo {s : EngineState} {a v : Addr} (hs : s.Linked a v) {h : Host}
    (hfiles : h.Serves s.visualsList) : ∃ r t, loadVideo h a s = .ok r t ∧ t.Reopened a := by
  obtain ⟨⟨i, hi, rfl⟩, w, hw, hwi⟩ := hs
  obtain ⟨v, hv⟩ : ∃ v, s.visualsList.find? (fun v => v.addr = i.visual) = some v :=
    Option.isSome_iff_exists.mp (List.find?_isSome.mpr ⟨w, hw, decide_eq_true hwi⟩)
  have hmem := List.mem_of_find?_eq_some hv
  let j := setIsPlaying false i
  let s₁ : EngineState := { s with instances := s.instances.set a j }
  have hj : s₁.instances.get? a = some j := (Heap.get?_set _ hi j a).trans (if_pos rfl)
  have hstop : update a (setIsPlaying false) s = .ok () s₁ := update_eq hi _
  have hfind : read a s₁ = .ok j s₁ := by
    change Exec.ofOption _ (s₁.instances.get? a) s₁ = _
    rw [hj]
    rfl
  have hread : Visual.read j.visual s₁ = .ok v s₁ := by
    change Exec.ofOption _ (s.visualsList.find? fun v => v.addr = i.visual) s₁ = _
    rw [hv]
    rfl
  have hother : (∀ path, v.source ≠ .video path) → s₁.Reopened a := by
    refine fun hne => ⟨j, hj, rfl, fun v' path hv' hpath => ?_⟩
    exact absurd (Option.some.inj (hv.symm.trans hv') ▸ hpath) (hne path)
  rw [loadVideo, bind_run, hstop, Outcome.bind_ok, bind_run, hfind, Outcome.bind_ok, bind_run, hread,
    Outcome.bind_ok]
  cases hsource : v.source with
  | video filePath =>
    obtain ⟨hopens, hload⟩ := hfiles v hmem filePath hsource
    let k : VisualInstance := { j with video := .load true }
    let s₂ : EngineState := { s₁ with instances := s₁.instances.set a k }
    have hk : s₂.instances.get? a = some k := (Heap.get?_set _ hj k a).trans (if_pos rfl)
    have hset : update a (fun i => { i with video := .load true }) s₁ = .ok () s₂ := update_eq hj _
    dsimp only
    rw [checkFileExists, if_pos hopens, if_pos rfl, hload, bind_run, hset, Outcome.bind_ok,
      if_pos rfl, bind_run, update_eq hk]
    exact ⟨true, _, rfl, _, (Heap.get?_set _ hk _ a).trans (if_pos rfl), rfl, fun _ _ _ _ => rfl⟩
  | camera => exact ⟨false, s₁, rfl, hother fun path => by simp [hsource]⟩
  | syphon => exact ⟨false, s₁, rfl, hother fun path => by simp [hsource]⟩

end VisualInstance

namespace VisualInstances

variable {h : Host} {k : ℕ} {p : List Addr} {s : EngineState}

/-- Loading the videos of a list changes the instances of the list alone. -/
theorem fixes_elsewhere_loadAll {list : List Addr} {b : Addr} (hb : b ∉ list) (h : Host) :
    Fixes (fun s : EngineState => s.instances.get? b) (loadAll h list) :=
  .forEach fun _ ha => .bind
    (VisualInstance.fixes_elsewhere_loadVideo (ne_of_mem_of_not_mem ha hb).symm h) fun _ => .pure _

/-- When the files can be read, all instances of the list are opened. -/
theorem exists_loadAll {list : List Addr} (hlist : ∀ a ∈ list, a ∈ p) (hs : s.Rigged k p)
    (hfiles : h.Serves s.visualsList) :
    ∃ t, loadAll h list s = .ok () t ∧ ∀ a ∈ list, t.Reopened a := by
  induction list generalizing s with
  | nil => exact ⟨s, rfl, fun a ha => absurd ha List.not_mem_nil⟩
  | cons a rest ih =>
    obtain ⟨ha, hrest⟩ := List.forall_mem_cons.mp hlist
    obtain ⟨v, hv⟩ := hs.linked ha
    obtain ⟨r, u, hu, hopen⟩ := VisualInstance.exists_loadVideo hv hfiles
    have hrigged := (VisualInstance.keepsOutline_loadVideo h a).rigged s hs
    have hvisuals := VisualInstance.fixes_loadVideo ignoresInstances_visualsList h a _ s rfl
    rw [hu, Outcome.post_ok] at hrigged hvisuals
    obtain ⟨t, ht, hopened⟩ := ih hrest hrigged (hvisuals ▸ hfiles)
    have hrun : loadAll h (a :: rest) s = .ok () t := by
      change (((VisualInstance.loadVideo h a s).bind _).bind _) = _
      rw [hu]
      exact ht
    refine ⟨t, hrun, fun b hb => ?_⟩
    by_cases hbr : b ∈ rest
    · exact hopened b hbr
    · obtain rfl : b = a := (List.mem_cons.mp hb).resolve_right hbr
      have hsame := fixes_elsewhere_loadAll hbr h _ u rfl
      have hvisuals' := fixes_loadAll ignoresInstances_visualsList h rest _ u rfl
      rw [ht, Outcome.post_ok] at hsame hvisuals'
      obtain ⟨i, hi, hidle, hvideo⟩ := hopen
      exact ⟨i, hsame.trans hi, hidle, by rwa [hvisuals']⟩

end VisualInstances

/-! ### The moves -/

/-- The moves between scenes. -/
inductive SceneMove where
  | gotoPreviousScene
  | gotoNextScene
  | setCurrentScene (sceneNumber : UInt32)

namespace SceneMove

/-- The program of a move. -/
def run (c : Host × SceneMove) : Prog Unit :=
  match c with
  | (h, gotoPreviousScene) => Set.gotoPreviousScene h
  | (h, gotoNextScene) => Set.gotoNextScene h
  | (h, setCurrentScene sceneNumber) => Set.setCurrentScene h sceneNumber

/-- The position of the scene that a move enters, from a position among `m` scenes. -/
def target (m : ℕ) (c : SceneMove) (i : ℕ) : Option ℕ :=
  match c with
  | gotoPreviousScene => if 0 < i then some (i - 1) else none
  | gotoNextScene => if i + 1 < m then some (i + 1) else none
  | setCurrentScene sceneNumber => if sceneNumber.toNat < m then some sceneNumber.toNat else none

/-- The position at which a sequence of moves ends. -/
def walk (m : ℕ) (cs : List (Host × SceneMove)) (i : ℕ) : ℕ :=
  cs.foldl (fun i c => (c.2.target m i).getD i) i

/-- The positions of the scenes that a sequence of moves enters. -/
def visited (m : ℕ) : List (Host × SceneMove) → ℕ → List ℕ
  | [], _ => []
  | c :: cs, i => (c.2.target m i).toList ++ visited m cs ((c.2.target m i).getD i)

variable {s : EngineState} {i : ℕ}

/-- A move to the scene at a position. -/
theorem final?_setCurrentScene (hs : s.Safe) (h : Host) {n : UInt32}
    (hn : n.toNat < s.scenesList.length) :
    ∃ t, (Set.setCurrentScene h n s).final? = some t ∧ t.Safe ∧ t.AtScene n.toNat ∧
      s.Moved (h.Serves s.visualsList) [n.toNat] t := by
  obtain ⟨scene, hscene⟩ : ∃ scene, s.scenesList[n.toNat]? = some scene :=
    ⟨_, List.getElem?_eq_getElem hn⟩
  let u : EngineState := { s with currentSceneNumber := n, currentScene := some scene.addr }
  have hat : u.AtScene n.toNat := ⟨rfl, scene, hscene, rfl⟩
  have hrun : Set.setCurrentScene h n s = VisualInstances.loadAll h scene.visualInstances u := by
    rw [Set.setCurrentScene, bind_run, gets_run, Outcome.bind_ok, hscene]
    cases hscenes : s.scenesList with
    | nil => exact absurd hscenes hs.scenes_ne
    | cons => rfl
  obtain ⟨t, ht, hsafe⟩ := Set.defined_setCurrentScene h n s hs
  have hfinal := hrun ▸ ht
  have houtline := (VisualInstances.keepsOutline_loadAll h scene.visualInstances _ u rfl).of_final?
    hfinal
  have hlisted : ∀ a, s.listedAt [n.toNat] a ↔ a ∈ scene.visualInstances := by
    intro a
    simp only [EngineState.listedAt, List.mem_singleton, exists_eq_left, hscene, Option.some.injEq]
    simp
  have hscenes : t.scenesList = u.scenesList := congrArg (fun o => o.scenesList) houtline
  have hlayers : t.layersList = u.layersList := congrArg (fun o => o.layersList) houtline
  have hvisuals := (VisualInstances.fixes_loadAll ignoresInstances_visualsList h
    scene.visualInstances _ u rfl).of_final? hfinal
  refine ⟨t, ht, hsafe, hat.of_outline houtline.symm, hscenes, hlayers, hvisuals, ?_, ?_⟩
  · intro a ha
    rw [hlisted] at ha
    exact (VisualInstances.fixes_elsewhere_loadAll ha h _ u rfl).of_final? hfinal
  · intro hfiles a ha
    have hu : u.Safe :=
      ⟨{ hs.wellFormed with currentScene_ne := fun _ => Option.some_ne_none _ },
        ⟨hs.intact.held_placed, hs.intact.connected⟩, ⟨_, hat⟩, hs.loaded⟩
    have hlist : ∀ b ∈ scene.visualInstances, b ∈ u.placed := fun b hb =>
      EngineState.mem_placed.mpr ⟨scene, List.mem_of_getElem? hscene, hb⟩
    obtain ⟨t', ht', hopened⟩ := VisualInstances.exists_loadAll hlist hu.rigged hfiles
    rw [ht', Outcome.final?_ok] at hfinal
    obtain rfl := Option.some.inj hfinal
    exact hopened a ((hlisted a).mp ha)

/-- A move enters its target, or leaves everything as it was. -/
theorem final?_run (hs : s.Safe) (hi : s.AtScene i) (hfit : s.scenesList.length ≤ 2 ^ 32)
    (c : Host × SceneMove) :
    ∃ t, (run c s).final? = some t ∧ t.Safe ∧
      t.AtScene ((c.2.target s.scenesList.length i).getD i) ∧
      s.Moved (c.1.Serves s.visualsList) (c.2.target s.scenesList.length i).toList t := by
  obtain ⟨scene, hscene, -⟩ := hi.scene
  have hlt := (List.getElem?_eq_some_iff.mp hscene).1
  have hnumber : s.currentSceneNumber.toNat = i := hi.number
  have hne := hs.scenes_ne
  -- a move that enters nothing is one that does nothing
  have hmove : ∀ {n : UInt32} {k : ℕ}, n.toNat = k → k < s.scenesList.length →
      ∃ t, (Set.setCurrentScene c.1 n s).final? = some t ∧ t.Safe ∧
        t.AtScene ((some k).getD i) ∧
          s.Moved (c.1.Serves s.visualsList) (some k).toList t := by
    rintro n k rfl hk
    exact final?_setCurrentScene hs c.1 hk
  have hstay := EngineState.Moved.refl (c.1.Serves s.visualsList) s
  obtain ⟨h, c⟩ := c
  cases c with
  | gotoPreviousScene =>
    rw [run, Set.gotoPreviousScene, bind_run, gets_run, Outcome.bind_ok, target]
    by_cases h0 : 0 < i
    · have hpos : s.currentSceneNumber > 0 := UInt32.lt_iff_toNat_lt.mpr (hnumber ▸ h0)
      rw [if_pos hpos, if_pos h0]
      refine hmove ?_ (by omega)
      rw [UInt32.toNat_sub_of_le, hnumber, UInt32.toNat_one]
      exact UInt32.le_iff_toNat_le.mpr (by rw [hnumber, UInt32.toNat_one]; omega)
    · have hzero : ¬s.currentSceneNumber > 0 := fun hpos =>
        h0 (hnumber ▸ UInt32.lt_iff_toNat_lt.mp hpos)
      rw [if_neg hzero, if_neg h0]
      exact ⟨s, rfl, hs, hi, hstay⟩
  | gotoNextScene =>
    rw [run, Set.gotoNextScene, bind_run, gets_run, Outcome.bind_ok, bind_run, gets_run,
      Outcome.bind_ok, target, hnumber]
    by_cases hnext : i + 1 < s.scenesList.length
    · rw [if_pos (.inr (by omega)), if_pos hnext]
      refine hmove ?_ hnext
      rw [UInt32.toNat_add, hnumber, UInt32.toNat_one]
      exact Nat.mod_eq_of_lt (by omega)
    · rw [if_neg (not_or.mpr ⟨hne, by omega⟩), if_neg hnext]
      exact ⟨s, rfl, hs, hi, hstay⟩
  | setCurrentScene n =>
    rw [run, target]
    by_cases hn : n.toNat < s.scenesList.length
    · rw [if_pos hn]
      exact hmove rfl hn
    · rw [if_neg hn]
      refine ⟨s, ?_, hs, hi, hstay⟩
      rw [Set.setCurrentScene, bind_run, gets_run, Outcome.bind_ok,
        List.getElem?_eq_none (Nat.not_lt.mp hn)]
      cases hscenes : s.scenesList with
      | nil => exact absurd hscenes hne
      | cons => rfl

end SceneMove

/-- Every sequence of moves, the exceptions caught, ends at the position that the walk ends at, and
has entered the scenes that the walk visits. -/
theorem scene_walk {s : EngineState} {i : ℕ} (hs : s.Safe) (hi : s.AtScene i)
    (hfit : s.scenesList.length ≤ 2 ^ 32) (cs : List (Host × SceneMove)) :
    ∃ t, runAll SceneMove.run (fun _ _ => True) cs s = some t ∧
      t.AtScene (SceneMove.walk s.scenesList.length cs i) ∧
      s.Moved (∀ c ∈ cs, c.1.Serves s.visualsList)
        (SceneMove.visited s.scenesList.length cs i) t := by
  induction cs generalizing s i with
  | nil => exact ⟨s, rfl, hi, .refl _ s⟩
  | cons c cs ih =>
    obtain ⟨u, hu, hsafe, hat, hmoved⟩ := SceneMove.final?_run hs hi hfit c
    have hscenes := hmoved.scenes
    obtain ⟨t, ht, hend, hrest⟩ := ih hsafe hat (by rwa [hscenes])
    rw [hscenes] at hend hrest
    refine ⟨t, ?_, hend, ?_⟩
    · rw [runAll, if_pos trivial, hu, Option.bind_some]
      exact ht
    · refine .trans (t := u) ?_ ?_
      · exact hmoved.mono fun h => h c List.mem_cons_self
      · rw [hmoved.visuals] at hrest
        exact hrest.mono fun h d hd => h d (List.mem_cons_of_mem c hd)

/-- A video plays in the first of two scenes. On the way to the second one it goes on; on the way
back it is stopped, and its layer holds it all the same. -/
theorem scene_walk_there_and_back : ∃ s t u : EngineState, ∃ a,
    s.InSession ∧ s.held = [a] ∧ (s.instances.get? a).map (fun i => i.video.isPlaying) = some true ∧
      runAll SceneMove.run (fun _ _ => True)
        [(.plain, .gotoNextScene), (.plain, .gotoNextScene)] s = some t ∧
      t.AtScene 1 ∧ t.instances.get? a = s.instances.get? a ∧
      runAll SceneMove.run (fun _ _ => True)
        [(.plain, .gotoNextScene), (.plain, .gotoPreviousScene)] s = some u ∧
      u.AtScene 0 ∧ u.Reopened a ∧ u.held = [a] := by
  obtain ⟨s, hs, hsafe, hnumber, hlen, hwhere⟩ := exists_safe 1
    [(.plain, .command (.addVideo "a.mov")), (.plain, .command (.addVisualToScene 0 0 0)),
      (.plain, .setActiveVisualInstance 0 0), (.plain, .command .addScene)]
    (P := fun s => s.currentSceneNumber.toNat = 0 ∧ s.scenesList.length = 2 ∧
      ∃ a ∈ s.held, s.held = [a] ∧
        (s.instances.get? a).map (fun i => i.video.isPlaying) = some true ∧
          (s.scenesList.map fun scene => scene.visualInstances) = [[a], []]) (by decide)
    (by decide +kernel)
  obtain ⟨a, -, hheld, hplays, hlists⟩ := hwhere
  have hi : s.AtScene 0 := by
    obtain ⟨i, hi⟩ := hsafe.atScene
    exact hnumber ▸ hi.number ▸ hi
  have hplain : ∀ visuals, Host.plain.Serves visuals := fun _ _ _ _ _ => ⟨rfl, rfl⟩
  have hfit : s.scenesList.length ≤ 2 ^ 32 := by omega
  obtain ⟨t, ht, hat, hmoved⟩ := scene_walk hsafe hi hfit
    [(.plain, .gotoNextScene), (.plain, .gotoNextScene)]
  obtain ⟨u, hu, hback, hmoved'⟩ := scene_walk hsafe hi hfit
    [(.plain, .gotoNextScene), (.plain, .gotoPreviousScene)]
  rw [hlen] at hat hmoved hback hmoved'
  have hlisted : ∀ k : ℕ, (∃ scene : Scene, s.scenesList[k]? = some scene ∧
      a ∈ scene.visualInstances) ↔ ∃ l : List Addr, [[a], []][k]? = some l ∧ a ∈ l := by
    intro k
    rw [← hlists, List.getElem?_map]
    simp only [Option.map_eq_some_iff]
    constructor
    · rintro ⟨scene, hscene, ha⟩
      exact ⟨_, ⟨scene, hscene, rfl⟩, ha⟩
    · rintro ⟨_, ⟨scene, hscene, rfl⟩, ha⟩
      exact ⟨scene, hscene, ha⟩
  refine ⟨s, t, u, a, hs, hheld, hplays, ht, hat, hmoved.elsewhere a ?_, hu, hback, ?_, ?_⟩
  · rintro ⟨k, hk, hin⟩
    obtain rfl : k = 1 := List.mem_singleton.mp hk
    obtain ⟨l, hl, ha⟩ := (hlisted 1).mp hin
    obtain rfl : [] = l := Option.some.inj hl
    cases ha
  · refine hmoved'.reopened (by simp [hplain]) a ⟨0, ?_, (hlisted 0).mpr ⟨[a], rfl, ?_⟩⟩
    · exact List.mem_cons_of_mem 1 List.mem_cons_self
    · exact List.mem_cons_self
  · rw [EngineState.held, hmoved'.layers]
    exact hheld

end ArbutusEngine
