import ArbutusEngine.Decoding

/-!
# Entries of scenes and entries of visuals

The instances of a scene name their visuals by position. `Visuals::setState` passes over the entries
that are not videos, so that the list of visuals is shorter than the array it was read from, while
`Scene::setState` looks the positions up in that list. An entry with a position in the list is
therefore aligned exactly when all entries of the array up to this position are videos.

## Main definitions

* `instanceEntries`, `entryIndex`, `builtFrom`, `builtScenes`: the entries of a scene and the
  instances built from them.
* `decodedFrom`: the visual that an entry of the array of visuals has become.

## Main results

* `decodedFrom_spec`.
* `entries_aligned_iff`.
-/

open Exec

namespace ArbutusEngine

/-- The entries of the instances of an entry of a scene. -/
def instanceEntries (scene : Json) : List Json :=
  match scene.field "instances" with
  | .arr entries => entries
  | _ => []

/-- The instances that are built from an entry of a scene, each with the entry it is built from and
allocated from the address `n` on. -/
def builtFrom (h : Host) (n : Addr) (visuals : List Visual) (scene : Json) :
    List (Json × VisualInstance) :=
  (((instanceEntries scene).filterMap fun e =>
    (Scene.decode visuals e).1.map fun p => (e, p)).zipIdx n).map fun b =>
      (b.1.1, b.1.2.toInstance h b.2)

/-- The scenes that are built from the entries of an array one after the other, by name, each with
the instances that are built from its entry. -/
def builtScenes (h : Host) (visuals : List Visual) : Addr → List Json →
    List (String × List (Json × VisualInstance))
  | _, [] => []
  | n, scene :: rest =>
    (scene.stringOr "name" "", builtFrom h n visuals scene) ::
      builtScenes h visuals (n + (builtFrom h n visuals scene).length) rest

/-- The visual of the list that the entry at the position `n` of the array has become. Videos are
appended in order, so its position is the number of videos before it. -/
def decodedFrom (entries : List Json) (visuals : List Visual) (n : ℤ) : Option Visual :=
  if 0 ≤ n ∧ (entries[n.toNat]?.map Visuals.isVideo) = some true then
    visuals[(entries.take n.toNat).countP Visuals.isVideo]?
  else none

/-! ### The list of visuals -/

theorem Visuals.getElem?_allocate (base : Addr) (videos : List (String × String)) (k : ℕ) :
    (Visuals.allocate base videos)[k]? =
      videos[k]?.map fun video => ⟨base + k, video.1, .video video.2, ""⟩ := by
  induction videos generalizing base k with
  | nil => rfl
  | cons video rest ih =>
    cases k with
    | zero => rfl
    | succ k =>
      rw [Visuals.allocate, List.getElem?_cons_succ, List.getElem?_cons_succ, ih]
      simp only [Nat.add_assoc, Nat.add_comm 1]

/-- An entry that does not throw becomes a visual exactly when it describes a video. -/
theorem Visuals.isSome_decode {h : Host} {setPath : String} {e : Json}
    (he : (Visuals.decode h setPath e).2 = none) :
    (Visuals.decode h setPath e).1.isSome = Visuals.isVideo e := by
  revert he
  rw [Visuals.decode]
  by_cases hi : e.isIndexable = true
  · by_cases hv : Visuals.isVideo e = true
    · simp only [hi, hv, ↓reduceIte]
      split_ifs
      · exact fun he => he.elim
      · exact fun _ => rfl
    · simp [hi, hv]
  · simp [hi]

theorem List.countP_isSome_eq_length_filterMap {α β : Type} (f : α → Option β) (l : List α) :
    l.countP (fun a => (f a).isSome) = (l.filterMap f).length := by
  induction l with
  | nil => rfl
  | cons a l ih => cases hf : f a <;> simp [hf, ih]

/-- The values before the position `k` are the first ones of the filtered list. -/
theorem List.getElem?_filterMap_countP {α β : Type} (f : α → Option β) {l : List α} {k : ℕ} {a : α}
    (ha : l[k]? = some a) (hf : (f a).isSome = true) :
    (l.filterMap f)[(l.take k).countP fun a => (f a).isSome]? = f a := by
  induction l generalizing k with
  | nil => cases ha
  | cons b l ih =>
    cases k with
    | zero =>
      obtain rfl := Option.some.inj ha
      obtain ⟨c, hc⟩ := Option.isSome_iff_exists.mp hf
      simp [hc]
    | succ k =>
      rw [List.getElem?_cons_succ] at ha
      cases hb : f b with
      | none => simpa [hb] using ih ha
      | some c => simpa [hb] using ih ha

section

variable {h : Host} {setPath : String} {entries : List Json} {base : Addr}

/-- The visuals that an array without exceptions becomes. -/
private abbrev decodedList (h : Host) (setPath : String) (entries : List Json) (base : Addr) :
    List Visual :=
  Visuals.allocate base (entries.filterMap fun e => (Visuals.decode h setPath e).1)

private theorem countP_isVideo (hok : ∀ e ∈ entries, (Visuals.decode h setPath e).2 = none) (k : ℕ) :
    (entries.take k).countP Visuals.isVideo =
      (entries.take k).countP fun e => (Visuals.decode h setPath e).1.isSome :=
  List.countP_congr fun e he => by rw [Visuals.isSome_decode (hok e (List.mem_of_mem_take he))]

private theorem length_decodedList (hok : ∀ e ∈ entries, (Visuals.decode h setPath e).2 = none) :
    (decodedList h setPath entries base).length = entries.countP Visuals.isVideo := by
  rw [Visuals.length_allocate, ← List.countP_isSome_eq_length_filterMap]
  exact (List.countP_congr fun e he => by rw [Visuals.isSome_decode (hok e he)])

/-- The visual an entry has become has the caption and the path that the entry describes. -/
theorem decodedFrom_spec (hok : ∀ e ∈ entries, (Visuals.decode h setPath e).2 = none) {n : ℤ}
    {v : Visual} (hv : decodedFrom entries
      (Visuals.allocate base (entries.filterMap fun e => (Visuals.decode h setPath e).1)) n = some v) :
    ∃ e path, entries[n.toNat]? = some e ∧ v.source = .video path ∧
      (Visuals.decode h setPath e).1 = some (v.caption, path) := by
  rw [decodedFrom] at hv
  split_ifs at hv with hn
  obtain ⟨e, he, hvideo⟩ := Option.map_eq_some_iff.mp hn.2
  have hsome : (Visuals.decode h setPath e).1.isSome = true := by
    rw [Visuals.isSome_decode (hok e (List.mem_of_getElem? he)), hvideo]
  rw [countP_isVideo hok, Visuals.getElem?_allocate,
    List.getElem?_filterMap_countP _ he hsome] at hv
  obtain ⟨video, hvid, rfl⟩ := Option.map_eq_some_iff.mp hv
  exact ⟨e, video.2, he, rfl, hvid⟩

/-- The visual found at a position of the list is the one the entry at this position has become
exactly when all entries up to there are videos. -/
private theorem decodedFrom_eq_iff (hok : ∀ e ∈ entries, (Visuals.decode h setPath e).2 = none)
    {n : Int32} {v : Visual}
    (hv : Visuals.get (decodedList h setPath entries base) n = some v) :
    (decodedFrom entries (decodedList h setPath entries base) n.toInt).map Visual.addr =
        some v.addr ↔
      ∀ e ∈ entries.take (n.toInt.toNat + 1), Visuals.isVideo e = true := by
  rw [Visuals.get_eq] at hv
  split_ifs at hv with hn
  have hlt : n.toInt.toNat < entries.countP Visuals.isVideo :=
    length_decodedList hok ▸ (List.getElem?_eq_some_iff.mp hv).1
  obtain ⟨e, he⟩ : ∃ e, entries[n.toInt.toNat]? = some e :=
    ⟨_, List.getElem?_eq_getElem (lt_of_lt_of_le hlt List.countP_le_length)⟩
  have haddr : v.addr = base + n.toInt.toNat := by
    rw [Visuals.getElem?_allocate] at hv
    obtain ⟨video, -, rfl⟩ := Option.map_eq_some_iff.mp hv
    rfl
  have htake : entries.take (n.toInt.toNat + 1) = entries.take n.toInt.toNat ++ [e] := by
    rw [List.take_add_one, he]
    rfl
  have hlen : (entries.take n.toInt.toNat).length = n.toInt.toNat :=
    List.length_take_of_le (lt_of_lt_of_le hlt List.countP_le_length).le
  rw [htake, List.forall_mem_append, List.forall_mem_singleton, ← List.countP_eq_length, hlen]
  by_cases hvideo : Visuals.isVideo e = true
  · have hsome : (Visuals.decode h setPath e).1.isSome = true := by
      rw [Visuals.isSome_decode (hok e (List.mem_of_getElem? he)), hvideo]
    obtain ⟨video, hvid⟩ := Option.isSome_iff_exists.mp hsome
    rw [decodedFrom, if_pos ⟨hn, by rw [he, Option.map_some, hvideo]⟩, Visuals.getElem?_allocate]
    conv_lhs => rw [countP_isVideo hok, List.getElem?_filterMap_countP _ he hsome, hvid]
    rw [← countP_isVideo hok, haddr]
    simp [hvideo]
  · have hnot : ¬ (0 ≤ n.toInt ∧ (entries[n.toInt.toNat]?.map Visuals.isVideo) = some true) := by
      rw [he, Option.map_some, Option.some.injEq]
      exact fun hc => hvideo hc.2
    rw [decodedFrom, if_neg hnot]
    simp [hvideo]

end

/-! ### Alignment -/

/-- An entry of a scene that does not throw builds a scene from its entries, none of which
throws. -/
private theorem scene_of_snd_eq_none {visuals : List Visual} {scene : Json}
    (hscene : (Scenes.decode visuals scene).2 = none) :
    (∀ e ∈ instanceEntries scene, (Scene.decode visuals e).2 = none) ∧
      (Scenes.decode visuals scene).1 = some (scene.stringOr "name" "",
        (instanceEntries scene).filterMap fun e => (Scene.decode visuals e).1) := by
  revert hscene
  rw [Scenes.decode]
  by_cases hi : scene.isIndexable = true
  swap
  · simp [hi]
  rw [if_pos hi]
  cases hname : scene.field "name" with
  | str name =>
    simp only [Scene.decodeAll, instanceEntries, Json.stringOr, hname]
    cases scene.field "instances" with
    | arr entries =>
      intro hscene
      have hok := collect_snd_eq_none.mp hscene
      exact ⟨hok, by rw [collect_fst_of_forall hok]⟩
    | _ => exact fun _ => ⟨by simp, rfl⟩
  | _ => exact fun hscene => absurd hscene (Option.some_ne_none _)

/-- The placements that the entries of a scene are read as. -/
private abbrev placementsFrom (visuals : List Visual) (scene : Json) : List Placement :=
  (instanceEntries scene).filterMap fun e => (Scene.decode visuals e).1

private theorem map_snd_builtFrom (h : Host) (n : Addr) (visuals : List Visual) (scene : Json) :
    (builtFrom h n visuals scene).map Prod.snd =
      ((placementsFrom visuals scene).zipIdx n).map fun p => p.1.toInstance h p.2 := by
  have hplacements : placementsFrom visuals scene = ((instanceEntries scene).filterMap fun e =>
      (Scene.decode visuals e).1.map fun p => (e, p)).map Prod.snd := by
    rw [List.map_filterMap]
    refine List.filterMap_congr fun e _ => ?_
    rw [Option.map_map]
    exact Option.map_id'.symm
  rw [hplacements, List.zipIdx_map, List.map_map, builtFrom, List.map_map]
  rfl

/-- The instances built from an entry are added one after the other. -/
private theorem foldl_builtFrom (h : Host) (n : Addr) (visuals : List Visual) (scene : Json) :
    (builtFrom h n visuals scene).foldl (fun l b => addInstance l b.2) [] =
      instancesOf h n (placementsFrom visuals scene) := by
  have hbuilt := congrArg (List.foldl addInstance []) (map_snd_builtFrom h n visuals scene)
  rwa [List.foldl_map, List.foldl_map] at hbuilt

private theorem length_builtFrom (h : Host) (n : Addr) (visuals : List Visual) (scene : Json) :
    (builtFrom h n visuals scene).length = (placementsFrom visuals scene).length := by
  rw [← List.length_map Prod.snd, map_snd_builtFrom, List.length_map, List.length_zipIdx]

private theorem map_builtScenes (h : Host) (visuals : List Visual) (n : Addr) (scenes : List Json) :
    ((builtScenes h visuals n scenes).map fun b =>
      (b.1, b.2.foldl (fun l b => addInstance l b.2) [])) =
        contentsOf h n (scenes.map fun scene =>
          (scene.stringOr "name" "", placementsFrom visuals scene)) := by
  induction scenes generalizing n with
  | nil => rfl
  | cons scene rest ih =>
    rw [builtScenes, List.map_cons, List.map_cons, contentsOf, foldl_builtFrom, length_builtFrom, ih]

/-- What holds of the instances built from an entry, if it is about nothing but their visuals. -/
private theorem forall_builtFrom_iff {Q : Json → Addr → Prop} (h : Host) (n : Addr)
    (visuals : List Visual) (scene : Json) :
    (∀ b ∈ builtFrom h n visuals scene, Q b.1 b.2.visual) ↔ ∀ e ∈ instanceEntries scene, ∀ p,
      (Scene.decode visuals e).1 = some p → Q e p.visual := by
  constructor
  · intro hall e he p hp
    have hmem : (e, p) ∈ (instanceEntries scene).filterMap fun e =>
        (Scene.decode visuals e).1.map fun p => (e, p) :=
      List.mem_filterMap.mpr ⟨e, he, by rw [hp]; rfl⟩
    obtain ⟨k, hk⟩ := List.mem_iff_getElem?.mp hmem
    have hbuilt : (e, p.toInstance h (n + k)) ∈ builtFrom h n visuals scene :=
      List.mem_map.mpr ⟨((e, p), n + k), List.mk_add_mem_zipIdx_iff_getElem?.mpr hk, rfl⟩
    exact hall _ hbuilt
  · intro hall b hb
    obtain ⟨⟨⟨e, p⟩, k⟩, hmem, rfl⟩ := List.mem_map.mp hb
    obtain ⟨e', he, hread⟩ := List.mem_filterMap.mp (List.fst_mem_of_mem_zipIdx hmem)
    obtain ⟨p', hp, heq⟩ := Option.map_eq_some_iff.mp hread
    obtain ⟨rfl, rfl⟩ := Prod.mk.inj heq
    exact hall e' he p' hp

private theorem forall_builtScenes_iff {Q : Json → Addr → Prop} (h : Host) (visuals : List Visual)
    (n : Addr) (scenes : List Json) :
    (∀ built ∈ builtScenes h visuals n scenes, ∀ b ∈ built.2, Q b.1 b.2.visual) ↔
      ∀ scene ∈ scenes, ∀ e ∈ instanceEntries scene, ∀ p,
        (Scene.decode visuals e).1 = some p → Q e p.visual := by
  induction scenes generalizing n with
  | nil => exact iff_of_true (by simp [builtScenes]) (by simp)
  | cons scene rest ih =>
    rw [builtScenes, List.forall_mem_cons, List.forall_mem_cons, ih, forall_builtFrom_iff]

/-- One entry of an instance is aligned exactly when its position is outside the list of visuals, or
all entries of the array up to it are videos. -/
private theorem entry_aligned_iff {h : Host} {setPath : String} {entries : List Json} {base : Addr}
    (hok : ∀ e ∈ entries, (Visuals.decode h setPath e).2 = none) {e : Json}
    (he : (Scene.decode (decodedList h setPath entries base) e).2 = none) :
    (∀ p, (Scene.decode (decodedList h setPath entries base) e).1 = some p →
      ∀ n, entryIndex e = .ok n →
        (decodedFrom entries (decodedList h setPath entries base) n.toInt).map Visual.addr =
          some p.visual) ↔
      ∀ n, entryIndex e = .ok n → n.toInt < 0 ∨ entries.countP Visuals.isVideo ≤ n.toInt ∨
        ∀ e ∈ entries.take (n.toInt.toNat + 1), Visuals.isVideo e = true := by
  obtain ⟨n, hn, hvisual⟩ := Scene.decode_of_snd_eq_none he
  have hindex : ∀ m, entryIndex e = .ok m → m = n := fun m hm => by
    rw [hn] at hm
    exact (Except.ok.inj hm).symm
  constructor
  · intro hall m hm
    obtain rfl := hindex m hm
    cases hv : Visuals.get (decodedList h setPath entries base) m with
    | none =>
      rw [Visuals.get_eq] at hv
      by_cases hneg : 0 ≤ m.toInt
      · rw [if_pos hneg, List.getElem?_eq_none_iff, length_decodedList hok] at hv
        exact .inr (.inl (by omega))
      · exact .inl (by omega)
    | some v =>
      rw [hv, Option.map_some] at hvisual
      obtain ⟨p, hp, hpv⟩ := Option.map_eq_some_iff.mp hvisual
      refine .inr (.inr ((decodedFrom_eq_iff hok hv).mp ?_))
      rw [hall p hp m hm, hpv]
  · intro hall p hp m hm
    obtain rfl := hindex m hm
    rw [hp, Option.map_some, eq_comm] at hvisual
    obtain ⟨v, hv, hpv⟩ := Option.map_eq_some_iff.mp hvisual
    have hget := hv
    rw [Visuals.get_eq] at hget
    split_ifs at hget with hneg
    have hlt : m.toInt.toNat < entries.countP Visuals.isVideo :=
      length_decodedList hok ▸ (List.getElem?_eq_some_iff.mp hget).1
    rcases hall m hm with hlow | hhigh | hvideos
    · omega
    · omega
    · rw [(decodedFrom_eq_iff hok hv).mpr hvideos, hpv]

/-- For every document with arrays `visuals` and `scenes` that `Engine::setState` reads without an
exception: the scenes contain the instances built from their entries, and every one of these has the
visual decoded from the entry at its position exactly when, for every entry, the position lies
outside the list of visuals or all entries of `visuals` up to it describe videos. -/
theorem entries_aligned_iff (h : Host) (s t : EngineState) (state : Json) (visuals scenes : List Json)
    (hs : s.WellFormed) (hvisuals : state.field "visuals" = .arr visuals)
    (hscenes : state.field "scenes" = .arr scenes) (ht : Engine.setState h state s = .ok () t) :
    t.views = ((builtScenes h t.visualsList s.instances.next scenes).map fun built =>
        (built.1, built.2.foldl (fun l b => addInstance l b.2) [])) ∧
      ((∀ built ∈ builtScenes h t.visualsList s.instances.next scenes, ∀ b ∈ built.2,
          ∀ n, entryIndex b.1 = .ok n →
            (decodedFrom visuals t.visualsList n.toInt).map Visual.addr = some b.2.visual) ↔
        ∀ scene ∈ scenes, ∀ e ∈ instanceEntries scene, ∀ n, entryIndex e = .ok n →
          n.toInt < 0 ∨ visuals.countP Visuals.isVideo ≤ n.toInt ∨
            ∀ v ∈ visuals.take (n.toInt.toNat + 1), Visuals.isVideo v = true) := by
  obtain ⟨-, -, hve, -, -, hse, rfl⟩ := (Engine.setState_eq_ok_iff hs h state).mp ht
  rw [hvisuals] at hve hse ⊢
  rw [hscenes] at hse ⊢
  have hok : ∀ e ∈ visuals, (Visuals.decode h s.filePath e).2 = none := collect_snd_eq_none.mp hve
  have hlist : (s.afterVisuals h (.arr visuals)).visualsList =
      decodedList h s.filePath visuals s.nextAddr := by
    rw [EngineState.afterVisuals_arr, EngineState.pushVideos_eq]
    exact congrArg _ (collect_fst_of_forall hok)
  rw [hlist] at hse
  have hscene : ∀ scene ∈ scenes,
      (Scenes.decode (decodedList h s.filePath visuals s.nextAddr) scene).2 = none :=
    collect_snd_eq_none.mp hse
  rw [EngineState.visualsList_afterScenes, EngineState.visualsList_afterLayers, hlist]
  constructor
  · rw [EngineState.afterScenes_arr,
      EngineState.views_clearScenes_buildScenes ((hs.afterVisuals h _).afterLayers h _),
      EngineState.visualsList_afterLayers, hlist, Scenes.decodeAll, collect_fst_of_forall hscene,
      EngineState.instances_afterLayers, map_builtScenes,
      ← List.filterMap_eq_map]
    refine congrArg _ (List.filterMap_congr fun scene hmem => ?_)
    exact (scene_of_snd_eq_none (hscene scene hmem)).2
  · rw [forall_builtScenes_iff (Q := fun e a => ∀ n, entryIndex e = .ok n →
      (decodedFrom visuals (decodedList h s.filePath visuals s.nextAddr) n.toInt).map Visual.addr =
        some a)]
    refine forall₂_congr fun scene hmem => forall₂_congr fun e he => ?_
    exact entry_aligned_iff hok ((scene_of_snd_eq_none (hscene scene hmem)).1 e he)

/-- Entries of visuals of the given types, all with a path. -/
def visualEntries (types : List ℤ) : List Json :=
  types.map fun type => .obj [("type", .int type), ("caption", .str "a"), ("filePath", .str "a.mov")]

/-- The entry of a scene `Intro` with one instance, which names the position `0`. -/
def introEntry : Json :=
  .obj [("name", .str "Intro"), ("instances", .arr [.obj [("index", .int 0),
    ("properties", .obj [("layer", .int 0), ("column", .int 0), ("name", .str "")])]])]

def introDocument (types : List ℤ) : Json :=
  .obj [("visuals", .arr (visualEntries types)), ("scenes", .arr [introEntry])]

/-- With a video at the position `0` the instance is built from it. -/
theorem entries_aligned_video :
    ∃ t, Engine.setState Host.plain (introDocument [0]) EngineState.init = .ok () t ∧
      ∀ built ∈ builtScenes Host.plain t.visualsList EngineState.init.instances.next [introEntry],
        ∀ b ∈ built.2, ∀ n, entryIndex b.1 = .ok n →
          (decodedFrom (visualEntries [0]) t.visualsList n.toInt).map Visual.addr =
            some b.2.visual := by
  obtain ⟨_, t, ht, -⟩ := Outcome.exists_of_returns (show (Engine.setState Host.plain
    (introDocument [0]) EngineState.init).returns (fun _ _ => true) = true by decide +kernel)
  have hvideo : ∀ v ∈ visualEntries [0], Visuals.isVideo v = true := by decide
  refine ⟨t, ht, (entries_aligned_iff Host.plain EngineState.init t (introDocument [0])
    (visualEntries [0]) [introEntry] EngineState.wellFormed_init rfl rfl ht).2.mpr ?_⟩
  exact fun _ _ _ _ _ _ => .inr (.inr fun v hv => hvideo v (List.mem_of_mem_take hv))

/-- Behind a camera, which is passed over, the video comes to lie at the position `0`, and the
instance that names the camera is built from the video. -/
theorem entries_aligned_camera :
    ∃ t, Engine.setState Host.plain (introDocument [1, 0]) EngineState.init = .ok () t ∧
      ¬ ∀ built ∈ builtScenes Host.plain t.visualsList EngineState.init.instances.next [introEntry],
        ∀ b ∈ built.2, ∀ n, entryIndex b.1 = .ok n →
          (decodedFrom (visualEntries [1, 0]) t.visualsList n.toInt).map Visual.addr =
            some b.2.visual := by
  obtain ⟨_, t, ht, hmisread⟩ := Outcome.exists_of_returns (show (Engine.setState Host.plain
    (introDocument [1, 0]) EngineState.init).returns (fun _ t =>
      (builtScenes Host.plain t.visualsList EngineState.init.instances.next [introEntry]).any
        fun built => built.2.any fun b => decide (entryIndex b.1 = .ok 0 ∧
          (decodedFrom (visualEntries [1, 0]) t.visualsList 0).map Visual.addr ≠ some b.2.visual)) =
      true by decide +kernel)
  obtain ⟨built, hbuilt, hany⟩ := List.any_eq_true.mp hmisread
  obtain ⟨b, hb, hentry⟩ := List.any_eq_true.mp hany
  obtain ⟨hindex, hne⟩ := of_decide_eq_true hentry
  exact ⟨t, ht, fun hall => hne (hall built hbuilt b hb 0 hindex)⟩

end ArbutusEngine
