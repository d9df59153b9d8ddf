import ArbutusEngine.Documents

/-!
# Documents and the addresses of visuals

Two lists of visuals that differ in their addresses only are encoded by documents that differ in
their members `address` only, and so are the scenes that are rebuilt from one document over both
lists. Addresses are renamed here by an injective function.

## Main definitions

* `Visual.rename`, `VisualInstance.rename`, `Placement.rename`.

## Main results

* `placementsOf_rename`, `contentsOf_rename`: rebuilding scenes over a renamed list.
* `Visuals.without_states_rename`, `without_scenesState_rename`: what is encoded, without the
  addresses.
* `Visuals.allocate_eq`: videos that are allocated from another address on are renamed videos.
-/

open Exec

namespace ArbutusEngine

/-! ### Renaming -/

def Visual.rename (f : Addr → Addr) (v : Visual) : Visual := { v with addr := f v.addr }

def VisualInstance.rename (f : Addr → Addr) (i : VisualInstance) : VisualInstance :=
  { i with visual := f i.visual }

def Placement.rename (f : Addr → Addr) (p : Placement) : Placement := { p with visual := f p.visual }

section rename

variable (f : Addr → Addr)

theorem Visuals.get_rename (visuals : List Visual) (pos : Int32) :
    Visuals.get (visuals.map (Visual.rename f)) pos =
      (Visuals.get visuals pos).map (Visual.rename f) := by
  rw [Visuals.get_eq, Visuals.get_eq]
  split_ifs
  · rw [List.getElem?_map]
  · rfl

theorem placementsOf_rename (visuals : List Visual) (instances : List VisualInstance) :
    placementsOf (visuals.map (Visual.rename f)) instances =
      (placementsOf visuals instances).map (Placement.rename f) := by
  rw [placementsOf, placementsOf, List.map_filterMap]
  refine List.filterMap_congr fun i _ => ?_
  rw [Visuals.get_rename, Option.map_map, Option.map_map]
  rfl

theorem instancesOf_rename (h : Host) (n : Addr) (placements : List Placement) :
    instancesOf h n (placements.map (Placement.rename f)) =
      (instancesOf h n placements).map (VisualInstance.rename f) :=
  (map_instancesOf (f := VisualInstance.rename f) (r := Placement.rename f) (fun _ => rfl) placements
    fun _ _ _ => rfl).symm

theorem contentsOf_rename (h : Host) (n : Addr) (scenes : List (String × List Placement)) :
    contentsOf h n (scenes.map fun scene => (scene.1, scene.2.map (Placement.rename f))) =
      (contentsOf h n scenes).map fun view => (view.1, view.2.map (VisualInstance.rename f)) := by
  induction scenes generalizing n with
  | nil => rfl
  | cons scene rest ih =>
    rw [List.map_cons, contentsOf, contentsOf, List.map_cons, ih, instancesOf_rename,
      List.length_map]

/-- Two visuals that differ in their addresses are encoded alike but for the address. -/
theorem Visual.without_getState_rename (v : Visual) :
    ((v.rename f).getState).without "address" = v.getState.without "address" := by
  simp [Visual.getState, Visual.rename, Visual.getType, Json.without, Json.withoutMembers]

theorem Visuals.without_states_rename (visuals : List Visual) :
    (Json.pushAll ((visuals.map (Visual.rename f)).map Visual.getState)).without "address" =
      (Json.pushAll (visuals.map Visual.getState)).without "address" := by
  rw [Json.without_pushAll, Json.without_pushAll, List.map_map, List.map_map, List.map_map]
  exact congrArg _ (List.map_congr_left fun v _ => v.without_getState_rename f)

variable {f}

/-- The visual of an instance is found under its new address. -/
theorem without_visualState_rename (hf : Function.Injective f) (visuals : List Visual) (a : Addr) :
    (visualState (visuals.map (Visual.rename f)) (f a)).without "address" =
      (visualState visuals a).without "address" := by
  have hfind : (visuals.map (Visual.rename f)).find? (fun v => v.addr = f a) =
      (visuals.find? fun v => v.addr = a).map (Visual.rename f) := by
    rw [List.find?_map]
    refine congrArg (Option.map _) (congrArg (fun p => List.find? p visuals) (funext fun v => ?_))
    simp [Visual.rename, hf.eq_iff]
  rw [visualState, visualState, hfind]
  cases visuals.find? fun v => v.addr = a with
  | none => rfl
  | some v => exact v.without_getState_rename f

theorem without_instanceState_rename (hf : Function.Injective f) (visuals : List Visual) (n : ℕ)
    (i : VisualInstance) :
    (instanceState (visuals.map (Visual.rename f)) n (i.rename f)).without "address" =
      (instanceState visuals n i).without "address" := by
  have hvisual := without_visualState_rename hf visuals i.visual
  simp [instanceState, VisualInstance.getState, VisualInstance.rename, Json.insert, Json.without,
    Json.withoutMembers, hvisual]

theorem without_sceneState_rename (hf : Function.Injective f) (visuals : List Visual)
    (view : String × List VisualInstance) :
    (sceneState (visuals.map (Visual.rename f))
      (view.1, view.2.map (VisualInstance.rename f))).without "address" =
        (sceneState visuals view).without "address" := by
  have hinstances : ((view.2.map (VisualInstance.rename f)).mapIdx
      (instanceState (visuals.map (Visual.rename f)))).map (Json.without "address") =
        (view.2.mapIdx (instanceState visuals)).map (Json.without "address") := by
    refine List.ext_getElem? fun n => ?_
    simp only [List.getElem?_map, List.getElem?_mapIdx, Option.map_map]
    refine congrArg (fun g => Option.map g view.2[n]?) (funext fun i => ?_)
    exact without_instanceState_rename hf visuals n i
  simp only [sceneState, Json.without, Json.withoutMembers, Json.without_pushAll, hinstances]

theorem without_scenesState_rename (hf : Function.Injective f) (visuals : List Visual)
    (views : List (String × List VisualInstance)) :
    (scenesState (visuals.map (Visual.rename f))
      (views.map fun view => (view.1, view.2.map (VisualInstance.rename f)))).without "address" =
        (scenesState visuals views).without "address" := by
  rw [scenesState, scenesState, Json.without_pushAll, Json.without_pushAll, List.map_map,
    List.map_map, List.map_map]
  exact congrArg _ (List.map_congr_left fun view _ => without_sceneState_rename hf visuals view)

end rename

/-- Videos that are allocated from the address `n` on. -/
theorem Visuals.allocate_eq (videos : List (String × String)) (m n : Addr) :
    Visuals.allocate (m + n) videos = (Visuals.allocate m videos).map (Visual.rename (· + n)) := by
  induction videos generalizing m with
  | nil => rfl
  | cons video rest ih =>
    rw [Visuals.allocate, Visuals.allocate, List.map_cons, ← ih, Nat.add_right_comm]
    rfl

end ArbutusEngine
