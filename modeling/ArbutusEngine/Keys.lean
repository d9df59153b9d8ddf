import ArbutusEngine.SafeSessions

/-!
# Keys

A key goes through the controllers that have it, in the order in which they were added. A controller
whose action runs keeps the key to itself; the callbacks of those before it are called. Actions that
trigger a visual run whenever there is an engine, and do nothing; actions that change a parameter
never run.

## Main definitions

* `Controller.listens`, `Controller.takes`: the controllers that have a key, and those that keep it.

## Main results

* `ControllerGroup.handleKeyboardControllers_eq`: what a key does in any group of controllers.
* `ControllerGroup.keyPressed_default`: what a key does in the group that the engine makes.
-/

open Exec

namespace ArbutusEngine

open Controls

namespace Controls.Controller

variable {κ : Type}

/-- The controller has the key. -/
def listens (key : Int32) (c : Controller κ) : Bool :=
  c.type = .keyController ∧ key = c.control

/-- The action of the controller runs, so that it keeps the key. -/
def takes (enginePtr : Bool) (c : Controller κ) : Bool :=
  enginePtr && c.action.any fun a => a.type ≠ .changeParameter

/-- What the action of the controller does when it runs: it selects a layer, or nothing. -/
def select (h : Host) (c : Controller κ) : Prog Unit :=
  match c.action.bind Action.changeLayerAction with
  | some action => Layers.setActive h action.layer.toUInt32
  | none => pure ()

/-- An action with the data that go with its type, and with no others. -/
def Exact (a : Controls.Action) : Prop :=
  ControllerGroup.Complete a ∧ (a.type ≠ .changeLayer → a.changeLayerAction = none)

instance (a : Controls.Action) : Decidable (Exact a) :=
  inferInstanceAs (Decidable (_ ∧ _))

theorem runAction_eq (h : Host) (enginePtr : Bool) {c : Controller κ}
    (hc : ∀ a ∈ c.action, Exact a) :
    c.runAction h enginePtr = (do
      if c.takes enginePtr then c.select h
      return c.takes enginePtr) := by
  obtain ⟨type, control, value, midiStatus, action, callback⟩ := c
  cases action with
  | none => cases enginePtr <;> rfl
  | some action =>
    obtain ⟨hcomplete, hexact⟩ := hc action rfl
    obtain ⟨type, trigger, change⟩ := action
    cases type with
    | triggerVisual =>
      obtain ⟨trigger, rfl⟩ : ∃ action, trigger = some action :=
        Option.ne_none_iff_exists'.mp hcomplete
      obtain rfl : change = none := hexact nofun
      cases enginePtr <;> rfl
    | changeLayer =>
      obtain ⟨change, rfl⟩ : ∃ action, change = some action :=
        Option.ne_none_iff_exists'.mp hcomplete
      cases enginePtr <;> rfl
    | changeParameter => cases enginePtr <;> rfl

end Controls.Controller

namespace ControllerGroup

open Controls.Controller

variable {κ : Type}

/-- A key calls the callbacks of the controllers that have it, up to the first one whose action runs,
and runs this action. -/
theorem handleKeyboardControllers_eq (h : Host) (enginePtr : Bool)
    (call : κ → Controller κ → Prog Unit) (key : Int32) {controllers : List (Controller κ)}
    (hall : ∀ c ∈ controllers, ∀ a ∈ c.action, Exact a) :
    handleKeyboardControllers h enginePtr call key controllers = (do
      forEach ((controllers.filter (listens key)).takeWhile fun c => !c.takes enginePtr)
        (runCallback call)
      forEach ((controllers.filter (listens key)).find? (takes enginePtr)).toList
        (Controller.select h)) := by
  induction controllers with
  | nil => rfl
  | cons c rest ih =>
    obtain ⟨hc, hrest⟩ := List.forall_mem_cons.mp hall
    rw [handleKeyboardControllers]
    by_cases hkey : c.listens key = true
    · have hif : c.type = .keyController ∧ key = c.control := of_decide_eq_true hkey
      rw [if_pos hif, List.filter_cons_of_pos hkey, runAction_eq h enginePtr hc]
      cases htakes : c.takes enginePtr with
      | true =>
        rw [List.takeWhile_cons_of_neg (by simp [htakes]), List.find?_cons_of_pos htakes,
          forEach_nil, pure_bind, Option.toList_some, forEach_cons]
        simp only [↓reduceIte, bind_assoc, pure_bind, forEach_nil]
      | false =>
        rw [List.takeWhile_cons_of_pos (by simp [htakes]),
          List.find?_cons_of_neg (by simp [htakes]), forEach_cons, bind_assoc, ← ih hrest]
        simp only [Bool.false_eq_true, ↓reduceIte, pure_bind]
    · have hif : ¬(c.type = .keyController ∧ key = c.control) := fun h => hkey (decide_eq_true h)
      rw [if_neg hif, List.filter_cons_of_neg hkey, ih hrest]

/-! ### The group that the engine makes -/

/-- A controller of the group for a key. -/
def keyController (k : Int32 × Controls.Action) : Controller Unit :=
  (Controller.new 0 0 .keyController k.1).setAction k.2

/-- The keys of the group, each with its action. -/
def defaultKeys : List (Int32 × Controls.Action) :=
  (triggerKeys.map fun k => (k.1, .newTriggerVisualAction k.2.1 k.2.2)) ++
    layerKeys.map fun k => (k.1, .newChangeLayerAction k.2)

theorem initDefaultControllers_eq :
    initDefaultControllers (κ := Unit) 0 0 = defaultKeys.map keyController := rfl

theorem select_trigger (h : Host) (k : Int32 × Int32 × Int32) :
    (keyController (k.1, .newTriggerVisualAction k.2.1 k.2.2)).select h = pure () := rfl

theorem select_layer (h : Host) (k : Int32 × Int32) :
    (keyController (k.1, .newChangeLayerAction k.2)).select h =
      Layers.setActive h k.2.toUInt32 := rfl

/-- The keys of the two maps are different ones. -/
theorem find?_defaultKeys {key layer : Int32} (hlayer : layerKeys.lookup key = some layer) :
    defaultKeys.find? (listens key ∘ keyController) =
      some (key, .newChangeLayerAction layer) := by
  obtain ⟨before, after, hkeys, -⟩ := List.lookup_eq_some_iff.mp hlayer
  have hmem : (key, layer) ∈ layerKeys := by
    rw [hkeys]
    exact List.mem_append_right before List.mem_cons_self
  have hall : (layerKeys.all fun k => defaultKeys.find? (listens k.1 ∘ keyController) =
      some (k.1, .newChangeLayerAction k.2)) = true := by decide
  exact of_decide_eq_true (List.all_eq_true.mp hall _ hmem)

/-- A key of the second map selects a layer, and no other key does anything. -/
theorem keyPressed_default (h : Host) (key : Int32) :
    Engine.keyPressed (κ := Unit) h true (fun _ _ => pure ()) (initDefaultControllers 0 0) key =
      forEach (layerKeys.lookup key).toList fun layer => Layers.setActive h layer.toUInt32 := by
  have hexact : ∀ c ∈ initDefaultControllers (κ := Unit) 0 0, ∀ a ∈ c.action, Exact a := by decide
  have htakes : ∀ c ∈ initDefaultControllers (κ := Unit) 0 0, c.takes true = true := by decide
  -- every action of the group runs, so that the first controller that has the key takes it
  have hfirst : ∀ list : List (Controller Unit), (∀ c ∈ list, c.takes true = true) →
      (list.takeWhile fun c => !c.takes true) = [] ∧ list.find? (takes true) = list.head? := by
    rintro (_ | ⟨c, rest⟩) hlist
    · exact ⟨rfl, rfl⟩
    · have hc := hlist c List.mem_cons_self
      exact ⟨List.takeWhile_cons_of_neg (by simp [hc]), List.find?_cons_of_pos hc⟩
  obtain ⟨hbefore, hfind⟩ := hfirst _ fun c hc =>
    htakes c (List.mem_of_mem_filter (p := listens key) hc)
  rw [Engine.keyPressed, handleKeyboardControllers_eq h true _ key hexact, hbefore, hfind,
    forEach_nil, pure_bind, List.head?_filter, initDefaultControllers_eq, List.find?_map]
  cases hlayer : layerKeys.lookup key with
  | some layer =>
    rw [find?_defaultKeys hlayer, Option.map_some, Option.toList_some, Option.toList_some,
      forEach_cons, forEach_cons, select_layer h (key, layer)]
    rfl
  | none =>
    cases hfound : defaultKeys.find? (listens key ∘ keyController) with
    | none => rfl
    | some k =>
      have hselect : (keyController k).select h = pure () := by
        rcases List.mem_append.mp (List.mem_of_find?_eq_some hfound) with hk | hk
        · obtain ⟨k, -, rfl⟩ := List.mem_map.mp hk
          exact select_trigger h k
        · obtain ⟨k, hmem, rfl⟩ := List.mem_map.mp hk
          have hlistens := List.find?_some hfound
          rw [Function.comp_apply, listens, decide_eq_true_eq] at hlistens
          exact absurd (show key = k.1 from hlistens.2)
            (by simpa using List.lookup_eq_none_iff.mp hlayer k hmem)
      rw [Option.map_some, Option.toList_some, forEach_cons, hselect]
      rfl

end ControllerGroup

end ArbutusEngine
