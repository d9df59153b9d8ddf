import ArbutusEngine.Model.Actions
import Mathlib.Data.List.Nodup

/-!
# Dispatch on the hash of a string

Every `switch` on a string compares `str2int` of the string with that of the names. The hash has
`32` bits and reads the string only up to its first zero byte, so other strings than the names take
a branch: `TbtState` is as good as `setState`, and so is every name followed by a zero byte and
anything else.

`nameSwitch` is the `switch` that compares the strings themselves, and every function that
dispatches has here a twin that uses it. A function does the same as its twin, whatever its other
arguments and the state are, exactly when the string has the hash of no name that it is not: every
branch has an effect that can be seen.

## Main definitions

* `nameSwitch`, `HashesAlone`.
* `Properties.setByName` and its likes: the twins of the eight functions.
* `DispatchExact`: all of them do what their twins do, and requests with other actions are rejected.

## Main results

* `forall_switch_eq_iff`: one switch.
* `dispatch_exact_iff`: all of them.
-/

open Exec

namespace ArbutusEngine

/-! ### One switch -/

/-- The branch that a `switch` on the string itself takes, if there is one. -/
def nameSwitch {β : Type} (cases : List (String × β)) (s : List UInt8) : Option β :=
  (cases.find? fun c => s = bytes c.1).map Prod.snd

/-- The string has the hash of none of the names, unless it is the name. -/
def HashesAlone (names : List String) (s : List UInt8) : Prop :=
  ∀ name ∈ names, str2int s = str2int (bytes name) → s = bytes name

/-- The names have different hashes, as C++ requires of the cases of a `switch`. -/
def Distinct (names : List String) : Prop := (names.map fun name => str2int (bytes name)).Nodup

instance (names : List String) : Decidable (Distinct names) :=
  inferInstanceAs (Decidable (List.Nodup _))

section

variable {β : Type} {cases : List (String × β)} {s : List UInt8}

theorem hashSwitch_eq_find? (cases : List (String × β)) (s : List UInt8) :
    hashSwitch cases s = (cases.find? fun c => str2int s = str2int (bytes c.1)).map Prod.snd := by
  induction cases with
  | nil => rfl
  | cons c rest ih =>
    by_cases hc : str2int s = str2int (bytes c.1)
    · simp [hashSwitch, takenCase, hc, List.findIdx?_cons]
    · rw [List.find?_cons_of_neg (by simpa using hc), ← ih]
      simp only [hashSwitch, takenCase, List.map_cons, List.findIdx?_cons, decide_eq_true_eq, hc,
        ↓reduceIte]
      cases List.findIdx? (fun name => decide (str2int s = str2int (bytes name)))
        (rest.map Prod.fst) <;> rfl

/-- A string that has the hash of no name but itself takes the branch of its name. -/
theorem hashSwitch_eq_nameSwitch (hs : HashesAlone (cases.map Prod.fst) s) :
    hashSwitch cases s = nameSwitch cases s := by
  have hiff : ∀ c ∈ cases, (str2int s = str2int (bytes c.1) ↔ s = bytes c.1) := fun c hc =>
    ⟨hs c.1 (List.mem_map_of_mem hc), fun heq => heq ▸ rfl⟩
  rw [hashSwitch_eq_find?, nameSwitch]
  clear hs
  induction cases with
  | nil => rfl
  | cons c rest ih =>
    have hc := hiff c List.mem_cons_self
    have hrest := ih fun c hc => hiff c (List.mem_cons_of_mem _ hc)
    by_cases heq : s = bytes c.1
    · rw [List.find?_cons_of_pos (by simpa using hc.mpr heq),
        List.find?_cons_of_pos (by simpa using heq)]
    · rw [List.find?_cons_of_neg (by simpa using mt hc.mp heq),
        List.find?_cons_of_neg (by simpa using heq), hrest]

/-- A string with the hash of a name takes its branch. -/
theorem hashSwitch_of_hash_eq (hcases : Distinct (cases.map Prod.fst)) {c : String × β}
    (hc : c ∈ cases) (hhash : str2int s = str2int (bytes c.1)) :
    hashSwitch cases s = some c.2 := by
  rw [hashSwitch_eq_find?]
  induction cases with
  | nil => exact absurd hc List.not_mem_nil
  | cons d rest ih =>
    obtain ⟨hd, hrest⟩ := List.nodup_cons.mp hcases
    rcases List.mem_cons.mp hc with rfl | hc
    · rw [List.find?_cons_of_pos (by simpa using hhash)]
      rfl
    · have hne : str2int s ≠ str2int (bytes d.1) := by
        intro heq
        exact hd (List.mem_map.mpr ⟨c.1, List.mem_map_of_mem hc, hhash.symm.trans heq⟩)
      rw [List.find?_cons_of_neg (by simpa using hne)]
      exact ih hrest hc

/-- A string that only has the hash of a name takes no branch by name. -/
theorem nameSwitch_of_hash_eq (hcases : Distinct (cases.map Prod.fst)) {name : String}
    (hname : name ∈ cases.map Prod.fst) (hhash : str2int s = str2int (bytes name))
    (hne : s ≠ bytes name) : nameSwitch cases s = none := by
  have hnone : cases.find? (fun c => s = bytes c.1) = none := by
    rw [List.find?_eq_none]
    intro c hc heq
    rw [decide_eq_true_eq] at heq
    refine hne (heq.trans (congrArg bytes ?_))
    exact List.inj_on_of_nodup_map hcases (List.mem_map_of_mem hc) hname (by rw [← hhash, heq])
  rw [nameSwitch, hnone]
  rfl

/-- A function that dispatches on the hash does the same as the one that dispatches on the name,
exactly at a string that has the hash of no name but itself, if what each branch does can be told
from doing without a branch. -/
theorem forall_switch_eq_iff {ι γ : Type} (cases : List (String × β)) (s : List UInt8)
    (hcases : Distinct (cases.map Prod.fst)) (body : ι → Option β → γ)
    (hbody : ∀ c ∈ cases, ∃ x, body x (some c.2) ≠ body x none) :
    (∀ x, body x (hashSwitch cases s) = body x (nameSwitch cases s)) ↔
      HashesAlone (cases.map Prod.fst) s := by
  constructor
  · intro heq name hname hhash
    by_contra hne
    obtain ⟨c, hc, rfl⟩ := List.mem_map.mp hname
    obtain ⟨x, hx⟩ := hbody c hc
    refine hx ?_
    rw [← hashSwitch_of_hash_eq hcases hc hhash, heq x, nameSwitch_of_hash_eq hcases hname hhash hne]
  · exact fun hs x => by rw [hashSwitch_eq_nameSwitch hs]

end

/-- The hash stops at the first zero byte. -/
theorem str2int_append_zero (s rest : List UInt8) : str2int (s ++ 0 :: rest) = str2int s := by
  induction s with
  | nil => rfl
  | cons b s ih => rw [List.cons_append, str2int, str2int, ih]

/-- A name that goes on after a zero byte has the hash of the name. -/
theorem not_hashesAlone_append_zero {names : List String} {name : String} (hname : name ∈ names)
    (rest : List UInt8) : ¬ HashesAlone names (bytes name ++ 0 :: rest) := by
  intro hs
  have heq := congrArg List.length (hs name hname (str2int_append_zero _ rest))
  simp at heq

/-! ### The functions that dispatch, and their twins -/

/-- `Properties::set`, if it compared the names. -/
def Properties.setByName (property : List UInt8) (value : ℚ) (p : Properties) : Properties :=
  match nameSwitch setCases property with
  | some setter => setter p value
  | none => p

/-- `LayerProperties::set`, if it compared the names. -/
def LayerProperties.setByName (property : List UInt8) (value : ℚ) (p : LayerProperties) :
    LayerProperties :=
  let p := { p with toProperties := p.toProperties.set property value }
  match nameSwitch setCases property with
  | some setter => setter p value
  | none => p

/-- `VisualInstancesProperties::set` on a float, if it compared the names. -/
def VisualInstancesProperties.setByName (property : List UInt8) (value : ℚ)
    (p : VisualInstancesProperties) : VisualInstancesProperties :=
  let p := { p with toProperties := p.toProperties.set property value }
  match nameSwitch setCases property with
  | some setter => setter p value
  | none => p

/-- `VisualInstancesProperties::set` on an `unsigned int`, if it compared the names. -/
def VisualInstancesProperties.setUnsignedByName (property : List UInt8) (value : UInt32)
    (p : VisualInstancesProperties) : VisualInstancesProperties :=
  match nameSwitch setUnsignedCases property with
  | some setter => setter p value
  | none => p

/-- `Layer::handleAction`, if it compared the names. -/
def Layer.handleActionByName (n : ℕ) (parameter : List UInt8) (data : Json) : Prog Unit := do
  let value ← actionValue data
  match nameSwitch Layer.actionCases parameter with
  | some setter =>
    Layer.update n fun layer => { layer with properties := setter layer.properties value }
  | none => pure ()

/-- `VisualInstance::handleAction`, if it compared the names. -/
def VisualInstance.handleActionByName (a : Addr) (parameter : List UInt8) (data : Json) :
    Prog Unit := do
  let value ← actionValue data
  match nameSwitch VisualInstance.actionCases parameter with
  | some setter =>
    VisualInstance.update a fun i => { i with properties := setter i.properties value }
  | none => pure ()

/-- `Engine::handleAction`, if it compared the names. -/
def Engine.handleActionByName (h : Host) (parameter : List UInt8) (data : Json) : Prog Unit :=
  match nameSwitch actionCases parameter with
  | some .layer => handleLayerAction h (ofStringReplace parameter (bytes "Layer ") []) data
  | some .visual => handleVisualAction h (ofStringReplace parameter (bytes "Visual ") []) data
  | none => pure ()

/-- The actions of a request, by their names. -/
def Action.cases : List (String × Action) :=
  [("ping", .ping), ("getState", .getState), ("setState", .setState),
    ("getFullState", .getFullState), ("setLayerControl", .setLayerControl),
    ("updateState", .updateState)]

/-- `handleJSONRequestForClient` on a request with the given action, if it compared the names. -/
def handleByName (h : Host) (request : Json) (action : List UInt8) : Prog Json :=
  match nameSwitch Action.cases action with
  | some action => handleAction h request action
  | none => throw (.exceptionPointer "Action not supported")

/-- The dispatcher of requests is the `switch` of its table. -/
theorem Action.ofString_eq (action : String) :
    Action.ofString action = hashSwitch Action.cases (bytes action) := by
  rw [Action.ofString, Action.ofHash]
  simp only [hashSwitch, takenCase, Action.cases, List.map_cons, List.map_nil,
    List.findIdx?_cons, List.findIdx?_nil, decide_eq_true_eq]
  split_ifs <;> rfl

theorem handleJSONRequestForClient_eq_hashSwitch {h : Host} {request : Json} {action : String}
    (ha : request.field "action" = .str action) :
    handleJSONRequestForClient h request =
      (hashSwitch Action.cases (bytes action)).elim
        (Exec.throw (Thrown.exceptionPointer "Action not supported")) (handleAction h request) := by
  have hobj : request.isIndexable = true := by
    cases request <;> first | rfl | exact Json.noConfusion rfl (heq_of_eq ha)
  simp only [handleJSONRequestForClient, Json.index_of_isIndexable hobj, ha, ofExcept_ok,
    pure_bind, Json.isString, ↓reduceIte, Json.getString, Action.ofString_eq]
  cases hashSwitch Action.cases (bytes action) <;> rfl

/-- On the string, every function that dispatches does what it would do if it compared the names,
whatever its other arguments and the state of the engine, and a request with an action of any other
name is rejected and leaves the engine as it was. -/
structure DispatchExact (s : List UInt8) : Prop where
  propertiesSet : ∀ value p, Properties.set s value p = Properties.setByName s value p
  layerPropertiesSet : ∀ value p, LayerProperties.set s value p = LayerProperties.setByName s value p
  visualInstancesPropertiesSet : ∀ value p,
    VisualInstancesProperties.set p s value = VisualInstancesProperties.setByName s value p
  visualInstancesPropertiesSetUnsigned : ∀ value p, VisualInstancesProperties.setUnsigned p s value =
    VisualInstancesProperties.setUnsignedByName s value p
  layerHandleAction : ∀ n data, Layer.handleAction n s data = Layer.handleActionByName n s data
  visualInstanceHandleAction : ∀ a data,
    VisualInstance.handleAction a s data = VisualInstance.handleActionByName a s data
  engineHandleAction : ∀ h data, Engine.handleAction h s data = Engine.handleActionByName h s data
  handleJSONRequestForClient : ∀ action, bytes action = s → ∀ h request,
    request.field "action" = .str action →
      ArbutusEngine.handleJSONRequestForClient h request = handleByName h request s
  rejected : ∀ action, bytes action = s → action ∉ Action.cases.map Prod.fst → ∀ h request,
    request.field "action" = .str action → ∀ e : EngineState,
      ArbutusEngine.handleJSONRequestForClient h request e =
        .threw (.exceptionPointer "Action not supported") e

/-- A string is determined by its bytes. -/
theorem bytes_injective : Function.Injective bytes := by
  intro s t hst
  rw [← String.toByteArray_inj, ← String.utf8Encode_toList, ← String.utf8Encode_toList]
  exact congrArg List.toByteArray hst

/-! ### When the twins agree -/

/-- The functions that dispatch the names of controls. -/
inductive Switch where
  | propertiesSet
  | layerPropertiesSet
  | visualInstancesPropertiesSet
  | visualInstancesPropertiesSetUnsigned
  | layerHandleAction
  | visualInstanceHandleAction
  | engineHandleAction

/-- The names of the cases. -/
def Switch.names : Switch → List String
  | propertiesSet => (Properties.setCases (N := ℚ)).map Prod.fst
  | layerPropertiesSet => (LayerProperties.setCases (N := ℚ)).map Prod.fst
  | visualInstancesPropertiesSet => (VisualInstancesProperties.setCases (N := ℚ)).map Prod.fst
  | visualInstancesPropertiesSetUnsigned =>
    (VisualInstancesProperties.setUnsignedCases (N := ℚ)).map Prod.fst
  | layerHandleAction => (Layer.actionCases (N := ℚ)).map Prod.fst
  | visualInstanceHandleAction => (VisualInstance.actionCases (N := ℚ)).map Prod.fst
  | engineHandleAction => Engine.actionCases.map Prod.fst

section

variable {s : List UInt8}

theorem Properties.set_eq_setByName_iff :
    (∀ value p, set s value p = setByName s value p) ↔ HashesAlone Switch.propertiesSet.names s := by
  have hiff := forall_switch_eq_iff setCases s (by decide +kernel)
    (fun (x : ℚ × Properties) setter => setter.elim x.2 fun setter => setter x.2 x.1) ?_
  · rw [Switch.names, ← hiff, Prod.forall]
    refine forall₂_congr fun value p => ?_
    rw [set, setByName]
    cases hashSwitch (setCases (N := ℚ)) s <;> cases nameSwitch (setCases (N := ℚ)) s <;> rfl
  · have hbranch : ∀ c ∈ setCases (N := ℚ), c.2 new (1 / 2) ≠ new := by decide +kernel
    exact fun c hc => ⟨(1 / 2, new), hbranch c hc⟩

theorem LayerProperties.set_eq_setByName_iff :
    (∀ value p, set s value p = setByName s value p) ↔
      HashesAlone Switch.layerPropertiesSet.names s := by
  have hiff := forall_switch_eq_iff setCases s (by decide +kernel)
    (fun (x : ℚ × LayerProperties) setter =>
      let p := { x.2 with toProperties := x.2.toProperties.set s x.1 }
      setter.elim p fun setter => setter p x.1) ?_
  · rw [Switch.names, ← hiff, Prod.forall]
    refine forall₂_congr fun value p => ?_
    rw [set, setByName]
    cases hashSwitch (setCases (N := ℚ)) s <;> cases nameSwitch (setCases (N := ℚ)) s <;> rfl
  · -- the colours are set before, and leave the blurs alone
    intro c hc
    refine ⟨(5, new 640 480), fun heq => ?_⟩
    have hblur : clampBlur (floatToUnsigned (FloatNumber.round (5 : ℚ))) ≠ (0 : ℚ) := by
      decide +kernel
    simp only [setCases, List.mem_cons, List.not_mem_nil, or_false] at hc
    rcases hc with rfl | rfl
    · exact hblur (congrArg blurH heq)
    · exact hblur (congrArg blurV heq)

/-- The numbers that the setters of `VisualInstancesProperties::set` write. -/
private def VisualInstancesProperties.ownNumbersOf (p : VisualInstancesProperties) : List ℚ :=
  [p.zoomX, p.zoomY, p.centerX, p.centerY, p.percentagePlayed, p.startPercentage, p.endPercentage,
    p.effectsDrywet]

theorem VisualInstancesProperties.set_eq_setByName_iff :
    (∀ value p, set p s value = setByName s value p) ↔
      HashesAlone Switch.visualInstancesPropertiesSet.names s := by
  have hiff := forall_switch_eq_iff setCases s (by decide +kernel)
    (fun (x : ℚ × VisualInstancesProperties) setter =>
      let p := { x.2 with toProperties := x.2.toProperties.set s x.1 }
      setter.elim p fun setter => setter p x.1) ?_
  · rw [Switch.names, ← hiff, Prod.forall]
    refine forall₂_congr fun value p => ?_
    rw [set, setByName]
    cases hashSwitch (setCases (N := ℚ)) s <;> cases nameSwitch (setCases (N := ℚ)) s <;> rfl
  · -- the colours are set before, and leave the members of the class alone
    let p : VisualInstancesProperties := new (Host.plain.uninitialised 0) 640 480
    have hcolour : ∀ c ∈ setCases, ∀ q : Properties,
        ownNumbersOf (c.2 { p with toProperties := q } (1 / 4)) = ownNumbersOf (c.2 p (1 / 4)) := by
      simp only [setCases, List.forall_mem_cons, List.not_mem_nil, false_imp_iff, implies_true,
        and_true]
      exact ⟨fun _ => rfl, fun _ => rfl, fun _ => rfl, fun _ => rfl, fun _ => rfl, fun _ => rfl,
        fun _ => rfl, fun _ => rfl⟩
    have hbranch : ∀ c ∈ setCases, ownNumbersOf (c.2 p (1 / 4)) ≠ ownNumbersOf p := by
      decide +kernel
    intro c hc
    refine ⟨(1 / 4, p), fun heq => hbranch c hc ?_⟩
    rw [← hcolour c hc (p.toProperties.set s (1 / 4))]
    exact (congrArg ownNumbersOf heq).trans rfl

theorem VisualInstancesProperties.setUnsigned_eq_setUnsignedByName_iff :
    (∀ value p, setUnsigned p s value = setUnsignedByName s value p) ↔
      HashesAlone Switch.visualInstancesPropertiesSetUnsigned.names s := by
  have hiff := forall_switch_eq_iff setUnsignedCases s (by decide +kernel)
    (fun (x : UInt32 × VisualInstancesProperties) setter =>
      setter.elim x.2 fun setter => setter x.2 x.1) ?_
  · rw [Switch.names, ← hiff, Prod.forall]
    refine forall₂_congr fun value p => ?_
    rw [setUnsigned, setUnsignedByName]
    cases hashSwitch (setUnsignedCases (N := ℚ)) s <;>
      cases nameSwitch (setUnsignedCases (N := ℚ)) s <;> rfl
  · have hbranch : ∀ c ∈ setUnsignedCases (N := ℚ),
        c.2 (new (Host.plain.uninitialised 0) 640 480) 2 ≠
          new (Host.plain.uninitialised 0) 640 480 := by decide +kernel
    exact fun c hc => ⟨(2, _), hbranch c hc⟩

theorem Layer.handleAction_eq_handleActionByName_iff :
    (∀ n data, handleAction n s data = handleActionByName n s data) ↔
      HashesAlone Switch.layerHandleAction.names s := by
  have hiff := forall_switch_eq_iff actionCases s (by decide +kernel)
    (fun (x : ℕ × Json) setter => do
      let value ← actionValue x.2
      setter.elim (pure ()) fun setter =>
        update x.1 fun layer => { layer with properties := setter layer.properties value }) ?_
  · rw [Switch.names, ← hiff, Prod.forall]
    refine forall₂_congr fun n data => ?_
    rw [handleAction, handleActionByName]
    cases hashSwitch (actionCases (N := ℚ)) s <;> cases nameSwitch (actionCases (N := ℚ)) s <;> rfl
  · let p : LayerProperties := { LayerProperties.new 640 480 with alpha := 0 }
    have hbranch : ∀ c ∈ actionCases, c.2 p 3 ≠ p := by decide +kernel
    intro c hc
    refine ⟨(0, .obj [("value", .int 3)]), fun heq => hbranch c hc ?_⟩
    have hrun := congrFun heq { EngineState.init with layersList := [⟨0, p, 0, none, none, none⟩] }
    have hlayer := (List.cons.inj (congrArg EngineState.layersList (Outcome.ok.inj hrun).2)).1
    exact congrArg Layer.properties hlayer

theorem VisualInstance.handleAction_eq_handleActionByName_iff :
    (∀ a data, handleAction a s data = handleActionByName a s data) ↔
      HashesAlone Switch.visualInstanceHandleAction.names s := by
  have hiff := forall_switch_eq_iff actionCases s (by decide +kernel)
    (fun (x : Addr × Json) setter => do
      let value ← actionValue x.2
      setter.elim (pure ()) fun setter =>
        update x.1 fun i => { i with properties := setter i.properties value }) ?_
  · rw [Switch.names, ← hiff, Prod.forall]
    refine forall₂_congr fun n data => ?_
    rw [handleAction, handleActionByName]
    cases hashSwitch (actionCases (N := ℚ)) s <;> cases nameSwitch (actionCases (N := ℚ)) s <;> rfl
  · let p : VisualInstancesProperties :=
      { VisualInstancesProperties.new (Host.plain.uninitialised 0) 640 480 with
        alpha := 0
        endPercentage := 0 }
    have hbranch : ∀ c ∈ actionCases, c.2 p 3 ≠ p := by decide +kernel
    intro c hc
    refine ⟨(0, .obj [("value", .int 3)]), fun heq => hbranch c hc ?_⟩
    have hrun := congrFun heq
      { EngineState.init with instances := ⟨[some ⟨p, 0, .new, 0, 0, 0, 0⟩]⟩ }
    have hcells := congrArg (fun s => s.instances.cells) (Outcome.ok.inj hrun).2
    exact congrArg VisualInstance.properties (Option.some.inj (List.cons.inj hcells).1)

/-- Data that cannot be indexed make a branch throw. -/
theorem Engine.handleAction_eq_handleActionByName_iff :
    (∀ h data, handleAction h s data = handleActionByName h s data) ↔
      HashesAlone Switch.engineHandleAction.names s := by
  have hiff := forall_switch_eq_iff actionCases s (by decide +kernel)
    (fun (x : Host × Json) (target : Option Target) => target.elim (pure ()) fun target =>
      if target = .layer then handleLayerAction x.1 (ofStringReplace s (bytes "Layer ") []) x.2
      else handleVisualAction x.1 (ofStringReplace s (bytes "Visual ") []) x.2) ?_
  · rw [Switch.names, ← hiff, Prod.forall]
    refine forall₂_congr fun h data => ?_
    rw [handleAction, handleActionByName]
    rcases hashSwitch actionCases s with _ | ⟨_ | _⟩ <;>
      rcases nameSwitch actionCases s with _ | ⟨_ | _⟩ <;> rfl
  · rintro ⟨name, target⟩ -
    refine ⟨(.plain, .int 0), fun heq => ?_⟩
    have hrun := congrFun heq .init
    cases target <;> cases hrun

theorem handleJSONRequestForClient_eq_handleByName_iff :
    (∀ action, bytes action = s → ∀ h request, request.field "action" = .str action →
      handleJSONRequestForClient h request = handleByName h request s) ↔
        ∀ action, bytes action = s → HashesAlone (Action.cases.map Prod.fst) s := by
  refine forall₂_congr fun action haction => ?_
  have hiff := forall_switch_eq_iff Action.cases s (by decide +kernel)
    (fun (x : Host × { request : Json // request.field "action" = .str action })
        (branch : Option Action) =>
      branch.elim (Exec.throw (Thrown.exceptionPointer "Action not supported"))
        (handleAction x.1 x.2)) ?_
  · rw [← hiff, Prod.forall]
    simp only [Subtype.forall]
    refine forall₃_congr fun h request ha => ?_
    rw [handleJSONRequestForClient_eq_hashSwitch ha, haction, handleByName]
    cases nameSwitch Action.cases s <;> rfl
  · rintro ⟨name, branch⟩ -
    refine ⟨(.plain, ⟨.obj [("action", .str action)], rfl⟩), fun heq => ?_⟩
    have hrun := congrFun heq .init
    cases branch <;> cases hrun

/-- A request with another action is rejected, if the dispatcher compares the names. -/
theorem handleByName_of_not_mem {action : String} (haction : action ∉ Action.cases.map Prod.fst)
    (h : Host) (request : Json) :
    handleByName h request (bytes action) =
      Exec.throw (Thrown.exceptionPointer "Action not supported") := by
  have hnone : nameSwitch Action.cases (bytes action) = none := by
    rw [nameSwitch, Option.map_eq_none_iff, List.find?_eq_none]
    intro c hc heq
    refine haction ?_
    rw [bytes_injective (of_decide_eq_true heq)]
    exact List.mem_map_of_mem hc
  rw [handleByName, hnone]

end

/-- All functions dispatch the string exactly when it has the hash of no name but itself. -/
theorem dispatch_exact_iff (s : List UInt8) :
    DispatchExact s ↔ (∀ w : Switch, HashesAlone w.names s) ∧
      ∀ action, bytes action = s → HashesAlone (Action.cases.map Prod.fst) s := by
  constructor
  · intro hs
    refine ⟨fun w => ?_, handleJSONRequestForClient_eq_handleByName_iff.mp
      hs.handleJSONRequestForClient⟩
    cases w with
    | propertiesSet => exact Properties.set_eq_setByName_iff.mp hs.propertiesSet
    | layerPropertiesSet => exact LayerProperties.set_eq_setByName_iff.mp hs.layerPropertiesSet
    | visualInstancesPropertiesSet =>
      exact VisualInstancesProperties.set_eq_setByName_iff.mp hs.visualInstancesPropertiesSet
    | visualInstancesPropertiesSetUnsigned =>
      exact VisualInstancesProperties.setUnsigned_eq_setUnsignedByName_iff.mp
        hs.visualInstancesPropertiesSetUnsigned
    | layerHandleAction => exact Layer.handleAction_eq_handleActionByName_iff.mp hs.layerHandleAction
    | visualInstanceHandleAction =>
      exact VisualInstance.handleAction_eq_handleActionByName_iff.mp hs.visualInstanceHandleAction
    | engineHandleAction =>
      exact Engine.handleAction_eq_handleActionByName_iff.mp hs.engineHandleAction
  · rintro ⟨hnames, hrequest⟩
    have hhandle := handleJSONRequestForClient_eq_handleByName_iff.mpr hrequest
    refine ⟨Properties.set_eq_setByName_iff.mpr (hnames .propertiesSet),
      LayerProperties.set_eq_setByName_iff.mpr (hnames .layerPropertiesSet),
      VisualInstancesProperties.set_eq_setByName_iff.mpr (hnames .visualInstancesPropertiesSet),
      VisualInstancesProperties.setUnsigned_eq_setUnsignedByName_iff.mpr
        (hnames .visualInstancesPropertiesSetUnsigned),
      Layer.handleAction_eq_handleActionByName_iff.mpr (hnames .layerHandleAction),
      VisualInstance.handleAction_eq_handleActionByName_iff.mpr (hnames .visualInstanceHandleAction),
      Engine.handleAction_eq_handleActionByName_iff.mpr (hnames .engineHandleAction), hhandle, ?_⟩
    rintro action rfl haction h request ha e
    rw [hhandle action rfl h request ha, handleByName_of_not_mem haction, throw_run]

/-- The action `TbtState` has the hash of `setState`, and the request replaces the layers. -/
theorem dispatch_collision : ¬ DispatchExact (bytes "TbtState") ∧
    ∃ reply t, handleJSONRequestForClient .plain
      (.obj [("action", .str "TbtState"), ("data", .obj [("layers", .arr [.obj []])])])
      EngineState.init = .ok reply t ∧ t.layersList.length = 1 := by
  have hrun : (handleJSONRequestForClient .plain
      (.obj [("action", .str "TbtState"), ("data", .obj [("layers", .arr [.obj []])])])
      EngineState.init).returns (fun _ t => t.layersList.length == 1) = true := by
    decide +kernel
  obtain ⟨reply, t, hrun, hlength⟩ := Outcome.exists_of_returns hrun
  refine ⟨fun hexact => ?_, reply, t, hrun, beq_iff_eq.mp hlength⟩
  have hthrew := hexact.rejected "TbtState" rfl (by decide) .plain
    (.obj [("action", .str "TbtState"), ("data", .obj [("layers", .arr [.obj []])])]) rfl
    EngineState.init
  cases hrun.symm.trans hthrew

end ArbutusEngine
