import ArbutusEngine.LayerControls
import ArbutusEngine.Lib.Patch

/-!
# Documents as partial updates of a layer

`Layer::setState` reads thirteen keys of a document, and assigns to a property what it reads if the
value has the right JSON type. What a setter stores depends on the value only, so a document is a
patch of the properties, and `Layer::setState` updates them by it (`LayerProperties.setState_eq`).
Documents with different keys can be given in either order or as one document, and giving a document
twice is giving it once.

## Main definitions

* `LayerKey`, with the value that is stored for each key, and `LayerKey.record`.
* `LayerKey.patch`: the patch that a document is.
* `Json.IsUnion`: the document has the members of two others.

## Main results

* `LayerProperties.setState_eq`, `Layer.setState_obj`.
* `layer_setState_updates`.
-/

open Exec

namespace ArbutusEngine

open LayerControl (intOf floatOf)

/-! ### Keys and fields -/

/-- The keys that `Layer::setState` reads, in its order. -/
inductive LayerKey where
  | width
  | height
  | blendMode
  | blurH
  | blurV
  | red
  | green
  | blue
  | alpha
  | brightness
  | contrast
  | saturation
  | name
  deriving DecidableEq

namespace LayerKey

/-- All keys. -/
def all : List LayerKey :=
  [width, height, blendMode, blurH, blurV, red, green, blue, alpha, brightness, contrast,
    saturation, name]

theorem mem_all (k : LayerKey) : k ∈ all := by
  cases k <;> decide

/-- The key in a document. -/
def key : LayerKey → String
  | width => "width"
  | height => "height"
  | blendMode => "blendMode"
  | blurH => "blurH"
  | blurV => "blurV"
  | red => "red"
  | green => "green"
  | blue => "blue"
  | alpha => "alpha"
  | brightness => "brightness"
  | contrast => "contrast"
  | saturation => "saturation"
  | name => "name"

/-- The type of the property. -/
def Value (N : Type) : LayerKey → Type
  | width | height | blendMode => UInt32
  | name => String
  | _ => N

variable {N : Type}

/-- The property. -/
def get (p : LayerProperties N) : ∀ k : LayerKey, Value N k
  | width => p.width
  | height => p.height
  | blendMode => p.blendMode
  | blurH => p.blurH
  | blurV => p.blurV
  | red => p.red
  | green => p.green
  | blue => p.blue
  | alpha => p.alpha
  | brightness => p.brightness
  | contrast => p.contrast
  | saturation => p.saturation
  | name => p.name

/-- The properties with one of them replaced. -/
def put : (k : LayerKey) → Value N k → LayerProperties N → LayerProperties N
  | width, v, p => { p with width := v }
  | height, v, p => { p with height := v }
  | blendMode, v, p => { p with blendMode := v }
  | blurH, v, p => { p with blurH := v }
  | blurV, v, p => { p with blurV := v }
  | red, v, p => { p with red := v }
  | green, v, p => { p with green := v }
  | blue, v, p => { p with blue := v }
  | alpha, v, p => { p with alpha := v }
  | brightness, v, p => { p with brightness := v }
  | contrast, v, p => { p with contrast := v }
  | saturation, v, p => { p with saturation := v }
  | name, v, p => { p with name := v }

theorem get_injective : Function.Injective (get (N := N)) := by
  intro p q heq
  have hget : ∀ k, get p k = get q k := congrFun heq
  obtain ⟨⟨_, _, _, _, _, _, _, _⟩, ⟨_, _⟩, _, _, _⟩ := p
  obtain ⟨⟨_, _, _, _, _, _, _, _⟩, ⟨_, _⟩, _, _, _⟩ := q
  obtain rfl := hget width
  obtain rfl := hget height
  obtain rfl := hget blendMode
  obtain rfl := hget blurH
  obtain rfl := hget blurV
  obtain rfl := hget red
  obtain rfl := hget green
  obtain rfl := hget blue
  obtain rfl := hget alpha
  obtain rfl := hget brightness
  obtain rfl := hget contrast
  obtain rfl := hget saturation
  obtain rfl := hget name
  rfl

theorem get_put (k : LayerKey) (v : Value N k) (p : LayerProperties N) :
    get (k.put v p) = Function.update (get p) k v := by
  funext l
  by_cases hlk : l = k
  · subst hlk
    rw [Function.update_self]
    cases l <;> rfl
  · rw [Function.update_of_ne hlk]
    cases k <;> cases l <;> first | rfl | exact absurd rfl hlk

/-- The properties of a layer as a record. -/
def record : Record (Value N) (LayerProperties N) where
  fields := get
  set := put
  fields_injective := get_injective
  fields_set := get_put

/-! ### What a document says -/

/-- The JSON type under which the key is read. -/
def admits : LayerKey → Json N → Bool
  | name => Json.isString
  | _ => Json.isNumber

variable [FloatNumber N]

/-- What the setter of the blend mode stores. -/
def storedBlendMode (mode : UInt32) : UInt32 :=
  let mode := if mode.toInt32 < 0 then LayerProperties.blendAlpha else mode
  if mode > LayerProperties.blendScreen then LayerProperties.blendScreen else mode

/-- What the setter of the property stores when it is given what is read from a value: red and green
are rounded to two decimals first. -/
def stored : (k : LayerKey) → Json N → Value N k
  | width, v => SizeProperties.clampTo SizeProperties.widthLimits (intOf v).toUInt32 N
  | height, v => SizeProperties.clampTo SizeProperties.heightLimits (intOf v).toUInt32 N
  | blendMode, v => storedBlendMode (intOf v).toUInt32
  | blurH, v => (LayerProperties.clampBlur (intOf v).toUInt32 : N)
  | blurV, v => (LayerProperties.clampBlur (intOf v).toUInt32 : N)
  | red, v => (Properties.clampTo "red" (roundWithPrecision (floatOf v) 2) : N)
  | green, v => (Properties.clampTo "green" (roundWithPrecision (floatOf v) 2) : N)
  | blue, v => (Properties.clampTo "blue" (floatOf v) : N)
  | alpha, v => (Properties.clampTo "alpha" (floatOf v) : N)
  | brightness, v => (Properties.clampTo "brightness" (floatOf v) : N)
  | contrast, v => (Properties.clampTo "contrast" (floatOf v) : N)
  | saturation, v => (Properties.clampTo "saturation" (floatOf v) : N)
  | name, v => v.getString.toOption.getD ""

/-- The new value that a document has for a property. -/
def patch (state : Json N) : Patch (Value N) := fun k =>
  if k.admits (state.field k.key) then some (k.stored (state.field k.key)) else none

end LayerKey

namespace LayerProperties

variable {N : Type} [FloatNumber N] {state : Json N}

/-- One guarded assignment, given what its setter stores. -/
private theorem assignWhen_eq (hs : state.isIndexable = true) (k : LayerKey)
    {set : LayerProperties N → Json N → Except String (LayerProperties N)}
    (hset : ∀ v, k.admits v = true → ∀ p, set p v = .ok (k.put (k.stored v) p))
    (p : LayerProperties N) : assignWhen k.admits k.key set state p =
      .ok (LayerKey.record.assign (LayerKey.patch state) p k) := by
  rw [assignWhen, Json.index_of_isIndexable hs, Except.bind, Record.assign, LayerKey.patch]
  by_cases hadmits : k.admits (state.field k.key) = true
  · simp only [hadmits, ↓reduceIte]
    exact hset _ hadmits p
  · rw [if_neg hadmits, if_neg hadmits]

omit [FloatNumber N] in
private theorem of_isNumber {P : Json N → Prop} (hint : ∀ n, P (.int n))
    (hfloat : ∀ q, P (.float q)) : ∀ v : Json N, v.isNumber = true → P v
  | .int n, _ => hint n
  | .float q, _ => hfloat q

/-- Every assignment is one of the record. -/
private theorem forall₂_assignments (hs : state.isIndexable = true) :
    List.Forall₂ (fun assign k => ∀ p, assign state p =
      .ok (LayerKey.record.assign (LayerKey.patch state) p k)) assignments LayerKey.all := by
  have hnumber : ∀ {k : LayerKey}
      {set : LayerProperties N → Json N → Except String (LayerProperties N)},
      k.admits (N := N) = Json.isNumber →
      (∀ n p, set p (.int n) = .ok (k.put (k.stored (.int n)) p)) →
      (∀ q p, set p (.float q) = .ok (k.put (k.stored (.float q)) p)) →
      ∀ p, assignWhen k.admits k.key set state p =
        .ok (LayerKey.record.assign (LayerKey.patch state) p k) := by
    intro k set hk hint hfloat
    exact assignWhen_eq hs k (hk ▸ of_isNumber hint hfloat)
  refine .cons (hnumber (k := .width) rfl (fun _ _ => rfl) fun _ _ => rfl) ?_
  refine .cons (hnumber (k := .height) rfl (fun _ _ => rfl) fun _ _ => rfl) ?_
  refine .cons (hnumber (k := .blendMode) rfl (fun _ _ => rfl) fun _ _ => rfl) ?_
  refine .cons (hnumber (k := .blurH) rfl (fun _ _ => rfl) fun _ _ => rfl) ?_
  refine .cons (hnumber (k := .blurV) rfl (fun _ _ => rfl) fun _ _ => rfl) ?_
  refine .cons (hnumber (k := .red) rfl (fun _ _ => rfl) fun _ _ => rfl) ?_
  refine .cons (hnumber (k := .green) rfl (fun _ _ => rfl) fun _ _ => rfl) ?_
  refine .cons (hnumber (k := .blue) rfl (fun _ _ => rfl) fun _ _ => rfl) ?_
  refine .cons (hnumber (k := .alpha) rfl (fun _ _ => rfl) fun _ _ => rfl) ?_
  refine .cons (hnumber (k := .brightness) rfl (fun _ _ => rfl) fun _ _ => rfl) ?_
  refine .cons (hnumber (k := .contrast) rfl (fun _ _ => rfl) fun _ _ => rfl) ?_
  refine .cons (hnumber (k := .saturation) rfl (fun _ _ => rfl) fun _ _ => rfl) ?_
  refine .cons (assignWhen_eq hs .name fun v hv p => ?_) .nil
  obtain ⟨name, rfl⟩ := Json.exists_getString hv
  rfl

/-- `Layer::setState` updates the properties by the patch that the document is. -/
theorem setState_eq (hs : state.isIndexable = true) (p : LayerProperties N) :
    p.setState state = .ok (LayerKey.record.update (LayerKey.patch state) LayerKey.all p) := by
  have key : ∀ {l : List (Json N → LayerProperties N → Except String (LayerProperties N))}
      {ks : List LayerKey}, List.Forall₂ (fun assign k => ∀ p, assign state p =
        .ok (LayerKey.record.assign (LayerKey.patch state) p k)) l ks →
      ∀ p, l.foldlM (fun p assign => assign state p) p =
        (.ok (LayerKey.record.update (LayerKey.patch state) ks p) :
          Except String (LayerProperties N)) := by
    intro l ks hl
    induction hl with
    | nil => exact fun p => rfl
    | cons hassign _ ih =>
      intro p
      rw [List.foldlM_cons, hassign]
      exact ih _
  exact key (forall₂_assignments hs) p

end LayerProperties

/-! ### Documents with different keys -/

/-- The members of `c` are those of `a` and of `b`; where both have a key, the one of `a`. -/
def Json.IsUnion {N : Type} (a b c : List (String × Json N)) : Prop := ∀ key, (Json.obj c).field key =
  if key ∈ a.map Prod.fst then (Json.obj a).field key else (Json.obj b).field key

theorem Json.field_obj_of_notMem {N : Type} {key : String} {members : List (String × Json N)}
    (hkey : key ∉ members.map Prod.fst) : (Json.obj members).field key = .null := by
  change Json.member key members = .null
  induction members with
  | nil => rfl
  | cons member rest ih =>
    rw [List.map_cons, List.mem_cons, not_or] at hkey
    rw [Json.member, if_neg (Ne.symm hkey.1), ih hkey.2]

theorem Json.isUnion_append {N : Type} (a b : List (String × Json N)) : Json.IsUnion a b (a ++ b) := by
  intro key
  change Json.member key (a ++ b) =
    if key ∈ a.map Prod.fst then Json.member key a else Json.member key b
  induction a with
  | nil => exact (if_neg List.not_mem_nil).symm
  | cons member rest ih =>
    rw [List.cons_append, Json.member, Json.member, ih, List.map_cons]
    by_cases hkey : member.1 = key
    · rw [if_pos hkey, if_pos hkey, if_pos (hkey ▸ List.mem_cons_self)]
    · simp only [if_neg hkey, List.mem_cons, Ne.symm hkey, false_or]

namespace LayerKey

variable {N : Type} [FloatNumber N]

theorem patch_eq_none {state : Json N} {k : LayerKey} (hk : k.admits (state.field k.key) = false) :
    patch state k = none := if_neg (Bool.eq_false_iff.mp hk)

/-- A document does not change a property whose key it does not have. -/
theorem patch_obj_of_notMem {members : List (String × Json N)} {k : LayerKey}
    (hk : k.key ∉ members.map Prod.fst) : patch (.obj members) k = none := by
  refine patch_eq_none ?_
  rw [Json.field_obj_of_notMem hk]
  cases k <;> rfl

variable {a b c : List (String × Json N)}

theorem disjoint_patch (hdisjoint : (a.map Prod.fst).Disjoint (b.map Prod.fst)) :
    (patch (.obj a)).Disjoint (patch (.obj b)) := by
  intro k
  by_cases hk : k.key ∈ a.map Prod.fst
  · exact .inr (patch_obj_of_notMem fun hk' => hdisjoint hk hk')
  · exact .inl (patch_obj_of_notMem hk)

/-- A document with the members of two others says what they say. -/
theorem patch_of_isUnion (hdisjoint : (a.map Prod.fst).Disjoint (b.map Prod.fst))
    (hc : Json.IsUnion a b c) : patch (.obj c) = (patch (.obj a)).orElse (patch (.obj b)) := by
  funext k
  by_cases hk : k.key ∈ a.map Prod.fst
  · have hb : patch (.obj b) k = none := patch_obj_of_notMem fun hk' => hdisjoint hk hk'
    rw [Patch.orElse, hb, Option.or_none, patch, patch, hc, if_pos hk]
  · have ha : patch (.obj a) k = none := patch_obj_of_notMem hk
    rw [Patch.orElse, ha, Option.none_or, patch, patch, hc, if_neg hk]

end LayerKey

/-! ### The layer -/

section

variable {N : Type}

theorem EngineState.mapProperties_mapProperties (n : ℕ)
    (f g : LayerProperties N → LayerProperties N) (s : EngineState N) :
    (s.mapProperties n f).mapProperties n g = s.mapProperties n (g ∘ f) :=
  congrArg (fun l => { s with layersList := l }) (List.modify_modify_eq _ _ n s.layersList)

namespace Layer

variable [FloatNumber N] {n : ℕ} {s : EngineState N} {layer : Layer N}

/-- The update of the properties by an object. -/
def updateBy (members : List (String × Json N)) : LayerProperties N → LayerProperties N :=
  LayerKey.record.update (LayerKey.patch (.obj members)) LayerKey.all

theorem setState_obj (hlayer : s.layersList[n]? = some layer) (members : List (String × Json N)) :
    setState n (.obj members) s = .ok () (s.mapProperties n (updateBy members)) := by
  rw [setState_of_eq_ok hlayer (LayerProperties.setState_eq rfl layer.properties)]
  exact congrArg (Outcome.ok ()) (EngineState.mapProperties_congr hlayer rfl)

/-- Two documents, one after the other. -/
theorem setState_setState_obj (hlayer : s.layersList[n]? = some layer)
    (a b : List (String × Json N)) :
    (do setState n (.obj a); setState n (.obj b) : ProgOver N Unit) s =
      .ok () (s.mapProperties n (updateBy b ∘ updateBy a)) := by
  rw [bind_run, setState_obj hlayer, Outcome.bind_ok,
    setState_obj (s.getElem?_mapProperties hlayer _), EngineState.mapProperties_mapProperties]

end Layer

end

/-- `Layer::setState` is a partial update: documents with different keys can be given in either
order or as one, giving a document twice is giving it once, and a property keeps its value when its
key is absent or holds a value of another type. -/
theorem layer_setState_updates {n : ℕ} {s : EngineState} {layer : Layer}
    (hlayer : s.layersList[n]? = some layer) {a b c : List (String × Json)}
    (hdisjoint : (a.map Prod.fst).Disjoint (b.map Prod.fst)) (hc : Json.IsUnion a b c) :
    (do Layer.setState n (.obj a); Layer.setState n (.obj b) : Prog Unit) s =
        Layer.setState n (.obj c) s ∧
      (do Layer.setState n (.obj b); Layer.setState n (.obj a) : Prog Unit) s =
        Layer.setState n (.obj c) s ∧
      (do Layer.setState n (.obj a); Layer.setState n (.obj a) : Prog Unit) s =
        Layer.setState n (.obj a) s ∧
      ∀ members, ∃ t layer', Layer.setState n (.obj members) s = .ok () t ∧
        t.layersList[n]? = some layer' ∧
        ∀ k : LayerKey, k.admits ((Json.obj members).field k.key) = false →
          LayerKey.get layer'.properties k = LayerKey.get layer.properties k := by
  have hpatch := LayerKey.patch_of_isUnion hdisjoint hc
  have hcomm := LayerKey.disjoint_patch hdisjoint
  have hfirst : Layer.updateBy a ∘ Layer.updateBy b = Layer.updateBy c := funext fun p => by
    rw [Function.comp_apply, Layer.updateBy, Layer.updateBy, Layer.updateBy, hpatch]
    exact LayerKey.record.update_update LayerKey.mem_all _ _ p
  have hsecond : Layer.updateBy b ∘ Layer.updateBy a = Layer.updateBy c := funext fun p =>
    (LayerKey.record.update_comm LayerKey.mem_all hcomm p).trans (congrFun hfirst p)
  have htwice : Layer.updateBy a ∘ Layer.updateBy a = Layer.updateBy a :=
    funext fun p => LayerKey.record.update_self LayerKey.mem_all _ p
  refine ⟨?_, ?_, ?_, fun members => ?_⟩
  · rw [Layer.setState_setState_obj hlayer, hsecond, Layer.setState_obj hlayer]
  · rw [Layer.setState_setState_obj hlayer, hfirst, Layer.setState_obj hlayer]
  · rw [Layer.setState_setState_obj hlayer, htwice, Layer.setState_obj hlayer]
  · refine ⟨_, _, Layer.setState_obj hlayer members, s.getElem?_mapProperties hlayer _,
      fun k hk => ?_⟩
    have hfields := congrFun (LayerKey.record.fields_update LayerKey.mem_all
      (LayerKey.patch (.obj members)) layer.properties) k
    rw [Patch.apply, LayerKey.patch_eq_none hk, Option.getD_none] at hfields
    exact hfields

/-- An alpha, and a red and a name. -/
theorem layer_setState_updates_alpha :
    (do Layer.setState 0 (.obj [("alpha", .float (1 / 2))])
        Layer.setState 0 (.obj [("red", .float (1 / 3)), ("name", .str "Sky")]) : Prog Unit)
      (EngineState.init.pushLayer .plain Layers.newProperties) =
    (do Layer.setState 0 (.obj [("red", .float (1 / 3)), ("name", .str "Sky")])
        Layer.setState 0 (.obj [("alpha", .float (1 / 2))]) : Prog Unit)
      (EngineState.init.pushLayer .plain Layers.newProperties) := by
  obtain ⟨hfirst, hsecond, -⟩ := layer_setState_updates
    (s := EngineState.init.pushLayer .plain Layers.newProperties) (n := 0)
    (a := [("alpha", .float (1 / 2))]) (b := [("red", .float (1 / 3)), ("name", .str "Sky")]) rfl
    (by simp) (Json.isUnion_append _ _)
  exact hfirst.trans hsecond.symm

end ArbutusEngine
