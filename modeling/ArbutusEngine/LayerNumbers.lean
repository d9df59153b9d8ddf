import ArbutusEngine.LayerRemoval

/-!
# The numbers of the layers

`Layers::add` gives a new layer a number, one more than the number of layers there are, and no
function changes it. Removing a layer keeps the numbers of the others, so that a layer added later
can get a number that is already in use, or one that is smaller than those before it. Along a run of
calls the numbers identify the layers exactly as long as no layer is added whose number is not
larger than those in use.

## Main definitions

* `Layer.label`, `Layer.labelPrefix`: how the application shows a layer.
* `ListCall`, `ListCall.run`: the functions that change the list of layers.
* `EngineState.NumbersIdentify`: the numbers increase along the list, and the labels differ.
* `ListCall.NumberFree`: the call adds no layer with a number in use or with a smaller one.

## Main results

* `ListCall.numbersIdentify_iff`: one call.
* `ListCall.reaches_layersDistinct`: the layers of a list are different objects.
* `layer_numbers_identify_iff`: every run.
-/

open Exec

namespace ArbutusEngine

/-! ### Labels -/

/-- `LayerProperties::blendModeToString`. -/
def LayerProperties.blendModeToString (mode : UInt32) : String :=
  if mode = 1 then "ALPHA"
  else if mode = 2 then "ADD"
  else if mode = 4 then "MULT"
  else if mode = 3 then "SUBT"
  else if mode = 5 then "SCRN"
  else "?"

namespace Layer

/-- The first part of `Layer::label`. -/
def labelPrefix (layer : Layer) : String := "Layer " ++ toString (layer.layerNumber + 1).toNat

/-- `Layer::label`. -/
def label (layer : Layer) : String :=
  layer.labelPrefix ++ "|" ++ LayerProperties.blendModeToString layer.properties.blendMode ++
    "|" ++ toString (floatToInt (layer.properties.alpha * 100)).toInt ++ "%"

theorem labelPrefix_inj {l l' : Layer} :
    l.labelPrefix = l'.labelPrefix ↔ l.layerNumber = l'.layerNumber := by
  refine ⟨fun heq => ?_, fun heq => by rw [labelPrefix, labelPrefix, heq]⟩
  have hrepr := congrArg String.toList ((String.append_right_inj _).mp heq)
  rw [Nat.toString_eq_repr, Nat.toString_eq_repr, Nat.toList_repr, Nat.toList_repr] at hrepr
  have hnumber := congrArg (fun digits => Nat.ofDigitChars 10 digits 0) hrepr
  rw [Nat.ofDigitChars_ten_toDigits, Nat.ofDigitChars_ten_toDigits] at hnumber
  exact (UInt32.add_left_inj 1).mp (UInt32.toNat_inj.mp hnumber)

theorem toList_labelPrefix (layer : Layer) : layer.labelPrefix.toList =
    "Layer ".toList ++ Nat.toDigits 10 (layer.layerNumber + 1).toNat := by
  rw [labelPrefix, String.toList_append, Nat.toString_eq_repr, Nat.toList_repr]

/-- The first part of a label ends where the first bar is. -/
theorem takeWhile_label (layer : Layer) :
    layer.label.toList.takeWhile (· != '|') = layer.labelPrefix.toList := by
  have hprefix : ∀ c ∈ layer.labelPrefix.toList, (c != '|') = true := by
    intro c hc
    rw [toList_labelPrefix] at hc
    rcases List.mem_append.mp hc with hc | hc
    · have hword : "Layer ".toList.all (· != '|') = true := by decide +kernel
      exact List.all_eq_true.mp hword c hc
    · have hdigit := Nat.isDigit_of_mem_toDigits (by decide) (by decide) hc
      exact bne_iff_ne.mpr fun hbar => Bool.noConfusion (hbar ▸ hdigit)
  have hlabel : layer.label.toList = layer.labelPrefix.toList ++ '|' ::
      ((LayerProperties.blendModeToString layer.properties.blendMode ++ "|" ++
        toString (floatToInt (layer.properties.alpha * 100)).toInt ++ "%").toList) := by
    rw [label]
    simp
  rw [hlabel, List.takeWhile_append_of_pos hprefix, List.takeWhile_cons_of_neg (by decide),
    List.append_nil]

/-- Labels are different as soon as their first parts are. -/
theorem label_ne {l l' : Layer} (hne : l.labelPrefix ≠ l'.labelPrefix) : l.label ≠ l'.label := by
  intro heq
  refine hne (String.toList_inj.mp ?_)
  rw [← takeWhile_label, ← takeWhile_label, heq]

end Layer

/-! ### What is to hold -/

namespace EngineState

/-- The numbers increase along the list, and the labels of two layers have different prefixes. -/
structure NumbersIdentify (s : EngineState) : Prop where
  increasing : s.layersList.Pairwise fun l l' => l.layerNumber < l'.layerNumber
  labels : s.layersList.Pairwise fun l l' => l.labelPrefix ≠ l'.labelPrefix

/-- Numbers that increase are different, and so are the labels. -/
theorem numbersIdentify_iff {s : EngineState} :
    s.NumbersIdentify ↔ (s.layersList.map Layer.layerNumber).Pairwise (· < ·) := by
  rw [List.pairwise_map]
  refine ⟨NumbersIdentify.increasing, fun hs => ⟨hs, hs.imp fun hlt heq => ?_⟩⟩
  exact absurd (Layer.labelPrefix_inj.mp heq) (UInt32.ne_of_lt hlt)

/-- The layers are shown under different labels. -/
theorem NumbersIdentify.label_ne {s : EngineState} (hs : s.NumbersIdentify) :
    s.layersList.Pairwise fun l l' => l.label ≠ l'.label :=
  hs.labels.imp Layer.label_ne

end EngineState

/-! ### The calls -/

/-- The functions that change the list of layers. -/
inductive ListCall where
  | add
  | remove (layerN : UInt32)
  | empty
  | setState (state : Json)

namespace ListCall

/-- The program of a call. -/
def run (c : Host × ListCall) : Prog Unit :=
  match c with
  | (h, add) => do let _ ← Layers.add h true
  | (h, remove layerN) => Layers.remove h layerN
  | (h, empty) => Layers.empty h
  | (h, setState state) => Layers.setState h state

/-- A layer that is added by itself gets a larger number than those in the list. -/
def NumberFree (c : Host × ListCall) (s : EngineState) : Prop :=
  match c.2 with
  | add => s.layersList.length < maximumNumberOfLayers → c.1.shaderError = none →
      ∀ layer ∈ s.layersList, layer.layerNumber.toNat ≤ s.layersList.length
  | _ => True

end ListCall

/-! ### What the calls do -/

/-- The numbers of the layers. -/
def EngineState.layerNumbers (s : EngineState) : List UInt32 := s.layersList.map Layer.layerNumber

namespace Layers

theorem layerNumbers_pushLayer (h : Host) (s : EngineState) (p : LayerProperties) :
    (s.pushLayer h p).layerNumbers =
      s.layerNumbers ++ [UInt32.ofNat (s.layersList.length + 1)] := by
  rw [EngineState.layerNumbers, EngineState.pushLayer, List.map_append]
  rfl

/-- There are at most six layers, their numbers increase and are not larger than the number of
layers. -/
structure Counted (s : EngineState) : Prop where
  length_le : s.layersList.length ≤ maximumNumberOfLayers
  increasing : s.layerNumbers.Pairwise (· < ·)
  numbers_le : ∀ n ∈ s.layerNumbers, n.toNat ≤ s.layersList.length

/-- A layer that is added to a list with room gets a larger number than those in the list exactly if
these are not larger than the number of layers. -/
theorem pairwise_pushLayer_iff {s : EngineState} (hs : s.layersList.length < maximumNumberOfLayers)
    (h : Host) (p : LayerProperties) :
    (s.pushLayer h p).layerNumbers.Pairwise (· < ·) ↔
      s.layerNumbers.Pairwise (· < ·) ∧ ∀ n ∈ s.layerNumbers, n.toNat ≤ s.layersList.length := by
  have hmax : maximumNumberOfLayers = 6 := rfl
  have hnew : (UInt32.ofNat (s.layersList.length + 1)).toNat = s.layersList.length + 1 :=
    UInt32.toNat_ofNat_of_lt' (by change s.layersList.length + 1 < 2 ^ 32; omega)
  rw [layerNumbers_pushLayer, List.pairwise_append]
  simp only [List.pairwise_cons, List.not_mem_nil, false_implies, implies_true, List.Pairwise.nil,
    and_true, true_and, List.mem_singleton, forall_eq, UInt32.lt_iff_toNat_lt, hnew,
    Nat.lt_succ_iff]

theorem keeps_counted_add (h : Host) : Keeps Counted (add h true) := by
  intro s hs
  rw [add_eq]
  split_ifs with hfull
  · exact hs
  · cases h.shaderError with
    | some what => exact ⟨hs.length_le, hs.increasing, hs.numbers_le⟩
    | none =>
      have hroom : s.layersList.length < maximumNumberOfLayers := lt_of_le_of_ne hs.length_le hfull
      have hlength := EngineState.length_pushLayer h s newProperties
      have hmax : maximumNumberOfLayers = 6 := rfl
      refine ⟨by omega, (pairwise_pushLayer_iff hroom h _).mpr ⟨hs.increasing, hs.numbers_le⟩, ?_⟩
      intro n hn
      rw [layerNumbers_pushLayer, List.mem_append, List.mem_singleton] at hn
      rcases hn with hn | rfl
      · have hle := hs.numbers_le n hn
        omega
      · rw [hlength]
        exact (UInt32.toNat_ofNat_of_lt' (by
          change s.layersList.length + 1 < 2 ^ 32
          omega)).le

/-- Changing the properties of a layer leaves its number alone. -/
theorem keeps_counted_setState (n : ℕ) (state : Json) : Keeps Counted (Layer.setState n state) := by
  have hfixes : Fixes EngineState.layerNumbers (Layer.setState n state) := by
    refine .bind (.deref _ _) fun _ => .bind (.ofExcept _ _) fun p => ?_
    refine .bind (.deref _ _) fun _ => .modify fun s => ?_
    exact map_modify_of_eq (f := fun layer : Layer => { layer with properties := p })
      (g := Layer.layerNumber) (fun _ => rfl) s.layersList n
  refine hfixes.keeps fun s t hst hs => ?_
  have hlength : s.layersList.length = t.layersList.length := by
    simpa only [EngineState.layerNumbers, List.length_map] using congrArg List.length hst
  refine ⟨hlength ▸ hs.length_le, hst ▸ hs.increasing, ?_⟩
  rw [← hst, ← hlength]
  exact hs.numbers_le

/-- The layers that are added after all others have been dropped are counted from one. -/
theorem setState_counted (h : Host) (state : Json) (s : EngineState) :
    (setState h state s).Post (fun _ => Counted) fun _ => Counted := by
  have hempty : Counted (s.clearLayers h) :=
    ⟨Nat.zero_le _, .nil, fun _ hn => absurd hn List.not_mem_nil⟩
  refine Keeps.forEach (fun entry _ => ?_) (s.clearLayers h) hempty
  refine .bind (keeps_counted_add h) fun newLayer => ?_
  cases newLayer with
  | none => exact .undefined _
  | some n => exact keeps_counted_setState n entry

end Layers

namespace ListCall

/-- One call leaves numbers that identify the layers exactly if it adds no layer with a number that
is not larger than those in use. -/
theorem numbersIdentify_iff (c : Host × ListCall) {s t : EngineState}
    (hle : s.layersList.length ≤ maximumNumberOfLayers) (hs : s.NumbersIdentify)
    (ht : (run c s).final? = some t) : t.NumbersIdentify ↔ NumberFree c s := by
  rw [EngineState.numbersIdentify_iff] at hs ⊢
  match c with
  | (h, add) =>
    rw [run, bind_run, Layers.add_eq] at ht
    split_ifs at ht with hfull
    · obtain rfl := Option.some.inj ht
      exact iff_of_true hs fun hroom => absurd hfull hroom.ne
    cases hsh : h.shaderError with
    | some what =>
      rw [hsh] at ht
      obtain rfl := Option.some.inj ht
      exact iff_of_true hs fun _ hnone => absurd (hsh.symm.trans hnone) (Option.some_ne_none what)
    | none =>
      rw [hsh] at ht
      obtain rfl := Option.some.inj ht
      have hroom := lt_of_le_of_ne hle hfull
      refine (Layers.pairwise_pushLayer_iff hroom h _).trans ((and_iff_right hs).trans ?_)
      rw [EngineState.layerNumbers, List.forall_mem_map]
      exact ⟨fun hnumbers _ _ => hnumbers, fun hfree => hfree hroom hsh⟩
  | (h, remove layerN) =>
    have hlist := (Layers.remove_post_layersList h layerN s).of_final? (s := t) ht
    rw [hlist]
    exact iff_of_true (hs.sublist ((List.eraseIdx_sublist _ _).map _)) trivial
  | (h, empty) =>
    obtain rfl := Option.some.inj ht
    exact iff_of_true .nil trivial
  | (h, setState state) =>
    have hcounted := (Layers.setState_counted h state s).of_final? ht
    exact iff_of_true hcounted.increasing trivial

theorem keeps_length_le (c : Host × ListCall) :
    Keeps (fun s : EngineState => s.layersList.length ≤ maximumNumberOfLayers) (run c) := by
  match c with
  | (h, add) =>
    intro s hs
    rw [run, bind_run, Layers.add_eq]
    split_ifs with hfull
    · exact hs
    · cases h.shaderError with
      | some what => exact hs
      | none =>
        change (s.pushLayer h Layers.newProperties).layersList.length ≤ maximumNumberOfLayers
        rw [EngineState.length_pushLayer]
        omega
  | (h, remove layerN) =>
    intro s hs
    have hle := (List.length_eraseIdx_le s.layersList layerN.toNat).trans hs
    exact (Layers.remove_post_layersList h layerN s).mono (fun _ t ht => ht ▸ hle)
      fun _ t ht => ht ▸ hle
  | (h, empty) => exact fun _ _ => Nat.zero_le _
  | (h, setState state) =>
    exact fun s _ => (Layers.setState_counted h state s).mono (fun _ _ ht => ht.length_le)
      fun _ _ ht => ht.length_le

end ListCall

/-! ### The layers are different objects -/

/-- The layers have different addresses, which have been handed out. -/
structure Layers.Allocated (s : EngineState) : Prop where
  distinct : s.LayersDistinct
  lt_nextAddr : ∀ layer ∈ s.layersList, layer.addr < s.nextAddr

namespace Layers

theorem keeps_allocated_add (h : Host) : Keeps Allocated (add h true) := by
  intro s hs
  rw [add_eq]
  split_ifs with hfull
  · exact hs
  · cases h.shaderError with
    | some what => exact ⟨hs.distinct, hs.lt_nextAddr⟩
    | none =>
      constructor
      · have hnew : s.nextAddr ∉ s.layersList.map Layer.addr := by
          intro hmem
          obtain ⟨layer, hlayer, haddr⟩ := List.mem_map.mp hmem
          exact Nat.ne_of_lt (hs.lt_nextAddr layer hlayer) haddr
        have hnodup := List.Nodup.concat hnew hs.distinct
        rw [List.concat_eq_append] at hnodup
        change ((s.layersList ++ [_]).map Layer.addr).Nodup
        rw [List.map_append]
        exact hnodup
      · intro layer hlayer
        rcases List.mem_append.mp hlayer with hlayer | hlayer
        · exact Nat.lt_succ_of_lt (hs.lt_nextAddr layer hlayer)
        · rw [List.mem_singleton.mp hlayer]
          exact Nat.lt_succ_self s.nextAddr

theorem keeps_allocated_remove (h : Host) (n : UInt32) : Keeps Allocated (remove h n) := by
  intro s hs
  have hnext : Fixes EngineState.nextAddr (remove h n) := by
    refine .bind (.gets _) fun _ => .ite (.pure _) (.ite (.undefined _) ?_)
    refine .bind (.modify fun _ => rfl) fun _ => .bind (.gets _) fun _ => ?_
    exact .bind (.bind (fun _ _ hs => hs) fun _ => .pure _) fun _ =>
      .ite (fixes_setActive (fun _ _ _ => rfl) h _) (.pure _)
  have hallocated : ∀ t : EngineState, t.layersList = s.layersList.eraseIdx n.toNat ∧
      t.nextAddr = s.nextAddr → Allocated t := by
    rintro t ⟨hlist, hnext⟩
    refine ⟨?_, fun layer hlayer => ?_⟩
    · rw [EngineState.LayersDistinct, hlist]
      exact hs.distinct.sublist ((List.eraseIdx_sublist _ _).map _)
    · rw [hnext]
      exact hs.lt_nextAddr layer (List.mem_of_mem_eraseIdx (hlist ▸ hlayer))
  exact ((remove_post_layersList h n s).and (hnext _ s rfl)).mono (fun _ => hallocated)
    fun _ => hallocated

theorem keeps_allocated_setState (n : ℕ) (state : Json) :
    Keeps Allocated (Layer.setState n state) := by
  refine (Layer.keepsSkeleton_setState n state).keeps fun s t hst hs => ?_
  have haddr : s.layersList.map Layer.addr = t.layersList.map Layer.addr := congrArg Prod.snd hst
  have hnext : s.nextAddr = t.nextAddr := congrArg (fun o => o.1.nextAddr) hst
  refine ⟨?_, fun layer hlayer => ?_⟩
  · rw [EngineState.LayersDistinct, ← haddr]
    exact hs.distinct
  · have hmem := List.mem_map_of_mem (f := Layer.addr) hlayer
    rw [← haddr] at hmem
    obtain ⟨old, hold, holdaddr⟩ := List.mem_map.mp hmem
    rw [← holdaddr, ← hnext]
    exact hs.lt_nextAddr old hold

end Layers

namespace ListCall

theorem keeps_allocated (c : Host × ListCall) : Keeps Layers.Allocated (run c) := by
  match c with
  | (h, add) => exact .bind (Layers.keeps_allocated_add h) fun _ => .pure _
  | (h, remove layerN) => exact Layers.keeps_allocated_remove h layerN
  | (h, empty) => exact fun s _ => ⟨.nil, fun layer hlayer => absurd hlayer List.not_mem_nil⟩
  | (h, setState state) =>
    refine .bind (fun s _ => ⟨.nil, fun layer hlayer => absurd hlayer List.not_mem_nil⟩) fun _ => ?_
    refine .forEach fun entry _ => .bind (Layers.keeps_allocated_add h) fun newLayer => ?_
    cases newLayer with
    | none => exact .undefined _
    | some n => exact Layers.keeps_allocated_setState n entry

/-- Every list that the calls lead to has at most six layers, which are different objects. -/
theorem reaches_layersDistinct {s : EngineState}
    (hs : Reaches run (fun _ _ => True) EngineState.init s) :
    s.layersList.length ≤ maximumNumberOfLayers ∧ s.LayersDistinct := by
  have hle := hs.invariant (fun c s _ => keeps_length_le c s) (Nat.zero_le _)
  have hinit : Layers.Allocated EngineState.init :=
    ⟨.nil, fun layer hlayer => absurd hlayer List.not_mem_nil⟩
  have hallocated := hs.invariant (fun c s _ => keeps_allocated c s) hinit
  exact ⟨hle, hallocated.distinct⟩

end ListCall

/-! ### Runs -/

/-- Along a run of calls that change the list of layers, started where the numbers identify the
layers, they do so after every call exactly if no call adds a layer with a number that is not larger
than those in use. -/
theorem layer_numbers_identify_iff (cs : List (Host × ListCall)) {s : EngineState}
    (hle : s.layersList.length ≤ maximumNumberOfLayers) (hs : s.NumbersIdentify) :
    Along ListCall.run (fun _ _ t => t.NumbersIdentify) cs s ↔
      Along ListCall.run (fun c s _ => ListCall.NumberFree c s) cs s := by
  refine along_congr (I := fun s : EngineState =>
    s.layersList.length ≤ maximumNumberOfLayers ∧ s.NumbersIdentify) ?_ ?_ ⟨hle, hs⟩
  · intro c _ s t hs ht
    exact ListCall.numbersIdentify_iff c hs.1 hs.2 ht
  · intro c _ s t hs ht hnumbers
    exact ⟨(ListCall.keeps_length_le c s hs.1).of_final? ht, hnumbers⟩

/-- Two layers are added, the last one is removed, and one is added again. -/
theorem layer_numbers_identify_after_last_removed :
    Along ListCall.run (fun _ _ t => t.NumbersIdentify)
      [(.plain, .add), (.plain, .add), (.plain, .remove 1), (.plain, .add)] .init := by
  refine (layer_numbers_identify_iff _ (by decide) ⟨.nil, .nil⟩).mpr ?_
  exact ⟨_, rfl, fun _ _ => by decide, _, rfl, fun _ _ => by decide, _, rfl, trivial, _, rfl,
    fun _ _ => by decide, trivial⟩

/-- Two layers are added, the first one is removed, and one is added again: both layers then have
the number `2`. -/
theorem layer_numbers_repeat : EngineState.init.NumbersIdentify ∧
    ¬Along ListCall.run (fun _ _ t => t.NumbersIdentify)
      [(.plain, .add), (.plain, .add), (.plain, .remove 0), (.plain, .add)] .init := by
  refine ⟨⟨.nil, .nil⟩, ?_⟩
  rintro ⟨t₁, h₁, -, t₂, h₂, -, t₃, h₃, -, t₄, h₄, hnumbers, -⟩
  obtain rfl := Option.some.inj h₁
  obtain rfl := Option.some.inj h₂
  obtain rfl := Option.some.inj h₃
  obtain rfl := Option.some.inj h₄
  exact absurd (EngineState.numbersIdentify_iff.mp hnumbers) (by decide)

end ArbutusEngine
